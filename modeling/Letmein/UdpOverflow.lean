import Letmein.UdpDelivery
import Letmein.UdpIsolation

/-!
# What a queue overflow costs

The removal of a connection on queue overflow leaves a full queue in the counter, for good: no call ever takes it out
again. So the counter is the number of queued datagrams and a full queue for each overflow (`Drift`), and that
decides how the dispatcher ends. It panics with the first connection that leaves it empty, or when the datagrams that
are counted but not queued have used up its bound, and for no other reason.
-/

namespace Letmein
namespace UdpDispatcherRx

variable {msgSize qSize n : Nat} {s s' : UdpDispatcherRx msgSize qSize} {call : UdpCall msgSize}
  {socket : SockRecv msgSize} {peer : SocketAddr}

instance (s : UdpDispatcherRx msgSize qSize) : (socket : SockRecv msgSize) → Decidable (s.SockOverflows socket)
  | .datagram _ _ _ => inferInstanceAs (Decidable (_ ∧ _))
  | .wouldBlock => .isFalse id
  | .error _ => .isFalse id

instance (s : UdpDispatcherRx msgSize qSize) : (call : UdpCall msgSize) → Decidable (s.Overflows call)
  | .tryAccept socket _ => inferInstanceAs (Decidable (s.SockOverflows socket))
  | .tryRecvFrom socket _ => inferInstanceAs (Decidable (s.SockOverflows socket))
  | .disconnect _ => .isFalse id

/-- The calls of a run that overflow a queue. -/
def overflows (s : UdpDispatcherRx msgSize qSize) (calls : List (UdpCall msgSize)) : Nat :=
  countSteps exec Overflows s calls

/-- The state after `n` overflows. -/
structure Drift (maxNrConn n : Nat) (s : UdpDispatcherRx msgSize qSize) : Prop where
  wf : s.Wf
  limit : s.maxNrConn = maxNrConn
  counter : s.nrQueuedDgrams = s.queued + n * qSize
  bound : s.nrQueuedDgrams ≤ maxNrConn * qSize

namespace Drift
variable {maxNrConn : Nat}

theorem new (maxNrConn : Nat) : (UdpDispatcherRx.new maxNrConn : UdpDispatcherRx msgSize qSize).Drift maxNrConn 0 where
  wf := .new maxNrConn
  limit := rfl
  counter := by rw [Nat.zero_mul]; rfl
  bound := Nat.zero_le _

theorem put (h : s.Drift maxNrConn n) {k : SocketAddr} {c c' : UdpConn msgSize} {nr : Nat}
    (hk : s.conn.lookup k = some c) (hlen : c'.rxQueue.length ≤ c.rxQueue.length) (hpeer : c'.peerAddr = c.peerAddr)
    (hnr : s.nrQueuedDgrams + c'.rxQueue.length = nr + c.rxQueue.length) : (s.put k c' nr).Drift maxNrConn n where
  wf := h.wf.put hk hlen hpeer hnr
  limit := h.limit
  counter := by
    have hput := queued_put hk c' nr
    have hcounter := h.counter
    show nr = _
    omega
  bound := by
    have hbound := h.bound
    show nr ≤ _
    omega

theorem forget (h : s.Drift maxNrConn n) (peer : SocketAddr) : (s.forget peer).Drift maxNrConn n where
  wf := h.wf.forget peer
  limit := h.limit
  counter := by
    have hqueued := queued_eq_entry_add s peer
    have hcounter := h.counter
    show s.nrQueuedDgrams - (s.entry peer).rxQueue.length = (s.drop peer).queued + n * qSize
    omega
  bound := Nat.le_trans (Nat.sub_le _ _) h.bound

/-- Only an overflow adds to the drift, and it adds a full queue. -/
theorem received (hq : 0 < qSize) (h : s.Drift maxNrConn n) {r : UdpRet msgSize qSize (Except String Unit)}
    (hr : Received s socket r) : r.rx.Drift maxNrConn (n + if s.SockOverflows socket then 1 else 0) := by
  have hwf := hr.wf h.wf
  cases hr with
  | idle => exact h
  | sockError => exact h
  | badSize hn => rwa [if_neg fun ho => hn ho.1]
  | @tooMany peer buf hnew =>
    have hno : ¬ s.SockOverflows (.datagram msgSize peer buf) := by
      rintro ⟨-, hfull⟩
      rw [entry_of_notMem hnew] at hfull
      exact absurd hfull (Nat.ne_of_lt hq)
    rwa [if_neg hno]
  | @overflow peer buf hfull =>
    rw [if_pos ⟨rfl, hfull⟩]
    refine ⟨hwf, h.limit, ?_, h.bound⟩
    have hqueued := queued_eq_entry_add s peer
    have hcounter := h.counter
    show s.nrQueuedDgrams = (s.drop peer).queued + (n + 1) * qSize
    rw [Nat.add_mul]
    omega
  | @queued peer buf hlt hroom hnr =>
    rw [if_neg fun ho => absurd ho.2 (Nat.ne_of_lt hlt)]
    refine ⟨hwf, h.limit, ?_, h.limit ▸ hnr⟩
    have hpush := queued_push s peer buf
    have hcounter := h.counter
    show s.nrQueuedDgrams + 1 = (s.push peer buf).queued + n * qSize
    omega

theorem step (hq : 0 < qSize) (h : s.Drift maxNrConn n) (he : s.exec call = .ok s') :
    s'.Drift maxNrConn (n + if s.Overflows call then 1 else 0) := by
  cases call with
  | tryAccept socket it =>
    obtain ⟨r, hr, rfl⟩ := Except.of_map_ok he
    obtain ⟨r₀, h₀, ⟨-, hrx⟩ | ⟨k, c, -, hk, -, -, hrx⟩⟩ := tryAccept_ok hr
    · rw [hrx]
      exact h.received hq h₀
    · rw [hrx]
      exact (h.received hq h₀).put hk (Nat.le_refl _) rfl rfl
  | tryRecvFrom socket peer =>
    obtain ⟨r, hr, rfl⟩ := Except.of_map_ok he
    obtain ⟨r₀, h₀, ⟨hrx, -⟩ | ⟨c, buf, rest, hk, hc, hnr, -, hrx⟩⟩ := tryRecvFrom_ok hr
    · rw [hrx]
      exact h.received hq h₀
    · rw [hrx]
      refine (h.received hq h₀).put hk ?_ rfl ?_ <;> simp only [hc, List.length_cons] <;> omega
  | disconnect peer =>
    rw [disconnect_ok he]
    exact h.forget peer

theorem run (hq : 0 < qSize) {calls : List (UdpCall msgSize)} (h : s.Drift maxNrConn n)
    (hrun : runAll exec s calls = .ok s') : s'.Drift maxNrConn (n + s.overflows calls) :=
  runAll_count (fun _ _ _ _ h he => h.step hq he) h hrun

theorem le (hq : 0 < qSize) (h : s.Drift maxNrConn n) : n ≤ maxNrConn := by
  have hle : n * qSize ≤ maxNrConn * qSize := by
    have hcounter := h.counter
    have hbound := h.bound
    omega
  exact Nat.le_of_mul_le_mul_right hle hq

end Drift

/-! ### The end of the dispatcher -/

def SockQueues (s : UdpDispatcherRx msgSize qSize) : SockRecv msgSize → Prop
  | .datagram n peer _ =>
    n = msgSize ∧ (s.entry peer).rxQueue.length < qSize ∧ (peer ∈ s.conn ∨ s.conn.size < s.maxNrConn)
  | _ => False

/-- The call receives a datagram for which there is room in a queue. -/
def Queues (s : UdpDispatcherRx msgSize qSize) : UdpCall msgSize → Prop
  | .tryAccept socket _ => s.SockQueues socket
  | .tryRecvFrom socket _ => s.SockQueues socket
  | .disconnect _ => False

/-- The call leaves no connection. -/
def Empties (s : UdpDispatcherRx msgSize qSize) : UdpCall msgSize → Prop
  | .disconnect peer => ∀ k ∈ s.conn, k = peer
  | _ => False

theorem size_forget_eq_zero_iff : (s.forget peer).conn.size = 0 ↔ ∀ k ∈ s.conn, k = peer := by
  rw [Finmap.size_eq_zero]
  constructor
  · intro hempty k hk
    by_contra hne
    have hmem : k ∈ (s.forget peer).conn := Finmap.mem_erase.2 ⟨hne, hk⟩
    rw [hempty] at hmem
    exact Finmap.notMem_empty hmem
  · intro hall
    refine Finmap.ext_lookup fun k => ?_
    rw [Finmap.lookup_empty, Finmap.lookup_eq_none]
    intro hmem
    obtain ⟨hne, hk⟩ := Finmap.mem_erase.1 hmem
    exact hne (hall k hk)

section
variable {maxNrConn : Nat} {p : Panic}

theorem Drift.tryRecv_error_iff (h : s.Drift maxNrConn n) (husize : maxNrConn * qSize + 1 < 2 ^ 64) :
    s.tryRecv socket = .error p ↔
      p = .totalLen ∧ s.SockQueues socket ∧ s.nrQueuedDgrams = maxNrConn * qSize := by
  have hbound := h.bound
  have hlimit := h.limit
  constructor
  · intro he
    obtain ⟨peer, buf, rfl, hlt, hroom, ⟨-, hbig⟩ | ⟨rfl, hbig⟩⟩ := tryRecv_panic h.wf.size_le h.wf.entry_le he
    · rw [hlimit] at hbig
      omega
    · rw [hlimit] at hbig
      exact ⟨rfl, ⟨rfl, hlt, (size_push_le_iff h.wf peer buf).1 hroom⟩, by omega⟩
  · rintro ⟨rfl, hqueues, hnr⟩
    cases socket with
    | wouldBlock => exact hqueues.elim
    | error e => exact hqueues.elim
    | datagram n peer buf =>
      obtain ⟨rfl, hlt, hroom⟩ := hqueues
      cases hr : s.tryRecv (.datagram n peer buf) with
      | error p =>
        obtain ⟨_, _, -, -, -, ⟨-, hbig⟩ | ⟨rfl, -⟩⟩ := tryRecv_panic h.wf.size_le h.wf.entry_le hr
        · rw [hlimit] at hbig
          omega
        · rfl
      | ok r =>
        exfalso
        cases tryRecv_ok hr with
        | badSize hn => exact hn rfl
        | overflow hfull => omega
        | tooMany hnew hfull => exact hroom.elim hnew fun hl => absurd hfull (Nat.ne_of_lt hl)
        | queued _ _ hle => rw [hlimit] at hle; omega

/-- Without an overflow there is always room in the counter where there is room in a queue. -/
theorem Drift.pos_of_queues (h : s.Drift maxNrConn n) (hqueues : s.SockQueues socket)
    (hnr : s.nrQueuedDgrams = maxNrConn * qSize) : 0 < n := by
  cases socket with
  | wouldBlock => exact hqueues.elim
  | error e => exact hqueues.elim
  | datagram m peer buf =>
    obtain ⟨rfl, hlt, hroom⟩ := hqueues
    have hsize := (size_push_le_iff h.wf peer buf).2 hroom
    have hpush := h.wf.push hlt hsize
    have hle := Finmap.sumBy_le_size_mul (f := fun c : UdpConn m => c.rxQueue.length) hpush.queue_le
    have hmul : (s.push peer buf).conn.size * qSize ≤ maxNrConn * qSize := Nat.mul_le_mul_right _ (h.limit ▸ hsize)
    have hqueued := queued_push s peer buf
    have hcounter := h.counter
    rw [queued] at hqueued
    by_contra hzero
    obtain rfl : n = 0 := by omega
    omega

theorem Drift.disconnect_error_iff (hq : 0 < qSize) (h : s.Drift maxNrConn n) :
    s.disconnect peer = .error p ↔ p = .notDrained ∧ 0 < n ∧ ∀ k ∈ s.conn, k = peer := by
  have hforget := h.forget peer
  have hle : (s.entry peer).rxQueue.length ≤ s.nrQueuedDgrams := by
    have hqueued := queued_eq_entry_add s peer
    have hcounter := h.counter
    omega
  rw [disconnect_eq, if_pos hle, ← size_forget_eq_zero_iff]
  by_cases hsize : (s.forget peer).conn.size = 0
  swap
  · simp [hsize]
  have hempty : (s.forget peer).queued = 0 := by
    rw [queued, Finmap.size_eq_zero.1 hsize]
    rfl
  rcases Nat.eq_zero_or_pos n with rfl | hn
  · simp [hforget.counter, hempty]
  · have hpos : 0 < n * qSize := Nat.mul_pos hn hq
    have hne : (s.forget peer).nrQueuedDgrams ≠ 0 := by
      have hcounter := hforget.counter
      omega
    rw [if_pos ⟨hsize, hne⟩]
    constructor
    · intro he
      cases he
      exact ⟨rfl, hn, hsize⟩
    · rintro ⟨rfl, -⟩
      rfl

/-- The two ways in which a call panics. Both need an overflow before. -/
theorem Drift.exec_error_iff (hq : 0 < qSize) (h : s.Drift maxNrConn n) (husize : maxNrConn * qSize + 1 < 2 ^ 64) :
    s.exec call = .error p ↔ 0 < n ∧
      (p = .totalLen ∧ s.Queues call ∧ s.nrQueuedDgrams = maxNrConn * qSize ∨ p = .notDrained ∧ s.Empties call) := by
  have hrecv : ∀ socket, s.tryRecv socket = .error p ↔
      0 < n ∧ p = .totalLen ∧ s.SockQueues socket ∧ s.nrQueuedDgrams = maxNrConn * qSize := by
    intro socket
    rw [h.tryRecv_error_iff husize]
    exact ⟨fun hp => ⟨h.pos_of_queues hp.2.1 hp.2.2, hp⟩, fun hp => hp.2⟩
  cases call with
  | tryAccept socket it =>
    simp only [Queues, Empties, and_false, or_false, ← hrecv]
    constructor
    · intro he
      rcases Except.bind_error (Except.of_map_error he) with he | ⟨r₀, -, he⟩
      · exact he
      · split at he
        · cases he
        · split at he <;> cases he
    · intro he
      simp only [exec, tryAccept, he]
      rfl
  | tryRecvFrom socket peer =>
    simp only [Queues, Empties, and_false, or_false, ← hrecv]
    constructor
    · intro he
      rcases Except.bind_error (Except.of_map_error he) with he | ⟨r₀, h₀, he⟩
      · exact he
      · split at he
        · cases he
        · split at he
          · rename_i buf rest addr acc hk
            have hwf := (tryRecv_ok h₀).wf h.wf
            have hcount := hwf.queued_le
            rw [queued_eq_entry_add _ peer, entry_of_lookup hk, List.length_cons] at hcount
            rw [checkedSub, if_pos (by omega)] at he
            cases he
          · cases he
    · intro he
      simp only [exec, tryRecvFrom, he]
      rfl
  | disconnect peer =>
    simp only [exec, Queues, Empties, false_and, and_false, false_or]
    rw [h.disconnect_error_iff hq]
    exact and_left_comm

/-- After an overflow, the dispatcher does not live to see all connections closed. -/
theorem Drift.closeAll (hq : 0 < qSize) (h : s.Drift maxNrConn n) (hn : 0 < n) {peers : List SocketAddr}
    (hne : peers ≠ []) (hall : ∀ k ∈ s.conn, k ∈ peers) :
    runAll exec s (peers.map .disconnect) = .error .notDrained := by
  induction peers generalizing s with
  | nil => exact absurd rfl hne
  | cons peer peers ih =>
    show (s.disconnect peer >>= fun s' => runAll exec s' (peers.map .disconnect)) = _
    cases hd : s.disconnect peer with
    | error p =>
      obtain ⟨rfl, -⟩ := (h.disconnect_error_iff hq).1 hd
      rfl
    | ok s' =>
      obtain rfl := disconnect_ok hd
      refine ih (h.forget peer) ?_ ?_
      · rintro rfl
        have hlast : s.disconnect peer = .error .notDrained :=
          (h.disconnect_error_iff hq).2 ⟨rfl, hn, fun k hk => List.mem_singleton.1 (hall k hk)⟩
        rw [hd] at hlast
        cases hlast
      · intro k hk
        obtain ⟨hne, hk⟩ := Finmap.mem_erase.1 hk
        exact (List.mem_cons.1 (hall k hk)).resolve_left hne

end

/-! ### A flood -/

/-- Datagrams of one peer, as the accept loop receives them. -/
def flood (peer : SocketAddr) (dgrams : List (Datagram msgSize × IterOrder SocketAddr)) : List (UdpCall msgSize) :=
  dgrams.map fun d => .tryAccept (.datagram msgSize peer d.1) d.2

/-- The accept loop files what there is room for, and takes nothing out of a queue. -/
theorem exec_flood {buf : Datagram msgSize} {it : IterOrder SocketAddr}
    (hroom : peer ∈ s.conn ∨ s.conn.size < s.maxNrConn) (hlt : (s.entry peer).rxQueue.length < qSize)
    (he : s.exec (.tryAccept (.datagram msgSize peer buf) it) = .ok s') :
    peer ∈ s'.conn ∧ (s'.entry peer).rxQueue.length = (s.entry peer).rxQueue.length + 1 := by
  have hpush : (s.push peer buf).entry peer =
      { s.entry peer with rxQueue := (s.entry peer).rxQueue ++ [buf] } := entry_push_self s peer buf
  have hmem : peer ∈ (s.push peer buf).conn := Finmap.mem_insert.2 (.inl rfl)
  obtain ⟨r, hr, rfl⟩ := Except.of_map_ok he
  obtain ⟨r₀, h₀, hacc⟩ := tryAccept_ok hr
  have hrx : r₀.rx = s.push peer buf := by
    cases h₀ with
    | badSize hn => exact absurd rfl hn
    | overflow hfull => exact absurd hfull (Nat.ne_of_lt hlt)
    | tooMany hnew hfull => exact (hroom.elim hnew fun hl => absurd hfull (Nat.ne_of_lt hl)).elim
    | queued => rfl
  rw [hrx] at hacc
  rcases hacc with ⟨-, hs⟩ | ⟨k, c, -, hk, -, -, hs⟩
  · rw [hs, hpush]
    exact ⟨hmem, by simp⟩
  · rw [hs]
    refine ⟨mem_put.2 (.inr hmem), ?_⟩
    by_cases hpeer : peer = k
    · subst hpeer
      rw [← entry_of_lookup hk, entry_put_self, hpush]
      simp
    · rw [entry_put_of_ne hpeer, hpush]
      simp

theorem flood_overflows {dgrams : List (Datagram msgSize × IterOrder SocketAddr)} (h : s.Wf)
    (hroom : peer ∈ s.conn ∨ s.conn.size < s.maxNrConn)
    (hlen : qSize < (s.entry peer).rxQueue.length + dgrams.length) (hrun : runAll exec s (flood peer dgrams) = .ok s') :
    0 < s.overflows (flood peer dgrams) := by
  induction dgrams generalizing s with
  | nil =>
    have hle := h.entry_le peer
    rw [List.length_nil] at hlen
    omega
  | cons d dgrams ih =>
    obtain ⟨s₁, h₁, hrun⟩ := Except.bind_ok hrun
    rw [overflows, flood, List.map_cons, countSteps_cons_ok h₁]
    split
    · omega
    · rename_i hno
      have hle := h.entry_le peer
      have hlt : (s.entry peer).rxQueue.length < qSize := Nat.lt_of_le_of_ne hle fun hfull => hno ⟨rfl, hfull⟩
      obtain ⟨hmem, hlen₁⟩ := exec_flood hroom hlt h₁
      have hpos := ih (exec_wf h h₁) (.inl hmem) (by rw [hlen₁]; rw [List.length_cons] at hlen; omega) hrun
      rw [overflows, flood] at hpos
      omega

theorem mem_of_exec {n : Nat} {buf : Datagram msgSize} {it : IterOrder SocketAddr} {k : SocketAddr}
    (he : s.exec (.tryAccept (.datagram n peer buf) it) = .ok s') (hk : k ∈ s'.conn) : k = peer ∨ k ∈ s.conn := by
  obtain ⟨r, hr, rfl⟩ := Except.of_map_ok he
  obtain ⟨r₀, h₀, hacc⟩ := tryAccept_ok hr
  have hrecv : ∀ j ∈ r₀.rx.conn, j = peer ∨ j ∈ s.conn := by
    intro j hj
    cases h₀ with
    | badSize => exact .inr hj
    | overflow => exact .inr (Finmap.mem_erase.1 hj).2
    | tooMany => exact .inr hj
    | queued => exact Finmap.mem_insert.1 hj
  rcases hacc with ⟨-, hrx⟩ | ⟨j, c, -, hj, -, -, hrx⟩
  · rw [hrx] at hk
    exact hrecv k hk
  · rw [hrx] at hk
    rcases mem_put.1 hk with rfl | hk
    · exact hrecv k (Finmap.mem_of_lookup_eq_some hj)
    · exact hrecv k hk

theorem mem_of_flood {dgrams : List (Datagram msgSize × IterOrder SocketAddr)}
    (hrun : runAll exec s (flood peer dgrams) = .ok s') : ∀ k ∈ s'.conn, k = peer ∨ k ∈ s.conn := by
  refine runAll_inv_mem (P := fun s' => ∀ k ∈ s'.conn, k = peer ∨ k ∈ s.conn) ?_ (fun _ hk => .inr hk) hrun
  intro s₁ call s₂ hcall hs₁ he k hk
  obtain ⟨d, -, rfl⟩ := List.mem_map.1 hcall
  rcases mem_of_exec he hk with rfl | hk
  · exact .inl rfl
  · exact hs₁ k hk

/-- For every run: the counter is too high by a full queue for each overflow, of which there are at most as many as
connections. A call panics only after an overflow, with a datagram that there is room for once the counter is
at its bound, or with a disconnect that leaves no connection; so the dispatcher does not survive the closing of all
connections. And from every state, whoever has a connection or can get one can end it so with `qSize + 1` datagrams
that the accept loop receives. -/
theorem overflow_fatal (hq : 0 < qSize) {maxNrConn : Nat} (husize : maxNrConn * qSize + 1 < 2 ^ 64)
    (calls : List (UdpCall msgSize)) (hrun : runAll exec (new maxNrConn) calls = .ok s) :
    let lost := (new maxNrConn : UdpDispatcherRx msgSize qSize).overflows calls
    s.nrQueuedDgrams = s.queued + lost * qSize ∧ lost ≤ maxNrConn ∧
    (∀ call p, s.exec call = .error p ↔ 0 < lost ∧
      (p = .totalLen ∧ s.Queues call ∧ s.nrQueuedDgrams = maxNrConn * qSize ∨ p = .notDrained ∧ s.Empties call)) ∧
    (0 < lost → ∀ peers : List SocketAddr, peers ≠ [] → (∀ k ∈ s.conn, k ∈ peers) →
      runAll exec s (peers.map .disconnect) = .error .notDrained) ∧
    ∀ (peer : SocketAddr) (dgrams : List (Datagram msgSize × IterOrder SocketAddr)) (peers : List SocketAddr),
      peer ∈ s.conn ∨ s.conn.size < maxNrConn → dgrams.length = qSize + 1 → peer ∈ peers →
      (∀ k ∈ s.conn, k ∈ peers) → ∃ p, runAll exec s (flood peer dgrams ++ peers.map .disconnect) = .error p := by
  intro lost
  have h : s.Drift maxNrConn lost := by
    have hdrift := (Drift.new maxNrConn).run hq hrun
    rwa [Nat.zero_add] at hdrift
  refine ⟨h.counter, h.le hq, fun call p => h.exec_error_iff hq husize, ?_, ?_⟩
  · intro hlost peers hne hall
    exact h.closeAll hq hlost hne hall
  · intro peer dgrams peers hroom hlen hpeer hall
    rw [runAll_append]
    cases hflood : runAll exec s (flood peer dgrams) with
    | error p => exact ⟨p, rfl⟩
    | ok s' =>
      have hpos : 0 < s.overflows (flood peer dgrams) :=
        flood_overflows h.wf (h.limit.symm ▸ hroom) (by omega) hflood
      have hlost : 0 < lost + s.overflows (flood peer dgrams) := Nat.add_pos_right _ hpos
      refine ⟨.notDrained, (h.run hq hflood).closeAll hq hlost (List.ne_nil_of_mem hpeer) ?_⟩
      intro k hk
      rcases mem_of_flood hflood k hk with rfl | hk
      · exact hpeer
      · exact hall k hk

/-- Five datagrams of one peer that has not been served: its connection is gone, four datagrams are counted for good,
and the next disconnect panics. -/
theorem overflow_fatal_sample : ∃ s : UdpDispatcherRx 56 4,
    runAll exec (new 8) (overflowCalls.take 5) = .ok s ∧ s.nrQueuedDgrams = s.queued + 1 * 4 ∧
    runAll exec s ([.v4 ⟨203, 0, 113, 7⟩ 4242].map .disconnect) = .error .notDrained := by
  have hrun : runAll exec (new 8 : UdpDispatcherRx 56 4) (overflowCalls.take 5) = .ok ⟨∅, 8, 4⟩ := rfl
  obtain ⟨hcounter, -, -, hclose, -⟩ := overflow_fatal (by decide) (by decide) _ hrun
  exact ⟨_, hrun, hcounter, hclose (by decide) _ (List.cons_ne_nil _ _) fun k hk => absurd hk Finmap.notMem_empty⟩

end UdpDispatcherRx
end Letmein
