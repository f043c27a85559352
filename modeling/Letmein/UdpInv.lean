import Letmein.Udp

/-!
# Dispatcher invariants

`Received` says once what `tryRecv` can do. `Wf` holds in every reachable state, whatever arrives:
the limits on connections and queues are kept and the counter is never below the number of queued
datagrams. `Exact` (the counter is that number) is kept by every step but one, the removal of a
connection whose queue is full (`Overflows`).
-/

namespace Letmein
namespace UdpDispatcherRx

variable {msgSize qSize : Nat} {s s' : UdpDispatcherRx msgSize qSize} {socket : SockRecv msgSize}
  {peer : SocketAddr} {buf : Datagram msgSize}

def push (s : UdpDispatcherRx msgSize qSize) (peer : SocketAddr) (buf : Datagram msgSize) :
    UdpDispatcherRx msgSize qSize :=
  { s with
    conn := s.conn.insert peer { s.entry peer with rxQueue := (s.entry peer).rxQueue ++ [buf] }
    nrQueuedDgrams := s.nrQueuedDgrams + 1 }

/-- Forget a peer, without touching the counter. -/
def drop (s : UdpDispatcherRx msgSize qSize) (peer : SocketAddr) : UdpDispatcherRx msgSize qSize :=
  { s with conn := s.conn.erase peer }

def put (s : UdpDispatcherRx msgSize qSize) (k : SocketAddr) (c : UdpConn msgSize) (nr : Nat) :
    UdpDispatcherRx msgSize qSize :=
  { s with conn := s.conn.insert k c, nrQueuedDgrams := nr }

/-- What `tryRecv` returns when it returns. -/
inductive Received (s : UdpDispatcherRx msgSize qSize) :
    SockRecv msgSize → UdpRet msgSize qSize (Except String Unit) → Prop
  | idle : Received s .wouldBlock ⟨.ok (), s, []⟩
  | sockError (e : String) : Received s (.error e) ⟨.error s!"Socket read: {e}", s, []⟩
  | badSize {n : Nat} {peer : SocketAddr} {buf : Datagram msgSize} (h : n ≠ msgSize) :
      Received s (.datagram n peer buf) ⟨.error s!"Socket read: Invalid datagram size: {n}", s, []⟩
  | overflow {peer : SocketAddr} {buf : Datagram msgSize}
      (hfull : (s.entry peer).rxQueue.length = qSize) :
      Received s (.datagram msgSize peer buf)
        ⟨.error s!"UDP socket read: RX queue overflow (max={qSize}).", s.drop peer, []⟩
  | tooMany {peer : SocketAddr} {buf : Datagram msgSize} (hnew : peer ∉ s.conn)
      (hfull : s.conn.size = s.maxNrConn) :
      Received s (.datagram msgSize peer buf)
        ⟨.error s!"UDP socket read: Too many connections (max={s.maxNrConn}).", s, []⟩
  | queued {peer : SocketAddr} {buf : Datagram msgSize}
      (hlt : (s.entry peer).rxQueue.length < qSize)
      (hroom : (s.push peer buf).conn.size ≤ s.maxNrConn)
      (hnr : s.nrQueuedDgrams + 1 ≤ s.maxNrConn * qSize) (husize : s.maxNrConn * qSize < 2 ^ 64) :
      Received s (.datagram msgSize peer buf)
        ⟨.ok (), s.push peer buf, if (s.entry peer).accepted then [] else [.accept, .recv]⟩

theorem erase_insert (m : HashMap SocketAddr (UdpConn msgSize)) (k : SocketAddr) (v : UdpConn msgSize) :
    (m.insert k v).erase k = m.erase k := by
  refine Finmap.ext_lookup fun x => ?_
  by_cases hx : x = k
  · subst hx; rw [Finmap.lookup_erase, Finmap.lookup_erase]
  · rw [Finmap.lookup_erase_ne hx, Finmap.lookup_erase_ne hx, Finmap.lookup_insert_of_ne _ hx]

theorem tryRecv_ok {r : UdpRet msgSize qSize (Except String Unit)} (h : s.tryRecv socket = .ok r) :
    Received s socket r := by
  cases socket with
  | wouldBlock => cases h; exact .idle
  | error e => cases h; exact .sockError e
  | datagram n peer buf =>
    by_cases hn : n = msgSize
    swap
    · simp only [tryRecv, ne_eq, hn, not_false_eq_true, ↓reduceIte] at h
      cases h; exact .badSize hn
    subst hn
    simp only [tryRecv, ne_eq, not_true_eq_false, ↓reduceIte, check, checkedUsize, bind, Except.bind,
      pure, Except.pure, erase_insert, Finmap.insert_insert] at h
    by_cases hsize : s.conn.size ≤ s.maxNrConn <;> simp only [hsize, ↓reduceIte, reduceCtorEq] at h
    by_cases hq : (s.entry peer).rxQueue.length ≤ qSize <;>
      simp only [hq, ↓reduceIte, reduceCtorEq] at h
    by_cases hfull : (s.entry peer).rxQueue.length = qSize <;> simp only [hfull, ↓reduceIte] at h
    · cases h; exact .overflow hfull
    split at h
    · rename_i hmany
      have hnew : peer ∉ s.conn := fun hmem => by
        rw [Finmap.size_insert_of_mem hmem] at hmany; omega
      rw [Finmap.size_insert_of_notMem hnew] at hmany
      rw [Finmap.erase_of_notMem hnew] at h
      cases h; exact .tooMany hnew (by omega)
    · rename_i hroom
      split at h
      · cases h
      rename_i nr hnr
      split at hnr <;> cases hnr
      split at h
      · cases h
      rename_i max hmax
      split at hmax <;> cases hmax
      split at h
      · cases h
      rename_i hle
      split at hle <;> cases hle
      cases h
      exact .queued (by omega) (Nat.le_of_not_lt hroom) ‹_› ‹_›

theorem tryRecv_panic {p : Panic} (hsize : s.conn.size ≤ s.maxNrConn)
    (hq : ∀ k, (s.entry k).rxQueue.length ≤ qSize) (h : s.tryRecv socket = .error p) :
    ∃ peer buf, socket = .datagram msgSize peer buf ∧ (s.entry peer).rxQueue.length < qSize ∧
      (s.push peer buf).conn.size ≤ s.maxNrConn ∧
      (p = .arithOverflow ∧ (2 ^ 64 ≤ s.nrQueuedDgrams + 1 ∨ 2 ^ 64 ≤ s.maxNrConn * qSize) ∨
        p = .totalLen ∧ s.maxNrConn * qSize < s.nrQueuedDgrams + 1) := by
  cases socket with
  | wouldBlock => cases h
  | error e => cases h
  | datagram n peer buf =>
    by_cases hn : n = msgSize
    swap
    · simp only [tryRecv, ne_eq, hn, not_false_eq_true, ↓reduceIte] at h; cases h
    subst hn
    simp only [tryRecv, ne_eq, not_true_eq_false, ↓reduceIte, check, checkedUsize, bind, Except.bind,
      pure, Except.pure, erase_insert, Finmap.insert_insert, hsize, hq peer] at h
    by_cases hfull : (s.entry peer).rxQueue.length = qSize <;>
      simp only [hfull, ↓reduceIte, reduceCtorEq] at h
    split at h
    · cases h
    rename_i hroom
    refine ⟨peer, buf, rfl, by have := hq peer; omega, Nat.le_of_not_lt hroom, ?_⟩
    split at h
    · rename_i h1
      split at h1 <;> cases h1
      cases h; exact .inl ⟨rfl, .inl (by omega)⟩
    rename_i nr hnr
    split at hnr <;> cases hnr
    split at h
    · rename_i h1
      split at h1 <;> cases h1
      cases h; exact .inl ⟨rfl, .inr (by omega)⟩
    rename_i max hmax
    split at hmax <;> cases hmax
    split at h
    · rename_i hle
      split at hle <;> cases hle
      cases h; exact .inr ⟨rfl, by omega⟩
    · cases h

/-! ### Well-formed states -/

/-- The limits hold, entries are filed under their peer, and the counter covers what is queued. -/
structure Wf (s : UdpDispatcherRx msgSize qSize) : Prop where
  size_le : s.conn.size ≤ s.maxNrConn
  queue_le : ∀ k c, s.conn.lookup k = some c → c.rxQueue.length ≤ qSize
  peer : ∀ k c, s.conn.lookup k = some c → c.peerAddr = k
  queued_le : s.queued ≤ s.nrQueuedDgrams

def Exact (s : UdpDispatcherRx msgSize qSize) : Prop := s.nrQueuedDgrams = s.queued

theorem entry_of_lookup {c : UdpConn msgSize} (h : s.conn.lookup peer = some c) : s.entry peer = c := by
  rw [entry, h]; rfl

theorem entry_of_notMem (h : peer ∉ s.conn) : s.entry peer = ⟨[], peer, false⟩ := by
  rw [entry, Finmap.lookup_eq_none.2 h]; rfl

theorem queued_eq_entry_add (s : UdpDispatcherRx msgSize qSize) (peer : SocketAddr) :
    s.queued = (s.entry peer).rxQueue.length + (s.drop peer).queued := by
  cases h : s.conn.lookup peer with
  | none =>
    have hn := Finmap.lookup_eq_none.1 h
    rw [entry_of_notMem hn, queued, queued, drop, Finmap.erase_of_notMem hn]; simp
  | some c => rw [entry_of_lookup h, queued, queued, drop, Finmap.sumBy_eq_add_erase _ h]

theorem queued_push (s : UdpDispatcherRx msgSize qSize) (peer : SocketAddr) (buf : Datagram msgSize) :
    (s.push peer buf).queued = s.queued + 1 := by
  rw [queued_eq_entry_add s peer, queued, push, Finmap.sumBy_insert]
  simp only [List.length_append, List.length_singleton, drop, queued]; omega

namespace Wf

theorem entry_le (h : s.Wf) (k : SocketAddr) : (s.entry k).rxQueue.length ≤ qSize := by
  cases hk : s.conn.lookup k with
  | none => rw [entry_of_notMem (Finmap.lookup_eq_none.1 hk)]; exact Nat.zero_le _
  | some c => rw [entry_of_lookup hk]; exact h.queue_le k c hk

theorem entry_peer (h : s.Wf) (k : SocketAddr) : (s.entry k).peerAddr = k := by
  cases hk : s.conn.lookup k with
  | none => rw [entry_of_notMem (Finmap.lookup_eq_none.1 hk)]
  | some c => rw [entry_of_lookup hk]; exact h.peer k c hk

theorem new (maxNrConn : Nat) : (new maxNrConn : UdpDispatcherRx msgSize qSize).Wf where
  size_le := Nat.zero_le _
  queue_le k c h := by simp [UdpDispatcherRx.new] at h
  peer k c h := by simp [UdpDispatcherRx.new] at h
  queued_le := Nat.le_refl 0

theorem drop (h : s.Wf) (peer : SocketAddr) : (s.drop peer).Wf where
  size_le := Nat.le_trans Finmap.size_erase_le h.size_le
  queue_le k c hk := by
    by_cases hkp : k = peer
    · subst hkp; simp [UdpDispatcherRx.drop] at hk
    · exact h.queue_le k c ((Finmap.lookup_erase_ne hkp).symm.trans hk)
  peer k c hk := by
    by_cases hkp : k = peer
    · subst hkp; simp [UdpDispatcherRx.drop] at hk
    · exact h.peer k c ((Finmap.lookup_erase_ne hkp).symm.trans hk)
  queued_le := by
    have h1 := queued_eq_entry_add s peer
    have h2 := h.queued_le
    show _ ≤ s.nrQueuedDgrams
    omega

theorem push (h : s.Wf) (hlt : (s.entry peer).rxQueue.length < qSize)
    (hroom : (s.push peer buf).conn.size ≤ s.maxNrConn) : (s.push peer buf).Wf where
  size_le := hroom
  queue_le k c hk := by
    by_cases hkp : k = peer
    · subst hkp
      simp only [UdpDispatcherRx.push, Finmap.lookup_insert, Option.some.injEq] at hk
      subst hk; simpa using Nat.succ_le_of_lt hlt
    · exact h.queue_le k c ((Finmap.lookup_insert_of_ne _ hkp).symm.trans hk)
  peer k c hk := by
    by_cases hkp : k = peer
    · subst hkp
      simp only [UdpDispatcherRx.push, Finmap.lookup_insert, Option.some.injEq] at hk
      subst hk; exact h.entry_peer k
    · exact h.peer k c ((Finmap.lookup_insert_of_ne _ hkp).symm.trans hk)
  queued_le := by rw [queued_push]; exact Nat.add_le_add_right h.queued_le 1

theorem put (h : s.Wf) {k : SocketAddr} {c c' : UdpConn msgSize} {nr : Nat}
    (hk : s.conn.lookup k = some c) (hlen : c'.rxQueue.length ≤ c.rxQueue.length)
    (hpeer : c'.peerAddr = c.peerAddr)
    (hnr : s.nrQueuedDgrams + c'.rxQueue.length = nr + c.rxQueue.length) : (s.put k c' nr).Wf where
  size_le := by
    show (s.conn.insert k c').size ≤ _
    rw [Finmap.size_insert_of_mem (Finmap.mem_of_lookup_eq_some hk)]; exact h.size_le
  queue_le j d hj := by
    change (s.conn.insert k c').lookup j = some d at hj
    by_cases hjk : j = k
    · subst hjk
      rw [Finmap.lookup_insert, Option.some.injEq] at hj
      subst hj; exact Nat.le_trans hlen (h.queue_le j c hk)
    · exact h.queue_le j d ((Finmap.lookup_insert_of_ne _ hjk).symm.trans hj)
  peer j d hj := by
    change (s.conn.insert k c').lookup j = some d at hj
    by_cases hjk : j = k
    · subst hjk
      rw [Finmap.lookup_insert, Option.some.injEq] at hj
      subst hj; rw [hpeer]; exact h.peer j c hk
    · exact h.peer j d ((Finmap.lookup_insert_of_ne _ hjk).symm.trans hj)
  queued_le := by
    have h1 := h.queued_le
    rw [queued, Finmap.sumBy_eq_add_erase _ hk] at h1
    show (s.conn.insert k c').sumBy _ ≤ nr
    rw [Finmap.sumBy_insert]
    omega

end Wf

theorem queued_put {k : SocketAddr} {c : UdpConn msgSize} (hk : s.conn.lookup k = some c)
    (c' : UdpConn msgSize) (nr : Nat) :
    (s.put k c' nr).queued + c.rxQueue.length = s.queued + c'.rxQueue.length := by
  simp only [queued, put, Finmap.sumBy_insert, Finmap.sumBy_eq_add_erase _ hk]; omega

namespace Exact

theorem new (maxNrConn : Nat) : (new maxNrConn : UdpDispatcherRx msgSize qSize).Exact := rfl

theorem push (h : s.Exact) : (s.push peer buf).Exact := by
  rw [Exact, queued_push]; exact congrArg (· + 1) h

theorem put (h : s.Exact) {k : SocketAddr} {c c' : UdpConn msgSize} {nr : Nat}
    (hk : s.conn.lookup k = some c)
    (hnr : s.nrQueuedDgrams + c'.rxQueue.length = nr + c.rxQueue.length) : (s.put k c' nr).Exact := by
  have h1 := queued_put hk c' nr
  have h2 : s.nrQueuedDgrams = s.queued := h
  show nr = _
  omega

end Exact

/-! ### What a call does -/

theorem firstUnaccepted_some {it : IterOrder SocketAddr} {k : SocketAddr} {c : UdpConn msgSize}
    (h : s.firstUnaccepted it = some (k, c)) : s.conn.lookup k = some c ∧ c.accepted = false := by
  obtain ⟨j, -, hj⟩ := List.exists_of_findSome?_eq_some h
  split at hj
  · rename_i c' hc
    split at hj
    · cases hj
    · rename_i hacc
      cases hj; exact ⟨hc, Bool.eq_false_iff.2 hacc⟩
  · cases hj

theorem tryAccept_ok {it : IterOrder SocketAddr} {r : UdpRet msgSize qSize (Option SocketAddr)}
    (h : s.tryAccept socket it = .ok r) : ∃ r₀, Received s socket r₀ ∧
      (r.val = none ∧ r.rx = r₀.rx ∨
        ∃ k c, r₀.val = .ok () ∧ r₀.rx.conn.lookup k = some c ∧ c.accepted = false ∧
          r.val = some c.peerAddr ∧
          r.rx = r₀.rx.put k { c with accepted := true } r₀.rx.nrQueuedDgrams) := by
  obtain ⟨r₀, h₀, h⟩ := Except.bind_ok h
  refine ⟨r₀, tryRecv_ok h₀, ?_⟩
  split at h
  · cases h; exact .inl ⟨rfl, rfl⟩
  · rename_i hval
    split at h
    · rename_i k c hk
      obtain ⟨hk, hacc⟩ := firstUnaccepted_some hk
      cases h; exact .inr ⟨k, c, hval, hk, hacc, rfl, rfl⟩
    · cases h; exact .inl ⟨rfl, rfl⟩

theorem tryRecvFrom_ok {r : UdpRet msgSize qSize (Except String (Option (Datagram msgSize)))}
    (h : s.tryRecvFrom socket peer = .ok r) : ∃ r₀, Received s socket r₀ ∧
      (r.rx = r₀.rx ∧ (∀ buf, r.val ≠ .ok (some buf)) ∨
        ∃ c buf rest, r₀.rx.conn.lookup peer = some c ∧ c.rxQueue = buf :: rest ∧
          1 ≤ r₀.rx.nrQueuedDgrams ∧ r.val = .ok (some buf) ∧
          r.rx = r₀.rx.put peer { c with rxQueue := rest } (r₀.rx.nrQueuedDgrams - 1)) := by
  obtain ⟨r₀, h₀, h⟩ := Except.bind_ok h
  refine ⟨r₀, tryRecv_ok h₀, ?_⟩
  split at h
  · cases h
    exact .inl ⟨rfl, fun buf hval => by cases hval⟩
  · split at h
    · rename_i buf rest addr acc hk
      obtain ⟨nr, hnr, h⟩ := Except.bind_ok h
      unfold checkedSub at hnr
      split at hnr <;> cases hnr
      cases h; exact .inr ⟨_, buf, rest, hk, rfl, ‹_›, rfl, rfl⟩
    · cases h
      exact .inl ⟨rfl, fun buf hval => by cases hval⟩

/-- Forget a peer and its queued datagrams. -/
def forget (s : UdpDispatcherRx msgSize qSize) (peer : SocketAddr) : UdpDispatcherRx msgSize qSize :=
  { s.drop peer with nrQueuedDgrams := s.nrQueuedDgrams - (s.entry peer).rxQueue.length }

theorem disconnect_eq (s : UdpDispatcherRx msgSize qSize) (peer : SocketAddr) :
    s.disconnect peer = if (s.entry peer).rxQueue.length ≤ s.nrQueuedDgrams then
      if (s.forget peer).conn.size = 0 ∧ (s.forget peer).nrQueuedDgrams ≠ 0 then .error .notDrained
      else .ok (s.forget peer)
    else .error .subOverflow := by
  have hrem : s.removeConn peer (s.nrQueuedDgrams - (s.entry peer).rxQueue.length) =
      if (s.forget peer).conn.size = 0 ∧ (s.forget peer).nrQueuedDgrams ≠ 0 then .error .notDrained
      else .ok (s.forget peer) := by
    change (if (s.forget peer).conn.size = 0 then
      check ((s.forget peer).nrQueuedDgrams = 0) .notDrained >>= fun _ => .ok (s.forget peer)
      else .ok (s.forget peer)) = _
    by_cases hs : (s.forget peer).conn.size = 0 <;>
      by_cases hn : (s.forget peer).nrQueuedDgrams = 0 <;> simp [hs, hn, check, bind, Except.bind]
  cases h : s.conn.lookup peer with
  | none =>
    have hlen : (s.entry peer).rxQueue.length = 0 := by
      rw [entry_of_notMem (Finmap.lookup_eq_none.1 h)]; rfl
    rw [if_pos (hlen ▸ Nat.zero_le _), ← hrem, hlen, disconnect, h]; rfl
  | some c =>
    rw [← hrem, disconnect, h]
    simp only [checkedSub, entry_of_lookup h]
    split <;> rfl

theorem disconnect_ok (h : s.disconnect peer = .ok s') : s' = s.forget peer := by
  rw [disconnect_eq] at h
  split at h
  · split at h <;> cases h
    rfl
  · cases h

theorem Wf.forget (h : s.Wf) (peer : SocketAddr) : (s.forget peer).Wf :=
  { h.drop peer with
    queued_le := by
      have h1 := queued_eq_entry_add s peer
      have h2 := h.queued_le
      show (s.drop peer).queued ≤ s.nrQueuedDgrams - (s.entry peer).rxQueue.length
      omega }

theorem Exact.forget (h : s.Exact) (peer : SocketAddr) : (s.forget peer).Exact := by
  have h1 := queued_eq_entry_add s peer
  have h2 : s.nrQueuedDgrams = s.queued := h
  show s.nrQueuedDgrams - (s.entry peer).rxQueue.length = (s.drop peer).queued
  omega

/-! ### The one step that breaks the accounting -/

/-- The datagram comes from a peer whose queue is full. -/
def SockOverflows (s : UdpDispatcherRx msgSize qSize) : SockRecv msgSize → Prop
  | .datagram n peer _ => n = msgSize ∧ (s.entry peer).rxQueue.length = qSize
  | _ => False

/-- The call receives a datagram from a peer whose queue is full. -/
def Overflows (s : UdpDispatcherRx msgSize qSize) : UdpCall msgSize → Prop
  | .tryAccept socket _ => s.SockOverflows socket
  | .tryRecvFrom socket _ => s.SockOverflows socket
  | .disconnect _ => False

namespace Received
variable {r : UdpRet msgSize qSize (Except String Unit)}

theorem wf (h : s.Wf) (hr : Received s socket r) : r.rx.Wf := by
  cases hr with
  | overflow => exact h.drop _
  | queued hlt hroom => exact h.push hlt hroom
  | _ => exact h

theorem exact (h : s.Exact) (hr : Received s socket r) (hno : ¬ s.SockOverflows socket) : r.rx.Exact := by
  cases hr with
  | overflow hfull => exact absurd ⟨rfl, hfull⟩ hno
  | queued => exact h.push
  | _ => exact h

/-- An overflow keeps the counter and loses a whole queue. -/
theorem not_exact (hq : 0 < qSize) (h : s.Exact) (hr : Received s socket r) (ho : s.SockOverflows socket) :
    ¬ r.rx.Exact ∧ ∃ e, r.val = .error e := by
  cases hr with
  | overflow hfull =>
    refine ⟨fun h' => ?_, _, rfl⟩
    rename_i peer buf
    have h1 := queued_eq_entry_add s peer
    have h2 : s.nrQueuedDgrams = s.queued := h
    have h3 : s.nrQueuedDgrams = (s.drop peer).queued := h'
    omega
  | badSize hn => exact absurd ho.1 hn
  | tooMany hnew => rw [SockOverflows, entry_of_notMem hnew] at ho; exact absurd ho.2.symm (Nat.ne_of_gt hq)
  | queued hlt => exact absurd ho.2 (Nat.ne_of_lt hlt)
  | idle => exact ho.elim
  | sockError => exact ho.elim

theorem lookup_of_ne {n : Nat} {a b : SocketAddr} {buf : Datagram msgSize}
    (hr : Received s (.datagram n b buf) r) (hab : a ≠ b) : r.rx.conn.lookup a = s.conn.lookup a := by
  cases hr with
  | overflow => exact Finmap.lookup_erase_ne hab
  | queued => exact Finmap.lookup_insert_of_ne _ hab
  | _ => rfl

end Received

end UdpDispatcherRx
end Letmein
