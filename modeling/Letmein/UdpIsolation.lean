import Letmein.UdpAccounting

/-!
# Receiving for one peer while another one sends

All sessions share one socket, so `tryRecvFrom` for peer `a` first pulls whatever datagram is next. If
it is filed, `a` sees nothing of it. If it is refused, the error goes to `a`, whoever sent it: unlike
`tryAccept`, `tryRecvFrom` passes on what `tryRecv` reports.
-/

namespace Letmein
namespace UdpDispatcherRx

variable {msgSize qSize : Nat} {s : UdpDispatcherRx msgSize qSize} {a b : SocketAddr} {n : Nat}
  {buf : Datagram msgSize}

/-- What `tryRecv` files: a datagram of the right size for a queue that has room, from a peer that is
known or may still connect, as long as the counter stays in its bound. -/
structure Files (s : UdpDispatcherRx msgSize qSize) (n : Nat) (peer : SocketAddr) : Prop where
  size : n = msgSize
  queue : (s.entry peer).rxQueue.length < qSize
  room : peer ∈ s.conn ∨ s.conn.size < s.maxNrConn
  count : s.nrQueuedDgrams + 1 ≤ s.maxNrConn * qSize
  usize : s.maxNrConn * qSize < 2 ^ 64

/-- `a` receives the head of its queue and keeps the rest. -/
def Receives (s : UdpDispatcherRx msgSize qSize) (a : SocketAddr) (socket : SockRecv msgSize) : Prop :=
  ∃ r, s.tryRecvFrom socket a = .ok r ∧ r.val = .ok (s.entry a).rxQueue.head? ∧
    (r.rx.entry a).rxQueue = (s.entry a).rxQueue.tail

theorem size_push_le_iff (h : s.Wf) (peer : SocketAddr) (buf : Datagram msgSize) :
    (s.push peer buf).conn.size ≤ s.maxNrConn ↔ peer ∈ s.conn ∨ s.conn.size < s.maxNrConn := by
  have hsize := h.size_le
  by_cases hmem : peer ∈ s.conn
  · have : (s.push peer buf).conn.size = s.conn.size := Finmap.size_insert_of_mem hmem
    rw [this]; exact ⟨fun _ => .inl hmem, fun _ => hsize⟩
  · have : (s.push peer buf).conn.size = s.conn.size + 1 := Finmap.size_insert_of_notMem hmem
    rw [this]; exact ⟨fun hle => .inr hle, fun h => h.resolve_left hmem⟩

theorem tryRecv_of_files (h : s.Wf) (hf : s.Files n b) (buf : Datagram msgSize) :
    ∃ sent, s.tryRecv (.datagram n b buf) = .ok ⟨.ok (), s.push b buf, sent⟩ := by
  obtain ⟨rfl, hlt, hroom, hcount, husize⟩ := hf
  have hle := (size_push_le_iff h b buf).2 hroom
  cases hr : s.tryRecv (.datagram n b buf) with
  | error p =>
    obtain ⟨peer, buf', hsock, -, -, ⟨-, hbig⟩ | ⟨-, hbig⟩⟩ := tryRecv_panic h.size_le h.entry_le hr <;> omega
  | ok r =>
    cases tryRecv_ok hr with
    | badSize hn => exact absurd rfl hn
    | overflow hfull => exact absurd hfull (Nat.ne_of_lt hlt)
    | tooMany hnew hfull => exact (hroom.elim hnew fun hl => absurd hfull (Nat.ne_of_lt hl)).elim
    | queued => exact ⟨_, rfl⟩

theorem tryRecv_of_not_files (h : s.Wf) (hf : ¬ s.Files n b) (buf : Datagram msgSize) :
    (∃ r e, s.tryRecv (.datagram n b buf) = .ok r ∧ r.val = .error e) ∨
      ∃ p, s.tryRecv (.datagram n b buf) = .error p := by
  cases hr : s.tryRecv (.datagram n b buf) with
  | error p => exact .inr ⟨p, rfl⟩
  | ok r =>
    refine .inl ⟨r, ?_⟩
    cases tryRecv_ok hr with
    | queued hlt hroom hnr husize =>
      exact absurd ⟨rfl, hlt, (size_push_le_iff h b buf).1 hroom, hnr, husize⟩ hf
    | badSize => exact ⟨_, rfl, rfl⟩
    | overflow => exact ⟨_, rfl, rfl⟩
    | tooMany => exact ⟨_, rfl, rfl⟩

theorem receives_of_tryRecv {socket : SockRecv msgSize} {rx : UdpDispatcherRx msgSize qSize}
    {sent : List Watch} (h : s.Wf) (hr : s.tryRecv socket = .ok ⟨.ok (), rx, sent⟩)
    (hsame : rx.conn.lookup a = s.conn.lookup a) : s.Receives a socket := by
  have hentry : s.entry a = rx.entry a := by rw [entry, entry, hsame]
  have hcount := ((tryRecv_ok hr).wf h).queued_le
  rw [queued_eq_entry_add rx a] at hcount
  rw [Receives, hentry]
  cases hk : rx.conn.lookup a with
  | none =>
    refine ⟨⟨.ok none, rx, sent ++ rx.recvNotify⟩, ?_, ?_, ?_⟩
    · simp only [tryRecvFrom, hr, bind, Except.bind, hk]; rfl
    · rw [entry_of_notMem (Finmap.lookup_eq_none.1 hk)]; rfl
    · rw [entry_of_notMem (Finmap.lookup_eq_none.1 hk)]; rfl
  | some c =>
    rw [entry_of_lookup hk] at hcount ⊢
    obtain ⟨q, addr, acc⟩ := c
    cases q with
    | nil =>
      refine ⟨⟨.ok none, rx, sent ++ rx.recvNotify⟩, ?_, rfl, ?_⟩
      · simp only [tryRecvFrom, hr, bind, Except.bind, hk]; rfl
      · rw [entry_of_lookup hk]; rfl
    | cons buf rest =>
      have hnr : 1 ≤ rx.nrQueuedDgrams := by simp only [List.length_cons] at hcount; omega
      let rx' := rx.put a ⟨rest, addr, acc⟩ (rx.nrQueuedDgrams - 1)
      refine ⟨⟨.ok (some buf), rx', sent ++ rx'.recvNotify⟩, ?_, rfl, ?_⟩
      · simp only [tryRecvFrom, hr, bind, Except.bind, hk, checkedSub, if_pos hnr]; rfl
      · rw [entry_of_lookup (Finmap.lookup_insert _)]; rfl

/-- `a` receives as if the socket had had nothing for anyone: it gets the head of its queue, and keeps
the same rest. -/
def Isolated (s : UdpDispatcherRx msgSize qSize) (a : SocketAddr) (socket : SockRecv msgSize) : Prop :=
  ∃ r r₀, s.tryRecvFrom socket a = .ok r ∧ s.tryRecvFrom .wouldBlock a = .ok r₀ ∧
    r.val = .ok (s.entry a).rxQueue.head? ∧ r.val = r₀.val ∧
    (r.rx.entry a).rxQueue = (r₀.rx.entry a).rxQueue

theorem isolated_of_files (h : s.Wf) (hab : a ≠ b) (hf : s.Files n b) :
    s.Isolated a (.datagram n b buf) := by
  obtain ⟨sent, hr⟩ := tryRecv_of_files h hf buf
  obtain ⟨r, hrecv, hval, hrest⟩ := receives_of_tryRecv h hr ((tryRecv_ok hr).lookup_of_ne hab)
  obtain ⟨r₀, hrecv₀, hval₀, hrest₀⟩ : s.Receives a .wouldBlock := receives_of_tryRecv h rfl rfl
  exact ⟨r, r₀, hrecv, hrecv₀, hval, hval.trans hval₀.symm, hrest.trans hrest₀.symm⟩

theorem files_of_isolated (h : s.Wf) (hi : s.Isolated a (.datagram n b buf)) : s.Files n b := by
  by_contra hf
  obtain ⟨r, -, hr, -, hval, -⟩ := hi
  rcases tryRecv_of_not_files h hf buf with ⟨r₁, e, h₁, he⟩ | ⟨p, h₁⟩
  · simp only [tryRecvFrom, h₁, bind, Except.bind, he] at hr
    cases hr
    cases hval
  · simp only [tryRecvFrom, h₁, bind, Except.bind] at hr
    cases hr

/-- In every reachable state, a datagram of `b` leaves what `a` receives alone iff it is filed. -/
theorem isolated_iff_files (maxNrConn : Nat) (calls : List (UdpCall msgSize))
    (hrun : runAll exec (new maxNrConn) calls = .ok s) (hab : a ≠ b) (n : Nat)
    (buf : Datagram msgSize) : s.Isolated a (.datagram n b buf) ↔ s.Files n b := by
  have h : s.Wf := runAll_inv' (fun _ _ _ h hs => exec_wf h hs) (.new maxNrConn) hrun
  exact ⟨files_of_isolated h, isolated_of_files h hab⟩

/-- One datagram of `203.0.113.7` is waiting. -/
def onePeer : List (UdpCall 56) :=
  [.tryRecvFrom (.zeros 56 (.v4 ⟨203, 0, 113, 7⟩ 4242)) (.v4 ⟨198, 51, 100, 1⟩ 1000)]

theorem isolated_iff_files_onePeer :
    ∃ s : UdpDispatcherRx 56 4, runAll exec (new 8) onePeer = .ok s ∧
      s.Isolated (.v4 ⟨203, 0, 113, 7⟩ 4242) (.zeros 56 (.v4 ⟨198, 51, 100, 1⟩ 1000)) := by
  refine ⟨_, rfl, (isolated_iff_files 8 onePeer rfl (by decide) _ _).2 ?_⟩
  exact ⟨rfl, by decide, .inr (by decide), by decide, by decide⟩

/-- A datagram of another peer that is too short makes the receive of `203.0.113.7` fail. -/
theorem not_isolated_bad_size :
    ∃ s r, runAll exec (new 8 : UdpDispatcherRx 56 4) onePeer = .ok s ∧
      s.tryRecvFrom (.datagram 10 (.v4 ⟨198, 51, 100, 1⟩ 1000) (List.Vector.replicate 56 0))
        (.v4 ⟨203, 0, 113, 7⟩ 4242) = .ok r ∧
      r.val = .error "Socket read: Invalid datagram size: 10" ∧
      ¬ s.Isolated (.v4 ⟨203, 0, 113, 7⟩ 4242)
        (.datagram 10 (.v4 ⟨198, 51, 100, 1⟩ 1000) (List.Vector.replicate 56 0)) := by
  refine ⟨_, _, rfl, rfl, rfl, ?_⟩
  rintro ⟨r, -, hr, -, hval, -⟩
  obtain rfl := Except.ok.inj hr
  cases hval

end UdpDispatcherRx
end Letmein
