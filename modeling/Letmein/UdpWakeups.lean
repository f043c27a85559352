import Letmein.UdpTasks

/-!
# Wake-ups of the UDP dispatcher

A `recv_from` task that was woken by the watch has to pass the change on while datagrams are queued. It does not
if it returns early (`SkipsNotify`); otherwise no wake-up is lost (`no_lost_wakeup`).
-/

namespace Letmein

/-! ## Notifications -/

namespace UdpDispatcherRx
variable {msgSize qSize : Nat} {s : UdpDispatcherRx msgSize qSize} {socket : SockRecv msgSize} {peer : SocketAddr}

/-- `tryRecv` fails: the datagram has the wrong size, or the queue of its peer or the table of connections is full. -/
def Rejects (s : UdpDispatcherRx msgSize qSize) : SockRecv msgSize → Prop
  | .datagram n peer _ => n ≠ msgSize ∨ (s.entry peer).rxQueue.length = qSize ∨
      peer ∉ s.conn ∧ s.conn.size = s.maxNrConn
  | .wouldBlock => False
  | .error _ => True

theorem Received.rejects {r : UdpRet msgSize qSize (Except String Unit)} {e : String} (hr : Received s socket r)
    (h : r.val = .error e) : s.Rejects socket := by
  cases hr with
  | idle => cases h
  | sockError => exact trivial
  | badSize hn => exact .inl hn
  | overflow hfull => exact .inr (.inl hfull)
  | tooMany hnew hfull => exact .inr (.inr ⟨hnew, hfull⟩)
  | queued => cases h

theorem Received.nrQueuedDgrams_eq {r : UdpRet msgSize qSize (Except String Unit)} {e : String}
    (hr : Received s socket r) (h : r.val = .error e) : r.rx.nrQueuedDgrams = s.nrQueuedDgrams := by
  cases hr with
  | queued => cases h
  | _ => rfl

theorem mem_recvNotify (h : 0 < s.nrQueuedDgrams) : .recv ∈ s.recvNotify := by
  rw [recvNotify, if_pos h]
  exact List.mem_singleton_self _

/-- A call for a peer fails early, or passes the notification on. -/
theorem tryRecvFrom_notifies {r : UdpRet msgSize qSize (Except String (Option (Datagram msgSize)))}
    (h : s.tryRecvFrom socket peer = .ok r) :
    (∃ r₀ e, Received s socket r₀ ∧ r₀.val = .error e ∧ r.rx = r₀.rx) ∨
      (0 < r.rx.nrQueuedDgrams → .recv ∈ r.sent) := by
  obtain ⟨r₀, h₀, h⟩ := Except.bind_ok h
  split at h
  · rename_i e he
    cases h
    exact .inl ⟨r₀, e, tryRecv_ok h₀, he, rfl⟩
  refine .inr fun hnr => ?_
  split at h
  · obtain ⟨nr, -, h⟩ := Except.bind_ok h
    cases h
    exact List.mem_append_right _ (mem_recvNotify hnr)
  · cases h
    exact List.mem_append_right _ (mem_recvNotify hnr)

/-- `tryAccept` fails early, passes the notification on, or returns a connection. -/
theorem tryAccept_notifies {it : IterOrder SocketAddr} {r : UdpRet msgSize qSize (Option SocketAddr)}
    (h : s.tryAccept socket it = .ok r) :
    (∃ r₀ e, Received s socket r₀ ∧ r₀.val = .error e ∧ r.rx = r₀.rx) ∨
      (0 < r.rx.nrQueuedDgrams → .recv ∈ r.sent) ∨
      ∃ r₀ k c, Received s socket r₀ ∧ r₀.val = .ok () ∧ r₀.rx.conn.lookup k = some c ∧ c.accepted = false ∧
        r.sent = r₀.sent ∧ r.rx = r₀.rx.put k { c with accepted := true } r₀.rx.nrQueuedDgrams := by
  obtain ⟨r₀, h₀, h⟩ := Except.bind_ok h
  split at h
  · rename_i e he
    cases h
    exact .inl ⟨r₀, e, tryRecv_ok h₀, he, rfl⟩
  rename_i hval
  split at h
  · rename_i k c hk
    obtain ⟨hk, hacc⟩ := firstUnaccepted_some hk
    cases h
    exact .inr (.inr ⟨r₀, k, c, tryRecv_ok h₀, hval, hk, hacc, rfl, rfl⟩)
  · cases h
    exact .inr (.inl fun hnr => List.mem_append_right _ (mem_recvNotify hnr))

/-- The datagram is for an accepted connection. -/
def SockAccepted (s : UdpDispatcherRx msgSize qSize) : SockRecv msgSize → Prop
  | .datagram n peer _ => n = msgSize ∧ s.Accepted peer
  | _ => False

theorem accepted_of_entry (h : (s.entry peer).accepted = true) : s.Accepted peer := by
  cases hc : s.conn.lookup peer with
  | none =>
    rw [entry_of_notMem (Finmap.lookup_eq_none.1 hc)] at h
    cases h
  | some c => exact ⟨c, hc, entry_of_lookup hc ▸ h⟩

/-- A call that returns a connection has notified the receivers, unless nothing was queued and it has filed a
datagram for an accepted connection. -/
theorem Received.accept_notifies {r : UdpRet msgSize qSize (Except String Unit)} {k : SocketAddr}
    {c : UdpConn msgSize} (hr : Received s socket r) (hval : r.val = .ok ()) (hk : r.rx.conn.lookup k = some c) (hacc : c.accepted = false)
    (hno : ¬ (s.nrQueuedDgrams = 0 ∧ s.SockAccepted socket ∧
      ∃ k c, s.conn.lookup k = some c ∧ c.accepted = false)) :
    r.rx.nrQueuedDgrams = s.nrQueuedDgrams ∨ .recv ∈ r.sent ∨ 0 < s.nrQueuedDgrams := by
  cases hr with
  | idle => exact .inl rfl
  | @queued peer buf =>
    by_cases hpeer : (s.entry peer).accepted = true
    swap
    · exact .inr (.inl (by simp [hpeer]))
    have hne : k ≠ peer := by
      rintro rfl
      rw [UdpDispatcherRx.push, Finmap.lookup_insert] at hk
      cases hk
      rw [hpeer] at hacc
      cases hacc
    have hk' : s.conn.lookup k = some c := (Finmap.lookup_insert_of_ne _ hne).symm.trans hk
    have hpos : s.nrQueuedDgrams ≠ 0 := by
      intro hq
      exact hno ⟨hq, ⟨rfl, accepted_of_entry hpeer⟩, k, c, hk', hacc⟩
    exact .inr (.inr (by omega))
  | _ => cases hval

end UdpDispatcherRx

/-! ## No wake-up is lost -/

namespace UdpTasks
variable {msgSize qSize : Nat} {s s' : UdpTasks msgSize qSize} {e : UdpTaskEvent}

/-- If nothing is left to read and an accepted connection has a datagram for a task that waits, then the task can go
on, or another one is past its wait. -/
def NoLostWakeup (s : UdpTasks msgSize qSize) : Prop :=
  s.dispatcher.socket = [] → ∀ (i : Nat) (t : RecvTask) (c : UdpConn msgSize), s.recv[i]? = some t →
    t.state = .waiting → s.dispatcher.rx.conn.lookup t.peerAddr = some c → c.accepted = true → c.rxQueue ≠ [] →
      s.dispatcher.recvWatch = true ∨ ∃ (j : Nat) (t' : RecvTask), j ≠ i ∧ s.recv[j]? = some t' ∧ t'.state = .woken

/-- The call ends without notifying the receivers, though it should: a task reads a datagram that is rejected while
others are queued, or `accept` files the only datagram, for an accepted connection, and returns another connection. -/
def SkipsNotify (s : UdpTasks msgSize qSize) : UdpTaskEvent → Prop
  | .runRecv i => (∃ peerAddr, s.recv[i]? = some ⟨peerAddr, .woken⟩) ∧
      s.dispatcher.rx.Rejects s.dispatcher.sockRecv ∧ 0 < s.dispatcher.rx.nrQueuedDgrams
  | .runAccept _ => s.accept = .woken ∧ s.dispatcher.rx.nrQueuedDgrams = 0 ∧
      s.dispatcher.rx.SockAccepted s.dispatcher.sockRecv ∧
      ∃ k c, s.dispatcher.rx.conn.lookup k = some c ∧ c.accepted = false
  | _ => False

/-- While datagrams are queued, the receivers have a change or one of them is past its wait. -/
structure Carried (s : UdpTasks msgSize qSize) : Prop where
  wf : s.dispatcher.rx.Wf
  carried : 0 < s.dispatcher.rx.nrQueuedDgrams → s.dispatcher.recvWatch = true ∨ ∃ t ∈ s.recv, t.state = .woken

namespace Carried

theorem new (maxNrConn : Nat) : (new maxNrConn : UdpTasks msgSize qSize).Carried where
  wf := .new maxNrConn
  carried h := absurd h (Nat.lt_irrefl 0)

theorem noLostWakeup (h : s.Carried) : s.NoLostWakeup := by
  intro _ i t c ht hstate hc _ hq
  have hsum := UdpDispatcherRx.queued_eq_entry_add s.dispatcher.rx t.peerAddr
  have hlen : 0 < (s.dispatcher.rx.entry t.peerAddr).rxQueue.length := by
    rw [UdpDispatcherRx.entry_of_lookup hc]
    exact List.length_pos_iff.2 hq
  have hle := h.wf.queued_le
  have hpos : 0 < s.dispatcher.rx.nrQueuedDgrams := by omega
  rcases h.carried hpos with hwatch | ⟨t', ht', hwoken⟩
  · exact .inl hwatch
  · obtain ⟨j, hj⟩ := List.mem_iff_getElem?.1 ht'
    refine .inr ⟨j, t', ?_, hj, hwoken⟩
    rintro rfl
    rw [ht] at hj
    cases hj
    rw [hstate] at hwoken
    cases hwoken

/-- A call of the accept task takes no change from the receivers. -/
theorem runAccept (h : s.Carried) {it : IterOrder SocketAddr} {r : UdpRet msgSize qSize (Option SocketAddr)}
    (hno : ¬ s.SkipsNotify (.runAccept it)) (hwoken : s.accept = .woken)
    (hr : s.dispatcher.rx.tryAccept s.dispatcher.sockRecv it = .ok r) (st : TaskState) (peers : List SocketAddr) :
    Carried { s with dispatcher := s.dispatcher.after r, accept := st, peers := peers } := by
  refine ⟨UdpDispatcherRx.tryAccept_wf h.wf hr, fun hq => ?_⟩
  change 0 < r.rx.nrQueuedDgrams at hq
  have hkeep : 0 < s.dispatcher.rx.nrQueuedDgrams →
      (s.dispatcher.after r).recvWatch = true ∨ ∃ t ∈ s.recv, t.state = .woken := by
    intro hq
    rcases h.carried hq with hwatch | hwoken
    · exact .inl (by simp [UdpDispatcher.after, hwatch])
    · exact .inr hwoken
  have hsent : .recv ∈ r.sent → (s.dispatcher.after r).recvWatch = true := by
    intro hmem
    simp [UdpDispatcher.after, hmem]
  rcases UdpDispatcherRx.tryAccept_notifies hr with
    ⟨r₀, e, h₀, he, hrx⟩ | hnotify | ⟨r₀, k, c, h₀, hok, hk, hacc, hs, hrx⟩
  · have heq := h₀.nrQueuedDgrams_eq he
    rw [hrx] at hq
    exact hkeep (by omega)
  · exact .inl (hsent (hnotify hq))
  · have hq₀ : 0 < r₀.rx.nrQueuedDgrams := by
      rw [hrx] at hq
      exact hq
    rcases h₀.accept_notifies hok hk hacc (fun hskip => hno ⟨hwoken, hskip⟩) with heq | hmem | hpos
    · exact hkeep (by omega)
    · rw [← hs] at hmem
      exact .inl (hsent hmem)
    · exact hkeep hpos

theorem runRecv (h : s.Carried) {i : Nat} {peer : SocketAddr}
    {r : UdpRet msgSize qSize (Except String (Option (Datagram msgSize)))} (hno : ¬ s.SkipsNotify (.runRecv i))
    (hi : s.recv[i]? = some ⟨peer, .woken⟩)
    (hr : s.dispatcher.rx.tryRecvFrom s.dispatcher.sockRecv peer = .ok r) (recv : List RecvTask) :
    Carried { s with dispatcher := s.dispatcher.after r, recv := recv } := by
  refine ⟨UdpDispatcherRx.tryRecvFrom_wf h.wf hr, fun hq => .inl ?_⟩
  change 0 < r.rx.nrQueuedDgrams at hq
  have hnotify : .recv ∈ r.sent := by
    rcases UdpDispatcherRx.tryRecvFrom_notifies hr with ⟨r₀, e, h₀, he, hrx⟩ | hnotify
    · have heq := h₀.nrQueuedDgrams_eq he
      rw [hrx] at hq
      have hpos : 0 < s.dispatcher.rx.nrQueuedDgrams := by omega
      exact absurd ⟨⟨peer, hi⟩, h₀.rejects he, hpos⟩ hno
    · exact hnotify hq
  simp [UdpDispatcher.after, hnotify]

/-- Nothing that is queued, notified or woken is lost. -/
theorem mono (h : s.Carried) (hwf : s'.dispatcher.rx.Wf)
    (hq : s'.dispatcher.rx.nrQueuedDgrams ≤ s.dispatcher.rx.nrQueuedDgrams)
    (hwatch : s.dispatcher.recvWatch = true → s'.dispatcher.recvWatch = true)
    (hwoken : ∀ t ∈ s.recv, t.state = .woken → t ∈ s'.recv) : s'.Carried := by
  refine ⟨hwf, ?_⟩
  intro hpos
  rcases h.carried (by omega) with h | ⟨t, ht, hst⟩
  · exact .inl (hwatch h)
  · exact .inr ⟨t, hwoken t ht hst, hst⟩

theorem wakeAccept (h : s.Carried) {wake : Wake} {dispatcher : UdpDispatcher msgSize qSize}
    (hsel : s.dispatcher.select .accept wake = some dispatcher) :
    Carried { s with dispatcher := dispatcher, accept := .woken } := by
  have hrx : dispatcher.rx = s.dispatcher.rx := UdpDispatcher.select_rx hsel
  have hwatch : dispatcher.recvWatch = s.dispatcher.recvWatch := UdpDispatcher.select_accept hsel
  refine ⟨?_, ?_⟩
  · simpa only [hrx] using h.wf
  · simpa only [hrx, hwatch] using h.carried

/-- The task that takes the change is now past its wait. -/
theorem wakeRecv (h : s.Carried) {i : Nat} {peer : SocketAddr} {wake : Wake}
    {dispatcher : UdpDispatcher msgSize qSize} (hi : s.recv[i]? = some ⟨peer, .waiting⟩)
    (hsel : s.dispatcher.select .recv wake = some dispatcher) :
    Carried { s with dispatcher := dispatcher, recv := s.recv.set i ⟨peer, .woken⟩ } := by
  have hrx : dispatcher.rx = s.dispatcher.rx := UdpDispatcher.select_rx hsel
  have hlt : i < s.recv.length := (List.getElem?_eq_some_iff.1 hi).1
  refine ⟨?_, ?_⟩
  · simpa only [hrx] using h.wf
  · intro _
    exact .inr ⟨⟨peer, .woken⟩, List.mem_set hlt _, rfl⟩

theorem resumeRecv (h : s.Carried) {i : Nat} {peer : SocketAddr} (hi : s.recv[i]? = some ⟨peer, .sleeping⟩) :
    Carried { s with recv := s.recv.set i ⟨peer, .waiting⟩ } := by
  refine h.mono h.wf (Nat.le_refl _) id ?_
  intro t ht hst
  obtain ⟨j, hj⟩ := List.mem_iff_getElem?.1 ht
  have hij : i ≠ j := by
    rintro rfl
    rw [hi] at hj
    cases hj
    cases hst
  have hset := List.getElem?_set_ne hij (a := ⟨peer, .waiting⟩) (l := s.recv)
  exact List.mem_iff_getElem?.2 ⟨j, hset.trans hj⟩

theorem step (h : s.Carried) (hno : ¬ s.SkipsNotify e) (hs : s.step e = .ok s') : s'.Carried := by
  cases e with
  | arrive d =>
    cases hs
    exact h.mono h.wf (Nat.le_refl _) id fun t ht _ => ht
  | disconnect peer =>
    obtain ⟨rx, hrx, rfl⟩ := Except.of_map_ok hs
    rw [UdpDispatcherRx.disconnect_ok hrx]
    exact h.mono (h.wf.forget peer) (Nat.sub_le _ _) id fun t ht _ => ht
  | wakeAccept wake =>
    simp only [UdpTasks.step] at hs
    split at hs
    · rename_i dispatcher _ hsel
      cases hs
      exact h.wakeAccept hsel
    · cases hs
      exact h
  | runAccept it =>
    simp only [UdpTasks.step] at hs
    split at hs
    · rename_i hwoken
      obtain ⟨r, hr, hs⟩ := Except.bind_ok hs
      split at hs
      · cases hs
        exact h.runAccept hno hwoken hr _ _
      · cases hs
        exact h.runAccept hno hwoken hr _ _
    · cases hs
      exact h
  | resumeAccept =>
    simp only [UdpTasks.step] at hs
    split at hs
    · cases hs
      exact h.mono h.wf (Nat.le_refl _) id fun t ht _ => ht
    · cases hs
      exact h
  | callRecv peer =>
    simp only [UdpTasks.step] at hs
    cases hs
    split
    · exact h.mono h.wf (Nat.le_refl _) id fun t ht _ => List.mem_append_left _ ht
    · exact h
  | wakeRecv i wake =>
    simp only [UdpTasks.step] at hs
    split at hs
    · rename_i peer dispatcher hi hsel
      cases hs
      exact h.wakeRecv hi hsel
    · cases hs
      exact h
  | runRecv i =>
    simp only [UdpTasks.step] at hs
    split at hs
    · rename_i peer hi
      obtain ⟨r, hr, hs⟩ := Except.bind_ok hs
      split at hs
      · cases hs
        exact h.runRecv hno hi hr _
      · cases hs
        exact h.runRecv hno hi hr _
    · cases hs
      exact h
  | resumeRecv i =>
    simp only [UdpTasks.step] at hs
    split at hs
    · rename_i peer hi
      cases hs
      exact h.resumeRecv hi
    · cases hs
      exact h

end Carried

/-- In every run in which no call skips its notification, no wake-up is lost. -/
theorem no_lost_wakeup (maxNrConn : Nat) (events : List UdpTaskEvent)
    (hno : AllSteps step (fun s e => ¬ s.SkipsNotify e) (new maxNrConn : UdpTasks msgSize qSize) events)
    (hrun : runAll step (new maxNrConn) events = .ok s) : s.NoLostWakeup := by
  have h : s.Carried := runAll_inv (fun _ _ _ h hG hs => h.step hG hs) (.new maxNrConn) hno hrun
  exact h.noLostWakeup

/-! ### Two sessions -/

def peerA : SocketAddr := .v4 ⟨203, 0, 113, 7⟩ 4242

def peerB : SocketAddr := .v4 ⟨203, 0, 113, 8⟩ 4343

/-- Two peers are accepted, with a datagram each, and both sessions wait for it. -/
noncomputable def twoSessions : List UdpTaskEvent :=
  [.arrive ⟨peerA, List.replicate 56 0⟩, .wakeAccept .readable, .runAccept (.ofKeys [peerA] (by decide)),
    .arrive ⟨peerB, List.replicate 56 0⟩, .wakeAccept .readable, .runAccept (.ofKeys [peerA, peerB] (by decide)),
    .callRecv peerA, .callRecv peerB]

/-- Three bytes arrive. The first session is woken by the watch, reads them and fails, and the second one waits on
with its datagram in the queue. -/
noncomputable def badDatagram : List UdpTaskEvent :=
  twoSessions ++ [.arrive ⟨peerA, [1, 2, 3]⟩, .wakeRecv 0 .changed, .runRecv 0]

/-- Both sessions get their datagram and wait for another one, and the first is disconnected. It takes what its peer
sends next, so that `accept` finds the connection empty. The accept task reads a datagram for the second session, and
returns that connection. -/
noncomputable def emptyConnection : List UdpTaskEvent :=
  twoSessions ++ [.wakeRecv 0 .changed, .runRecv 0, .wakeRecv 1 .changed, .runRecv 1, .callRecv peerA, .callRecv peerB,
    .disconnect peerA, .arrive ⟨peerA, List.replicate 56 0⟩, .wakeRecv 2 .readable, .runRecv 2, .wakeRecv 3 .changed,
    .runRecv 3, .resumeRecv 3, .arrive ⟨peerB, List.replicate 56 0⟩, .wakeAccept .readable,
    .runAccept (.ofKeys [peerA, peerB] (by decide))]

theorem not_noLostWakeup (hsocket : s.dispatcher.socket = []) (hwatch : s.dispatcher.recvWatch = false)
    (hnone : ∀ t ∈ s.recv, t.state ≠ .woken) (i : Nat) {t : RecvTask} {c : UdpConn msgSize} (hi : s.recv[i]? = some t)
    (hstate : t.state = .waiting) (hc : s.dispatcher.rx.conn.lookup t.peerAddr = some c) (hacc : c.accepted = true)
    (hq : c.rxQueue ≠ []) : ¬ s.NoLostWakeup := by
  intro h
  rcases h hsocket i t c hi hstate hc hacc hq with hchanged | ⟨j, t', -, hj, hwoken⟩
  · rw [hwatch] at hchanged
    cases hchanged
  · exact hnone t' (List.mem_of_getElem? hj) hwoken

theorem wakeup_lost :
    (∃ s : UdpTasks 56 4, runAll step (new 8) badDatagram = .ok s ∧ ¬ s.NoLostWakeup) ∧
    ∃ s : UdpTasks 56 4, runAll step (new 8) emptyConnection = .ok s ∧ ¬ s.NoLostWakeup := by
  constructor
  · exact ⟨_, rfl, not_noLostWakeup rfl rfl (by decide) 1 rfl rfl rfl rfl (by decide)⟩
  · exact ⟨_, rfl, not_noLostWakeup rfl rfl (by decide) 3 rfl rfl rfl rfl (by decide)⟩

/-- A session that gets its datagram passes the change on. -/
theorem no_lost_wakeup_twoSessions : ∃ s : UdpTasks 56 4,
    runAll step (new 8) (twoSessions ++ [.wakeRecv 0 .changed, .runRecv 0]) = .ok s ∧
    s.recv[1]? = some ⟨peerB, .waiting⟩ ∧ s.NoLostWakeup := by
  refine ⟨_, rfl, rfl, no_lost_wakeup 8 (twoSessions ++ [.wakeRecv 0 .changed, .runRecv 0]) ?_ rfl⟩
  refine .cons id rfl <| .cons id rfl <| .cons ?_ rfl <| .cons id rfl <| .cons id rfl <| .cons ?_ rfl <|
    .cons id rfl <| .cons id rfl <| .cons id rfl <| .cons ?_ rfl trivial
  · rintro ⟨-, -, ⟨-, c, hc, -⟩, -⟩
    cases hc
  · rintro ⟨-, -, ⟨-, c, hc, -⟩, -⟩
    cases hc
  · exact fun h => h.2.1

end UdpTasks
end Letmein
