import Letmein.UdpDelivery
import Letmein.UdpWakeups

/-!
# Peers that wait to be accepted

The accept task goes on when its watch is signalled, which is done for each datagram of a peer that has not been
accepted, or when the socket is readable. The runtime has a flag for the latter. It is set when the driver finds a
datagram in the socket, and it stays set, so that the next wait of any task ends at once, until an attempt to read would
block. A pass of `accept` accepts one peer at most and signals nothing for the others. If it finds the socket empty,
then it clears the flag too, and so does a pass of `recv_from`; then nothing is left that wakes the accept task, however
many peers wait (`LeavesOut`), until a datagram comes in.
-/

namespace Letmein

/-! ## One call -/

namespace UdpDispatcherRx
variable {msgSize qSize : Nat} {s : UdpDispatcherRx msgSize qSize} {socket : SockRecv msgSize} {k peer : SocketAddr}

/-- `k` has an entry that has not been accepted. -/
def Waits (s : UdpDispatcherRx msgSize qSize) (k : SocketAddr) : Prop :=
  k ∈ s.conn ∧ (s.entry k).accepted = false

theorem waits_of_lookup {c : UdpConn msgSize} (hk : s.conn.lookup k = some c) : s.Waits k ↔ c.accepted = false := by
  rw [Waits, entry_of_lookup hk]
  exact and_iff_right (Finmap.mem_of_lookup_eq_some hk)

theorem waits_congr {s' : UdpDispatcherRx msgSize qSize} (h : s'.conn.lookup k = s.conn.lookup k) :
    s'.Waits k ↔ s.Waits k := by
  rw [Waits, Waits, mem_congr h, entry_congr h]

theorem waits_of_drop (h : (s.drop peer).Waits k) : s.Waits k := by
  have hne : k ≠ peer := by
    rintro rfl
    exact notMem_drop s k h.1
  exact (waits_congr (lookup_drop_of_ne hne)).1 h

theorem waits_of_forget (h : (s.forget peer).Waits k) : s.Waits k := waits_of_drop h

/-- The peers that wait after one of them was accepted. -/
theorem waits_put {j : SocketAddr} {c : UdpConn msgSize} {nr : Nat} (hc : c.accepted = true) :
    (s.put j c nr).Waits k ↔ k ≠ j ∧ s.Waits k := by
  by_cases hk : k = j
  · subst hk
    simp [Waits, entry_put_self, hc]
  · rw [Waits, Waits, entry_put_of_ne hk, mem_put]
    simp [hk]

/-- A datagram that makes a peer wait signals the watch. -/
theorem Received.waits {r : UdpRet msgSize qSize (Except String Unit)} (hr : Received s socket r) :
    .accept ∈ r.sent ∨ ∀ k, r.rx.Waits k → s.Waits k := by
  cases hr with
  | overflow => exact .inr fun k => waits_of_drop
  | @queued peer buf =>
    cases hacc : (s.entry peer).accepted with
    | false => exact .inl (by simp)
    | true =>
      refine .inr fun k hk => ?_
      by_cases hkp : k = peer
      · subst hkp
        have hno := hk.2
        rw [entry_push_self, hacc] at hno
        cases hno
      · exact (waits_congr (lookup_push_of_ne hkp buf)).1 hk
  | _ => exact .inr fun k => id

theorem firstUnaccepted_none {it : IterOrder SocketAddr} (h : s.firstUnaccepted it = none) : ¬ s.Waits k := by
  rintro ⟨hmem, hacc⟩
  obtain ⟨c, hc⟩ := Finmap.mem_iff.1 hmem
  have hk := List.findSome?_eq_none_iff.1 h k ((it.mem_order _ _).2 (Finmap.mem_keys.2 hmem))
  rw [entry_of_lookup hc] at hacc
  simp [hc, hacc] at hk

theorem accept_notMem_recvNotify : .accept ∉ s.recvNotify := by
  rw [recvNotify]
  split <;> simp

/-- Without a datagram, `tryAccept` accepts one of the peers that wait. It does not signal the watch for the others. -/
theorem tryAccept_idle {it : IterOrder SocketAddr} {r : UdpRet msgSize qSize (Option SocketAddr)}
    (hr : s.tryAccept .wouldBlock it = .ok r) :
    .accept ∉ r.sent ∧ ((∃ k, r.rx.Waits k) ↔ ∃ j k, j ≠ k ∧ s.Waits j ∧ s.Waits k) := by
  obtain ⟨r₀, h₀, hr⟩ := Except.bind_ok hr
  cases h₀
  simp only at hr
  split at hr
  · rename_i j c hj
    obtain ⟨hj, hacc⟩ := firstUnaccepted_some hj
    have hfirst : s.Waits j := (waits_of_lookup hj).2 hacc
    cases hr
    have hleft : ∀ k, (s.put j { c with accepted := true } s.nrQueuedDgrams).Waits k ↔ k ≠ j ∧ s.Waits k :=
      fun k => waits_put rfl
    refine ⟨List.not_mem_nil, ?_, ?_⟩
    · rintro ⟨k, hk⟩
      obtain ⟨hne, hk⟩ := (hleft k).1 hk
      exact ⟨k, j, hne, hk, hfirst⟩
    · rintro ⟨a, b, hab, ha, hb⟩
      by_cases haj : a = j
      · exact ⟨b, (hleft b).2 ⟨haj ▸ hab.symm, hb⟩⟩
      · exact ⟨a, (hleft a).2 ⟨haj, ha⟩⟩
  · rename_i hnone
    cases hr
    refine ⟨accept_notMem_recvNotify, ?_, ?_⟩
    · rintro ⟨k, hk⟩
      exact absurd hk (firstUnaccepted_none hnone)
    · rintro ⟨a, b, -, ha, -⟩
      exact absurd ha (firstUnaccepted_none hnone)

/-- `tryRecvFrom` takes a datagram from a queue at most, after it has tried to read one. -/
theorem tryRecvFrom_waits {r : UdpRet msgSize qSize (Except String (Option (Datagram msgSize)))}
    (hr : s.tryRecvFrom socket peer = .ok r) :
    ∃ r₀ sent, Received s socket r₀ ∧ r.sent = r₀.sent ++ sent ∧ .accept ∉ sent ∧
      ∀ k, r.rx.Waits k ↔ r₀.rx.Waits k := by
  obtain ⟨r₀, h₀, hr⟩ := Except.bind_ok hr
  refine ⟨r₀, ?_⟩
  split at hr
  · cases hr
    exact ⟨[], tryRecv_ok h₀, (List.append_nil _).symm, List.not_mem_nil, fun k => .rfl⟩
  split at hr
  · rename_i buf rest addr acc hpeer
    obtain ⟨nr, -, hr⟩ := Except.bind_ok hr
    cases hr
    refine ⟨_, tryRecv_ok h₀, rfl, accept_notMem_recvNotify, fun k => ?_⟩
    by_cases hkp : k = peer
    · subst hkp
      rw [waits_of_lookup (Finmap.lookup_insert _), waits_of_lookup hpeer]
    · exact waits_congr (Finmap.lookup_insert_of_ne _ hkp)
  · cases hr
    exact ⟨_, tryRecv_ok h₀, rfl, accept_notMem_recvNotify, fun k => .rfl⟩

/-- Without a datagram, the same peers wait as before. -/
theorem tryRecvFrom_idle {r : UdpRet msgSize qSize (Except String (Option (Datagram msgSize)))}
    (hr : s.tryRecvFrom .wouldBlock peer = .ok r) : .accept ∉ r.sent ∧ ∀ k, r.rx.Waits k ↔ s.Waits k := by
  obtain ⟨r₀, sent, h₀, hsent, hno, hwaits⟩ := tryRecvFrom_waits hr
  cases h₀
  exact ⟨by simpa [hsent] using hno, hwaits⟩

end UdpDispatcherRx


/-! ## Tasks and readiness -/

/-- Where a task is. -/
inductive Await where
  -- Before `select!`: not called again yet, in the pause after a pass, or at the lock of the watch.
  | away
  -- At `select!`. The driver has told it of the socket, or not.
  | waiting (notified : Bool)
  -- Past `select!`, at the lock of the connections.
  | woken
deriving DecidableEq, Repr

namespace Await

/-- `readable()` returns: at once if the flag is set, and later if the driver has told the task, which holds even if the
flag has been cleared since. -/
def readable (ready : Bool) : Await → Bool
  | .away => ready
  | .waiting notified => notified
  | .woken => false

/-- The driver tells a task that waits. -/
def notify : Await → Await
  | .waiting _ => .waiting true
  | await => await

def atSelect : Await → Bool
  | .waiting _ => true
  | _ => false

variable {await : Await} {ready ready' : Bool}

theorem readable_of_ne_away (h : await.readable ready = true) (hne : await ≠ .away) : await.readable ready' = true := by
  cases await with
  | away => exact absurd rfl hne
  | waiting notified => exact h
  | woken => cases h

theorem readable_of_ready (hwoken : await ≠ .woken) (htold : await ≠ .waiting false) : await.readable true = true := by
  cases await with
  | away => rfl
  | waiting notified =>
    cases notified with
    | true => rfl
    | false => exact absurd rfl htold
  | woken => exact absurd rfl hwoken

end Await

/-- The dispatcher with the runtime's flag for its socket. -/
structure ReadyDispatcher (msgSize qSize : Nat) extends UdpDispatcher msgSize qSize where
  ready : Bool

namespace ReadyDispatcher
variable {msgSize qSize : Nat}

def new (maxNrConn : Nat) : ReadyDispatcher msgSize qSize := ⟨.new maxNrConn, false⟩

/-- `try_recv_from` on the socket. Without the flag it would block, whatever has arrived. -/
def tryRead (s : ReadyDispatcher msgSize qSize) : SockRecv msgSize := if s.ready then s.sockRecv else .wouldBlock

/-- The dispatcher after a call. The flag is cleared if reading would block, not if a datagram was read. -/
def after {α : Type} (s : ReadyDispatcher msgSize qSize) (r : UdpRet msgSize qSize α) : ReadyDispatcher msgSize qSize where
  rx := r.rx
  socket := if s.ready then s.socket.tail else s.socket
  acceptWatch := s.acceptWatch || r.sent.contains .accept
  recvWatch := s.recvWatch || r.sent.contains .recv
  ready := s.ready && !s.socket.isEmpty

def changed (s : ReadyDispatcher msgSize qSize) : Watch → Bool
  | .accept => s.acceptWatch
  | .recv => s.recvWatch

def consume (s : ReadyDispatcher msgSize qSize) : Watch → ReadyDispatcher msgSize qSize
  | .accept => { s with acceptWatch := false }
  | .recv => { s with recvWatch := false }

/-- The dispatcher after `select!` of the socket and a watch, if the task gets past it with this branch. -/
def select (s : ReadyDispatcher msgSize qSize) (watch : Watch) (await : Await) :
    Wake → Option (ReadyDispatcher msgSize qSize)
  | .readable => if await.readable s.ready then some s else none
  | .changed => if await ≠ .woken ∧ s.changed watch = true then some (s.consume watch) else none

end ReadyDispatcher

/-- The dispatcher, the task that calls `accept` again and again, the peers that it has got, and the calls of
`recv_from` that have not ended. -/
structure ReadyTasks (msgSize qSize : Nat) where
  dispatcher : ReadyDispatcher msgSize qSize
  accept : Await
  peers : List SocketAddr
  recv : List (SocketAddr × Await)

inductive ReadyEvent where
  | arrive (d : UdpArrival)
  -- The runtime has one thread, so no task reads between the driver's look at the socket and the flag.
  | driver
  | disconnect (peerAddr : SocketAddr)
  | waitAccept
  | wakeAccept (wake : Wake)
  | runAccept (it : IterOrder SocketAddr)
  | callRecv (peerAddr : SocketAddr)
  | waitRecv (i : Nat)
  | wakeRecv (i : Nat) (wake : Wake)
  | runRecv (i : Nat)
  | cancelRecv (i : Nat)

namespace ReadyTasks
variable {msgSize qSize : Nat}

def new (maxNrConn : Nat) : ReadyTasks msgSize qSize := ⟨.new maxNrConn, .away, [], []⟩

/-- The driver has found the socket readable. -/
def notify (s : ReadyTasks msgSize qSize) : ReadyTasks msgSize qSize where
  dispatcher := { s.dispatcher with ready := true }
  accept := s.accept.notify
  peers := s.peers
  recv := s.recv.map fun t => (t.1, t.2.notify)

/-- No other `recv_from` is at `select!`, where it would hold the lock of the watch. -/
def lockFree (s : ReadyTasks msgSize qSize) (i : Nat) : Bool := (s.recv.eraseIdx i).all fun t => !t.2.atSelect

/-- An event that cannot happen changes nothing. -/
def step (s : ReadyTasks msgSize qSize) : ReadyEvent → Except Panic (ReadyTasks msgSize qSize)
  | .arrive d => return { s with dispatcher := { s.dispatcher with socket := s.dispatcher.socket ++ [d] } }
  | .driver => return if s.dispatcher.socket.isEmpty then s else s.notify
  | .disconnect peerAddr =>
    (fun rx => { s with dispatcher := { s.dispatcher with rx := rx } }) <$> s.dispatcher.rx.disconnect peerAddr
  | .waitAccept =>
    match s.accept, s.dispatcher.ready, s.dispatcher.acceptWatch with
    | .away, false, false => return { s with accept := .waiting false }
    | _, _, _ => return s
  | .wakeAccept wake =>
    match s.dispatcher.select .accept s.accept wake with
    | some dispatcher => return { s with dispatcher := dispatcher, accept := .woken }
    | none => return s
  | .runAccept it =>
    match s.accept with
    | .woken => do
      let r ← s.dispatcher.rx.tryAccept s.dispatcher.tryRead it
      return { s with dispatcher := s.dispatcher.after r, accept := .away, peers := r.val.toList ++ s.peers }
    | _ => return s
  | .callRecv peerAddr => return if peerAddr ∈ s.peers then { s with recv := s.recv ++ [(peerAddr, .away)] } else s
  | .waitRecv i =>
    match s.recv[i]?, s.dispatcher.ready, s.dispatcher.recvWatch, s.lockFree i with
    | some (peerAddr, .away), false, false, true => return { s with recv := s.recv.set i (peerAddr, .waiting false) }
    | _, _, _, _ => return s
  | .wakeRecv i wake =>
    match s.recv[i]?, s.lockFree i with
    | some (peerAddr, await), true =>
      match s.dispatcher.select .recv await wake with
      | some dispatcher => return { s with dispatcher := dispatcher, recv := s.recv.set i (peerAddr, .woken) }
      | none => return s
    | _, _ => return s
  | .runRecv i =>
    match s.recv[i]? with
    | some (peerAddr, .woken) => do
      let r ← s.dispatcher.rx.tryRecvFrom s.dispatcher.tryRead peerAddr
      match r.val with
      | .ok none => return { s with dispatcher := s.dispatcher.after r, recv := s.recv.set i (peerAddr, .away) }
      | _ => return { s with dispatcher := s.dispatcher.after r, recv := s.recv.eraseIdx i }
    | _ => return s
  -- a timeout of the caller
  | .cancelRecv i => return { s with recv := s.recv.eraseIdx i }

/-! ### What a step can do -/

variable {s s' : ReadyTasks msgSize qSize} {e : ReadyEvent}

inductive Stepped (s : ReadyTasks msgSize qSize) : ReadyEvent → ReadyTasks msgSize qSize → Prop
  | arrived (d : UdpArrival) :
      Stepped s (.arrive d) { s with dispatcher := { s.dispatcher with socket := s.dispatcher.socket ++ [d] } }
  | notified (hsocket : s.dispatcher.socket ≠ []) : Stepped s .driver s.notify
  | disconnected (peer : SocketAddr) : Stepped s (.disconnect peer)
      { s with dispatcher := { s.dispatcher with rx := s.dispatcher.rx.forget peer } }
  | registered (haway : s.accept = .away) (hready : s.dispatcher.ready = false)
      (hwatch : s.dispatcher.acceptWatch = false) : Stepped s .waitAccept { s with accept := .waiting false }
  | woken {wake : Wake} {dispatcher : ReadyDispatcher msgSize qSize}
      (hsel : s.dispatcher.select .accept s.accept wake = some dispatcher) :
      Stepped s (.wakeAccept wake) { s with dispatcher := dispatcher, accept := .woken }
  | accepted {it : IterOrder SocketAddr} {r : UdpRet msgSize qSize (Option SocketAddr)} (hwoken : s.accept = .woken)
      (hr : s.dispatcher.rx.tryAccept s.dispatcher.tryRead it = .ok r) : Stepped s (.runAccept it)
      { s with dispatcher := s.dispatcher.after r, accept := .away, peers := r.val.toList ++ s.peers }
  | received {i : Nat} {peer : SocketAddr} {r : UdpRet msgSize qSize (Except String (Option (Datagram msgSize)))}
      (recv : List (SocketAddr × Await)) (hi : s.recv[i]? = some (peer, .woken))
      (hr : s.dispatcher.rx.tryRecvFrom s.dispatcher.tryRead peer = .ok r) :
      Stepped s (.runRecv i) { s with dispatcher := s.dispatcher.after r, recv := recv }
  -- nothing that the accept task looks at
  | unheard (e : ReadyEvent) (recvWatch : Bool) (recv : List (SocketAddr × Await)) :
      Stepped s e { s with dispatcher := { s.dispatcher with recvWatch := recvWatch }, recv := recv }

theorem Stepped.same (s : ReadyTasks msgSize qSize) (e : ReadyEvent) : Stepped s e s :=
  .unheard e s.dispatcher.recvWatch s.recv

theorem select_recv {await : Await} {wake : Wake} {dispatcher : ReadyDispatcher msgSize qSize}
    (h : s.dispatcher.select .recv await wake = some dispatcher) :
    ∃ recvWatch, dispatcher = { s.dispatcher with recvWatch := recvWatch } := by
  cases wake <;>
  · simp only [ReadyDispatcher.select] at h
    split at h <;> cases h
    exact ⟨_, rfl⟩

theorem step_ok (hs : s.step e = .ok s') : Stepped s e s' := by
  cases e with
  | arrive d =>
    cases hs
    exact .arrived d
  | driver =>
    simp only [step] at hs
    cases hs
    split
    · exact .same s .driver
    · rename_i hsocket
      exact .notified (by simpa using hsocket)
  | disconnect peer =>
    obtain ⟨rx, hrx, rfl⟩ := Except.of_map_ok hs
    rw [UdpDispatcherRx.disconnect_ok hrx]
    exact .disconnected peer
  | waitAccept =>
    simp only [step] at hs
    split at hs
    · cases hs
      exact .registered ‹_› ‹_› ‹_›
    · cases hs
      exact .same s .waitAccept
  | wakeAccept wake =>
    simp only [step] at hs
    split at hs
    · cases hs
      exact .woken ‹_›
    · cases hs
      exact .same s (.wakeAccept wake)
  | runAccept it =>
    simp only [step] at hs
    split at hs
    · obtain ⟨r, hr, hs⟩ := Except.bind_ok hs
      cases hs
      exact .accepted ‹_› hr
    · cases hs
      exact .same s (.runAccept it)
  | callRecv peer =>
    simp only [step] at hs
    cases hs
    split
    · exact .unheard _ s.dispatcher.recvWatch _
    · exact .same s (.callRecv peer)
  | waitRecv i =>
    simp only [step] at hs
    split at hs
    · cases hs
      exact .unheard _ s.dispatcher.recvWatch _
    · cases hs
      exact .same s (.waitRecv i)
  | wakeRecv i wake =>
    simp only [step] at hs
    split at hs
    · split at hs
      · rename_i hsel
        obtain ⟨recvWatch, rfl⟩ := select_recv hsel
        cases hs
        exact .unheard _ recvWatch _
      · cases hs
        exact .same s (.wakeRecv i wake)
    · cases hs
      exact .same s (.wakeRecv i wake)
  | runRecv i =>
    simp only [step] at hs
    split at hs
    · rename_i hi
      obtain ⟨r, hr, hs⟩ := Except.bind_ok hs
      split at hs <;> cases hs <;> exact .received _ hi hr
    · cases hs
      exact .same s (.runRecv i)
  | cancelRecv i =>
    cases hs
    exact .unheard _ s.dispatcher.recvWatch _

/-! ### What wakes the accept task -/

/-- The accept task is past its wait, or its wait ends: for a change of its watch, for the readiness of the socket, or
for a datagram that the driver will find. -/
def CanAccept (s : ReadyTasks msgSize qSize) : Prop :=
  s.accept = .woken ∨ s.dispatcher.acceptWatch = true ∨ s.accept.readable s.dispatcher.ready = true ∨
    s.dispatcher.socket ≠ []

/-- It gets past its wait with the help of the driver only. -/
def Wakes (s : ReadyTasks msgSize qSize) : Prop :=
  ∃ events s', (∀ e ∈ events, e = .driver ∨ ∃ wake, e = .wakeAccept wake) ∧ runAll step s events = .ok s' ∧
    s'.accept = .woken

/-- With nothing to read and no change for the accept task, a pass of `accept` accepts one of two peers that wait, or a
pass of `recv_from` clears the flag before the accept task has seen it while a peer waits. -/
def LeavesOut (s : ReadyTasks msgSize qSize) : ReadyEvent → Prop
  | .runAccept _ => s.dispatcher.socket = [] ∧ s.dispatcher.acceptWatch = false ∧ s.accept = .woken ∧
      ∃ j k, j ≠ k ∧ s.dispatcher.rx.Waits j ∧ s.dispatcher.rx.Waits k
  | .runRecv i => s.dispatcher.socket = [] ∧ s.dispatcher.acceptWatch = false ∧ s.accept = .away ∧
      s.dispatcher.ready = true ∧ (∃ peer, s.recv[i]? = some (peer, .woken)) ∧ ∃ k, s.dispatcher.rx.Waits k
  | _ => False

/-- While a peer waits, the accept task can go on. It is not left at `select!` when the flag is set. -/
structure Heard (s : ReadyTasks msgSize qSize) : Prop where
  told : s.accept = .waiting false → s.dispatcher.ready = false
  heard : ∀ k, s.dispatcher.rx.Waits k → s.CanAccept

theorem tryRead_of_empty (h : s.dispatcher.ready = true → s.dispatcher.socket = []) :
    s.dispatcher.tryRead = .wouldBlock := by
  rw [ReadyDispatcher.tryRead]
  split
  · rename_i hready
    rw [UdpDispatcher.sockRecv, h hready]
  · rfl

theorem readable_notify (hwoken : s.accept ≠ .woken) : s.notify.accept.readable s.notify.dispatcher.ready = true := by
  cases haccept : s.accept with
  | woken => exact absurd haccept hwoken
  | _ => simp [notify, haccept, Await.notify, Await.readable]

theorem step_wakeAccept {wake : Wake} {dispatcher : ReadyDispatcher msgSize qSize}
    (h : s.dispatcher.select .accept s.accept wake = some dispatcher) :
    s.step (.wakeAccept wake) = .ok { s with dispatcher := dispatcher, accept := .woken } := by
  simp only [step, h]
  rfl

theorem wakes_of_readable (h : s.accept.readable s.dispatcher.ready = true) : s.Wakes := by
  have hsel : s.dispatcher.select .accept s.accept .readable = some s.dispatcher := if_pos h
  exact ⟨[.wakeAccept .readable], _, by simp, runAll_cons_ok (step_wakeAccept hsel), rfl⟩

theorem CanAccept.wakes (h : s.CanAccept) : s.Wakes := by
  by_cases hwoken : s.accept = .woken
  · exact ⟨[], s, by simp, rfl, hwoken⟩
  rcases h with hwoken' | hwatch | hreadable | hsocket
  · exact absurd hwoken' hwoken
  · have hsel : s.dispatcher.select .accept s.accept .changed = some (s.dispatcher.consume .accept) :=
      if_pos ⟨hwoken, hwatch⟩
    exact ⟨[.wakeAccept .changed], _, by simp, runAll_cons_ok (step_wakeAccept hsel), rfl⟩
  · exact wakes_of_readable hreadable
  · obtain ⟨events, s', hevents, hrun, hs'⟩ := wakes_of_readable (readable_notify hwoken)
    have hstep : s.step .driver = .ok s.notify := by simp [step, hsocket, pure, Except.pure]
    exact ⟨.driver :: events, s', by simpa using hevents, (runAll_cons_ok hstep).trans hrun, hs'⟩

namespace Heard

theorem new (maxNrConn : Nat) : (new maxNrConn : ReadyTasks msgSize qSize).Heard where
  told h := by cases h
  heard _ hk := absurd hk.1 Finmap.notMem_empty

/-- After a pass of the accept task. -/
theorem of_accepted {it : IterOrder SocketAddr} {r : UdpRet msgSize qSize (Option SocketAddr)}
    (hno : ¬ s.LeavesOut (.runAccept it)) (hwoken : s.accept = .woken)
    (hr : s.dispatcher.rx.tryAccept s.dispatcher.tryRead it = .ok r) (peers : List SocketAddr) :
    Heard { s with dispatcher := s.dispatcher.after r, accept := .away, peers := peers } := by
  refine ⟨nofun, fun k hk => ?_⟩
  by_cases hsocket : s.dispatcher.socket = []
  · -- it has not read a datagram
    rw [tryRead_of_empty fun _ => hsocket] at hr
    have hwaits := (UdpDispatcherRx.tryAccept_idle hr).2.1 ⟨k, hk⟩
    cases hwatch : s.dispatcher.acceptWatch with
    | true => exact .inr (.inl (by simp [ReadyDispatcher.after, hwatch]))
    | false => exact absurd ⟨hsocket, hwatch, hwoken, hwaits⟩ hno
  · -- the flag stays set, or the driver has not found the datagram yet
    cases hready : s.dispatcher.ready with
    | true => exact .inr (.inr (.inl (by simp [ReadyDispatcher.after, Await.readable, hready, hsocket])))
    | false => exact .inr (.inr (.inr (by simp [ReadyDispatcher.after, hready, hsocket])))

/-- After a pass of a receiver. -/
theorem received (h : s.Heard) {i : Nat} {peer : SocketAddr}
    {r : UdpRet msgSize qSize (Except String (Option (Datagram msgSize)))} (hno : ¬ s.LeavesOut (.runRecv i))
    (hi : s.recv[i]? = some (peer, .woken)) (hr : s.dispatcher.rx.tryRecvFrom s.dispatcher.tryRead peer = .ok r)
    (recv : List (SocketAddr × Await)) : Heard { s with dispatcher := s.dispatcher.after r, recv := recv } := by
  refine ⟨fun haccept => by simp [ReadyDispatcher.after, h.told haccept], fun k hk => ?_⟩
  obtain ⟨r₀, sent, h₀, hsent, -, hwaits⟩ := UdpDispatcherRx.tryRecvFrom_waits hr
  have hk : r₀.rx.Waits k := (hwaits k).1 hk
  rcases h₀.waits with hmem | hold
  · exact .inr (.inl (by simp [ReadyDispatcher.after, hsent, hmem]))
  have hk : s.dispatcher.rx.Waits k := hold k hk
  cases hwatch : s.dispatcher.acceptWatch with
  | true => exact .inr (.inl (by simp [ReadyDispatcher.after, hwatch]))
  | false =>
  by_cases hsocket : s.dispatcher.socket = []
  · -- the flag is cleared: the accept task must not depend on it
    rcases h.heard k hk with hwoken | hchanged | hreadable | hsome
    · exact .inl hwoken
    · rw [hwatch] at hchanged
      cases hchanged
    · by_cases haway : s.accept = .away
      · rw [haway] at hreadable
        exact absurd ⟨hsocket, hwatch, haway, hreadable, ⟨peer, hi⟩, k, hk⟩ hno
      · exact .inr (.inr (.inl (Await.readable_of_ne_away hreadable haway)))
    · exact absurd hsocket hsome
  · -- a datagram was read, or the driver has not found it yet
    cases hready : s.dispatcher.ready with
    | false => exact .inr (.inr (.inr (by simp [ReadyDispatcher.after, hready, hsocket])))
    | true =>
      have hafter : (s.dispatcher.after r).ready = true := by simp [ReadyDispatcher.after, hready, hsocket]
      by_cases hwoken : s.accept = .woken
      · exact .inl hwoken
      · refine .inr (.inr (.inl ?_))
        rw [hafter]
        refine Await.readable_of_ready hwoken fun haccept => ?_
        rw [h.told haccept] at hready
        cases hready

theorem step (h : s.Heard) (hno : ¬ s.LeavesOut e) (hs : s.step e = .ok s') : s'.Heard := by
  cases step_ok hs with
  | arrived d => exact ⟨h.told, fun k _ => .inr (.inr (.inr (by simp)))⟩
  | notified =>
    refine ⟨fun haccept => ?_, fun k _ => ?_⟩
    · simp only [notify] at haccept
      cases hs : s.accept <;> rw [hs] at haccept <;> cases haccept
    · by_cases hwoken : s.accept = .woken
      · refine .inl ?_
        show s.accept.notify = .woken
        rw [hwoken]
        rfl
      · exact .inr (.inr (.inl (readable_notify hwoken)))
  | disconnected peer => exact ⟨h.told, fun k hk => h.heard k (UdpDispatcherRx.waits_of_forget hk)⟩
  | registered haway hready hwatch =>
    refine ⟨fun _ => hready, fun k hk => ?_⟩
    rcases h.heard k hk with hwoken | hchanged | hreadable | hsocket
    · rw [haway] at hwoken
      cases hwoken
    · rw [hwatch] at hchanged
      cases hchanged
    · rw [haway, Await.readable, hready] at hreadable
      cases hreadable
    · exact .inr (.inr (.inr hsocket))
  | woken hsel => exact ⟨nofun, fun k _ => .inl rfl⟩
  | accepted hwoken hr => exact .of_accepted hno hwoken hr _
  | received recv hi hr => exact h.received hno hi hr recv
  | unheard e recvWatch recv => exact ⟨h.told, h.heard⟩

end Heard

/-! ### A peer that is left out -/

/-- Nothing wakes the accept task. -/
structure Unheard (s : ReadyTasks msgSize qSize) : Prop where
  socket : s.dispatcher.socket = []
  ready : s.dispatcher.ready = false
  watch : s.dispatcher.acceptWatch = false
  accept : s.accept = .away ∨ s.accept = .waiting false

namespace Unheard

theorem not_canAccept (h : s.Unheard) : ¬ s.CanAccept := by
  rintro (hwoken | hwatch | hreadable | hsocket)
  · rcases h.accept with haccept | haccept <;> rw [haccept] at hwoken <;> cases hwoken
  · rw [h.watch] at hwatch
    cases hwatch
  · rw [h.ready] at hreadable
    rcases h.accept with haccept | haccept <;> rw [haccept] at hreadable <;> cases hreadable
  · exact hsocket h.socket

/-- It stays so, and no peer is accepted, until a datagram arrives. -/
theorem step (h : s.Unheard) (hno : ∀ d, e ≠ .arrive d) (hs : s.step e = .ok s') : s'.Unheard ∧ s'.peers = s.peers := by
  cases step_ok hs with
  | arrived d => exact absurd rfl (hno d)
  | notified hsocket => exact absurd h.socket hsocket
  | disconnected peer => exact ⟨⟨h.socket, h.ready, h.watch, h.accept⟩, rfl⟩
  | registered => exact ⟨⟨h.socket, h.ready, h.watch, .inr rfl⟩, rfl⟩
  | @woken wake dispatcher hsel =>
    cases wake with
    | readable =>
      rw [ReadyDispatcher.select, h.ready] at hsel
      rcases h.accept with haccept | haccept <;> rw [haccept] at hsel <;> cases hsel
    | changed =>
      rw [ReadyDispatcher.select, if_neg (by simp [ReadyDispatcher.changed, h.watch])] at hsel
      cases hsel
  | accepted hwoken => exact absurd (.inl hwoken) h.not_canAccept
  | received recv hi hr =>
    rw [tryRead_of_empty fun _ => h.socket] at hr
    have hsent := (UdpDispatcherRx.tryRecvFrom_idle hr).1
    refine ⟨⟨?_, ?_, ?_, h.accept⟩, rfl⟩
    · simp [ReadyDispatcher.after, h.socket]
    · simp [ReadyDispatcher.after, h.ready]
    · simp [ReadyDispatcher.after, h.watch, hsent]
  | unheard => exact ⟨⟨h.socket, h.ready, h.watch, h.accept⟩, rfl⟩

theorem run (h : s.Unheard) {later : List ReadyEvent} (harrive : ∀ d, .arrive d ∉ later)
    (hrun : runAll ReadyTasks.step s later = .ok s') : s'.Unheard ∧ s'.peers = s.peers := by
  refine runAll_inv_mem (P := fun t => t.Unheard ∧ t.peers = s.peers) ?_ ⟨h, rfl⟩ hrun
  rintro t e t' he ⟨ht, hpeers⟩ hstep
  obtain ⟨ht', hsame⟩ := ht.step (fun d hd => harrive d (hd ▸ he)) hstep
  exact ⟨ht', hsame.trans hpeers⟩

end Unheard

theorem LeavesOut.step (h : s.LeavesOut e) (hs : s.step e = .ok s') :
    (∃ k, s'.dispatcher.rx.Waits k) ∧ s'.Unheard := by
  cases e with
  | runAccept it =>
    obtain ⟨hsocket, hwatch, hwoken, hwaits⟩ := h
    simp only [ReadyTasks.step, hwoken] at hs
    obtain ⟨r, hr, hs⟩ := Except.bind_ok hs
    rw [tryRead_of_empty fun _ => hsocket] at hr
    obtain ⟨hsent, hleft⟩ := UdpDispatcherRx.tryAccept_idle hr
    cases hs
    refine ⟨hleft.2 hwaits, ?_, ?_, ?_, .inl rfl⟩
    · simp [ReadyDispatcher.after, hsocket]
    · simp [ReadyDispatcher.after, hsocket]
    · simp [ReadyDispatcher.after, hwatch, hsent]
  | runRecv i =>
    obtain ⟨hsocket, hwatch, haway, -, ⟨peer, hi⟩, k, hk⟩ := h
    simp only [ReadyTasks.step, hi] at hs
    obtain ⟨r, hr, hs⟩ := Except.bind_ok hs
    rw [tryRead_of_empty fun _ => hsocket] at hr
    obtain ⟨hsent, hsame⟩ := UdpDispatcherRx.tryRecvFrom_idle hr
    have hunheard : ∀ recv, Unheard { s with dispatcher := s.dispatcher.after r, recv := recv } := by
      refine fun recv => ⟨?_, ?_, ?_, .inl haway⟩
      · simp [ReadyDispatcher.after, hsocket]
      · simp [ReadyDispatcher.after, hsocket]
      · simp [ReadyDispatcher.after, hwatch, hsent]
    split at hs <;> cases hs <;> exact ⟨⟨k, (hsame k).2 hk⟩, hunheard _⟩
  | _ => exact h.elim

/-- In every run in which no step leaves a peer out, the accept task wakes while a peer waits. If the next step leaves
one out, then a peer waits, but the accept task does not wake and no peer is accepted in whatever follows, until a
datagram arrives. -/
theorem no_peer_left_out (maxNrConn : Nat) (events : List ReadyEvent)
    (hno : AllSteps step (fun s e => ¬ s.LeavesOut e) (new maxNrConn : ReadyTasks msgSize qSize) events)
    (hrun : runAll step (new maxNrConn) events = .ok s) :
    (∀ k, s.dispatcher.rx.Waits k → s.Wakes) ∧
    ∀ e s', s.LeavesOut e → s.step e = .ok s' → (∃ k, s'.dispatcher.rx.Waits k) ∧
      ∀ later s'', (∀ d, .arrive d ∉ later) → runAll step s' later = .ok s'' →
        s''.accept ≠ .woken ∧ s''.peers = s'.peers := by
  have h : s.Heard := runAll_inv (fun _ _ _ h hG hs => h.step hG hs) (.new maxNrConn) hno hrun
  refine ⟨fun k hk => (h.heard k hk).wakes, fun e s' hout hs => ?_⟩
  obtain ⟨hwaits, hunheard⟩ := hout.step hs
  refine ⟨hwaits, fun later s'' harrive hlater => ?_⟩
  obtain ⟨hstill, hpeers⟩ := hunheard.run harrive hlater
  exact ⟨fun hwoken => hstill.not_canAccept (.inl hwoken), hpeers⟩

/-! ### Two new peers -/

open UdpTasks (peerA peerB)

def peerC : SocketAddr := .v4 ⟨203, 0, 113, 9⟩ 4444

def peerD : SocketAddr := .v4 ⟨203, 0, 113, 10⟩ 4545

theorem nodup_accepted : [peerA, peerB].Nodup := by decide

/-- Two peers are accepted. Their sessions read the datagrams of two new peers, and the accept task is woken by its
watch. -/
noncomputable def twoWaiting : List ReadyEvent :=
  [.arrive ⟨peerA, List.replicate 56 0⟩, .driver, .wakeAccept .readable,
    .runAccept (.ofKeys [peerA] (List.nodup_singleton _)),
    .arrive ⟨peerB, List.replicate 56 0⟩, .driver, .wakeAccept .readable,
    .runAccept (.ofKeys [peerA, peerB] nodup_accepted),
    .callRecv peerA, .callRecv peerB, .arrive ⟨peerC, List.replicate 56 0⟩, .arrive ⟨peerD, List.replicate 56 0⟩,
    .wakeRecv 0 .readable, .runRecv 0, .wakeRecv 0 .readable, .runRecv 0, .wakeAccept .changed]

theorem twoWaiting_leavesNone :
    AllSteps step (fun s e => ¬ s.LeavesOut e) (new 8 : ReadyTasks 56 4) twoWaiting := by
  refine .cons id rfl <| .cons id rfl <| .cons id rfl <| .cons ?_ rfl <| .cons id rfl <| .cons id rfl <|
    .cons id rfl <| .cons ?_ rfl <| .cons id rfl <| .cons id rfl <| .cons id rfl <| .cons id rfl <|
    .cons id rfl <| .cons ?_ rfl <| .cons id rfl <| .cons ?_ rfl <| .cons id rfl trivial
  all_goals
    rintro ⟨hsocket, -⟩
    cases hsocket

/-- The next pass of `accept` returns one of them. The other one is not accepted until a datagram arrives. -/
theorem no_peer_left_out_twoWaiting : ∃ (s s' : ReadyTasks 56 4) (it : IterOrder SocketAddr),
    runAll step (new 8) twoWaiting = .ok s ∧ s.step (.runAccept it) = .ok s' ∧ (∃ k, s'.dispatcher.rx.Waits k) ∧
    ∀ later s'', (∀ d, .arrive d ∉ later) → runAll step s' later = .ok s'' →
      s''.accept ≠ .woken ∧ s''.peers = s'.peers := by
  let it : IterOrder SocketAddr := .ofKeys [peerA, peerB, peerC, peerD] (by decide)
  have hstate : ∃ s s' : ReadyTasks 56 4, runAll step (new 8) twoWaiting = .ok s ∧ s.LeavesOut (.runAccept it) ∧
      s.step (.runAccept it) = .ok s' := by
    refine ⟨_, _, rfl, ⟨rfl, rfl, rfl, peerC, peerD, by decide, ?_, ?_⟩, rfl⟩
    · exact ⟨by decide, rfl⟩
    · exact ⟨by decide, rfl⟩
  obtain ⟨s, s', hrun, hout, hs⟩ := hstate
  obtain ⟨hwaits, hlater⟩ := (no_peer_left_out 8 twoWaiting twoWaiting_leavesNone hrun).2 _ s' hout hs
  exact ⟨s, s', it, hrun, hs, hwaits, hlater⟩

end ReadyTasks
end Letmein
