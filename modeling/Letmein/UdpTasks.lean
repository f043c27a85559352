import Letmein.UdpSessions

/-!
# Tasks of the UDP dispatcher (`letmein-proto/src/socket.rs`)

`accept` and `recv_from` as tasks, each step of which lasts until the task waits again. All `recv_from` tasks share the
socket and one watch, and one task accepts connections.
-/

namespace Letmein

/-! ## The dispatcher with its socket -/

/-- A datagram that has arrived. -/
structure UdpArrival where
  peerAddr : SocketAddr
  data : List UInt8

/-- What `try_recv_from` on the socket gives for it, with a buffer that was zero. It is cut off at the size of
the buffer. -/
def UdpArrival.read (d : UdpArrival) (msgSize : Nat) : SockRecv msgSize :=
  .datagram (min d.data.length msgSize) d.peerAddr
    ⟨(d.data ++ List.replicate msgSize 0).take msgSize, by simp⟩

/-- The socket is the datagrams that have not been read, and a watch is whether it has a change that has not been
consumed. -/
structure UdpDispatcher (msgSize qSize : Nat) where
  rx : UdpDispatcherRx msgSize qSize
  socket : List UdpArrival
  acceptWatch : Bool
  recvWatch : Bool

/-- The two branches of `select!`. -/
inductive Wake where
  | readable
  | changed
deriving DecidableEq, Repr

namespace UdpDispatcher
variable {msgSize qSize : Nat}

def new (maxNrConn : Nat) : UdpDispatcher msgSize qSize := ⟨.new maxNrConn, [], false, false⟩

def sockRecv (s : UdpDispatcher msgSize qSize) : SockRecv msgSize :=
  match s.socket with
  | d :: _ => d.read msgSize
  | [] => .wouldBlock

/-- The dispatcher after a call. -/
def after {α : Type} (s : UdpDispatcher msgSize qSize) (r : UdpRet msgSize qSize α) : UdpDispatcher msgSize qSize where
  rx := r.rx
  socket := s.socket.tail
  acceptWatch := s.acceptWatch || r.sent.contains .accept
  recvWatch := s.recvWatch || r.sent.contains .recv

/-- The dispatcher after `select!` of the socket and a watch, if it has this branch ready. Here the socket is ready while
it has a datagram; `ReadyDispatcher` has the flag by which the runtime tells. -/
def select (s : UdpDispatcher msgSize qSize) : Watch → Wake → Option (UdpDispatcher msgSize qSize)
  | _, .readable => if s.socket.isEmpty then none else some s
  | .accept, .changed => if s.acceptWatch then some { s with acceptWatch := false } else none
  | .recv, .changed => if s.recvWatch then some { s with recvWatch := false } else none

theorem select_rx {s s' : UdpDispatcher msgSize qSize} {watch : Watch} {wake : Wake}
    (h : s.select watch wake = some s') : s'.rx = s.rx := by
  cases watch <;> cases wake <;>
  · simp only [select] at h
    split at h <;> cases h
    rfl

theorem select_accept {s s' : UdpDispatcher msgSize qSize} {wake : Wake} (h : s.select .accept wake = some s') :
    s'.recvWatch = s.recvWatch := by
  cases wake <;>
  · simp only [select] at h
    split at h <;> cases h
    rfl

end UdpDispatcher

/-! ## Tasks -/

/-- Where a task is: at `select!` (or at the lock before it), past it and at the lock of the connections, in the
pause before the next pass, or returned. -/
inductive TaskState where
  | waiting
  | woken
  | sleeping
  | returned
deriving DecidableEq, Repr

/-- A call of `recv_from`. -/
structure RecvTask where
  peerAddr : SocketAddr
  state : TaskState
deriving DecidableEq, Repr

/-- The dispatcher, the task that calls `accept` again and again, the peers that it has got, and all calls of
`recv_from`. -/
structure UdpTasks (msgSize qSize : Nat) where
  dispatcher : UdpDispatcher msgSize qSize
  accept : TaskState
  peers : List SocketAddr
  recv : List RecvTask

inductive UdpTaskEvent where
  | arrive (d : UdpArrival)
  | disconnect (peerAddr : SocketAddr)
  | wakeAccept (wake : Wake)
  | runAccept (it : IterOrder SocketAddr)
  | resumeAccept
  | callRecv (peerAddr : SocketAddr)
  | wakeRecv (i : Nat) (wake : Wake)
  | runRecv (i : Nat)
  | resumeRecv (i : Nat)

namespace UdpTasks
variable {msgSize qSize : Nat}

def new (maxNrConn : Nat) : UdpTasks msgSize qSize := ⟨.new maxNrConn, .waiting, [], []⟩

/-- An event that cannot happen changes nothing. -/
def step (s : UdpTasks msgSize qSize) : UdpTaskEvent → Except Panic (UdpTasks msgSize qSize)
  | .arrive d => return { s with dispatcher := { s.dispatcher with socket := s.dispatcher.socket ++ [d] } }
  | .disconnect peerAddr =>
    (fun rx => { s with dispatcher := { s.dispatcher with rx := rx } }) <$> s.dispatcher.rx.disconnect peerAddr
  | .wakeAccept wake =>
    match s.accept, s.dispatcher.select .accept wake with
    | .waiting, some dispatcher => return { s with dispatcher := dispatcher, accept := .woken }
    | _, _ => return s
  | .runAccept it =>
    match s.accept with
    | .woken => do
      let r ← s.dispatcher.rx.tryAccept s.dispatcher.sockRecv it
      match r.val with
      | some peerAddr =>
        return { s with dispatcher := s.dispatcher.after r, accept := .waiting, peers := peerAddr :: s.peers }
      | none => return { s with dispatcher := s.dispatcher.after r, accept := .sleeping }
    | _ => return s
  | .resumeAccept =>
    match s.accept with
    | .sleeping => return { s with accept := .waiting }
    | _ => return s
  | .callRecv peerAddr => return if peerAddr ∈ s.peers then { s with recv := s.recv ++ [⟨peerAddr, .waiting⟩] } else s
  | .wakeRecv i wake =>
    match s.recv[i]?, s.dispatcher.select .recv wake with
    | some ⟨peerAddr, .waiting⟩, some dispatcher =>
      return { s with dispatcher := dispatcher, recv := s.recv.set i ⟨peerAddr, .woken⟩ }
    | _, _ => return s
  | .runRecv i =>
    match s.recv[i]? with
    | some ⟨peerAddr, .woken⟩ => do
      let r ← s.dispatcher.rx.tryRecvFrom s.dispatcher.sockRecv peerAddr
      match r.val with
      | .ok none => return { s with dispatcher := s.dispatcher.after r, recv := s.recv.set i ⟨peerAddr, .sleeping⟩ }
      | _ => return { s with dispatcher := s.dispatcher.after r, recv := s.recv.set i ⟨peerAddr, .returned⟩ }
    | _ => return s
  | .resumeRecv i =>
    match s.recv[i]? with
    | some ⟨peerAddr, .sleeping⟩ => return { s with recv := s.recv.set i ⟨peerAddr, .waiting⟩ }
    | _ => return s

end UdpTasks

end Letmein
