import Letmein.FwTasks
import Letmein.NoPanic
import Letmein.Sockets
import Letmein.UdpOverflow

/-!
# The tasks of the server daemon (`letmeind/src/main.rs`, `letmeind/src/server.rs`)

letmeind has a task that waits for the next TCP connection and one for the next UDP peer, an accept loop that takes
their results and spawns a handler for each, the handlers, which run a session and close its socket, and the main loop.
When the main task returns, the other tasks are dropped wherever they are, each with its connection; and a connection
that is dropped before it was closed fails an assertion.
-/

namespace Letmein

/-! ## Connections -/

inductive L4Proto where
  | tcp
  | udp
deriving DecidableEq, Repr

structure Connection where
  l4proto : L4Proto
  peerAddr : SocketAddr
deriving DecidableEq, Repr

/-- The handler of a connection. -/
inductive ConnTask where
  -- `proto.run().await`
  | running (p : Endpoint AuthBytes Unit)
  -- In `conn.close().await`, with the closed-flag set, at the lock of the dispatcher.
  | closing
  | closed

/-- The closed-flag of the socket. -/
def ConnTask.isClosed : ConnTask → Bool
  | .running _ => false
  | _ => true

def Connection.close (conn : Connection) : ConnTask :=
  match conn.l4proto with
  | .tcp => .closed
  | .udp => .closing

/-- The handler when the session has got to `p`: the socket is closed as soon as the session is over. -/
def Connection.handle (conn : Connection) : Endpoint AuthBytes Unit → ConnTask
  | .vis op k => .running (.vis op k)
  | _ => conn.close

/-- The connection that the accept loop has in hand. -/
def LoopState.conn? : LoopState Connection → Option Connection
  | .acquiring conn => some conn
  | .permitted conn => some conn
  | _ => none

inductive AcceptTask where
  | looping (state : LoopState Connection)
  -- `exit_sock_tx.send(Err(e)).await`
  | sending (e : String)

def AcceptTask.conn? : AcceptTask → Option Connection
  | .looping state => state.conn?
  | .sending _ => none

def AcceptTask.stopped : AcceptTask → Bool
  | .looping .stopped => true
  | _ => false

/-! ## The daemon -/

/-- A task that waits for a connection is `none` as long as it waits. Without a listener it waits forever, and `rx` is
not used without a UDP socket. The handlers of all connections are kept. -/
structure SrvTasks where
  srv : Server
  rx : UdpDispatcherRx MSG_SIZE 4
  tcpJoin : Option (Except String SocketAddr)
  udpJoin : Option SocketAddr
  sock : AcceptTask
  permits : Nat
  handlers : List (Connection × ConnTask)
  exitSock : Option String
  main : MainTask

/-- `udpAccept` is one pass of `UdpDispatcher::accept`, and `recvUdp` one of `UdpDispatcher::recv_from`. Every
operation of a session other than to receive is a `call`. -/
inductive SrvAct where
  | tcpAccept (incoming : Except String SocketAddr)
  | udpAccept (socket : SockRecv MSG_SIZE) (it : IterOrder SocketAddr)
  | acceptTcp (setNodelay : Except String Unit)
  | acceptUdp
  | acquire
  | spawn
  | drop
  | sendSock
  | recvTcp (n : Nat) (received : Timed (Option (List UInt8)))
  | recvUdp (n : Nat) (socket : SockRecv MSG_SIZE)
  | recvTimeout (n : Nat)
  | call (n : Nat) (env : (op : Op AuthBytes) → op.Ret)
  | disconnect (n : Nat)
  | sigterm
  | sigint
  | sighup
  | recvSock

/-- Why a step is not taken: the task is not there, or the process is aborted. -/
inductive SrvHalt where
  | notReady
  | panicked (why : Panic)
  -- `assert!(self.socket.is_closed())` in `drop` of a connection.
  | notClosed
deriving DecidableEq, Repr

namespace SrvTasks

/-- After the tasks are spawned. -/
def start (srv : Server) (numConnections : Nat) : SrvTasks where
  srv := srv
  rx := .new numConnections
  tcpJoin := none
  udpJoin := none
  sock := .looping .accepting
  permits := numConnections
  handlers := []
  exitSock := none
  main := .selecting

/-! ### Accepting -/

def tcpAccept (s : SrvTasks) (incoming : Except String SocketAddr) : Except SrvHalt SrvTasks :=
  if s.srv.tcp.isSome ∧ s.tcpJoin = none then .ok { s with tcpJoin := some incoming } else .error .notReady

def udpAccept (s : SrvTasks) (socket : SockRecv MSG_SIZE) (it : IterOrder SocketAddr) : Except SrvHalt SrvTasks :=
  if s.srv.udp.isSome ∧ s.udpJoin = none then
    match s.rx.tryAccept socket it with
    | .error why => .error (.panicked why)
    | .ok r => .ok { s with rx := r.rx, udpJoin := r.val }
  else .error .notReady

/-- The TCP branch of `Server::accept`. The next connection is waited for in any case. -/
def acceptTcp (s : SrvTasks) (setNodelay : Except String Unit) : Except SrvHalt SrvTasks :=
  match s.sock, s.tcpJoin with
  | .looping .accepting, some (.ok peerAddr) =>
    match setNodelay with
    | .ok () => .ok { s with tcpJoin := none, sock := .looping (.acquiring ⟨.tcp, peerAddr⟩) }
    | .error _ => .ok { s with tcpJoin := none, sock := .sending "Set TCP_NODELAY" }
  | .looping .accepting, some (.error e) => .ok { s with tcpJoin := none, sock := .sending e }
  | _, _ => .error .notReady

/-- The UDP branch of `Server::accept`. It does not fail. -/
def acceptUdp (s : SrvTasks) : Except SrvHalt SrvTasks :=
  match s.sock, s.udpJoin with
  | .looping .accepting, some peerAddr =>
    .ok { s with udpJoin := none, sock := .looping (.acquiring ⟨.udp, peerAddr⟩) }
  | _, _ => .error .notReady

/-- A permit is there for the connection. The semaphore is never closed. -/
def acquire (s : SrvTasks) : Except SrvHalt SrvTasks :=
  match s.sock, s.permits with
  | .looping (.acquiring conn), permits + 1 => .ok { s with sock := .looping (.permitted conn), permits := permits }
  | _, _ => .error .notReady

def spawn [HmacSha3] (conf : Config) (s : SrvTasks) : Except SrvHalt SrvTasks :=
  match s.sock with
  | .looping (.permitted conn) => .ok { s with
      sock := .looping .spawned
      handlers := s.handlers ++ [(conn, conn.handle (Protocol.run conf conn.peerAddr.ip))] }
  | _ => .error .notReady

def drop (s : SrvTasks) : Except SrvHalt SrvTasks :=
  match s.sock with
  | .looping .spawned => .ok { s with sock := .looping .accepting, permits := s.permits + 1 }
  | _ => .error .notReady

/-- The channel has room: nothing else is sent on it. Then the loop is left. -/
def sendSock (s : SrvTasks) : Except SrvHalt SrvTasks :=
  match s.sock with
  | .sending e => .ok { s with sock := .looping .stopped, exitSock := some e }
  | _ => .error .notReady

/-! ### Handlers -/

/-- The handler `n` goes on until it waits again. -/
def resume (s : SrvTasks) (n : Nat) (conn : Connection) (p : Endpoint AuthBytes Unit) : Except SrvHalt SrvTasks :=
  match p with
  | .panic why => .error (.panicked why)
  | p => .ok { s with handlers := s.handlers.set n (conn, conn.handle p) }

def recvTcp (s : SrvTasks) (n : Nat) (received : Timed (Option (List UInt8))) : Except SrvHalt SrvTasks :=
  match s.handlers[n]? with
  | some (⟨.tcp, peerAddr⟩, .running (.vis .recv k)) => s.resume n ⟨.tcp, peerAddr⟩ (k (Message.recv received))
  | _ => .error .notReady

/-- What a pass of `recv_from` gives, unless it waits again. -/
def received : Except String (Option (Datagram MSG_SIZE)) → Option (Timed (Option (List UInt8)))
  | .ok none => none
  | .ok (some buf) => some (.done (.ok (some buf.toList)))
  | .error e => some (.done (.error e))

def recvUdp (s : SrvTasks) (n : Nat) (socket : SockRecv MSG_SIZE) : Except SrvHalt SrvTasks :=
  match s.handlers[n]? with
  | some (⟨.udp, peerAddr⟩, .running (.vis .recv k)) =>
    match s.rx.tryRecvFrom socket peerAddr with
    | .error why => .error (.panicked why)
    | .ok r =>
      match received r.val with
      | none => .ok { s with rx := r.rx }
      | some answer => { s with rx := r.rx }.resume n ⟨.udp, peerAddr⟩ (k (Message.recv answer))
  | _ => .error .notReady

def recvTimeout (s : SrvTasks) (n : Nat) : Except SrvHalt SrvTasks :=
  match s.handlers[n]? with
  | some (conn, .running (.vis .recv k)) => s.resume n conn (k .timeout)
  | _ => .error .notReady

def call (s : SrvTasks) (n : Nat) (env : (op : Op AuthBytes) → op.Ret) : Except SrvHalt SrvTasks :=
  match s.handlers[n]? with
  | some (_, .running (.vis .recv _)) => .error .notReady
  | some (conn, .running (.vis op k)) => s.resume n conn (k (env op))
  | _ => .error .notReady

def disconnect (s : SrvTasks) (n : Nat) : Except SrvHalt SrvTasks :=
  match s.handlers[n]? with
  | some (conn, .closing) =>
    match s.rx.disconnect conn.peerAddr with
    | .error why => .error (.panicked why)
    | .ok rx => .ok { s with rx := rx, handlers := s.handlers.set n (conn, .closed) }
  | _ => .error .notReady

/-! ### The main loop -/

/-- There is no connection that is not closed. -/
def Closed (s : SrvTasks) : Prop :=
  s.sock.conn? = none ∧ ∀ h ∈ s.handlers, h.2.isClosed = true

instance (s : SrvTasks) : Decidable s.Closed := inferInstanceAs (Decidable (_ ∧ _))

/-- The main task returns, and the other tasks are dropped. -/
def leave (s : SrvTasks) (exitcode : Except String Unit) : Except SrvHalt SrvTasks :=
  match s.main with
  | .selecting => if s.Closed then .ok { s with main := .exited exitcode } else .error .notClosed
  | _ => .error .notReady

def sighup (s : SrvTasks) : Except SrvHalt SrvTasks :=
  match s.main with
  | .selecting => .ok s
  | _ => .error .notReady

/-- A message comes out of the channel, or its sender is gone. -/
def recvSock (s : SrvTasks) : Except SrvHalt SrvTasks :=
  match s.exitSock with
  | some e => s.leave (.error e)
  | none => if s.sock.stopped then s.leave (.error "Unknown error code.") else .error .notReady

/-- One task makes a step. -/
def step [HmacSha3] (conf : Config) (s : SrvTasks) (act : SrvAct) : Except SrvHalt SrvTasks :=
  if s.main.alive = false then .error .notReady
  else match act with
    | .tcpAccept incoming => s.tcpAccept incoming
    | .udpAccept socket it => s.udpAccept socket it
    | .acceptTcp setNodelay => s.acceptTcp setNodelay
    | .acceptUdp => s.acceptUdp
    | .acquire => s.acquire
    | .spawn => s.spawn conf
    | .drop => s.drop
    | .sendSock => s.sendSock
    | .recvTcp n received => s.recvTcp n received
    | .recvUdp n socket => s.recvUdp n socket
    | .recvTimeout n => s.recvTimeout n
    | .call n env => s.call n env
    | .disconnect n => s.disconnect n
    | .sigterm => s.leave (.ok ())
    | .sigint => s.leave (.error "Interrupted by SIGINT.")
    | .sighup => s.sighup
    | .recvSock => s.recvSock

variable {conf : Config} {s s' : SrvTasks} {act : SrvAct}

/-! ## What a step can do -/

/-- The call of the dispatcher that the act makes. -/
def udpCall (s : SrvTasks) : SrvAct → Option (UdpCall MSG_SIZE)
  | .udpAccept socket it => if s.srv.udp.isSome ∧ s.udpJoin = none then some (.tryAccept socket it) else none
  | .recvUdp n socket =>
    match s.handlers[n]? with
    | some (⟨.udp, peerAddr⟩, .running (.vis .recv _)) => some (.tryRecvFrom socket peerAddr)
    | _ => none
  | .disconnect n =>
    match s.handlers[n]? with
    | some (conn, .closing) => some (.disconnect conn.peerAddr)
    | _ => none
  | _ => none

/-- The exit code of the daemon if the act ends it. -/
def exitcode? (s : SrvTasks) : SrvAct → Option (Except String Unit)
  | .sigterm => some (.ok ())
  | .sigint => some (.error "Interrupted by SIGINT.")
  | .recvSock =>
    match s.exitSock with
    | some e => some (.error e)
    | none => if s.sock.stopped then some (.error "Unknown error code.") else none
  | _ => none

inductive Stepped [HmacSha3] (conf : Config) (s : SrvTasks) : SrvAct → SrvTasks → Prop
  | connected {incoming : Except String SocketAddr} :
      Stepped conf s (.tcpAccept incoming) { s with tcpJoin := some incoming }
  | polled {socket : SockRecv MSG_SIZE} {it : IterOrder SocketAddr} {r : UdpRet MSG_SIZE 4 (Option SocketAddr)}
      (hjoin : s.srv.udp.isSome = true ∧ s.udpJoin = none) (hr : s.rx.tryAccept socket it = .ok r) :
      Stepped conf s (.udpAccept socket it) { s with rx := r.rx, udpJoin := r.val }
  | acceptedTcp {peerAddr : SocketAddr} (hsock : s.sock = .looping .accepting) :
      Stepped conf s (.acceptTcp (.ok ())) { s with tcpJoin := none, sock := .looping (.acquiring ⟨.tcp, peerAddr⟩) }
  | failedNodelay {e : String} (hsock : s.sock = .looping .accepting) :
      Stepped conf s (.acceptTcp (.error e)) { s with tcpJoin := none, sock := .sending "Set TCP_NODELAY" }
  | failedTcp {setNodelay : Except String Unit} {e : String} (hsock : s.sock = .looping .accepting)
      (hjoin : s.tcpJoin = some (.error e)) :
      Stepped conf s (.acceptTcp setNodelay) { s with tcpJoin := none, sock := .sending e }
  | acceptedUdp {peerAddr : SocketAddr} (hsock : s.sock = .looping .accepting) (hjoin : s.udpJoin = some peerAddr) :
      Stepped conf s .acceptUdp { s with udpJoin := none, sock := .looping (.acquiring ⟨.udp, peerAddr⟩) }
  | acquired {conn : Connection} {permits : Nat} (hsock : s.sock = .looping (.acquiring conn)) :
      Stepped conf s .acquire { s with sock := .looping (.permitted conn), permits := permits }
  | spawned {conn : Connection} (hsock : s.sock = .looping (.permitted conn)) :
      Stepped conf s .spawn { s with
        sock := .looping .spawned
        handlers := s.handlers ++ [(conn, conn.handle (Protocol.run conf conn.peerAddr.ip))] }
  | dropped (hsock : s.sock = .looping .spawned) :
      Stepped conf s .drop { s with sock := .looping .accepting, permits := s.permits + 1 }
  | sent {e : String} (hsock : s.sock = .sending e) :
      Stepped conf s .sendSock { s with sock := .looping .stopped, exitSock := some e }
  | waited {n : Nat} {socket : SockRecv MSG_SIZE} {peerAddr : SocketAddr}
      {k : Op.Ret .recv → Endpoint AuthBytes Unit}
      {r : UdpRet MSG_SIZE 4 (Except String (Option (Datagram MSG_SIZE)))}
      (hn : s.handlers[n]? = some (⟨.udp, peerAddr⟩, .running (.vis .recv k)))
      (hr : s.rx.tryRecvFrom socket peerAddr = .ok r) : Stepped conf s (.recvUdp n socket) { s with rx := r.rx }
  | received {n : Nat} {socket : SockRecv MSG_SIZE} {peerAddr : SocketAddr}
      {k : Op.Ret .recv → Endpoint AuthBytes Unit} {a : Op.Ret .recv}
      {r : UdpRet MSG_SIZE 4 (Except String (Option (Datagram MSG_SIZE)))}
      (hn : s.handlers[n]? = some (⟨.udp, peerAddr⟩, .running (.vis .recv k)))
      (hr : s.rx.tryRecvFrom socket peerAddr = .ok r) :
      Stepped conf s (.recvUdp n socket)
        { s with rx := r.rx, handlers := s.handlers.set n (⟨.udp, peerAddr⟩, Connection.handle ⟨.udp, peerAddr⟩ (k a)) }
  | resumed {act : SrvAct} {n : Nat} {conn : Connection} {op : Op AuthBytes}
      {k : op.Ret → Endpoint AuthBytes Unit} {a : op.Ret} (hcall : s.udpCall act = none)
      (hn : s.handlers[n]? = some (conn, .running (.vis op k))) :
      Stepped conf s act { s with handlers := s.handlers.set n (conn, conn.handle (k a)) }
  | disconnected {n : Nat} {conn : Connection} {rx : UdpDispatcherRx MSG_SIZE 4}
      (hn : s.handlers[n]? = some (conn, .closing)) (hr : s.rx.disconnect conn.peerAddr = .ok rx) :
      Stepped conf s (.disconnect n) { s with rx := rx, handlers := s.handlers.set n (conn, .closed) }
  | reloaded : Stepped conf s .sighup s
  | exited {act : SrvAct} {exitcode : Except String Unit} (hcode : s.exitcode? act = some exitcode)
      (hclosed : s.Closed) : Stepped conf s act { s with main := .exited exitcode }

theorem udpCall_of_exitcode {exitcode : Except String Unit} (h : s.exitcode? act = some exitcode) :
    s.udpCall act = none := by
  cases act with
  | sigterm => rfl
  | sigint => rfl
  | recvSock => rfl
  | _ => cases h

theorem resume_ok {n : Nat} {conn : Connection} {p : Endpoint AuthBytes Unit} (h : s.resume n conn p = .ok s') :
    s' = { s with handlers := s.handlers.set n (conn, conn.handle p) } := by
  cases p with
  | panic why => cases h
  | _ => cases h; rfl

theorem leave_ok {exitcode : Except String Unit} (h : s.leave exitcode = .ok s') :
    s.Closed ∧ s' = { s with main := .exited exitcode } := by
  unfold leave at h
  split at h
  · split_ifs at h with hclosed
    cases h
    exact ⟨hclosed, rfl⟩
  · cases h

theorem acceptTcp_ok [HmacSha3] {setNodelay : Except String Unit} (h : s.acceptTcp setNodelay = .ok s') :
    Stepped conf s (.acceptTcp setNodelay) s' := by
  unfold acceptTcp at h
  split at h
  · rename_i hsock hjoin
    split at h
    · cases h
      exact .acceptedTcp hsock
    · cases h
      exact .failedNodelay hsock
  · rename_i hsock hjoin
    cases h
    exact .failedTcp hsock hjoin
  · cases h

theorem recvUdp_ok [HmacSha3] {n : Nat} {socket : SockRecv MSG_SIZE} (h : s.recvUdp n socket = .ok s') :
    Stepped conf s (.recvUdp n socket) s' := by
  unfold recvUdp at h
  split at h
  · rename_i hn
    split at h
    · cases h
    · rename_i hr
      split at h
      · cases h
        exact .waited hn hr
      · rw [resume_ok h]
        exact .received hn hr
  · cases h

theorem recvSock_ok [HmacSha3] (h : s.recvSock = .ok s') : Stepped conf s .recvSock s' := by
  unfold recvSock at h
  split at h
  · rename_i e he
    obtain ⟨hclosed, rfl⟩ := leave_ok h
    exact .exited (by rw [exitcode?, he]) hclosed
  · rename_i hnone
    split_ifs at h with hstopped
    obtain ⟨hclosed, rfl⟩ := leave_ok h
    exact .exited (by rw [exitcode?, hnone]; exact if_pos hstopped) hclosed

theorem step_ok [HmacSha3] (h : s.step conf act = .ok s') : s.main.alive = true ∧ Stepped conf s act s' := by
  unfold step at h
  split_ifs at h with halive
  refine ⟨by simpa using halive, ?_⟩
  cases act with
  | tcpAccept incoming =>
    simp only [tcpAccept] at h
    split_ifs at h
    cases h
    exact .connected
  | udpAccept socket it =>
    simp only [udpAccept] at h
    split_ifs at h with hjoin
    split at h
    · cases h
    · rename_i hr
      cases h
      exact .polled hjoin hr
  | acceptTcp setNodelay => exact acceptTcp_ok h
  | acceptUdp =>
    simp only [acceptUdp] at h
    split at h
    · rename_i hsock hjoin
      cases h
      exact .acceptedUdp hsock hjoin
    · cases h
  | acquire =>
    simp only [acquire] at h
    split at h
    · rename_i hsock hpermits
      cases h
      exact .acquired hsock
    · cases h
  | spawn =>
    simp only [spawn] at h
    split at h
    · rename_i hsock
      cases h
      exact .spawned hsock
    · cases h
  | drop =>
    simp only [drop] at h
    split at h
    · rename_i hsock
      cases h
      exact .dropped hsock
    · cases h
  | sendSock =>
    simp only [sendSock] at h
    split at h
    · rename_i hsock
      cases h
      exact .sent hsock
    · cases h
  | recvTcp n received =>
    simp only [recvTcp] at h
    split at h
    · rename_i hn
      rw [resume_ok h]
      exact .resumed rfl hn
    · cases h
  | recvUdp n socket => exact recvUdp_ok h
  | recvTimeout n =>
    simp only [recvTimeout] at h
    split at h
    · rename_i hn
      rw [resume_ok h]
      exact .resumed rfl hn
    · cases h
  | call n env =>
    simp only [call] at h
    split at h
    · cases h
    · rename_i hn
      rw [resume_ok h]
      exact .resumed rfl hn
    · cases h
  | disconnect n =>
    simp only [disconnect] at h
    split at h
    · rename_i hn
      split at h
      · cases h
      · rename_i hr
        cases h
        exact .disconnected hn hr
    · cases h
  | sigterm =>
    obtain ⟨hclosed, rfl⟩ := leave_ok h
    exact .exited rfl hclosed
  | sigint =>
    obtain ⟨hclosed, rfl⟩ := leave_ok h
    exact .exited rfl hclosed
  | sighup =>
    simp only [sighup] at h
    split at h
    · cases h
      exact .reloaded
    · cases h
  | recvSock => exact recvSock_ok h

/-- What the step does to the dispatcher. -/
theorem Stepped.dispatched [HmacSha3] (h : Stepped conf s act s') :
    (∃ call, s.udpCall act = some call ∧ s.rx.exec call = .ok s'.rx) ∨ s.udpCall act = none ∧ s'.rx = s.rx := by
  cases h with
  | polled hjoin hr => exact .inl ⟨_, if_pos hjoin, by rw [UdpDispatcherRx.exec, hr]; rfl⟩
  | waited hn hr => exact .inl ⟨_, by rw [udpCall, hn], by rw [UdpDispatcherRx.exec, hr]; rfl⟩
  | received hn hr => exact .inl ⟨_, by rw [udpCall, hn], by rw [UdpDispatcherRx.exec, hr]; rfl⟩
  | disconnected hn hr => exact .inl ⟨.disconnect _, by rw [udpCall, hn], hr⟩
  | resumed hcall => exact .inr ⟨hcall, rfl⟩
  | exited hcode => exact .inr ⟨udpCall_of_exitcode hcode, rfl⟩
  | _ => exact .inr ⟨rfl, rfl⟩

/-! ## Aborts -/

/-- A session that does not panic. -/
def Harmless (p : Endpoint AuthBytes Unit) : Prop := p.Spec (fun st _ => st ≠ .panicked) fun _ _ => True

/-- No session panics. -/
def Harmless.All (s : SrvTasks) : Prop := ∀ conn p, (conn, .running p) ∈ s.handlers → Harmless p

theorem Harmless.resume {n : Nat} {conn : Connection} {p : Endpoint AuthBytes Unit} (h : Harmless p) (e : SrvHalt) :
    s.resume n conn p ≠ .error e := by
  cases p with
  | panic why => exact absurd rfl h
  | _ => exact nofun

theorem leave_error {exitcode : Except String Unit} {e : SrvHalt} (h : s.leave exitcode = .error e) (he : e ≠ .notReady) :
    s.main = .selecting ∧ e = .notClosed ∧ ¬ s.Closed := by
  unfold leave at h
  split at h
  · rename_i hmain
    split_ifs at h with hclosed
    cases h
    exact ⟨hmain, rfl, hclosed⟩
  · cases h
    exact absurd rfl he

/-- A step aborts the daemon in a call of the dispatcher, or when it ends with a connection that is not closed. -/
theorem step_error [HmacSha3] (hs : Harmless.All s) {e : SrvHalt} (h : s.step conf act = .error e)
    (he : e ≠ .notReady) : s.main.alive = true ∧
      ((∃ call why, s.udpCall act = some call ∧ s.rx.exec call = .error why ∧ e = .panicked why) ∨
        s.main = .selecting ∧ (s.exitcode? act).isSome = true ∧ ¬ s.Closed ∧ e = .notClosed) := by
  unfold step at h
  split_ifs at h with halive
  · cases h
    exact absurd rfl he
  refine ⟨by simpa using halive, ?_⟩
  have hresume : ∀ {s' : SrvTasks} {n : Nat} {conn : Connection} {op : Op AuthBytes}
      {k : op.Ret → Endpoint AuthBytes Unit} {a : op.Ret},
      s.handlers[n]? = some (conn, .running (.vis op k)) → s'.resume n conn (k a) ≠ .error e :=
    fun hn => Harmless.resume ((hs _ _ (List.mem_of_getElem? hn)).2 _) e
  have hleave : ∀ {exitcode : Except String Unit}, s.exitcode? act = some exitcode → s.leave exitcode = .error e →
      s.main = .selecting ∧ (s.exitcode? act).isSome = true ∧ ¬ s.Closed ∧ e = .notClosed := by
    intro exitcode hcode h
    obtain ⟨hmain, rfl, hopen⟩ := leave_error h he
    exact ⟨hmain, by rw [hcode]; rfl, hopen, rfl⟩
  cases act with
  | udpAccept socket it =>
    simp only [udpAccept] at h
    split_ifs at h with hjoin
    · split at h
      · rename_i why hr
        cases h
        exact .inl ⟨_, why, if_pos hjoin, by rw [UdpDispatcherRx.exec, hr]; rfl, rfl⟩
      · cases h
    · cases h
      exact absurd rfl he
  | recvUdp n socket =>
    simp only [recvUdp] at h
    split at h
    · rename_i hn
      split at h
      · rename_i why hr
        cases h
        exact .inl ⟨.tryRecvFrom _ _, why, by rw [udpCall, hn], by rw [UdpDispatcherRx.exec, hr]; rfl, rfl⟩
      · split at h
        · cases h
        · exact absurd h (hresume hn)
    · cases h
      exact absurd rfl he
  | disconnect n =>
    simp only [disconnect] at h
    split at h
    · rename_i hn
      split at h
      · rename_i why hr
        cases h
        exact .inl ⟨.disconnect _, why, by rw [udpCall, hn], hr, rfl⟩
      · cases h
    · cases h
      exact absurd rfl he
  | recvTcp n received =>
    simp only [recvTcp] at h
    split at h
    · rename_i hn
      exact absurd h (hresume hn)
    · cases h
      exact absurd rfl he
  | recvTimeout n =>
    simp only [recvTimeout] at h
    split at h
    · rename_i hn
      exact absurd h (hresume hn)
    · cases h
      exact absurd rfl he
  | call n env =>
    simp only [call] at h
    split at h
    · cases h
      exact absurd rfl he
    · rename_i hn
      exact absurd h (hresume hn)
    · cases h
      exact absurd rfl he
  | sigterm => exact .inr (hleave rfl h)
  | sigint => exact .inr (hleave rfl h)
  | recvSock =>
    simp only [recvSock] at h
    split at h
    · rename_i e' he'
      exact .inr (hleave (by rw [exitcode?, he']) h)
    · rename_i hnone
      split_ifs at h with hstopped
      · exact .inr (hleave (by rw [exitcode?, hnone]; exact if_pos hstopped) h)
      · cases h
        exact absurd rfl he
  | acceptTcp setNodelay =>
    simp only [acceptTcp] at h
    split at h
    · split at h <;> cases h
    · cases h
    · cases h
      exact absurd rfl he
  | _ =>
    simp only [tcpAccept, acceptUdp, acquire, spawn, drop, sendSock, sighup] at h
    split at h
    · cases h
    · cases h
      exact absurd rfl he

theorem step_panicked_iff [HmacSha3] (hs : Harmless.All s) {why : Panic} :
    s.step conf act = .error (.panicked why) ↔
      s.main.alive = true ∧ ∃ call, s.udpCall act = some call ∧ s.rx.exec call = .error why := by
  constructor
  · intro h
    obtain ⟨halive, ⟨call, why', hcall, herror, heq⟩ | ⟨-, -, -, heq⟩⟩ := step_error hs h nofun
    · cases heq
      exact ⟨halive, call, hcall, herror⟩
    · cases heq
  · rintro ⟨halive, call, hcall, herror⟩
    unfold step
    rw [if_neg (by simp [halive])]
    cases act with
    | udpAccept socket it =>
      simp only [udpCall] at hcall
      split_ifs at hcall with hjoin
      cases hcall
      have hr : s.rx.tryAccept socket it = .error why := Except.of_map_error herror
      simp only [udpAccept, if_pos hjoin, hr]
    | recvUdp n socket =>
      simp only [udpCall] at hcall
      split at hcall
      · rename_i peerAddr k hn
        cases hcall
        have hr : s.rx.tryRecvFrom socket peerAddr = .error why := Except.of_map_error herror
        simp only [recvUdp, hn, hr]
      · cases hcall
    | disconnect n =>
      simp only [udpCall] at hcall
      split at hcall
      · rename_i conn hn
        cases hcall
        have hr : s.rx.disconnect conn.peerAddr = .error why := herror
        simp only [disconnect, hn, hr]
      · cases hcall
    | _ => cases hcall

theorem step_notClosed_iff [HmacSha3] (hs : Harmless.All s) :
    s.step conf act = .error .notClosed ↔ s.main = .selecting ∧ (s.exitcode? act).isSome = true ∧ ¬ s.Closed := by
  constructor
  · intro h
    obtain ⟨-, ⟨call, why, -, -, heq⟩ | ⟨hmain, hcode, hopen, -⟩⟩ := step_error hs h (by decide)
    · cases heq
    · exact ⟨hmain, hcode, hopen⟩
  · rintro ⟨hmain, hcode, hopen⟩
    have hleave : ∀ exitcode, s.leave exitcode = .error .notClosed := fun exitcode => by
      simp only [leave, hmain, if_neg hopen]
    unfold step
    rw [if_neg (by simp [hmain, MainTask.alive])]
    cases act with
    | sigterm => exact hleave _
    | sigint => exact hleave _
    | recvSock =>
      simp only [exitcode?, recvSock] at hcode ⊢
      split at hcode
      · simp only [hleave]
      · split_ifs at hcode with hstopped
        · simp only [hstopped, hleave, if_true]
        · cases hcode
    | _ => cases hcode

end SrvTasks
end Letmein
