import Letmein.Lib.HashMap
import Letmein.Lib.Net
import Letmein.Lib.Run
import Letmein.Panic
import Mathlib.Data.Vector.Basic

/-!
# The UDP dispatcher (`letmein-proto/src/socket.rs`)

`UdpDispatcherRx` tracks UDP "connections" by peer address. All connections share one socket: every
call first pulls the next datagram off it (`tryRecv`), whoever sent it, and files it under its
peer. What the socket hands out is an input of each call (`SockRecv`), and so is the order in which
the connection map is iterated. The release build aborts on a failed assertion and on arithmetic
overflow, so a call either returns or panics.
-/

namespace Letmein

abbrev Datagram (msgSize : Nat) := List.Vector UInt8 msgSize

/-- What `try_recv_from` on the socket reports: a datagram with its size, its sender and the buffer
it was read into, nothing, or an error. -/
inductive SockRecv (msgSize : Nat) where
  | datagram (n : Nat) (peerAddr : SocketAddr) (buf : Datagram msgSize)
  | wouldBlock
  | error (e : String)

def SockRecv.zeros (msgSize : Nat) (peerAddr : SocketAddr) : SockRecv msgSize :=
  .datagram msgSize peerAddr (List.Vector.replicate msgSize 0)

/-- The two watch channels a call may signal. -/
inductive Watch where
  | accept
  | recv
deriving DecidableEq, Repr

structure UdpConn (msgSize : Nat) where
  rxQueue : List (Datagram msgSize)
  peerAddr : SocketAddr
  accepted : Bool
deriving DecidableEq

/-- Connection tracking. `qSize` is the capacity of a receive queue. -/
structure UdpDispatcherRx (msgSize qSize : Nat) where
  conn : HashMap SocketAddr (UdpConn msgSize)
  maxNrConn : Nat
  nrQueuedDgrams : Nat

/-- What a call returns: its value, the dispatcher afterwards and the watches it signalled. -/
structure UdpRet (msgSize qSize : Nat) (α : Type) where
  val : α
  rx : UdpDispatcherRx msgSize qSize
  sent : List Watch

namespace UdpDispatcherRx
variable {msgSize qSize : Nat}

def new (maxNrConn : Nat) : UdpDispatcherRx msgSize qSize := ⟨∅, maxNrConn, 0⟩

/-- `entry(peer_addr).or_insert_with(..)` -/
def entry (s : UdpDispatcherRx msgSize qSize) (peerAddr : SocketAddr) : UdpConn msgSize :=
  (s.conn.lookup peerAddr).getD ⟨[], peerAddr, false⟩

/-- Try to receive a new datagram from the socket. -/
def tryRecv (s : UdpDispatcherRx msgSize qSize) :
    SockRecv msgSize → Except Panic (UdpRet msgSize qSize (Except String Unit))
  | .datagram n peerAddr buf => do
    if n ≠ msgSize then
      return ⟨.error s!"Socket read: Invalid datagram size: {n}", s, []⟩
    check (s.conn.size ≤ s.maxNrConn) .connLen
    let conn := s.entry peerAddr
    let conns := s.conn.insert peerAddr conn
    check (conn.rxQueue.length ≤ qSize) .queueLen
    if conn.rxQueue.length = qSize then
      return ⟨.error s!"UDP socket read: RX queue overflow (max={qSize}).",
        { s with conn := conns.erase peerAddr }, []⟩
    let conns := conns.insert peerAddr { conn with rxQueue := conn.rxQueue ++ [buf] }
    if s.maxNrConn < conns.size then
      return ⟨.error s!"UDP socket read: Too many connections (max={s.maxNrConn}).",
        { s with conn := conns.erase peerAddr }, []⟩
    let nr ← checkedUsize (s.nrQueuedDgrams + 1)
    let max ← checkedUsize (s.maxNrConn * qSize)
    check (nr ≤ max) .totalLen
    return ⟨.ok (), { s with conn := conns, nrQueuedDgrams := nr },
      if conn.accepted then [] else [.accept, .recv]⟩
  | .wouldBlock => return ⟨.ok (), s, []⟩
  | .error e => return ⟨.error s!"Socket read: {e}", s, []⟩

/-- Notify receivers based on whether more datagrams are queued. -/
def recvNotify (s : UdpDispatcherRx msgSize qSize) : List Watch :=
  if 0 < s.nrQueuedDgrams then [.recv] else []

/-- The first connection in the iteration order that has not been accepted. -/
def firstUnaccepted (s : UdpDispatcherRx msgSize qSize) (it : IterOrder SocketAddr) :
    Option (SocketAddr × UdpConn msgSize) :=
  (it.order s.conn.keys).findSome? fun k =>
    match s.conn.lookup k with
    | some conn => if conn.accepted then none else some (k, conn)
    | none => none

/-- Get the first not-accepted connection, or `none`. -/
def tryAccept (s : UdpDispatcherRx msgSize qSize) (socket : SockRecv msgSize)
    (it : IterOrder SocketAddr) : Except Panic (UdpRet msgSize qSize (Option SocketAddr)) := do
  let r ← s.tryRecv socket
  match r.val with
  | .error _ => return ⟨none, r.rx, r.sent⟩
  | .ok () =>
    match r.rx.firstUnaccepted it with
    | some (k, conn) =>
      return ⟨some conn.peerAddr,
        { r.rx with conn := r.rx.conn.insert k { conn with accepted := true } }, r.sent⟩
    | none => return ⟨none, r.rx, r.sent ++ r.rx.recvNotify⟩

def tryRecvFrom (s : UdpDispatcherRx msgSize qSize) (socket : SockRecv msgSize)
    (peerAddr : SocketAddr) :
    Except Panic (UdpRet msgSize qSize (Except String (Option (Datagram msgSize)))) := do
  let r ← s.tryRecv socket
  match r.val with
  | .error e => return ⟨.error e, r.rx, r.sent⟩
  | .ok () =>
    match r.rx.conn.lookup peerAddr with
    | some ⟨buf :: rxQueue, addr, accepted⟩ =>
      let nr ← checkedSub r.rx.nrQueuedDgrams 1
      let rx := { r.rx with
        conn := r.rx.conn.insert peerAddr ⟨rxQueue, addr, accepted⟩, nrQueuedDgrams := nr }
      return ⟨.ok (some buf), rx, r.sent ++ rx.recvNotify⟩
    | _ => return ⟨.ok none, r.rx, r.sent ++ r.rx.recvNotify⟩

/-- The end of `disconnect`: remove the entry, and when no connection is left, assert that no
datagram is counted any more. -/
def removeConn (s : UdpDispatcherRx msgSize qSize) (peerAddr : SocketAddr) (nr : Nat) :
    Except Panic (UdpDispatcherRx msgSize qSize) :=
  let s := { s with conn := s.conn.erase peerAddr, nrQueuedDgrams := nr }
  if s.conn.size = 0 then check (s.nrQueuedDgrams = 0) .notDrained >>= fun _ => .ok s else .ok s

/-- Disconnect the connection identified by `peerAddr`. -/
def disconnect (s : UdpDispatcherRx msgSize qSize) (peerAddr : SocketAddr) :
    Except Panic (UdpDispatcherRx msgSize qSize) :=
  match s.conn.lookup peerAddr with
  | some conn => checkedSub s.nrQueuedDgrams conn.rxQueue.length >>= s.removeConn peerAddr
  | none => s.removeConn peerAddr s.nrQueuedDgrams

def queued (s : UdpDispatcherRx msgSize qSize) : Nat := s.conn.sumBy fun c => c.rxQueue.length

end UdpDispatcherRx

inductive UdpCall (msgSize : Nat) where
  | tryAccept (socket : SockRecv msgSize) (it : IterOrder SocketAddr)
  | tryRecvFrom (socket : SockRecv msgSize) (peerAddr : SocketAddr)
  | disconnect (peerAddr : SocketAddr)

namespace UdpDispatcherRx
variable {msgSize qSize : Nat}

def exec (s : UdpDispatcherRx msgSize qSize) :
    UdpCall msgSize → Except Panic (UdpDispatcherRx msgSize qSize)
  | .tryAccept socket it => (·.rx) <$> s.tryAccept socket it
  | .tryRecvFrom socket peerAddr => (·.rx) <$> s.tryRecvFrom socket peerAddr
  | .disconnect peerAddr => s.disconnect peerAddr

end UdpDispatcherRx

end Letmein
