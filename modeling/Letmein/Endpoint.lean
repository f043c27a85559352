import Letmein.FwProto
import Letmein.Lib.Prog
import Letmein.Proto

/-!
# The ends of a control connection

What a server session or a client asks of its environment: the socket to its peer, random bytes, and
for the server the Unix socket of letmeinfwd. Every operation on the socket is under a timeout.
-/

namespace Letmein

/-- What comes out of an operation under a timeout. -/
inductive Timed (α : Type) where
  | timeout
  | done (r : Except String α)

/-- The operations: connect to the server, receive and send a message, draw a salt or a challenge, and
connect to letmeinfwd, send it a message and receive one. -/
inductive Op (Auth : Type) where
  | connect
  | recv
  | send (msg : Message Auth)
  | salt
  | challenge
  | fwConnect
  | fwSend (msg : FirewallMessage)
  | fwRecv

/-- The answers. What is received is `none` when the peer has disconnected. -/
abbrev Op.Ret {Auth : Type} : Op Auth → Type
  | .connect => Except String Unit
  | .recv => Timed (Option (Message Auth))
  | .send _ => Timed Unit
  | .salt => Salt
  | .challenge => Auth
  | .fwConnect => Except String Unit
  | .fwSend _ => Except String Unit
  | .fwRecv => Except String (Option FirewallMessage)

abbrev Endpoint (Auth α : Type) := Prog (Op Auth) Op.Ret Panic α

namespace Endpoint
variable {Auth : Type}

/-- `Message::new` -/
def newMessage [AuthToken Auth] (operation : Operation) (user : UserId) (resource : ResourceId) :
    Endpoint Auth (Message Auth) := do
  let salt : Salt ← Prog.call Op.salt
  return .new operation user resource salt

/-- Send a message. Both ends report a timeout alike. -/
def sendMsg (msg : Message Auth) : Endpoint Auth Unit := do
  let sent : Timed Unit ← Prog.call (Op.send msg)
  match sent with
  | .timeout => .err "TX communication with peer timed out"
  | .done (.error e) => .err e
  | .done (.ok ()) => return ()

end Endpoint
end Letmein
