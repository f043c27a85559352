import Letmein.Endpoint

/-!
# The server's side of the protocol (`letmeind/src/protocol.rs`, `letmeind/src/firewall_client.rs`)

`Protocol.run` is one session with a peer. An error stands for its outermost text.
-/

namespace Letmein

/-! ### Requests to letmeinfwd -/

namespace FirewallClient
variable {Auth : Type}

def new : Endpoint Auth Unit := do
  let connected : Except String Unit ← Prog.call Op.fwConnect
  match connected with
  | .error _ => .err "Connect to Unix socket"
  | .ok () => return ()

/-- Send a request and wait for the reply. `what` is the name of the request in the errors. -/
def request (what : String) (msg : FirewallMessage) : Endpoint Auth Unit := do
  let sent : Except String Unit ← Prog.call (Op.fwSend msg)
  match sent with
  | .error _ => .err s!"Send {what} message"
  | .ok () =>
    let reply : Except String (Option FirewallMessage) ← Prog.call Op.fwRecv
    match reply with
    | .error _ => .err s!"Receive {what} reply"
    | .ok none => .err "Connection terminated"
    | .ok (some reply) =>
      match reply.operation with
      | .ack => return ()
      | .nack => .err s!"The firewall rejected the {what} request"
      | .openPort => .err "Received invalid reply"
      | .closePort => .err "Received invalid reply"

def openPort (addr : IpAddr) (portType : PortType) (port : UInt16) : Endpoint Auth Unit :=
  request "port-open" (.newOpen addr portType port)

def closePort (addr : IpAddr) (portType : PortType) (port : UInt16) : Endpoint Auth Unit :=
  request "port-close" (.newClose addr portType port)

end FirewallClient

/-! ### Sessions -/

/-- Protocol authentication state: not authenticated; basic (not replay-safe) authentication passed;
full challenge-response authentication passed. -/
inductive AuthState where
  | notAuth
  | basicAuth
  | challengeResponseAuth
deriving DecidableEq, Repr

structure Protocol where
  conf : Config
  peerAddr : IpAddr
  userId : Option UserId := none
  resourceId : Option ResourceId := none
  authState : AuthState := .notAuth

/-- Port type to open, from the flags `tcp` and `udp`. -/
def PortType.ofFlags : Bool → Bool → Except Panic PortType
  | true, false => .ok .tcp
  | false, true => .ok .udp
  | true, true => .ok .tcpUdp
  | false, false => .error .unreachable

namespace Protocol
variable {Auth : Type} [AuthToken Auth]

def mayGoAway (self : Protocol) : Bool :=
  match self.conf.controlErrorPolicy with
  | .always => true
  | .basicAuth => self.authState = .basicAuth ∨ self.authState = .challengeResponseAuth
  | .fullAuth => self.authState = .challengeResponseAuth

def sendGoAway (self : Protocol) : Endpoint Auth Unit := do
  if self.mayGoAway then
    let msg ← Endpoint.newMessage .goAway (self.userId.getD ⟨0xFFFFFFFF⟩) (self.resourceId.getD ⟨0xFFFFFFFF⟩)
    Endpoint.sendMsg msg
  else return ()

/-- `let _ = self.send_go_away().await; return Err(err!(…));` -/
def goAway {α : Type} (self : Protocol) (e : String) : Endpoint Auth α := do
  self.sendGoAway.ignore
  .err e

/-- Receive a message of the expected operation, user and resource. -/
def recvMsg (self : Protocol) (expect : Operation) : Endpoint Auth (Message Auth) := do
  let received : Timed (Option (Message Auth)) ← Prog.call Op.recv
  match received with
  | .timeout => .err "RX communication with peer timed out"
  | .done (.error e) => .err e
  | .done (.ok none) => .err "Disconnected."
  | .done (.ok (some msg)) =>
    if msg.operation ≠ expect then
      self.goAway s!"Invalid reply message operation. Expected {expect.text}, got {msg.operation.text}"
    else if self.userId.any (msg.user ≠ ·) then self.goAway "Received message user mismatch"
    else if self.resourceId.any (msg.resource ≠ ·) then self.goAway "Received message resource mismatch"
    else return msg

/-- Receive the initial message, which must be a `Knock` or a `Close`. -/
def recvInitial (self : Protocol) : Endpoint Auth (Message Auth) := do
  let received : Timed (Option (Message Auth)) ← Prog.call Op.recv
  match received with
  | .timeout => .err "RX communication with peer timed out"
  | .done (.error e) => .err s!"Failed to receive message: {e}"
  | .done (.ok none) => .err "Disconnected."
  | .done (.ok (some msg)) =>
    if msg.operation ≠ .knock ∧ msg.operation ≠ .close then
      self.goAway s!"Invalid initial message operation. Expected Knock or Close, got {msg.operation.text}"
    else return msg

variable [DecidableEq Auth]

/-- Look up the user's key and authenticate the initial message. This is not replay-safe. -/
def checkKnock (self : Protocol) (knock : Message Auth) : Endpoint Auth Key :=
  match self.conf.key knock.user with
  | none => self.goAway s!"Unknown user: {idText knock.user.id}"
  | some key => do
    let ok ← Prog.ofExcept (knock.checkAuthOkNoChallenge key)
    if ok then return key else self.goAway "Knock: Authentication failed"

/-- Look up the resource and check that the user may have it. The control port is never allowed. -/
def checkResource (self : Protocol) (userId : UserId) (resourceId : ResourceId) : Endpoint Auth Resource :=
  match self.conf.resource resourceId with
  | none => self.goAway s!"Unknown resource: {idText resourceId.id}"
  | some (.port port tcp udp users) =>
    if (Resource.port port tcp udp users).containsUser userId = false then
      self.goAway s!"Resource {idText resourceId.id} not allowed for user {idText userId.id}"
    else if port = self.conf.port.port then
      self.goAway (s!"Incorrect configuration: The resource {idText resourceId.id} uses the " ++
        s!"letmein control port {self.conf.port.port.toNat}. That is not allowed.")
    else return .port port tcp udp users

/-- Send a new challenge and check the response to it. -/
def challengeResponse (self : Protocol) (userId : UserId) (resourceId : ResourceId) (key : Key) :
    Endpoint Auth Unit := do
  let challenge ← Endpoint.newMessage .challenge userId resourceId
  let nonce : Auth ← Prog.call Op.challenge
  let challenge ← Prog.ofExcept (challenge.generateChallenge nonce)
  Endpoint.sendMsg challenge
  let response ← self.recvMsg .response
  let ok ← Prog.ofExcept (response.checkAuthOk key challenge)
  if ok then return () else self.goAway "Response: Authentication failed"

/-- The value of `p`, or tell the peer to go away on an error `e` of it and fail with `f e`. -/
def orGoAway (self : Protocol) (f : String → String) : Endpoint Auth Unit → Endpoint Auth Unit
  | .ret () => .ret ()
  | .err e => self.goAway (f e)
  | .panic why => .panic why
  | .vis op k => .vis op fun a => self.orGoAway f (k a)

/-- Send an open-port or close-port request to letmeinfwd. -/
def reconfigure (self : Protocol) (operation : Operation) : Resource → Endpoint Auth Unit
  | .port port tcp udp _ => do
    let portType ← Prog.ofExcept (PortType.ofFlags tcp udp)
    self.orGoAway (fun e => s!"Failed to connect to letmeinfwd: {e}") FirewallClient.new
    Prog.ofExcept (check (self.authState = .challengeResponseAuth) .authState)
    if operation = .close then
      self.orGoAway (fun e => s!"letmeinfwd firewall close: {e}")
        (FirewallClient.closePort self.peerAddr portType port)
    else
      self.orGoAway (fun e => s!"letmeinfwd firewall open: {e}")
        (FirewallClient.openPort self.peerAddr portType port)

def run (conf : Config) (peerAddr : IpAddr) : Endpoint Auth Unit := do
  let self : Protocol := { conf := conf, peerAddr := peerAddr }
  let knock ← self.recvInitial
  let self := { self with userId := some knock.user, resourceId := some knock.resource }
  let key ← self.checkKnock knock
  let self := { self with authState := .basicAuth }
  let resource ← self.checkResource knock.user knock.resource
  self.challengeResponse knock.user knock.resource key
  let self := { self with authState := .challengeResponseAuth }
  self.reconfigure knock.operation resource
  let comein ← Endpoint.newMessage .comeIn knock.user knock.resource
  Endpoint.sendMsg comein

end Protocol
end Letmein
