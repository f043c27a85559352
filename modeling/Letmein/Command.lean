import Letmein.Client
import Letmein.Lib.NetRead

/-!
# The client's commands (`letmein/src/command/{knock,close}.rs`, `letmein/src/resolver.rs`)

`runKnock` and `runClose` decide which address families to contact. What a sequence does is a parameter of them, so
that it can be the messages of `knockSequence` or only their effect. DNS is a parameter of `resolve`.
-/

namespace Letmein

/-! ## Host names -/

inductive ResMode where
  | ipv6
  | ipv4
deriving DecidableEq, Repr

def isIpv4Addr (host : Text) : Bool :=
  match IpAddr.fromStr host with
  | some (.v4 _) => true
  | _ => false

def isIpv6Addr (host : Text) : Bool :=
  match IpAddr.fromStr host with
  | some (.v6 _) => true
  | _ => false

def ResMode.recordTypeStr : ResMode → String
  | .ipv6 => "AAAA"
  | .ipv4 => "A"

def ResMode.admits : ResMode → IpAddr → Bool
  | .ipv6, .v6 _ => true
  | .ipv4, .v4 _ => true
  | _, _ => false

/-- The address of a host. `lookup` are the address records that DNS has for it. -/
def resolve (lookup : Text → ResMode → Except String (List IpAddr)) (host : Text) (mode : ResMode) :
    Except String IpAddr :=
  match IpAddr.fromStr host with
  | some addr =>
    match mode, addr with
    | .ipv4, .v6 _ => .error "Supplied a raw IPv6 address, but resolution mode is set to IPv4"
    | .ipv6, .v4 _ => .error "Supplied a raw IPv4 address, but resolution mode is set to IPv6"
    | _, addr => .ok addr
  | none =>
    match lookup host mode with
    | .error _ =>
      .error s!"DNS lookup of host '{String.ofList host}' failed. No '{mode.recordTypeStr}' record found."
    | .ok addrs =>
      match addrs.find? mode.admits with
      | some addr => .ok addr
      | none =>
        .error s!"No IP address found for host '{String.ofList host}'. No '{mode.recordTypeStr}' record found."

/-! ## Sequences -/

/-- Address types to knock. -/
inductive AddrMode where
  | tryBoth
  | both
  | ipv6
  | ipv4
deriving DecidableEq, Repr

/-- From the flags `--ipv4` and `--ipv6`. -/
def AddrMode.ofFlags : Bool → Bool → AddrMode
  | false, false => .tryBoth
  | true, true => .both
  | false, true => .ipv6
  | true, false => .ipv4

/-- What a command is given about the server (`KnockServer`, `CloseServer`). -/
structure CommandServer where
  addr : Text
  addrMode : AddrMode
  port : Option UInt16
  portTcp : Bool
  portUdp : Bool

/-- `to_control_port` of both commands. -/
def CommandServer.toControlPort (self : CommandServer) (conf : Config) : ControlPort :=
  let controlPort := conf.port
  let controlPort := match self.port with
    | some serverPort => { controlPort with port := serverPort }
    | none => controlPort
  let controlPort := if self.portUdp then { controlPort with tcp := false, udp := true } else controlPort
  let controlPort := if self.portTcp then { controlPort with tcp := true, udp := false } else controlPort
  -- prefer TCP
  if controlPort.tcp && controlPort.udp then { controlPort with udp := false } else controlPort

/-- A sequence of either command (`KnockSeq`, `CloseSeq`). -/
structure CommandSeq extends ClientSeq where
  addr : Text
  controlPort : ControlPort
  controlTimeout : Nat

namespace CommandSeq
variable {Auth : Type}

/-- The part of `Client::new` before it connects: the host has an address, and the control port is either TCP
or UDP. -/
def initClient (self : CommandSeq) (addr : Except String IpAddr) : Endpoint Auth Unit :=
  match addr with
  | .error _ => .err "Resolve host name"
  | .ok _ =>
    if self.controlPort.tcp then Prog.ofExcept (check (self.controlPort.udp = false) .clientPort)
    else Prog.ofExcept (check (self.controlPort.udp = true) .clientPort)

variable [AuthToken Auth]

def knockSequence (self : CommandSeq) (lookup : Text → ResMode → Except String (List IpAddr)) (mode : ResMode) :
    Endpoint Auth Unit := do
  (self.initClient (resolve lookup self.addr mode)).context "Client init"
  self.toClientSeq.knockSequence

def closeSequence (self : CommandSeq) (lookup : Text → ResMode → Except String (List IpAddr)) (mode : ResMode) :
    Endpoint Auth Unit := do
  (self.initClient (resolve lookup self.addr mode)).context "Client init"
  self.toClientSeq.closeSequence

end CommandSeq

/-! ## Commands -/

/-- The sequence of a command for a port, with the user's key and the resource of the port. -/
def CommandServer.seq (server : CommandServer) (conf : Config) (it : IterOrder ResourceId) (port : UInt16)
    (user : Option UserId) : Except String CommandSeq :=
  let confpath := conf.path.getD ""
  let user := user.getD conf.defaultUser
  match conf.key user with
  | none => .error s!"No key found in \"{confpath}\" for user {idText user.id}"
  | some key =>
    match conf.resourceIdByPort it port (some user) with
    | none => .error s!"Port {port.toNat} is not mapped to a resource in \"{confpath}\""
    | some resource => .ok {
        user, resource, key
        addr := server.addr
        controlPort := server.toControlPort conf
        controlTimeout := conf.controlTimeout }

section
variable {m : Type → Type} [Monad m]

/-- For host names try both. The error of IPv6 is reported if both fail. -/
def tryBoth (seq6 seq4 : ExceptT String m Unit) : ExceptT String m Unit := do
  let res6 ← ExceptT.lift seq6.run
  let res4 ← ExceptT.lift seq4.run
  match res6, res4 with
  | .error e, .error _ => throw e
  | _, _ => return ()

/-- For a hostname try IPv6 first, then IPv4. -/
def tryInTurn (seq6 seq4 : ExceptT String m Unit) : ExceptT String m Unit := do
  let res6 ← ExceptT.lift seq6.run
  match res6 with
  | .ok () => return ()
  | .error _ => seq4

def runKnock (conf : Config) (it : IterOrder ResourceId) (server : CommandServer) (knockPort : UInt16)
    (user : Option UserId) (knockSequence : CommandSeq → ResMode → ExceptT String m Unit) :
    ExceptT String m Unit :=
  match server.seq conf it knockPort user with
  | .error e => throw e
  | .ok seq =>
    match server.addrMode with
    | .tryBoth =>
      if isIpv4Addr server.addr then
        -- For a raw IPv4 address only knock IPv4.
        knockSequence seq .ipv4
      else if isIpv6Addr server.addr then
        -- For a raw IPv6 address only knock IPv6.
        knockSequence seq .ipv6
      else tryBoth (knockSequence seq .ipv6) (knockSequence seq .ipv4)
    | .both => do
      knockSequence seq .ipv6
      knockSequence seq .ipv4
    | .ipv6 => knockSequence seq .ipv6
    | .ipv4 => knockSequence seq .ipv4

def runClose (conf : Config) (it : IterOrder ResourceId) (server : CommandServer) (closePort : UInt16)
    (user : Option UserId) (closeSequence : CommandSeq → ResMode → ExceptT String m Unit) :
    ExceptT String m Unit :=
  match server.seq conf it closePort user with
  | .error e => throw e
  | .ok seq =>
    match server.addrMode with
    | .tryBoth =>
      if isIpv4Addr server.addr then
        -- For a raw IPv4 address only close IPv4.
        closeSequence seq .ipv4
      else if isIpv6Addr server.addr then
        -- For a raw IPv6 address only close IPv6.
        closeSequence seq .ipv6
      else tryInTurn (closeSequence seq .ipv6) (closeSequence seq .ipv4)
    | .both => do
      closeSequence seq .ipv6
      closeSequence seq .ipv4
    | .ipv6 => closeSequence seq .ipv6
    | .ipv4 => closeSequence seq .ipv4

end

end Letmein
