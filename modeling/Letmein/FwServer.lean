import Letmein.FwProto
import Letmein.Lib.Run
import Letmein.Nft

/-!
# The firewall daemon's socket (`letmeinfwd/src/server.rs`)

`handleMessage` serves one message of the Unix socket. What was received and whether the reply can be
written are inputs; the reply that it tries to write is part of the result.
-/

namespace Letmein

def addrCheck : IpAddr → Bool
  | .v4 a => a ≠ ⟨0, 0, 0, 0⟩ ∧ a ≠ ⟨0xFF, 0xFF, 0xFF, 0xFF⟩
  | .v6 a => a ≠ ⟨0, 0, 0, 0, 0, 0, 0, 0⟩ ∧
      a ≠ ⟨0xFFFF, 0xFFFF, 0xFFFF, 0xFFFF, 0xFFFF, 0xFFFF, 0xFFFF, 0xFFFF⟩

def leasePort (portType : PortType) (port : UInt16) : LeasePort :=
  match portType with
  | .tcp => .tcp port
  | .udp => .udp port
  | .tcpUdp => .tcpUdp port

/-- The checks that a request passes before it reaches the firewall. -/
def checkRequest (conf : Config) (it : IterOrder ResourceId) (msg : FirewallMessage)
    (controlPortError : UInt16 → String) : Except String (IpAddr × LeasePort) :=
  match msg.addr? with
  | none => .error "No addr."
  | some addr =>
    if addrCheck addr = false then .error "Invalid addr."
    else match msg.port? with
      | none => .error "No port."
      | some (portType, port) =>
        if (conf.resourceIdByPort it port none).isNone then
          .error s!"The port {port.toNat} is not configured in letmeind.conf."
        else if port = conf.port.port then .error (controlPortError port)
        else .ok (addr, leasePort portType port)

structure HandleRet where
  val : Except String Unit
  reply : Option FirewallMessage
  fw : NftFirewall
  kernel : Kernel

/-- Reply, and return `val` if the reply could be written. -/
def HandleRet.answer (send : Except String Unit) (reply : FirewallMessage) (val : Except String Unit)
    (fw : NftFirewall) (k : Kernel) : HandleRet :=
  ⟨send >>= fun _ => val, some reply, fw, k⟩

/-- Refuse a request that did not pass the checks, or make the call and report how it went. -/
def serveRequest (send : Except String Unit) (fw : NftFirewall) (k : Kernel)
    (request : Except String (IpAddr × LeasePort)) (call : IpAddr → LeasePort → Except Panic NftRet) :
    Except Panic HandleRet :=
  match request with
  | .error e => .ok (.answer send .newNack (.error e) fw k)
  | .ok (addr, port) => do
    let r ← call addr port
    match r.val with
    | .ok () => return .answer send .newAck (.ok ()) r.fw r.kernel
    | .error _ => return .answer send .newNack (.ok ()) r.fw r.kernel

/-- Serve the message that was received (`recv`). `send` is the outcome of writing the reply. -/
def handleMessage (conf : Config) (env : NftEnv) (it : IterOrder ResourceId)
    (recv : Except String (Option FirewallMessage)) (send : Except String Unit) (fw : NftFirewall)
    (k : Kernel) : Except Panic HandleRet :=
  match recv with
  | .error e => .ok ⟨.error e, none, fw, k⟩
  | .ok none => .ok ⟨.error "Disconnected.", none, fw, k⟩
  | .ok (some msg) =>
    match msg.operation with
    | .openPort =>
      serveRequest send fw k (checkRequest conf it msg fun port =>
          s!"The knocked port {port.toNat} is the letmein control port.")
        (fw.openPort conf env k)
    | .closePort =>
      serveRequest send fw k (checkRequest conf it msg fun port =>
          s!"The port {port.toNat} is the letmein control port.")
        (fw.closePort conf env k)
    | .ack | .nack => .ok ⟨.error "Received invalid message", none, fw, k⟩

variable {conf : Config} {env : NftEnv} {it : IterOrder ResourceId} {fw : NftFirewall} {k : Kernel}
  {msg : FirewallMessage} {send : Except String Unit} {r : HandleRet} {addr : IpAddr} {port : LeasePort}

theorem checkRequest_ok {controlPortError : UInt16 → String}
    (h : checkRequest conf it msg controlPortError = .ok (addr, port)) :
    msg.addr? = some addr ∧ addrCheck addr = true ∧
      ∃ portType num, msg.port? = some (portType, num) ∧ port = leasePort portType num ∧
        (conf.resourceIdByPort it num none).isSome ∧ num ≠ conf.port.port := by
  unfold checkRequest at h
  split at h
  · cases h
  rename_i a ha
  split at h
  · cases h
  rename_i hcheck
  split at h
  · cases h
  rename_i portType num hport
  split at h
  · cases h
  rename_i hconf
  split at h
  · cases h
  rename_i hctl
  cases h
  refine ⟨ha, by simpa using hcheck, portType, num, hport, rfl, ?_, hctl⟩
  rwa [← Option.not_isNone, Bool.not_eq_true', Bool.eq_false_iff]

theorem serveRequest_ack {request : Except String (IpAddr × LeasePort)}
    {call : IpAddr → LeasePort → Except Panic NftRet} (h : serveRequest send fw k request call = .ok r)
    (hack : r.reply = some .newAck) : ∃ addr port nr, request = .ok (addr, port) ∧
      call addr port = .ok nr ∧ nr.val = .ok () ∧ r.fw = nr.fw ∧ r.kernel = nr.kernel := by
  unfold serveRequest at h
  split at h
  · cases h
    cases hack
  · rename_i addr port
    obtain ⟨nr, hcall, h⟩ := Except.bind_ok h
    refine ⟨addr, port, nr, rfl, hcall, ?_⟩
    split at h
    · rename_i hval
      cases h
      exact ⟨hval, rfl, rfl⟩
    · cases h
      cases hack

end Letmein
