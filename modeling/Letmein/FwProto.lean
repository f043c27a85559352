import Letmein.Lib.Bytes
import Letmein.Lib.Net
import Mathlib.Data.Vector.Basic

/-!
# Firewall messages (`letmein-fwproto/src/lib.rs`)

The messages between letmeind and letmeinfwd. An address is carried in 16 octets, an IPv4 address in
the last four of them.
-/

namespace Letmein

inductive FirewallOperation where
  | nack
  | ack
  | openPort
  | closePort
deriving DecidableEq, Repr

inductive PortType where
  | tcp
  | udp
  | tcpUdp
deriving DecidableEq, Repr

inductive AddrType where
  | ipv6
  | ipv4
deriving DecidableEq, Repr

/-- The `addr` field, `ADDR_SIZE` bytes. -/
abbrev AddrOctets := List.Vector UInt8 16

structure FirewallMessage where
  operation : FirewallOperation := .nack
  portType : PortType := .tcp
  port : UInt16 := 0
  addrType : AddrType := .ipv6
  addr : AddrOctets := List.Vector.replicate 16 0
deriving DecidableEq

def addrToOctets : IpAddr → AddrType × AddrOctets
  | .v4 a => (.ipv4, ⟨List.replicate 12 0 ++ a.octets, rfl⟩)
  | .v6 a => (.ipv6, ⟨a.segments.flatMap fun s => beBytes 2 s.toNat, rfl⟩)

def octetsToAddr (addrType : AddrType) (addr : AddrOctets) : IpAddr :=
  let segment (i j : Fin 16) : UInt16 := UInt16.ofNat (ofBeBytes [addr.get i, addr.get j])
  match addrType with
  | .ipv4 => .v4 ⟨addr.get 12, addr.get 13, addr.get 14, addr.get 15⟩
  | .ipv6 => .v6 ⟨segment 0 1, segment 2 3, segment 4 5, segment 6 7, segment 8 9, segment 10 11,
      segment 12 13, segment 14 15⟩

theorem ofBeBytes_uint16 (s : UInt16) : UInt16.ofNat (ofBeBytes (beBytes 2 s.toNat)) = s := by
  rw [ofBeBytes_beBytes (by simpa using s.toNat_lt), UInt16.ofNat_toNat]

/-- The octets carry the address. -/
theorem octetsToAddr_addrToOctets (addr : IpAddr) :
    octetsToAddr (addrToOctets addr).1 (addrToOctets addr).2 = addr := by
  cases addr with
  | v4 a => rfl
  | v6 a =>
    have h := ofBeBytes_uint16
    obtain ⟨s0, s1, s2, s3, s4, s5, s6, s7⟩ := a
    show IpAddr.v6 ⟨_, _, _, _, _, _, _, _⟩ = _
    rw [IpAddr.v6.injEq, Ipv6Addr.mk.injEq]
    exact ⟨h s0, h s1, h s2, h s3, h s4, h s5, h s6, h s7⟩

namespace FirewallMessage

def newOpen (addr : IpAddr) (portType : PortType) (port : UInt16) : FirewallMessage :=
  ⟨.openPort, portType, port, (addrToOctets addr).1, (addrToOctets addr).2⟩

def newClose (addr : IpAddr) (portType : PortType) (port : UInt16) : FirewallMessage :=
  ⟨.closePort, portType, port, (addrToOctets addr).1, (addrToOctets addr).2⟩

def newAck : FirewallMessage := { operation := .ack }

def newNack : FirewallMessage := { operation := .nack }

def port? (msg : FirewallMessage) : Option (PortType × UInt16) :=
  match msg.operation with
  | .openPort | .closePort => some (msg.portType, msg.port)
  | .ack | .nack => none

def addr? (msg : FirewallMessage) : Option IpAddr :=
  match msg.operation with
  | .openPort | .closePort => some (octetsToAddr msg.addrType msg.addr)
  | .ack | .nack => none

variable (addr : IpAddr) (portType : PortType) (port : UInt16)

@[simp] theorem port?_newOpen : (newOpen addr portType port).port? = some (portType, port) := rfl

@[simp] theorem port?_newClose : (newClose addr portType port).port? = some (portType, port) := rfl

@[simp] theorem addr?_newOpen : (newOpen addr portType port).addr? = some addr :=
  congrArg some (octetsToAddr_addrToOctets addr)

@[simp] theorem addr?_newClose : (newClose addr portType port).addr? = some addr :=
  congrArg some (octetsToAddr_addrToOctets addr)

end FirewallMessage

end Letmein
