import Letmein.Conf
import Letmein.Lib.Net
import Letmein.Panic

/-!
# Leases (`letmeinfwd/src/firewall.rs`)

A lease opens one port for one address until its timeout. Time is a number of milliseconds.
-/

namespace Letmein

inductive LeasePort where
  | tcp (port : UInt16)
  | udp (port : UInt16)
  | tcpUdp (port : UInt16)
deriving DecidableEq, Repr

inductive SingleLeasePort where
  | tcp (port : UInt16)
  | udp (port : UInt16)
deriving DecidableEq, Repr

def LeasePort.num : LeasePort → UInt16
  | .tcp p => p
  | .udp p => p
  | .tcpUdp p => p

/-- The protocols of a port, in the order in which their rules are made. -/
def LeasePort.singles : LeasePort → List SingleLeasePort
  | .tcp p => [.tcp p]
  | .udp p => [.udp p]
  | .tcpUdp p => [.tcp p, .udp p]

def SingleLeasePort.num : SingleLeasePort → UInt16
  | .tcp p => p
  | .udp p => p

def SingleLeasePort.text : SingleLeasePort → String
  | .tcp p => s!"{p.toNat}/TCP"
  | .udp p => s!"{p.toNat}/UDP"

structure Lease where
  addr : IpAddr
  port : LeasePort
  timeout : Nat
deriving DecidableEq, Repr

namespace Lease

/-- A lease with maximum timeout. The upper layers must never ask for the control port. -/
def new (conf : Config) (now : Nat) (addr : IpAddr) (port : LeasePort) : Except Panic Lease := do
  check (conf.port.port ≠ port.num) .controlPort
  return ⟨addr, port, now + conf.nftTimeout⟩

def refreshTimeout (conf : Config) (now : Nat) (lease : Lease) : Lease :=
  { lease with timeout := now + conf.nftTimeout }

def isTimedOut (now : Nat) (lease : Lease) : Bool := lease.timeout ≤ now

end Lease

abbrev LeaseId := IpAddr × LeasePort

abbrev LeaseMap := HashMap LeaseId Lease

/-- The leases that have timed out, in the iteration order, and the map without them. -/
def pruneAllLeaseTimeouts (now : Nat) (it : IterOrder LeaseId) (leases : LeaseMap) :
    List Lease × LeaseMap :=
  ((leases.values it).filter (·.isTimedOut now), leases.retain fun _ lease => !lease.isTimedOut now)

end Letmein
