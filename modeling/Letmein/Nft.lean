import Letmein.Lease
import Letmein.Lib.Nftables

/-!
# The nftables firewall (`letmeinfwd/src/firewall/nftables.rs`)

`NftFirewall` keeps the leases in memory and one rule per lease and protocol in the kernel's chain. The
kernel is passed along with it. What the environment decides in a call (`NftEnv`) is the time, the
order in which the lease map is iterated, and which of the `nft` programs it starts succeed; a batch
that the kernel refuses also makes `nft` fail, and a failing batch leaves the kernel as it was.
An error stands for its outermost text; what is only printed is left out.
-/

namespace Letmein

structure NftNames where
  family : NfFamily
  table : String
  chainInput : String
deriving DecidableEq, Repr

def NftNames.get (conf : Config) : Except String NftNames := do
  let family ← match conf.nftFamily with
    | "inet" => .ok .inet
    | "ip" => .ok .ip
    | "ip6" => .ok .ip6
    | fam => .error s!"Unknown nftables family: {fam}"
  if conf.nftTable = "" then .error "nftables table not specified."
  if conf.nftChainInput = "" then .error "nftables chain-input not specified."
  return ⟨family, conf.nftTable, conf.nftChainInput⟩

def NftNames.chain (names : NftNames) : Chain := ⟨names.family, names.table, names.chainInput⟩

/-- `NftNames::get(conf).context("Read configuration")` -/
def readConfiguration (conf : Config) : Except String NftNames :=
  (NftNames.get conf).mapError fun _ => "Read configuration"

/-- Source address match. An IPv4-mapped IPv6 address is matched as the IPv4 address it stands for. -/
def statementMatchSaddr (family : NfFamily) (addr : IpAddr) : Except String Statement := do
  let unsupported := Except.error "IP version not supported by nftables firewall family"
  let (protocol, addr) ← match addr with
    | .v4 a => if family = .inet ∨ family = .ip then .ok ("ip", IpAddr.v4 a) else unsupported
    | .v6 a =>
      match a.toIpv4Mapped with
      | some a => if family = .inet ∨ family = .ip then .ok ("ip", IpAddr.v4 a) else unsupported
      | none => if family = .inet ∨ family = .ip6 then .ok ("ip6", IpAddr.v6 a) else unsupported
  return .matchEq protocol "saddr" (.string (String.ofList addr.text))

def statementMatchDport : SingleLeasePort → Statement
  | .tcp port => .matchEq "tcp" "dport" (.number port.toNat)
  | .udp port => .matchEq "udp" "dport" (.number port.toNat)

/-- The comment identifies a lease rule. -/
def genRuleComment (addr : Option IpAddr) (port : SingleLeasePort) : String :=
  (match addr with
    | some addr => String.ofList addr.text ++ "/"
    | none => "any/") ++ port.text ++ "/accept/letmein/GENERATED"

/-- The add-rule command that opens the port for the address, or for everyone. -/
def genAddLeaseCmd (conf : Config) (addr : Option IpAddr) (port : SingleLeasePort) :
    Except String NfCmd := do
  let names ← readConfiguration conf
  let saddr ← match addr with
    | some addr => (fun st => [st]) <$> statementMatchSaddr names.family addr
    | none => .ok []
  return .add {
    family := names.family
    table := names.table
    chain := names.chainInput
    expr := saddr ++ [statementMatchDport port, .accept]
    comment := some (genRuleComment addr port) }

/-- One add-rule command per protocol of the lease. -/
def genAddLeaseCmds (conf : Config) (lease : Lease) : Except String (List NfCmd) :=
  lease.port.singles.mapM (genAddLeaseCmd conf (some lease.addr))

/-- The handle of a listed rule, if it is in the chain and has this comment. -/
def matchingHandle (names : NftNames) (comment : String) (rule : Rule) : Option Nat :=
  match rule.handle, rule.comment with
  | some ruleHandle, some ruleComment =>
    if rule.family = names.family ∧ rule.table = names.table ∧ rule.chain = names.chainInput ∧
      ruleComment = comment then some ruleHandle else none
  | _, _ => none

/-- The handle of the first listed rule in the chain with the comment of this address and port. -/
def findHandle (objs : List Rule) (names : NftNames) (addr : IpAddr) (port : SingleLeasePort) :
    Except String Nat :=
  match objs.findSome? (matchingHandle names (genRuleComment (some addr) port)) with
  | some handle => .ok handle
  | none => .error s!"Nftables 'handle' for {String.ofList addr.text}:{port.text} not found in the kernel ruleset."

/-- Delete-rule commands for the protocols of the lease whose rule is listed. The others are skipped. -/
def genDeleteLeaseCmds (conf : Config) (objs : List Rule) (lease : Lease) :
    Except String (List NfCmd) := do
  let names ← readConfiguration conf
  return lease.port.singles.filterMap fun port =>
    match findHandle objs names lease.addr port with
    | .ok handle => some (.delete {
        family := names.family
        table := names.table
        chain := names.chainInput
        expr := []
        handle := some handle })
    | .error _ => none

/-- What the environment decides in one call: the time, whether the `i`-th `nft` program that the call
starts succeeds (`nft --help` in `new`: whether it could be started), and the iteration order of the
lease map. -/
structure NftEnv where
  now : Nat
  nft : Nat → Bool
  it : IterOrder LeaseId

structure NftFirewall where
  leases : LeaseMap
  shutdown : Bool

/-- What a call returns, and the firewall and the kernel after it. -/
structure NftRet where
  val : Except String Unit
  fw : NftFirewall
  kernel : Kernel

/-- The listing is asked for twice: first only to print it, whatever comes out, and then in earnest. -/
def ListedRuleset.fromKernel (env : NftEnv) (i : Nat) (k : Kernel) : Except String (List Rule) :=
  if env.nft (i + 1) then .ok k.rules
  else .error "\"nft\" did not return successfully while getting the current ruleset"

namespace NftFirewall

/-- Apply a batch of commands as the `i`-th `nft` program of the call. -/
def nftablesApplyBatch (env : NftEnv) (i : Nat) (k : Kernel) (batch : List NfCmd) :
    Except String Kernel :=
  match k.apply batch with
  | some k' => if env.nft i then .ok k' else .error "Apply nftables"
  | none => .error "Apply nftables"

def genCtrlCmds (conf : Config) : Except String (List NfCmd) := do
  let tcp ← if conf.port.tcp then (fun cmd => [cmd]) <$> genAddLeaseCmd conf none (.tcp conf.port.port)
    else .ok []
  let udp ← if conf.port.udp then (fun cmd => [cmd]) <$> genAddLeaseCmd conf none (.udp conf.port.port)
    else .ok []
  return tcp ++ udp

/-- Flush the chain and add all rules again. -/
def nftablesFullRebuild (conf : Config) (env : NftEnv) (i : Nat) (fw : NftFirewall) (k : Kernel) :
    Except String Kernel := do
  let names ← readConfiguration conf
  let ctrl ← if fw.shutdown then .ok [] else genCtrlCmds conf
  let leases ← if fw.shutdown then .ok [] else (fw.leases.values env.it).mapM (genAddLeaseCmds conf)
  nftablesApplyBatch env i k (.flush names.chain :: (ctrl ++ leases.flatten))

def nftablesAddLease (conf : Config) (env : NftEnv) (i : Nat) (k : Kernel) (lease : Lease) :
    Except String Kernel := do
  let cmds ← genAddLeaseCmds conf lease
  nftablesApplyBatch env i k cmds

/-- What is returned for an error of `nft` while rules are removed. In debug mode it is ignored and
the operation is considered successful. -/
def removeError (conf : Config) (k : Kernel) (e : String) : Except String Kernel :=
  if conf.debug then .ok k else .error e

/-- Remove the rules of the leases from the kernel. Also returns the number of `nft` programs started
so far. -/
def nftablesRemoveLeases (conf : Config) (env : NftEnv) (i : Nat) (k : Kernel) (leases : List Lease) :
    Nat × Except String Kernel :=
  if leases.isEmpty then (i, .ok k)
  else match ListedRuleset.fromKernel env i k with
    | .error e => (i + 2, removeError conf k e)
    | .ok objs =>
      match leases.mapM (genDeleteLeaseCmds conf objs) with
      | .error e => (i + 2, .error e)
      | .ok cmds =>
        match nftablesApplyBatch env (i + 2) k cmds.flatten with
        | .error e => (i + 3, removeError conf k e)
        | .ok k' => (i + 3, .ok k')

/-- Create a firewall without leases and rebuild the chain. The first program is `nft --help`. It only has
to be there: its exit status is not looked at. The system's own text for its failure is left out of the
message. -/
def new (conf : Config) (env : NftEnv) (k : Kernel) : Except String (NftFirewall × Kernel) :=
  if env.nft 0 then
    match nftablesFullRebuild conf env 1 ⟨∅, false⟩ k with
    | .ok k' => .ok (⟨∅, false⟩, k')
    | .error _ => .error "nftables initialization"
  else .error ("Failed to execute the 'nft' program.\n" ++
    "Did you install the 'nftables' support package in your distribution's package manager?\n" ++
    "Is the 'nft' binary available in the $PATH?\n" ++
    "The execution error was: ")

def shutdownFw (conf : Config) (env : NftEnv) (fw : NftFirewall) (k : Kernel) : Except Panic NftRet := do
  check (fw.shutdown = false) .isShutdown
  let fw := ⟨∅, true⟩
  match nftablesFullRebuild conf env 0 fw k with
  | .ok k' => return ⟨.ok (), fw, k'⟩
  | .error e => return ⟨.error e, fw, k⟩

/-- Remove timed-out leases. When their rules cannot be removed, rebuild the whole chain. -/
def maintain (conf : Config) (env : NftEnv) (fw : NftFirewall) (k : Kernel) : Except Panic NftRet := do
  check (fw.shutdown = false) .isShutdown
  let res := pruneAllLeaseTimeouts env.now env.it fw.leases
  let pruned := res.1
  let fw := { fw with leases := res.2 }
  if pruned.isEmpty then return ⟨.ok (), fw, k⟩
  match nftablesRemoveLeases conf env 0 k pruned with
  | (_, .ok k') => return ⟨.ok (), fw, k'⟩
  | (i, .error _) =>
    match nftablesFullRebuild conf env i fw k with
    | .ok k' => return ⟨.ok (), fw, k'⟩
    | .error e => return ⟨.error e, fw, k⟩

/-- Add a lease and open the port for the address. If there is such a lease, its timeout is reset. -/
def openPort (conf : Config) (env : NftEnv) (fw : NftFirewall) (k : Kernel) (remoteAddr : IpAddr)
    (port : LeasePort) : Except Panic NftRet := do
  check (fw.shutdown = false) .isShutdown
  let id := (remoteAddr, port)
  match fw.leases.lookup id with
  | some lease =>
    return ⟨.ok (), { fw with leases := fw.leases.insert id (lease.refreshTimeout conf env.now) }, k⟩
  | none =>
    let lease ← Lease.new conf env.now remoteAddr port
    match nftablesAddLease conf env 0 k lease with
    | .ok k' => return ⟨.ok (), { fw with leases := fw.leases.insert id lease }, k'⟩
    | .error e => return ⟨.error e, fw, k⟩

/-- Remove a lease and close the port for the address. Without such a lease, the rules that it would
have are removed from the kernel all the same. -/
def closePort (conf : Config) (env : NftEnv) (fw : NftFirewall) (k : Kernel) (remoteAddr : IpAddr)
    (port : LeasePort) : Except Panic NftRet := do
  check (fw.shutdown = false) .isShutdown
  let id := (remoteAddr, port)
  match fw.leases.lookup id with
  | some lease =>
    let fw := { fw with leases := fw.leases.erase id }
    match (nftablesRemoveLeases conf env 0 k [lease]).2 with
    | .ok k' => return ⟨.ok (), fw, k'⟩
    | .error e => return ⟨.error e, fw, k⟩
  | none =>
    let fakeLease ← Lease.new conf env.now remoteAddr port
    match (nftablesRemoveLeases conf env 0 k [fakeLease]).2 with
    | .ok k' => return ⟨.ok (), fw, k'⟩
    | .error e => return ⟨.error e, fw, k⟩

end NftFirewall

/-! ### Runs -/

inductive FwCall where
  | openPort (addr : IpAddr) (port : LeasePort)
  | closePort (addr : IpAddr) (port : LeasePort)
  | maintain
deriving DecidableEq, Repr

def FwCall.port? : FwCall → Option LeasePort
  | .openPort _ port => some port
  | .closePort _ port => some port
  | .maintain => none

/-- A call that was made, when, and what it returned. -/
structure FwEvent where
  call : FwCall
  now : Nat
  val : Except String Unit

/-- The firewall, the kernel and the calls made so far, latest first. -/
structure FwState where
  fw : NftFirewall
  kernel : Kernel
  log : List FwEvent

namespace FwState

def call (conf : Config) (env : NftEnv) (s : FwState) : FwCall → Except Panic NftRet
  | .openPort addr port => s.fw.openPort conf env s.kernel addr port
  | .closePort addr port => s.fw.closePort conf env s.kernel addr port
  | .maintain => s.fw.maintain conf env s.kernel

def step (conf : Config) (s : FwState) (input : FwCall × NftEnv) : Except Panic FwState := do
  let r ← s.call conf input.2 input.1
  return ⟨r.fw, r.kernel, ⟨input.1, input.2.now, r.val⟩ :: s.log⟩

end FwState

end Letmein
