import Letmein.FwProtocols
import Letmein.NftHistory

/-!
# What a close leaves open

A lease is filed under the address as it was given, and so is the comment by which its rules are found, but the
rules match the address that an IPv4-mapped address stands for. Two leases with different keys can thus
open a port for the same host. `close_closes_iff` says what `closePort` leaves of it.
-/

namespace Letmein

/-! ## Packets -/

/-- What the rules look at: the source address and the destination port. -/
structure Packet where
  saddr : IpAddr
  dport : SingleLeasePort

/-- A field of the packet, if the packet has this protocol. -/
def Packet.field (pkt : Packet) (protocol field : String) : Option Expression :=
  if field = "saddr" then
    match pkt.saddr with
    | .v4 a => if protocol = "ip" then some (.string (String.ofList a.text)) else none
    | .v6 a => if protocol = "ip6" then some (.string (String.ofList a.text)) else none
  else if field = "dport" then
    match pkt.dport with
    | .tcp port => if protocol = "tcp" then some (.number port.toNat) else none
    | .udp port => if protocol = "udp" then some (.number port.toNat) else none
  else none

def Packet.meets (pkt : Packet) : Statement → Bool
  | .matchEq protocol field right => pkt.field protocol field = some right
  | .accept => true
  | .other _ => false

/-- All matches of the rule hold for the packet. -/
def Packet.passes (pkt : Packet) (r : Rule) : Bool := r.expr.all pkt.meets

/-- A rule of the chain for an address accepts the packet. -/
def AcceptsPacket (names : NftNames) (k : Kernel) (pkt : Packet) : Prop :=
  ∃ r ∈ k.rules, r.chainId = names.chain ∧ (∃ p, AcceptsFromAddress r p) ∧ pkt.passes r = true

variable {names : NftNames} {addr addr' : IpAddr} {p q : SingleLeasePort}

/-- The source address match is on the host. -/
theorem meets_statementMatchSaddr {st : Statement} (h : statementMatchSaddr names.family addr' = .ok st)
    (pkt : Packet) : pkt.meets st = true ↔ pkt.saddr = addr'.toCanonical := by
  have hv4 : ∀ a : Ipv4Addr, pkt.meets (.matchEq "ip" "saddr" (.string (String.ofList (IpAddr.v4 a).text))) = true ↔
      pkt.saddr = .v4 a := by
    intro a
    rcases hs : pkt.saddr with b | b
    · simp only [Packet.meets, Packet.field, hs, decide_eq_true_eq, if_true, Option.some.injEq,
        Expression.string.injEq, String.ofList_inj, IpAddr.v4.injEq]
      exact ⟨fun h => Ipv4Addr.text_injective h, fun h => by rw [h]; rfl⟩
    · simp [Packet.meets, Packet.field, hs]
  have hv6 : ∀ a : Ipv6Addr, pkt.meets (.matchEq "ip6" "saddr" (.string (String.ofList (IpAddr.v6 a).text))) = true ↔
      pkt.saddr = .v6 a := by
    intro a
    rcases hs : pkt.saddr with b | b
    · simp [Packet.meets, Packet.field, hs]
    · simp only [Packet.meets, Packet.field, hs, decide_eq_true_eq, if_true, Option.some.injEq,
        Expression.string.injEq, String.ofList_inj, IpAddr.v6.injEq]
      exact ⟨fun h => Ipv6Addr.text_injective h, fun h => by rw [h]; rfl⟩
  rcases statementMatchSaddr_ok h with ⟨a, hcanon, -, rfl⟩ | ⟨a, hcanon, rfl⟩
  · rw [hcanon]
    exact hv4 a
  · rw [hcanon]
    exact hv6 a

theorem meets_statementMatchDport (pkt : Packet) :
    pkt.meets (statementMatchDport q) = true ↔ pkt.dport = q := by
  rcases q with q | q <;> rcases hd : pkt.dport with d | d <;>
    simp [statementMatchDport, Packet.meets, Packet.field, hd, UInt16.toNat_inj]

/-- The rule of an address and a port accepts the packets of the host to that port. -/
theorem passes_ruleOf (hs : Supported names.family addr') (pkt : Packet) :
    pkt.passes (ruleOf names (some addr') q) = true ↔ pkt.saddr = addr'.toCanonical ∧ pkt.dport = q := by
  obtain ⟨st, hst⟩ := hs
  have hexpr : (ruleOf names (some addr') q).expr = [st, statementMatchDport q, .accept] := by
    simp only [ruleOf, saddrOf, hst]
    rfl
  rw [Packet.passes, hexpr, ← meets_statementMatchSaddr hst pkt, ← meets_statementMatchDport pkt]
  simp [Packet.meets]

theorem acceptsFromAddress_ruleOf (hs : Supported names.family addr') :
    AcceptsFromAddress (ruleOf names (some addr') q) q := by
  obtain ⟨st, hst⟩ := hs
  exact ⟨st, by simp only [ruleOf, saddrOf, hst]; rfl⟩

/-! ## The chain after a close -/

namespace FwState

variable {conf : Config} {variant : UInt16 → LeasePort} {s : FwState} {port : LeasePort}

/-- In a chain that holds the rules of the leases, a packet is accepted exactly if its host has a lease for its
port. -/
theorem Tracks.acceptsPacket_iff (h : s.Tracks conf names variant) (pkt : Packet) :
    AcceptsPacket names s.kernel pkt ↔
      ∃ id ∈ s.fw.leases, id.1.toCanonical = pkt.saddr ∧ pkt.dport ∈ id.2.singles := by
  constructor
  · rintro ⟨r, hr, hchain, ⟨p, hp⟩, hpass⟩
    have hmem : r.erase ∈ s.kernel.content names.chain := Kernel.mem_content.2 ⟨r, hr, hchain, rfl⟩
    have hp : AcceptsFromAddress r.erase p := hp
    have hpass : pkt.passes r.erase = true := hpass
    rw [h.content, Multiset.mem_add] at hmem
    rcases hmem with hmem | hmem
    · obtain ⟨q, hq⟩ := NftFirewall.mem_ctrlRules hmem
      rw [hq] at hp
      cases (port_of_acceptsFromAddress hp).1
    · obtain ⟨id, hid, hx⟩ := mem_leasesRules.1 hmem
      obtain ⟨q, hq, hrule⟩ := mem_idRules.1 hx
      rw [← hrule] at hpass
      obtain ⟨hsaddr, hdport⟩ := (passes_ruleOf (h.sane.coherent.supported id hid) pkt).1 hpass
      exact ⟨id, hid, hsaddr.symm, by rw [hdport]; exact hq⟩
  · rintro ⟨id, hid, hsaddr, hdport⟩
    have hsup := h.sane.coherent.supported id hid
    have hmem : ruleOf names (some id.1) pkt.dport ∈ s.kernel.content names.chain := by
      rw [h.content, Multiset.mem_add]
      exact .inr (mem_leasesRules.2 ⟨id, hid, mem_idRules.2 ⟨_, hdport, rfl⟩⟩)
    obtain ⟨r, hr, hchain, herase⟩ := Kernel.mem_content.1 hmem
    have hp : AcceptsFromAddress r.erase pkt.dport := by
      rw [herase]
      exact acceptsFromAddress_ruleOf hsup
    have hpass : pkt.passes r.erase = true := by
      rw [herase]
      exact (passes_ruleOf hsup pkt).2 ⟨hsaddr.symm, rfl⟩
    exact ⟨r, hr, hchain, ⟨_, hp⟩, hpass⟩

theorem mem_singles_of_uniform {id : LeaseId} (h : id.2 = variant id.2.num) (hport : port = variant port.num)
    (hp : p ∈ id.2.singles) (hp' : p ∈ port.singles) : id.2 = port := by
  have hnum : id.2.num = port.num := by rw [← num_of_mem_singles hp, ← num_of_mem_singles hp']
  rw [h, hnum, ← hport]

theorem exists_mem_singles (port : LeasePort) : ∃ p, p ∈ port.singles := by
  rcases port with port | port | port <;> exact ⟨_, List.mem_cons_self⟩

/-- After `closePort` the host of the address is accepted at the port only for a lease under its other spelling. -/
theorem Tracks.closePort_iff (hn : readConfiguration conf = .ok names) (h : s.Tracks conf names variant)
    {env : NftEnv} (hf : FaultFree conf variant (.closePort addr port, env)) :
    ∃ r, s.fw.closePort conf env s.kernel addr port = .ok r ∧ r.val = .ok () ∧
      ((∀ p ∈ port.singles, ¬ AcceptsPacket names r.kernel ⟨addr.toCanonical, p⟩) ↔
        ∀ addr', addr' ≠ addr → addr'.toCanonical = addr.toCanonical → (addr', port) ∉ s.fw.leases) := by
  obtain ⟨r, hr⟩ := call_returns env h.sane.running hf.notControl
  obtain ⟨s', hs', hafter⟩ := h.step hn hf
  rw [step_of_call hr] at hs'
  cases hs'
  have hleases : r.fw.leases = s.fw.leases.erase (addr, port) ∧ r.val = .ok () := by
    have hno : ¬ (env.nft 1 = false ∨ env.nft 2 = false) := by
      rw [hf.nft 1, hf.nft 2]
      simp
    cases call_ok hn h.sane hr with
    | removed => exact ⟨rfl, rfl⟩
    | ignored hfail => exact (hno hfail).elim
    | failed hfail => exact (hno hfail).elim
  refine ⟨r, hr, hleases.2, ?_⟩
  have hiff : ∀ p, AcceptsPacket names r.kernel ⟨addr.toCanonical, p⟩ ↔
      ∃ id ∈ s.fw.leases.erase (addr, port), id.1.toCanonical = addr.toCanonical ∧ p ∈ id.2.singles := by
    intro p
    rw [← hleases.1]
    exact hafter.acceptsPacket_iff ⟨addr.toCanonical, p⟩
  simp only [hiff]
  constructor
  · intro hclosed addr' hne hhost hmem
    obtain ⟨p, hp⟩ := exists_mem_singles port
    refine hclosed p hp ⟨(addr', port), Finmap.mem_erase.2 ⟨fun he => hne ?_, hmem⟩, hhost, hp⟩
    exact congrArg Prod.fst he
  · rintro hnone p hp ⟨id, hid, hhost, hp'⟩
    obtain ⟨hne, hmem⟩ := Finmap.mem_erase.1 hid
    have hport : id.2 = port := mem_singles_of_uniform (h.uniform id hmem) (hf.asks port rfl) hp' hp
    subst hport
    exact hnone id.1 (fun he => hne (Prod.ext he rfl)) hhost hmem

/-- In every run without failures: after `closePort` the chain accepts no packet of the host to the port, exactly
if there was no lease for that port under another spelling of the host. -/
theorem close_closes_iff (hn : NftNames.get conf = .ok names) {env : NftEnv} {k k' : Kernel} {fw : NftFirewall}
    (hnew : NftFirewall.new conf env k = .ok (fw, k')) (inputs : List (FwCall × NftEnv))
    (hinputs : ∀ input ∈ inputs, FaultFree conf variant input)
    (hrun : runAll (step conf) ⟨fw, k', []⟩ inputs = .ok s) {closeEnv : NftEnv}
    (hf : FaultFree conf variant (.closePort addr port, closeEnv)) :
    ∃ r, s.fw.closePort conf closeEnv s.kernel addr port = .ok r ∧ r.val = .ok () ∧
      ((∀ p ∈ port.singles, ¬ AcceptsPacket names r.kernel ⟨addr.toCanonical, p⟩) ↔
        ∀ addr', addr' ≠ addr → addr'.toCanonical = addr.toCanonical → (addr', port) ∉ s.fw.leases) := by
  have hn := readConfiguration_eq hn
  obtain ⟨s', hrun', hs⟩ := runAll_returns (P := Tracks conf names variant)
    (fun s input hin hs => Tracks.step hn hs (hinputs input hin)) (Tracks.new hn hnew)
  rw [hrun] at hrun'
  cases hrun'
  exact hs.closePort_iff hn hf

/-! ## Two leases of one host -/

/-- The same host opens port 22 from both spellings of its address. -/
noncomputable def openBoth : List (FwCall × NftEnv) :=
  [(.openPort (.v4 ⟨192, 0, 2, 7⟩) (.tcp 22), sampleEnv 1 []),
    (.openPort (.v6 ⟨0, 0, 0, 0, 0, 0xFFFF, 0xC000, 0x0207⟩) (.tcp 22), sampleEnv 2 [])]

theorem sample_faultFree {call : FwCall} (now : Nat) (h : call.port? = some (.tcp 22)) :
    FaultFree sampleConf .tcp (call, sampleEnv now []) := by
  refine ⟨fun _ => rfl, fun port hport => ?_, fun port hport => ?_⟩
  · rw [h] at hport
    cases hport
    decide
  · rw [h] at hport
    cases hport
    rfl

/-- After one of the leases is closed, the host can still reach the port through the rule of the other. -/
theorem close_leaves_open : (∀ input ∈ openBoth, FaultFree sampleConf .tcp input) ∧
    ∃ fw k' s r, NftFirewall.new sampleConf (sampleEnv 0 []) .empty = .ok (fw, k') ∧
      runAll (step sampleConf) ⟨fw, k', []⟩ openBoth = .ok s ∧
      s.fw.closePort sampleConf (sampleEnv 3 []) s.kernel (.v4 ⟨192, 0, 2, 7⟩) (.tcp 22) = .ok r ∧ r.val = .ok () ∧
      AcceptsPacket sampleNames r.kernel ⟨(IpAddr.v4 ⟨192, 0, 2, 7⟩).toCanonical, .tcp 22⟩ := by
  refine ⟨?_, _, _, _, _, rfl, rfl, rfl, rfl, ?_⟩
  · simp only [openBoth, List.forall_mem_cons]
    exact ⟨sample_faultFree 1 rfl, sample_faultFree 2 rfl, by simp⟩
  · refine ⟨{ ruleOf sampleNames (some (.v6 ⟨0, 0, 0, 0, 0, 0xFFFF, 0xC000, 0x0207⟩)) (.tcp 22) with
      handle := some 3 }, .tail _ (.head _), rfl, ⟨.tcp 22, _, rfl⟩, ?_⟩
    decide

theorem close_closes_iff_sample : ∃ fw k' s,
    NftFirewall.new sampleConf (sampleEnv 0 []) .empty = .ok (fw, k') ∧
    runAll (step sampleConf) ⟨fw, k', []⟩ openBoth = .ok s ∧
    ∃ r, s.fw.closePort sampleConf (sampleEnv 3 []) s.kernel (.v4 ⟨192, 0, 2, 7⟩) (.tcp 22) = .ok r ∧
      r.val = .ok () ∧
      ((∀ p ∈ (LeasePort.tcp 22).singles,
        ¬ AcceptsPacket sampleNames r.kernel ⟨(IpAddr.v4 ⟨192, 0, 2, 7⟩).toCanonical, p⟩) ↔
        ∀ addr', addr' ≠ .v4 ⟨192, 0, 2, 7⟩ →
          addr'.toCanonical = (IpAddr.v4 ⟨192, 0, 2, 7⟩).toCanonical → (addr', .tcp 22) ∉ s.fw.leases) := by
  have hinputs : ∀ input ∈ openBoth, FaultFree sampleConf .tcp input := by
    simp only [openBoth, List.forall_mem_cons]
    exact ⟨sample_faultFree 1 rfl, sample_faultFree 2 rfl, by simp⟩
  have hnew : NftFirewall.new sampleConf (sampleEnv 0 []) .empty = .ok (_, _) := rfl
  exact ⟨_, _, _, hnew, rfl, close_closes_iff rfl hnew openBoth hinputs rfl (sample_faultFree 3 rfl)⟩

end FwState

end Letmein
