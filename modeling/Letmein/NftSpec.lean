import Letmein.Lib.List
import Letmein.Nft

/-!
# What the nftables functions do

The rule of an address and a port (`ruleOf`) is identified by its comment, since the text of an
address has no slash. A chain that holds only such rules is therefore known by its content, and the
functions of the firewall act on the content: adding a lease adds its rules, and removing leases
subtracts theirs, one copy each, where they are.
-/

namespace Letmein

/-! ### Rules and their comments -/

def Supported (family : NfFamily) (addr : IpAddr) : Prop := ∃ st, statementMatchSaddr family addr = .ok st

/-- The source address match of a rule, if there is one. -/
def saddrOf (family : NfFamily) : Option IpAddr → List Statement
  | some addr =>
    match statementMatchSaddr family addr with
    | .ok st => [st]
    | .error _ => []
  | none => []

theorem mem_saddrOf {family : NfFamily} {addr : Option IpAddr} {st : Statement} (h : st ∈ saddrOf family addr) :
    ∃ a, addr = some a ∧ statementMatchSaddr family a = .ok st := by
  unfold saddrOf at h
  split at h
  next a =>
    split at h
    next st' hst =>
      rw [List.mem_singleton] at h
      exact ⟨a, rfl, by rw [h]; exact hst⟩
    next => cases h
  next => cases h

/-- The rule that opens the port for the address, or for everyone. -/
def ruleOf (names : NftNames) (addr : Option IpAddr) (port : SingleLeasePort) : Rule where
  family := names.family
  table := names.table
  chain := names.chainInput
  expr := saddrOf names.family addr ++ [statementMatchDport port, .accept]
  comment := some (genRuleComment addr port)

@[simp] theorem ruleOf_erase (names : NftNames) (addr : Option IpAddr) (port : SingleLeasePort) :
    (ruleOf names addr port).erase = ruleOf names addr port := rfl

@[simp] theorem ruleOf_chainId (names : NftNames) (addr : Option IpAddr) (port : SingleLeasePort) :
    (ruleOf names addr port).chainId = names.chain := rfl

@[simp] theorem ruleOf_comment (names : NftNames) (addr : Option IpAddr) (port : SingleLeasePort) :
    (ruleOf names addr port).comment = some (genRuleComment addr port) := rfl

/-- The source address match is on the address that the given one stands for. -/
theorem statementMatchSaddr_ok {family : NfFamily} {addr : IpAddr} {st : Statement}
    (h : statementMatchSaddr family addr = .ok st) :
    (∃ a, addr.toCanonical = .v4 a ∧ family ≠ .ip6 ∧
      st = .matchEq "ip" "saddr" (.string (String.ofList (IpAddr.v4 a).text))) ∨
    ∃ a, addr.toCanonical = .v6 a ∧ st = .matchEq "ip6" "saddr" (.string (String.ofList (IpAddr.v6 a).text)) := by
  unfold statementMatchSaddr at h
  rcases addr with a | a
  · dsimp only at h
    split_ifs at h with hfam
    · cases h
      exact .inl ⟨a, rfl, fun heq => by rw [heq] at hfam; simp at hfam, rfl⟩
    · cases h
  · rcases hm : a.toIpv4Mapped with _ | b
    · have hcanon : (IpAddr.v6 a).toCanonical = .v6 a := by simp only [IpAddr.toCanonical, hm]
      simp only [hm] at h
      split_ifs at h
      · cases h
        exact .inr ⟨a, hcanon, rfl⟩
      · cases h
    · have hcanon : (IpAddr.v6 a).toCanonical = .v4 b := by simp only [IpAddr.toCanonical, hm]
      simp only [hm] at h
      split_ifs at h with hfam
      · cases h
        exact .inl ⟨b, hcanon, fun heq => by rw [heq] at hfam; simp at hfam, rfl⟩
      · cases h

theorem singleLeasePort_text_inj {p q : SingleLeasePort} {l m : List Char}
    (h : p.text.toList ++ '/' :: l = q.text.toList ++ '/' :: m) : p = q := by
  have hslash : ∀ n : Nat, '/' ∉ Nat.toDigits 10 n := fun n =>
    Nat.notMem_toDigits (by decide) (by decide) (by decide)
  have htext : ∀ p : SingleLeasePort, ∃ proto : List Char, '/' ∉ proto ∧
      p.text.toList = Nat.toDigits 10 p.num.toNat ++ '/' :: proto ∧
      (proto = "TCP".toList ∧ p = .tcp p.num ∨ proto = "UDP".toList ∧ p = .udp p.num) := by
    intro p
    cases p with
    | tcp n => exact ⟨"TCP".toList, by decide, by simp [SingleLeasePort.text, SingleLeasePort.num, toString, Nat.repr], .inl ⟨rfl, rfl⟩⟩
    | udp n => exact ⟨"UDP".toList, by decide, by simp [SingleLeasePort.text, SingleLeasePort.num, toString, Nat.repr], .inr ⟨rfl, rfl⟩⟩
  obtain ⟨proto, hproto, hp, hcase⟩ := htext p
  obtain ⟨proto', hproto', hq, hcase'⟩ := htext q
  rw [hp, hq, List.append_assoc, List.append_assoc] at h
  obtain ⟨hnum, hrest⟩ := List.append_cons_inj (hslash _) (hslash _) h
  obtain ⟨rfl, -⟩ := List.append_cons_inj hproto hproto' hrest
  have hnum : p.num = q.num := UInt16.toNat_inj.1 (Nat.toDigits_injective (by decide) (by decide) hnum)
  rcases hcase with ⟨h₁, hp'⟩ | ⟨h₁, hp'⟩ <;> rcases hcase' with ⟨h₂, hq'⟩ | ⟨h₂, hq'⟩
  · rw [hp', hq', hnum]
  · rw [h₁] at h₂; exact absurd h₂ (by decide)
  · rw [h₁] at h₂; exact absurd h₂ (by decide)
  · rw [hp', hq', hnum]

/-- The part of a comment before its first slash. -/
def addrText : Option IpAddr → List Char
  | some addr => addr.text
  | none => "any".toList

theorem slash_notMem_addrText (a : Option IpAddr) : '/' ∉ addrText a := by
  cases a with
  | none => decide
  | some addr => exact addr.notMem_text (by decide) (by decide) (by decide)

theorem addrText_injective {a b : Option IpAddr} (h : addrText a = addrText b) : a = b := by
  -- "any" is no address: it has an `n`
  have hany : ∀ addr : IpAddr, addr.text ≠ "any".toList := fun addr he =>
    addr.notMem_text (c := 'n') (by decide) (by decide) (by decide) (he ▸ by decide)
  rcases a with _ | x <;> rcases b with _ | y
  · rfl
  · exact absurd h.symm (hany y)
  · exact absurd h (hany x)
  · rw [IpAddr.text_injective h]

theorem genRuleComment_toList (a : Option IpAddr) (p : SingleLeasePort) : (genRuleComment a p).toList =
    addrText a ++ '/' :: (p.text.toList ++ '/' :: "accept/letmein/GENERATED".toList) := by
  cases a <;> simp [genRuleComment, addrText]

/-- The comment can be used as unique identifier. -/
theorem genRuleComment_injective {a b : Option IpAddr} {p q : SingleLeasePort}
    (h : genRuleComment a p = genRuleComment b q) : a = b ∧ p = q := by
  have h := congrArg String.toList h
  rw [genRuleComment_toList, genRuleComment_toList] at h
  obtain ⟨haddr, hport⟩ := List.append_cons_inj (slash_notMem_addrText a) (slash_notMem_addrText b) h
  exact ⟨addrText_injective haddr, singleLeasePort_text_inj hport⟩

theorem ruleOf_injective {names : NftNames} {a b : Option IpAddr} {p q : SingleLeasePort}
    (h : ruleOf names a p = ruleOf names b q) : a = b ∧ p = q :=
  genRuleComment_injective (Option.some.inj (congrArg Rule.comment h))

/-! ### Generating commands -/

variable {conf : Config} {names : NftNames} {k k' : Kernel} {lease : Lease} {leases : List Lease}

theorem genAddLeaseCmd_eq (hn : readConfiguration conf = .ok names) (addr : Option IpAddr)
    (ha : ∀ a, addr = some a → Supported names.family a) (port : SingleLeasePort) :
    genAddLeaseCmd conf addr port = .ok (.add (ruleOf names addr port)) := by
  unfold genAddLeaseCmd
  rw [hn]
  cases addr with
  | none => rfl
  | some a =>
    obtain ⟨st, hst⟩ := ha a rfl
    simp only [ruleOf, saddrOf, hst, bind, Except.bind, Functor.map, Except.map]; rfl

theorem genAddLeaseCmd_unsupported (hn : readConfiguration conf = .ok names) {addr : IpAddr}
    (ha : ¬ Supported names.family addr) (port : SingleLeasePort) :
    ∃ e, genAddLeaseCmd conf (some addr) port = .error e := by
  unfold genAddLeaseCmd
  rw [hn]
  cases hst : statementMatchSaddr names.family addr with
  | error e => exact ⟨e, by simp only [bind, Except.bind, hst, Functor.map, Except.map]⟩
  | ok st => exact absurd ⟨st, hst⟩ ha

/-- A command that is made adds the rule of the address and the port. -/
theorem genAddLeaseCmd_ok {addr : Option IpAddr} {port : SingleLeasePort} {cmd : NfCmd}
    (h : genAddLeaseCmd conf addr port = .ok cmd) : ∃ names, readConfiguration conf = .ok names ∧
      (∀ a, addr = some a → Supported names.family a) ∧ cmd = .add (ruleOf names addr port) := by
  cases hn : readConfiguration conf with
  | error e =>
    unfold genAddLeaseCmd at h
    rw [hn] at h
    cases h
  | ok names =>
    have hsup : ∀ a, addr = some a → Supported names.family a := by
      rintro a rfl
      by_contra hnot
      obtain ⟨e, he⟩ := genAddLeaseCmd_unsupported hn hnot port
      rw [he] at h
      cases h
    rw [genAddLeaseCmd_eq hn addr hsup] at h
    cases h
    exact ⟨names, rfl, hsup, rfl⟩

def Lease.id (lease : Lease) : LeaseId := (lease.addr, lease.port)

def idRules (names : NftNames) (id : LeaseId) : List Rule := id.2.singles.map (ruleOf names (some id.1))

theorem mem_idRules {id : LeaseId} {r : Rule} :
    r ∈ idRules names id ↔ ∃ port ∈ id.2.singles, ruleOf names (some id.1) port = r :=
  List.mem_map

theorem idRules_nodup (names : NftNames) (id : LeaseId) : (idRules names id).Nodup := by
  refine List.Nodup.map (fun p q h => (ruleOf_injective h).2) ?_
  rcases id with ⟨_, _ | _ | _⟩ <;> simp [LeasePort.singles]

theorem idRules_chainId {id : LeaseId} {r : Rule} (h : r ∈ idRules names id) : r.chainId = names.chain := by
  obtain ⟨port, -, rfl⟩ := mem_idRules.1 h
  rfl

theorem idRules_map_erase (names : NftNames) (id : LeaseId) :
    (idRules names id).map Rule.erase = idRules names id := by
  rw [idRules, List.map_map]; rfl

theorem num_of_mem_singles {port : LeasePort} {p : SingleLeasePort} (h : p ∈ port.singles) :
    p.num = port.num := by
  rcases port with n | n | n <;> simp [LeasePort.singles] at h
  · rw [h]; rfl
  · rw [h]; rfl
  · rcases h with rfl | rfl <;> rfl

theorem idRules_disjoint {id id' : LeaseId} {r : Rule} (h : r ∈ idRules names id)
    (h' : r ∈ idRules names id') : id.1 = id'.1 ∧ id.2.num = id'.2.num := by
  obtain ⟨p, hp, rfl⟩ := mem_idRules.1 h
  obtain ⟨q, hq, heq⟩ := mem_idRules.1 h'
  obtain ⟨haddr, rfl⟩ := ruleOf_injective heq
  rw [← num_of_mem_singles hp, ← num_of_mem_singles hq]
  exact ⟨(Option.some.inj haddr).symm, rfl⟩

theorem genAddLeaseCmds_eq (hn : readConfiguration conf = .ok names)
    (ha : Supported names.family lease.addr) :
    genAddLeaseCmds conf lease = .ok ((idRules names lease.id).map .add) := by
  have hcmd := genAddLeaseCmd_eq hn (some lease.addr) fun a h => Option.some.inj h ▸ ha
  unfold genAddLeaseCmds idRules Lease.id
  rcases lease with ⟨addr, port | port | port, t⟩ <;>
    simp only [LeasePort.singles, List.mapM_cons, List.mapM_nil, hcmd, List.map_cons, List.map_nil] <;> rfl

theorem genAddLeaseCmds_unsupported (hn : readConfiguration conf = .ok names)
    (ha : ¬ Supported names.family lease.addr) : ∃ e, genAddLeaseCmds conf lease = .error e := by
  obtain ⟨port, ports, hports⟩ : ∃ port ports, lease.port.singles = port :: ports := by
    rcases lease with ⟨_, _ | _ | _, _⟩ <;> exact ⟨_, _, rfl⟩
  obtain ⟨e, he⟩ := genAddLeaseCmd_unsupported hn ha port
  refine ⟨e, ?_⟩
  rw [genAddLeaseCmds, hports, List.mapM_cons, he]; rfl

/-! ### Finding and deleting rules -/

/-- Every rule of the chain is one that letmein generated. -/
def Generated (names : NftNames) (k : Kernel) : Prop :=
  ∀ r ∈ k.content names.chain, ∃ addr port, r = ruleOf names addr port

/-- The listed rule is the one for this address and port. -/
def isRuleFor (names : NftNames) (addr : IpAddr) (port : SingleLeasePort) (r : Rule) : Bool :=
  r.chainId = names.chain ∧ r.comment = some (genRuleComment (some addr) port)

/-- The listed rules that are deleted for a lease. -/
def found (names : NftNames) (objs : List Rule) (lease : Lease) : List Rule :=
  lease.port.singles.filterMap fun port => objs.find? (isRuleFor names lease.addr port)

theorem matchingHandle_eq (names : NftNames) (addr : IpAddr) (port : SingleLeasePort) {r : Rule} {h : Nat}
    (hh : r.handle = some h) : matchingHandle names (genRuleComment (some addr) port) r =
      if isRuleFor names addr port r then some h else none := by
  have hchain : r.chainId = names.chain ↔
      r.family = names.family ∧ r.table = names.table ∧ r.chain = names.chainInput := by
    simp [Rule.chainId, NftNames.chain]
  unfold matchingHandle isRuleFor
  cases hc : r.comment with
  | none => simp [hh]
  | some c => simp only [hh, hchain, Option.some.injEq, and_assoc, decide_eq_true_eq]

theorem findSome_matchingHandle (objs : List Rule) (hobjs : ∀ r ∈ objs, ∃ h, r.handle = some h)
    (names : NftNames) (addr : IpAddr) (port : SingleLeasePort) :
    objs.findSome? (matchingHandle names (genRuleComment (some addr) port)) =
      (objs.find? (isRuleFor names addr port)).bind Rule.handle := by
  induction objs with
  | nil => rfl
  | cons r objs ih =>
    obtain ⟨h, hh⟩ := hobjs r List.mem_cons_self
    rw [List.findSome?_cons, List.find?_cons, matchingHandle_eq names addr port hh]
    cases isRuleFor names addr port r with
    | true => exact hh.symm
    | false => exact ih fun x hx => hobjs x (List.mem_cons_of_mem _ hx)

theorem genDeleteLeaseCmds_eq (hn : readConfiguration conf = .ok names) (k : Kernel) (lease : Lease) :
    genDeleteLeaseCmds conf k.rules lease =
      .ok ((found names k.rules lease).map (Kernel.deleteCmd names.chain)) := by
  have hhandle : ∀ r ∈ k.rules, ∃ h, r.handle = some h := fun r hr => by
    obtain ⟨h, -, hh⟩ := k.handle_lt r hr
    exact ⟨h, hh⟩
  unfold genDeleteLeaseCmds
  rw [hn]
  refine congrArg Except.ok ?_
  rw [found, List.map_filterMap]
  refine List.filterMap_congr fun port _ => ?_
  unfold findHandle
  rw [findSome_matchingHandle k.rules hhandle]
  cases hf : k.rules.find? (isRuleFor names lease.addr port) with
  | none => rfl
  | some r =>
    obtain ⟨h, hh⟩ := hhandle r (List.mem_of_find?_eq_some hf)
    simp [Kernel.deleteCmd, hh, NftNames.chain]

theorem mem_found {r : Rule} (h : r ∈ found names k.rules lease) :
    r ∈ k.rules ∧ r.chainId = names.chain := by
  obtain ⟨port, -, hf⟩ := List.mem_filterMap.1 h
  have hr := List.find?_some hf
  simp only [isRuleFor, decide_eq_true_eq] at hr
  exact ⟨List.mem_of_find?_eq_some hf, hr.1⟩

theorem mem_content_of_find {r : Rule} {addr : IpAddr} {port : SingleLeasePort} (hg : Generated names k)
    (h : k.rules.find? (isRuleFor names addr port) = some r) :
    r.erase = ruleOf names (some addr) port ∧ ruleOf names (some addr) port ∈ k.content names.chain := by
  have hr := List.find?_some h
  simp only [isRuleFor, decide_eq_true_eq] at hr
  have hmem : r.erase ∈ k.content names.chain :=
    Kernel.mem_content.2 ⟨r, List.mem_of_find?_eq_some h, hr.1, rfl⟩
  obtain ⟨a, p, hap⟩ := hg _ hmem
  have hcomment : r.comment = some (genRuleComment a p) := congrArg Rule.comment hap
  rw [hr.2, Option.some.injEq] at hcomment
  obtain ⟨rfl, rfl⟩ := genRuleComment_injective hcomment
  exact ⟨hap, hap ▸ hmem⟩

/-- In a chain of generated rules, the rules found for a lease are its rules, where they are. -/
theorem found_map_erase (hg : Generated names k) (lease : Lease) :
    (found names k.rules lease).map Rule.erase =
      (idRules names lease.id).filter (· ∈ k.content names.chain) := by
  unfold found idRules Lease.id
  induction lease.port.singles with
  | nil => rfl
  | cons port ports ih =>
    rw [List.filterMap_cons, List.map_cons, List.filter_cons]
    cases hf : k.rules.find? (isRuleFor names lease.addr port) with
    | some r =>
      obtain ⟨hr, hmem⟩ := mem_content_of_find hg hf
      rw [if_pos (by simpa using hmem), ← ih, ← hr]; rfl
    | none =>
      have hnot : ruleOf names (some lease.addr) port ∉ k.content names.chain := fun hmem => by
        obtain ⟨x, hx, hxc, hxe⟩ := Kernel.mem_content.1 hmem
        have hxcom : x.comment = some (genRuleComment (some lease.addr) port) := by
          rw [← Rule.erase_comment, hxe]; rfl
        exact List.find?_eq_none.1 hf x hx (by simp [isRuleFor, hxc, hxcom])
      rw [if_neg (by simpa using hnot), ← ih]

end Letmein
