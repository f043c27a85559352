import Letmein.Lib.Run
import Letmein.NftSpec

/-!
# Delete commands (`gen_delete_lease_cmds`)

A listing is any list of rules: they may lack a handle or a comment, be in other chains and be made by others. For each
protocol of a lease the first rule of the chain counts that has the comment of the lease's address and this protocol.
-/

namespace Letmein

variable {conf : Config} {names : NftNames} {objs : List Rule}

theorem matchingHandle_some_iff {comment : String} {rule : Rule} {handle : Nat} :
    matchingHandle names comment rule = some handle ↔
      rule.handle = some handle ∧ rule.chainId = names.chain ∧ rule.comment = some comment := by
  have hchain : rule.chainId = names.chain ↔
      rule.family = names.family ∧ rule.table = names.table ∧ rule.chain = names.chainInput := by
    simp [Rule.chainId, NftNames.chain]
  rw [hchain]
  unfold matchingHandle
  cases hh : rule.handle with
  | none => simp
  | some h =>
    cases hc : rule.comment with
    | none => simp
    | some c =>
      simp only [Option.some.injEq, Option.ite_none_right_eq_some]
      constructor
      · rintro ⟨⟨hf, ht, hchain, rfl⟩, rfl⟩
        exact ⟨rfl, ⟨hf, ht, hchain⟩, rfl⟩
      · rintro ⟨rfl, ⟨hf, ht, hchain⟩, rfl⟩
        exact ⟨⟨hf, ht, hchain, rfl⟩, rfl⟩

/-- The rule is the one of the chain for this address and port, and it is listed with a handle. -/
def ListedFor (names : NftNames) (objs : List Rule) (addr : IpAddr) (port : SingleLeasePort) (rule : Rule) : Prop :=
  rule ∈ objs ∧ rule.chainId = names.chain ∧ rule.comment = some (genRuleComment (some addr) port) ∧
    rule.handle ≠ none

instance (addr : IpAddr) (port : SingleLeasePort) (rule : Rule) : Decidable (ListedFor names objs addr port rule) :=
  inferInstanceAs (Decidable (_ ∧ _ ∧ _ ∧ _))

/-- Some rule of the listing is the one of the chain for this address and port. -/
def Listed (names : NftNames) (objs : List Rule) (addr : IpAddr) (port : SingleLeasePort) : Prop :=
  ∃ rule ∈ objs, ListedFor names objs addr port rule

instance (addr : IpAddr) : DecidablePred (Listed names objs addr) :=
  fun _ => inferInstanceAs (Decidable (∃ _ ∈ _, _))

theorem findHandle_ok {addr : IpAddr} {port : SingleLeasePort} {handle : Nat}
    (h : findHandle objs names addr port = .ok handle) :
    ∃ rule, ListedFor names objs addr port rule ∧ rule.handle = some handle := by
  unfold findHandle at h
  split at h
  next found hfound =>
    cases h
    obtain ⟨rule, hmem, hrule⟩ := List.exists_of_findSome?_eq_some hfound
    obtain ⟨hhandle, hchain, hcomment⟩ := matchingHandle_some_iff.mp hrule
    exact ⟨rule, ⟨hmem, hchain, hcomment, by rw [hhandle]; exact Option.some_ne_none _⟩, hhandle⟩
  next => cases h

theorem findHandle_error {addr : IpAddr} {port : SingleLeasePort} {e : String}
    (h : findHandle objs names addr port = .error e) : ¬ Listed names objs addr port := by
  rintro ⟨rule, -, hmem, hchain, hcomment, hhandle⟩
  unfold findHandle at h
  split at h
  next => cases h
  next hnone =>
    obtain ⟨handle, hhandle⟩ := Option.ne_none_iff_exists'.mp hhandle
    have hmatch := matchingHandle_some_iff.mpr ⟨hhandle, hchain, hcomment⟩
    rw [List.findSome?_eq_none_iff.mp hnone rule hmem] at hmatch
    cases hmatch

/-- There is one delete command for each protocol of the lease whose rule is listed, and it names a rule that is the
lease's by its comment: no rule of another chain, address, protocol or port and no rule for everyone. -/
theorem delete_cmds_own_rules (conf : Config) (objs : List Rule) (lease : Lease) :
    (∀ e, readConfiguration conf = .error e → genDeleteLeaseCmds conf objs lease = .error e) ∧
    ∀ names, readConfiguration conf = .ok names →
      (∃ cmds, genDeleteLeaseCmds conf objs lease = .ok cmds ∧
        List.Forall₂ (fun port cmd => ∃ rule, ListedFor names objs lease.addr port rule ∧
          cmd = Kernel.deleteCmd names.chain rule)
          (lease.port.singles.filter (Listed names objs lease.addr)) cmds) ∧
      ∀ port rule, ListedFor names objs lease.addr port rule →
        (∀ added, genAddLeaseCmd conf (some lease.addr) port = .ok (.add added) →
          rule.chainId = added.chainId ∧ rule.comment = added.comment) ∧
        (∀ addr' port', rule.comment = some (genRuleComment addr' port') → addr' = some lease.addr ∧ port' = port) ∧
        -- In a listing of the kernel a chain has no two rules of one handle.
        ((∀ r ∈ objs, ∀ r' ∈ objs, r.chainId = r'.chainId → r.handle = r'.handle → r.handle ≠ none → r = r') →
          ∀ rule' ∈ objs, rule'.chainId = names.chain → rule'.handle = rule.handle → rule' = rule) := by
  refine ⟨?_, ?_⟩
  · intro e he
    unfold genDeleteLeaseCmds
    rw [he]
    rfl
  intro names hn
  refine ⟨?_, ?_⟩
  · unfold genDeleteLeaseCmds
    rw [hn]
    refine ⟨_, rfl, List.forall₂_filterMap ?_ ?_⟩
    · intro port cmd hcmd
      split at hcmd
      next handle hfind =>
        cases hcmd
        obtain ⟨rule, hrule, hhandle⟩ := findHandle_ok hfind
        exact ⟨decide_eq_true ⟨rule, hrule.1, hrule⟩, rule, hrule, by rw [Kernel.deleteCmd, hhandle]; rfl⟩
      next => cases hcmd
    · intro port hcmd
      split at hcmd
      next => cases hcmd
      next hfind => exact decide_eq_false (findHandle_error hfind)
  · rintro port rule ⟨hmem, hchain, hcomment, hhandle⟩
    refine ⟨?_, ?_, ?_⟩
    · intro added hadd
      obtain ⟨names', hn', -, hcmd⟩ := genAddLeaseCmd_ok hadd
      obtain rfl : names' = names := Except.ok.inj (hn'.symm.trans hn)
      rw [NfCmd.add.inj hcmd]
      exact ⟨hchain, hcomment⟩
    · intro addr' port' hother
      rw [hcomment, Option.some.injEq] at hother
      obtain ⟨haddr, hport⟩ := genRuleComment_injective hother
      exact ⟨haddr.symm, hport.symm⟩
    · intro hunique rule' hmem' hchain' hsame
      exact hunique rule' hmem' rule hmem (hchain'.trans hchain.symm) hsame (by rw [hsame]; exact hhandle)

end Letmein
