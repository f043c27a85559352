import Letmein.NftRuns

/-!
# No rule without its lease

Without debug mode, and as long as no removal of a lease by `closePort` fails, the rules in the chain
are at most those of the control port and of the leases. `closePort` drops the lease before it has
removed the rules; when that fails the rules stay, and no later `maintain` knows of them.
-/

namespace Letmein
namespace FwState

variable {conf : Config} {names : NftNames} {s s' : FwState} {input : FwCall × NftEnv}

/-- The call closes a port that has a lease, and one of the `nft` programs that list the rules and
delete them fails. -/
def CloseFails (s : FwState) : FwCall × NftEnv → Prop
  | (.closePort addr port, env) => (addr, port) ∈ s.fw.leases ∧ (env.nft 1 = false ∨ env.nft 2 = false)
  | _ => False

/-- No `maintain` has failed so far. The daemon shuts down when one does. -/
def Maintaining (s : FwState) : Prop := ∀ e ∈ s.log, e.call = .maintain → e.val = .ok ()

def Covered (conf : Config) (names : NftNames) (s : FwState) : Prop :=
  s.kernel.content names.chain ≤ ctrlRules conf names + leasesRules names s.fw.leases

theorem Covered.step (hdebug : conf.debug = false) (hn : readConfiguration conf = .ok names)
    (hs : s.Sane names) (h : s.Covered conf names) (hno : ¬ s.CloseFails input)
    (hstep : s.step conf input = .ok s') (hm : s'.Maintaining) : s'.Covered conf names := by
  obtain ⟨call, env⟩ := input
  obtain ⟨r, hr, rfl⟩ := step_ok hn hs hstep
  unfold Covered at h ⊢
  cases call with
  | openPort addr port =>
    cases hr with
    | refreshed hl =>
      dsimp only
      rwa [leasesRules_insert_of_mem (Finmap.mem_of_lookup_eq_some hl)]
    | added hnew _ _ _ hk =>
      dsimp only
      rw [leasesRules_insert hnew, hk, add_left_comm]
      exact add_le_add_right h _
    | refused => exact h
  | closePort addr port =>
    cases hr with
    | removed _ _ hk =>
      dsimp only
      rw [hk]
      by_cases hmem : (addr, port) ∈ s.fw.leases
      · rw [leasesRules_erase hmem, add_left_comm] at h
        exact tsub_le_iff_left.2 h
      · rw [Finmap.erase_of_notMem hmem]
        exact (Multiset.sub_le_self _ _).trans h
    | ignored _ hd => rw [hdebug] at hd; cases hd
    | failed hfail =>
      have hmem : (addr, port) ∉ s.fw.leases := fun hmem => hno ⟨hmem, hfail⟩
      dsimp only
      rwa [Finmap.erase_of_notMem hmem]
  | maintain =>
    cases hr with
    | removed _ hk =>
      dsimp only
      rw [hk]
      rw [← hs.coherent.rulesOf_pruned env.now env.it, add_left_comm] at h
      exact tsub_le_iff_left.2 h
    | ignored _ hd => rw [hdebug] at hd; cases hd
    | rebuilt _ _ hk => exact hk.le
    | failed =>
      have := hm _ List.mem_cons_self rfl
      cases this

/-- In every run without debug mode in which no removal of a lease by `closePort` fails, and up to the
first failure of `maintain`, every rule in the chain is a rule of the control port or belongs to a
lease that is still there. -/
theorem no_orphan_rule (hdebug : conf.debug = false) (hn : NftNames.get conf = .ok names)
    {env : NftEnv} {k k' : Kernel} {fw : NftFirewall} (hnew : NftFirewall.new conf env k = .ok (fw, k'))
    (inputs : List (FwCall × NftEnv))
    (hno : AllSteps (step conf) (fun s input => ¬ s.CloseFails input) ⟨fw, k', []⟩ inputs)
    (hrun : runAll (step conf) ⟨fw, k', []⟩ inputs = .ok s) (hm : s.Maintaining) :
    ∀ r ∈ s.kernel.rules, r.chainId = names.chain → r.erase ∈ ctrlRules conf names ∨
      ∃ id lease, s.fw.leases.lookup id = some lease ∧ r.erase ∈ idRules names id := by
  have hn := readConfiguration_eq hn
  obtain ⟨hsane, hempty, hctrl⟩ := Sane.new hn hnew
  have hinv : s.Sane names ∧ (s.Maintaining → s.Covered conf names) := by
    refine runAll_inv (P := fun s => s.Sane names ∧ (s.Maintaining → s.Covered conf names)) ?_ ?_ hno hrun
    · rintro s input s' ⟨hs, hcov⟩ hG hstep
      refine ⟨hs.step hn hstep, fun hm => ?_⟩
      obtain ⟨r, -, rfl⟩ := step_ok hn hs hstep
      exact (hcov fun e he => hm e (List.mem_cons_of_mem _ he)).step hdebug hn hs hG hstep hm
    · refine ⟨hsane, fun _ => ?_⟩
      unfold Covered
      rw [hctrl]
      exact Multiset.le_add_right _ _
  intro r hr hchain
  have hmem : r.erase ∈ ctrlRules conf names + leasesRules names s.fw.leases :=
    Multiset.mem_of_le (hinv.2 hm) (Kernel.mem_content.2 ⟨r, hr, hchain, rfl⟩)
  rcases Multiset.mem_add.1 hmem with hmem | hmem
  · exact .inl hmem
  · obtain ⟨id, hid, hrule⟩ := mem_leasesRules.1 hmem
    obtain ⟨lease, hl⟩ := Finmap.mem_iff.1 hid
    exact .inr ⟨id, lease, hl, hrule⟩

theorem no_orphan_rule_closed : ∃ fw k',
    NftFirewall.new sampleConf (sampleEnv 0 []) .empty = .ok (fw, k') ∧ ∃ s,
    runAll (step sampleConf) ⟨fw, k', []⟩ (openThenClose []) = .ok s ∧
    ∀ r ∈ s.kernel.rules, r.chainId = sampleNames.chain → r.erase ∈ ctrlRules sampleConf sampleNames ∨
      ∃ id lease, s.fw.leases.lookup id = some lease ∧ r.erase ∈ idRules sampleNames id := by
  refine ⟨_, _, rfl, ?_⟩
  refine ⟨_, rfl, ?_⟩
  have hnew : NftFirewall.new sampleConf (sampleEnv 0 []) .empty = .ok (_, _) := rfl
  refine no_orphan_rule rfl rfl hnew (openThenClose []) ?_ rfl ?_
  · exact ⟨id, fun _ _ => ⟨fun h => absurd h.2 (by decide), fun _ _ => trivial⟩⟩
  · intro e he _
    rcases List.mem_cons.1 he with rfl | he
    · rfl
    · rw [List.mem_singleton.1 he]

/-- The listing of `closePort` fails: it returns an error, the lease is gone, and the rule stays. -/
theorem orphan_rule_after_failed_close : ∃ fw k',
    NftFirewall.new sampleConf (sampleEnv 0 []) .empty = .ok (fw, k') ∧ ∃ s r,
    runAll (step sampleConf) ⟨fw, k', []⟩ (openThenClose [1]) = .ok s ∧
    s.fw.leases = ∅ ∧ r ∈ s.kernel.rules ∧ r.chainId = sampleNames.chain ∧
    r.erase = ruleOf sampleNames (some (.v4 ⟨192, 0, 2, 7⟩)) (.tcp 22) ∧
    ¬ (r.erase ∈ ctrlRules sampleConf sampleNames ∨
      ∃ id lease, s.fw.leases.lookup id = some lease ∧ r.erase ∈ idRules sampleNames id) := by
  refine ⟨_, _, rfl, ?_⟩
  refine ⟨_, { ruleOf sampleNames (some (.v4 ⟨192, 0, 2, 7⟩)) (.tcp 22) with handle := some 2 }, rfl, ?_⟩
  refine ⟨rfl, by decide, rfl, rfl, ?_⟩
  rintro (h | ⟨id, lease, h, -⟩)
  · exact absurd h (by decide)
  · cases h

end FwState
end Letmein
