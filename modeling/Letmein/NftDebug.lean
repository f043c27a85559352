import Letmein.NftRuns

/-!
# What the debug option changes

`debug` is consulted where the removal of rules fails, and nowhere else: in debug mode the failure is
ignored and the operation considered successful. The leases are the same with and without it in every
run, and everything else is the same up to the first removal that fails.
-/

namespace Letmein

variable {conf : Config} {names : NftNames} {env : NftEnv} {k : Kernel} {fw : NftFirewall}

abbrev SameFw (r₁ r₂ : NftRet) : Prop := r₁.fw = r₂.fw

namespace NftFirewall

theorem nftablesRemoveLeases_withDebug {i : Nat} {leases : List Lease}
    (hn : readConfiguration conf = .ok names) (hok : ¬ RemoveFails names env i k leases) (b₁ b₂ : Bool) :
    nftablesRemoveLeases (conf.withDebug b₁) env i k leases =
      nftablesRemoveLeases (conf.withDebug b₂) env i k leases := by
  have hn₁ : readConfiguration (conf.withDebug b₁) = .ok names := hn
  have hn₂ : readConfiguration (conf.withDebug b₂) = .ok names := hn
  obtain ⟨j₁, k₁, h₁, hj₁, hk₁⟩ := nftablesRemoveLeases_of_not_fails hn₁ hok
  obtain ⟨j₂, k₂, h₂, hj₂, hk₂⟩ := nftablesRemoveLeases_of_not_fails hn₂ hok
  obtain rfl : k₁ = k₂ := Option.some.inj (hk₁.symm.trans hk₂)
  rw [h₁, h₂, hj₁, hj₂]

/-- The leases after `openPort` do not depend on the kernel: adding rules is never refused. -/
theorem openPort_sameFw (hn : readConfiguration conf = .ok names) (k₁ k₂ : Kernel) (addr : IpAddr)
    (port : LeasePort) :
    (fw.openPort conf env k₁ addr port).Related SameFw (fw.openPort conf env k₂ addr port) := by
  refine (Except.Related.refl _).bind fun _ _ _ => ?_
  dsimp only
  cases fw.leases.lookup (addr, port) with
  | some lease => rfl
  | none =>
    refine (Except.Related.refl _).bind fun lease _ heq => ?_
    subst heq
    by_cases hs : Supported names.family lease.addr
    · obtain ⟨k₁', h₁, -⟩ := nftablesAddLease_eq hn env 0 k₁ lease hs
      obtain ⟨k₂', h₂, -⟩ := nftablesAddLease_eq hn env 0 k₂ lease hs
      rw [h₁, h₂]
      cases env.nft 0 <;> rfl
    · obtain ⟨e₁, h₁⟩ := nftablesAddLease_unsupported hn env 0 k₁ lease hs
      obtain ⟨e₂, h₂⟩ := nftablesAddLease_unsupported hn env 0 k₂ lease hs
      rw [h₁, h₂]; rfl

theorem closePort_sameFw (b₁ b₂ : Bool) (k₁ k₂ : Kernel) (addr : IpAddr) (port : LeasePort) :
    (fw.closePort (conf.withDebug b₁) env k₁ addr port).Related SameFw
      (fw.closePort (conf.withDebug b₂) env k₂ addr port) := by
  refine (Except.Related.refl _).bind fun _ _ _ => ?_
  dsimp only
  cases fw.leases.lookup (addr, port) with
  | some lease =>
    dsimp only
    generalize (nftablesRemoveLeases (conf.withDebug b₁) env 0 k₁ [lease]).2 = x
    generalize (nftablesRemoveLeases (conf.withDebug b₂) env 0 k₂ [lease]).2 = y
    cases x <;> cases y <;> rfl
  | none =>
    refine (Except.Related.refl (Lease.new conf env.now addr port)).bind fun lease _ heq => ?_
    subst heq
    generalize (nftablesRemoveLeases (conf.withDebug b₁) env 0 k₁ [lease]).2 = x
    generalize (nftablesRemoveLeases (conf.withDebug b₂) env 0 k₂ [lease]).2 = y
    cases x <;> cases y <;> rfl

theorem maintain_fw (k : Kernel) {r : NftRet} (h : fw.maintain conf env k = .ok r) :
    r.fw = { fw with leases := (pruneAllLeaseTimeouts env.now env.it fw.leases).2 } := by
  obtain ⟨u, -, h⟩ := Except.bind_ok h
  dsimp only at h
  split at h
  · cases h; rfl
  · generalize nftablesRemoveLeases conf env 0 k (pruneAllLeaseTimeouts env.now env.it fw.leases).1 = x at h
    obtain ⟨i, _ | k'⟩ := x
    · dsimp only at h
      split at h <;> cases h <;> rfl
    · cases h; rfl

theorem maintain_sameFw (b₁ b₂ : Bool) (k₁ k₂ : Kernel) :
    (fw.maintain (conf.withDebug b₁) env k₁).Related SameFw (fw.maintain (conf.withDebug b₂) env k₂) := by
  cases hs : fw.shutdown with
  | true => simp [maintain, check, hs, bind, Except.bind, Except.Related]
  | false =>
    obtain ⟨r₁, h₁⟩ := maintain_returns (conf.withDebug b₁) env k₁ hs
    obtain ⟨r₂, h₂⟩ := maintain_returns (conf.withDebug b₂) env k₂ hs
    rw [h₁, h₂]
    exact (maintain_fw k₁ h₁).trans (maintain_fw k₂ h₂).symm

end NftFirewall

namespace FwState

variable {s s' s₁ s₂ : FwState} {input : FwCall × NftEnv}

/-- The call removes rules, and an `nft` program fails with which it lists and deletes them. -/
def RemovalFails (names : NftNames) (s : FwState) : FwCall × NftEnv → Prop
  | (.openPort _ _, _) => False
  | (.closePort _ _, env) => env.nft 1 = false ∨ env.nft 2 = false
  | (.maintain, env) =>
    RemoveFails names env 0 s.kernel (pruneAllLeaseTimeouts env.now env.it s.fw.leases).1

theorem step_sameFw (hn : readConfiguration conf = .ok names) (b₁ b₂ : Bool) (h : s₁.fw = s₂.fw) :
    (s₁.step (conf.withDebug b₁) input).Related (fun t₁ t₂ => t₁.fw = t₂.fw)
      (s₂.step (conf.withDebug b₂) input) := by
  obtain ⟨call, env⟩ := input
  have hcall : (s₁.call (conf.withDebug b₁) env call).Related SameFw
      (s₂.call (conf.withDebug b₂) env call) := by
    unfold FwState.call
    rw [h]
    cases call with
    | openPort addr port => exact NftFirewall.openPort_sameFw hn s₁.kernel s₂.kernel addr port
    | closePort addr port => exact NftFirewall.closePort_sameFw b₁ b₂ s₁.kernel s₂.kernel addr port
    | maintain => exact NftFirewall.maintain_sameFw b₁ b₂ s₁.kernel s₂.kernel
  exact hcall.bind fun _ _ hfw => hfw

theorem step_withDebug (hn : readConfiguration conf = .ok names) (hs : s.Sane names)
    (hok : ¬ s.RemovalFails names input) (b₁ b₂ : Bool) :
    s.step (conf.withDebug b₁) input = s.step (conf.withDebug b₂) input := by
  obtain ⟨call, env⟩ := input
  have hcall : s.call (conf.withDebug b₁) env call = s.call (conf.withDebug b₂) env call := by
    cases call with
    | openPort addr port => rfl
    | closePort addr port =>
      have hrem : ∀ lease, NftFirewall.nftablesRemoveLeases (conf.withDebug b₁) env 0 s.kernel [lease] =
          NftFirewall.nftablesRemoveLeases (conf.withDebug b₂) env 0 s.kernel [lease] := fun lease =>
        NftFirewall.nftablesRemoveLeases_withDebug hn
          (mt (NftFirewall.removeFails_singleton hs.generated lease).1 hok) b₁ b₂
      show s.fw.closePort _ _ _ _ _ = s.fw.closePort _ _ _ _ _
      unfold NftFirewall.closePort
      simp only [hrem]; rfl
    | maintain =>
      have hrem := NftFirewall.nftablesRemoveLeases_withDebug hn hok b₁ b₂
      show s.fw.maintain _ _ _ = s.fw.maintain _ _ _
      unfold NftFirewall.maintain
      simp only [hrem]; rfl
  rw [step, step, hcall]

theorem step_debug_ignores (hn : readConfiguration conf = .ok names) (hs : s.Sane names)
    (hfail : s.RemovalFails names input) (hstep : s.step (conf.withDebug true) input = .ok s') :
    s'.kernel = s.kernel ∧ ∃ e, s'.log = e :: s.log ∧ e.val = .ok () := by
  obtain ⟨call, env⟩ := input
  have hn' : readConfiguration (conf.withDebug true) = .ok names := hn
  obtain ⟨r, hr, rfl⟩ := step_ok hn' hs hstep
  cases call with
  | openPort addr port => exact hfail.elim
  | closePort addr port =>
    cases hr with
    | removed h1 h2 =>
      rcases hfail with h | h
      · rw [h1] at h; cases h
      · rw [h2] at h; cases h
    | ignored => exact ⟨rfl, _, rfl, rfl⟩
    | failed _ hdebug => cases hdebug
  | maintain =>
    cases hr with
    | removed hok => exact absurd hfail hok
    | ignored => exact ⟨rfl, _, rfl, rfl⟩
    | rebuilt _ hdebug => cases hdebug
    | failed _ hdebug => cases hdebug

/-- Two configurations that differ only in `debug`, and the same calls in the same environments: both
firewalls start alike, have the same leases after every run (or panic alike), and the runs are the
same in all results and in the kernel as long as no removal of rules fails. One that fails is ignored
in debug mode: the call returns `Ok` and leaves the kernel as it was. -/
theorem debug_ignores_failed_removals (hn : NftNames.get conf = .ok names) {env : NftEnv} {k k' : Kernel}
    {fw : NftFirewall} (hnew : NftFirewall.new conf env k = .ok (fw, k')) (b₁ b₂ : Bool)
    (inputs : List (FwCall × NftEnv)) :
    NftFirewall.new (conf.withDebug b₁) env k = .ok (fw, k') ∧
    NftFirewall.new (conf.withDebug b₂) env k = .ok (fw, k') ∧
    (runAll (step (conf.withDebug b₁)) ⟨fw, k', []⟩ inputs).Related (fun s₁ s₂ => s₁.fw.leases = s₂.fw.leases)
      (runAll (step (conf.withDebug b₂)) ⟨fw, k', []⟩ inputs) ∧
    (AllSteps (step (conf.withDebug b₁)) (fun s input => ¬ s.RemovalFails names input) ⟨fw, k', []⟩ inputs →
      runAll (step (conf.withDebug b₂)) ⟨fw, k', []⟩ inputs =
        runAll (step (conf.withDebug b₁)) ⟨fw, k', []⟩ inputs) ∧
    (∀ s s' input, runAll (step (conf.withDebug b₁)) ⟨fw, k', []⟩ inputs = .ok s →
      s.RemovalFails names input → s.step (conf.withDebug true) input = .ok s' →
      s'.kernel = s.kernel ∧ ∃ e, s'.log = e :: s.log ∧ e.val = .ok ()) := by
  have hn := readConfiguration_eq hn
  obtain ⟨hsane, -, -⟩ := Sane.new hn hnew
  have hn₁ : readConfiguration (conf.withDebug b₁) = .ok names := hn
  have hkeep : ∀ (s : FwState) input s', s.Sane names → s.step (conf.withDebug b₁) input = .ok s' →
      s'.Sane names := fun s input s' hs hstep => hs.step hn₁ hstep
  refine ⟨hnew, hnew, ?_, fun hok => ?_, fun s s' input hrun hfail hstep => ?_⟩
  · have hfw : (runAll (step (conf.withDebug b₁)) ⟨fw, k', []⟩ inputs).Related (fun t₁ t₂ => t₁.fw = t₂.fw)
        (runAll (step (conf.withDebug b₂)) ⟨fw, k', []⟩ inputs) :=
      runAll_related (fun _ _ input h => step_sameFw hn b₁ b₂ h) rfl
    exact hfw.mono fun _ _ h => congrArg NftFirewall.leases h
  · exact runAll_congr hkeep (fun s input hs hno => step_withDebug hn hs hno b₂ b₁) hsane hok
  · exact step_debug_ignores hn (runAll_inv' hkeep hsane hrun) hfail hstep

theorem debug_ignores_failed_removals_sample : ∃ fw k',
    NftFirewall.new sampleConf (sampleEnv 0 []) .empty = .ok (fw, k') ∧
    (runAll (step (sampleConf.withDebug false)) ⟨fw, k', []⟩ (openThenClose [1])).Related
      (fun s₁ s₂ => s₁.fw.leases = s₂.fw.leases)
      (runAll (step (sampleConf.withDebug true)) ⟨fw, k', []⟩ (openThenClose [1])) := by
  refine ⟨_, _, rfl, ?_⟩
  have hnew : NftFirewall.new sampleConf (sampleEnv 0 []) .empty = .ok (_, _) := rfl
  exact (debug_ignores_failed_removals rfl hnew false true _).2.2.1

/-- There the results differ: `closePort` returns an error without debug mode and `Ok` with it. -/
theorem debug_changes_result : ∃ fw k',
    NftFirewall.new (sampleConf.withDebug false) (sampleEnv 0 []) .empty = .ok (fw, k') ∧
    NftFirewall.new (sampleConf.withDebug true) (sampleEnv 0 []) .empty = .ok (fw, k') ∧
    ∃ s₁ s₂, runAll (step (sampleConf.withDebug false)) ⟨fw, k', []⟩ (openThenClose [1]) = .ok s₁ ∧
      runAll (step (sampleConf.withDebug true)) ⟨fw, k', []⟩ (openThenClose [1]) = .ok s₂ ∧
      s₁.log.head?.map (·.val) =
        some (.error "\"nft\" did not return successfully while getting the current ruleset") ∧
      s₂.log.head?.map (·.val) = some (.ok ()) := by
  refine ⟨_, _, rfl, rfl, ?_⟩
  exact ⟨_, _, rfl, rfl, rfl, rfl⟩

end FwState
end Letmein
