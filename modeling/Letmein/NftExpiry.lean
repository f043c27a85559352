import Letmein.NftOrphans

/-!
# How long a port stays open

`maintain` runs every few seconds and removes the leases that have timed out. So as long as the removals succeed, a rule
is gone at most one period after the timeout of the last `openPort` for it, whatever else fails.
-/

namespace Letmein

/-- `FW_MAINTAIN_PERIOD`, in milliseconds. -/
def FW_MAINTAIN_PERIOD : Nat := 5000

namespace FwState

variable {conf : Config} {names : NftNames} {s s' : FwState} {call : FwCall} {env : NftEnv} {r : NftRet}

/-- The lease dates from a successful `openPort`, and no `maintain` has come after its timeout. -/
def DatedLease (conf : Config) (log : List FwEvent) (id : LeaseId) (lease : Lease) : Prop :=
  ∃ e ∈ log, e.call = .openPort id.1 id.2 ∧ e.val = .ok () ∧ lease.timeout = e.now + conf.nftTimeout ∧
    ∀ m ∈ log, m.call = .maintain → m.now ≤ lease.timeout

def Dated (conf : Config) (s : FwState) : Prop :=
  ∀ id lease, s.fw.leases.lookup id = some lease → DatedLease conf s.log id lease

/-- The clock does not go back. -/
def Later (s : FwState) (input : FwCall × NftEnv) : Prop := ∀ e ∈ s.log, e.now ≤ input.2.now

theorem DatedLease.cons {log : List FwEvent} {id : LeaseId} {lease : Lease} (h : DatedLease conf log id lease)
    (e : FwEvent) (he : e.call = .maintain → e.now ≤ lease.timeout) : DatedLease conf (e :: log) id lease := by
  obtain ⟨e', he', hcall, hval, htimeout, hm⟩ := h
  refine ⟨e', List.mem_cons_of_mem _ he', hcall, hval, htimeout, fun m hmem hmcall => ?_⟩
  rcases List.mem_cons.1 hmem with rfl | hmem
  · exact he hmcall
  · exact hm m hmem hmcall

/-- A lease after a call was there before with the same timeout, or it is new. -/
theorem Called.dated (h : s.Called conf names env call r) {id : LeaseId} {lease : Lease}
    (hl : r.fw.leases.lookup id = some lease) :
    (s.fw.leases.lookup id = some lease ∧ (call = .maintain → env.now < lease.timeout)) ∨
      call = .openPort id.1 id.2 ∧ r.val = .ok () ∧ lease.timeout = env.now + conf.nftTimeout := by
  cases call with
  | openPort addr port =>
    have hins : ∀ {new : Lease}, new.timeout = env.now + conf.nftTimeout →
        (s.fw.leases.insert (addr, port) new).lookup id = some lease →
        (s.fw.leases.lookup id = some lease ∧ (FwCall.openPort addr port = .maintain → env.now < lease.timeout)) ∨
          FwCall.openPort addr port = .openPort id.1 id.2 ∧ lease.timeout = env.now + conf.nftTimeout := by
      intro new hnew hl
      by_cases hid : id = (addr, port)
      · subst hid
        rw [Finmap.lookup_insert] at hl
        cases hl
        exact .inr ⟨rfl, hnew⟩
      · rw [Finmap.lookup_insert_of_ne _ hid] at hl
        exact .inl ⟨hl, fun hc => by cases hc⟩
    cases h with
    | refreshed =>
      rcases hins rfl hl with hold | ⟨hcall, htimeout⟩
      · exact .inl hold
      · exact .inr ⟨hcall, rfl, htimeout⟩
    | added =>
      rcases hins rfl hl with hold | ⟨hcall, htimeout⟩
      · exact .inl hold
      · exact .inr ⟨hcall, rfl, htimeout⟩
    | refused => exact .inl ⟨hl, fun hc => by cases hc⟩
  | closePort addr port =>
    have hers : (s.fw.leases.erase (addr, port)).lookup id = some lease → s.fw.leases.lookup id = some lease := by
      intro hl
      by_cases hid : id = (addr, port)
      · subst hid
        rw [Finmap.lookup_erase] at hl
        cases hl
      · rwa [Finmap.lookup_erase_ne hid] at hl
    cases h <;> exact .inl ⟨hers hl, fun hc => by cases hc⟩
  | maintain =>
    have hkept : (pruneAllLeaseTimeouts env.now env.it s.fw.leases).2.lookup id = some lease →
        s.fw.leases.lookup id = some lease ∧ env.now < lease.timeout := by
      intro hl
      rw [pruneAllLeaseTimeouts, Finmap.lookup_retain, Option.filter_eq_some_iff] at hl
      refine ⟨hl.1, ?_⟩
      have hkeep : (!lease.isTimedOut env.now) = true := hl.2
      simpa [Lease.isTimedOut] using hkeep
    cases h <;> exact .inl ⟨(hkept hl).1, fun _ => (hkept hl).2⟩

theorem Dated.step (hn : readConfiguration conf = .ok names) (hs : s.Sane names) (h : s.Dated conf)
    {input : FwCall × NftEnv} (hlater : s.Later input) (hstep : s.step conf input = .ok s') : s'.Dated conf := by
  obtain ⟨call, env⟩ := input
  obtain ⟨r, hr, rfl⟩ := step_ok hn hs hstep
  intro id lease hl
  rcases hr.dated hl with ⟨hold, hkept⟩ | ⟨rfl, hval, htimeout⟩
  · refine (h id lease hold).cons _ fun hcall => ?_
    exact (hkept hcall).le
  · refine ⟨_, List.mem_cons_self, rfl, hval, htimeout, fun m hm hcall => ?_⟩
    have hle : m.now ≤ env.now := by
      rcases List.mem_cons.1 hm with rfl | hm
      · exact le_refl _
      · exact hlater m hm
    omega

/-- In every run without debug mode in which the clock does not go back, no removal of a lease by `closePort` fails, and
up to the first failure of `maintain`: if `maintain` has run within its period, then every rule of the chain is one of
the control port, or it was asked for by a successful `openPort` that is not longer ago than the timeout and one
period. -/
theorem rules_expire (hdebug : conf.debug = false) (hn : NftNames.get conf = .ok names) {k k' : Kernel}
    {fw : NftFirewall} (hnew : NftFirewall.new conf env k = .ok (fw, k')) (inputs : List (FwCall × NftEnv))
    (hno : AllSteps (step conf) (fun s input => ¬ s.CloseFails input ∧ s.Later input) ⟨fw, k', []⟩ inputs)
    (hrun : runAll (step conf) ⟨fw, k', []⟩ inputs = .ok s) (hm : s.Maintaining) {now : Nat}
    (hperiod : ∃ m ∈ s.log, m.call = .maintain ∧ now ≤ m.now + FW_MAINTAIN_PERIOD) :
    ∀ r ∈ s.kernel.rules, r.chainId = names.chain → r.erase ∈ ctrlRules conf names ∨
      ∃ e ∈ s.log, ∃ addr port, e.call = .openPort addr port ∧ e.val = .ok () ∧
        r.erase ∈ idRules names (addr, port) ∧ now ≤ e.now + conf.nftTimeout + FW_MAINTAIN_PERIOD := by
  have hn := readConfiguration_eq hn
  obtain ⟨hsane, hempty, hctrl⟩ := Sane.new hn hnew
  have hinv : s.Sane names ∧ (s.Maintaining → s.Covered conf names) ∧ s.Dated conf := by
    refine runAll_inv (P := fun s => s.Sane names ∧ (s.Maintaining → s.Covered conf names) ∧ s.Dated conf) ?_ ?_ hno hrun
    · rintro s input s' ⟨hs, hcov, hdated⟩ ⟨hclose, hlater⟩ hstep
      refine ⟨hs.step hn hstep, fun hm => ?_, hdated.step hn hs hlater hstep⟩
      obtain ⟨r, -, rfl⟩ := step_ok hn hs hstep
      exact (hcov fun e he => hm e (List.mem_cons_of_mem _ he)).step hdebug hn hs hclose hstep hm
    · refine ⟨hsane, fun _ => ?_, fun id lease hl => ?_⟩
      · unfold Covered
        rw [hctrl]
        exact Multiset.le_add_right _ _
      · rw [show fw.leases = ∅ from hempty] at hl
        cases hl
  intro r hr hchain
  have hmem : r.erase ∈ ctrlRules conf names + leasesRules names s.fw.leases :=
    Multiset.mem_of_le (hinv.2.1 hm) (Kernel.mem_content.2 ⟨r, hr, hchain, rfl⟩)
  rcases Multiset.mem_add.1 hmem with hmem | hmem
  · exact .inl hmem
  · obtain ⟨id, hid, hrule⟩ := mem_leasesRules.1 hmem
    obtain ⟨lease, hl⟩ := Finmap.mem_iff.1 hid
    obtain ⟨e, he, hcall, hval, htimeout, hmaintained⟩ := hinv.2.2 id lease hl
    obtain ⟨m, hmlog, hmcall, hmnow⟩ := hperiod
    have hle := hmaintained m hmlog hmcall
    exact .inr ⟨e, he, id.1, id.2, hcall, hval, hrule, by omega⟩

/-- A port is opened and there is maintenance a moment later. -/
theorem rules_expire_sample : ∃ fw k', NftFirewall.new sampleConf (sampleEnv 0 []) .empty = .ok (fw, k') ∧ ∃ s,
    runAll (step sampleConf) ⟨fw, k', []⟩ [(.openPort (.v4 ⟨192, 0, 2, 7⟩) (.tcp 22), sampleEnv 1 []),
      (.maintain, sampleEnv 2 [])] = .ok s ∧
    ∀ r ∈ s.kernel.rules, r.chainId = sampleNames.chain → r.erase ∈ ctrlRules sampleConf sampleNames ∨
      ∃ e ∈ s.log, ∃ addr port, e.call = .openPort addr port ∧ e.val = .ok () ∧
        r.erase ∈ idRules sampleNames (addr, port) ∧ 3 ≤ e.now + sampleConf.nftTimeout + FW_MAINTAIN_PERIOD := by
  refine ⟨_, _, rfl, _, rfl, ?_⟩
  have hnew : NftFirewall.new sampleConf (sampleEnv 0 []) .empty = .ok (_, _) := rfl
  have hnames : NftNames.get sampleConf = .ok sampleNames := rfl
  refine rules_expire rfl hnames hnew [(.openPort (.v4 ⟨192, 0, 2, 7⟩) (.tcp 22), sampleEnv 1 []),
    (.maintain, sampleEnv 2 [])] ?_ rfl ?_ ⟨_, List.mem_cons_self, rfl, by decide⟩
  · refine .cons ⟨id, fun e he => ?_⟩ rfl (.cons ⟨id, fun e he => ?_⟩ rfl trivial)
    · cases he
    · rw [List.mem_singleton.1 he]
      decide
  · intro e he _
    rcases List.mem_cons.1 he with rfl | he
    · rfl
    · rw [List.mem_singleton.1 he]

end FwState
end Letmein
