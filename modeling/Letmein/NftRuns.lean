import Letmein.NftCalls

/-!
# Runs of the firewall

What holds in every state that a run reaches, whatever fails: the chain holds only generated rules and
the leases are filed under their keys for supported addresses.
-/

namespace Letmein
namespace FwState

variable {conf : Config} {names : NftNames} {env : NftEnv} {s s' : FwState} {call : FwCall} {r : NftRet}

def Called (conf : Config) (names : NftNames) (env : NftEnv) (s : FwState) : FwCall → NftRet → Prop
  | .openPort addr port => NftFirewall.Opened conf names env s.fw s.kernel addr port
  | .closePort addr port => NftFirewall.Closed conf names env s.fw s.kernel addr port
  | .maintain => NftFirewall.Maintained conf names env s.fw s.kernel

structure Sane (names : NftNames) (s : FwState) : Prop where
  generated : Generated names s.kernel
  coherent : Coherent names s.fw.leases
  running : s.fw.shutdown = false

theorem readConfiguration_eq (h : NftNames.get conf = .ok names) : readConfiguration conf = .ok names := by
  rw [readConfiguration, h]; rfl

theorem call_ok (hn : readConfiguration conf = .ok names) (hs : s.Sane names)
    (h : s.call conf env call = .ok r) : s.Called conf names env call r := by
  cases call with
  | openPort addr port => exact NftFirewall.openPort_ok hn h
  | closePort addr port => exact NftFirewall.closePort_ok hn hs.generated hs.coherent h
  | maintain => exact NftFirewall.maintain_ok hn hs.generated hs.coherent h

theorem step_ok (hn : readConfiguration conf = .ok names) (hs : s.Sane names)
    (h : s.step conf (call, env) = .ok s') : ∃ r, s.Called conf names env call r ∧
      s' = ⟨r.fw, r.kernel, ⟨call, env.now, r.val⟩ :: s.log⟩ := by
  obtain ⟨r, hr, h⟩ := Except.bind_ok h
  cases h
  exact ⟨r, call_ok hn hs hr, rfl⟩

theorem step_of_call (h : s.call conf env call = .ok r) :
    s.step conf (call, env) = .ok ⟨r.fw, r.kernel, ⟨call, env.now, r.val⟩ :: s.log⟩ := by
  rw [step, h]; rfl

theorem generated_idRules (id : LeaseId) {r : Rule} (h : r ∈ idRules names id) :
    ∃ addr port, r = ruleOf names addr port := by
  obtain ⟨port, -, rfl⟩ := mem_idRules.1 h
  exact ⟨_, _, rfl⟩

theorem generated_leasesRules {m : LeaseMap} {r : Rule} (h : r ∈ leasesRules names m) :
    ∃ addr port, r = ruleOf names addr port := by
  obtain ⟨id, -, hr⟩ := mem_leasesRules.1 h
  exact generated_idRules id hr

theorem generated_ctrlRules {r : Rule} (h : r ∈ ctrlRules conf names) :
    ∃ addr port, r = ruleOf names addr port := by
  obtain ⟨port, rfl⟩ := NftFirewall.mem_ctrlRules h
  exact ⟨_, _, rfl⟩

/-- Leases are only added for the key of an `openPort`. -/
theorem Called.leases (h : s.Called conf names env call r) {id : LeaseId} (hid : id ∈ r.fw.leases) :
    id ∈ s.fw.leases ∨ call = .openPort id.1 id.2 := by
  rcases call with ⟨addr, port⟩ | ⟨addr, port⟩ | _
  · have hins : ∀ {lease}, id ∈ s.fw.leases.insert (addr, port) lease →
        id ∈ s.fw.leases ∨ FwCall.openPort addr port = .openPort id.1 id.2 := by
      intro lease hid
      rcases Finmap.mem_insert.1 hid with rfl | hid
      · exact .inr rfl
      · exact .inl hid
    cases h with
    | refreshed hl => exact hins hid
    | added => exact hins hid
    | refused => exact .inl hid
  · cases h <;> exact .inl (Finmap.mem_erase.1 hid).2
  · cases h <;> exact .inl (Finmap.mem_of_mem_retain hid)

/-- Where the rules of the chain come from after a call. -/
theorem Called.rules (h : s.Called conf names env call r) {x : Rule} (hx : x ∈ r.kernel.content names.chain) :
    x ∈ s.kernel.content names.chain ∨ x ∈ ctrlRules conf names ∨ x ∈ leasesRules names s.fw.leases ∨
      ∃ addr port, call = .openPort addr port ∧ x ∈ idRules names (addr, port) := by
  have hsub : ∀ {k' : Kernel} {R : List Rule}, k'.content names.chain = s.kernel.content names.chain - R →
      x ∈ k'.content names.chain → x ∈ s.kernel.content names.chain := by
    intro k' R hk hx
    rw [hk] at hx
    exact Multiset.mem_of_le (Multiset.sub_le_self _ _) hx
  rcases call with ⟨addr, port⟩ | ⟨addr, port⟩ | _
  · cases h with
    | refreshed => exact .inl hx
    | added _ _ _ _ hk =>
      rw [hk, Multiset.mem_add] at hx
      rcases hx with hx | hx
      · exact .inr (.inr (.inr ⟨addr, port, rfl, hx⟩))
      · exact .inl hx
    | refused => exact .inl hx
  · cases h with
    | removed _ _ hk => exact .inl (hsub hk hx)
    | ignored => exact .inl hx
    | failed => exact .inl hx
  · cases h with
    | removed _ hk => exact .inl (hsub hk hx)
    | ignored => exact .inl hx
    | rebuilt _ _ hk =>
      rw [hk, Multiset.mem_add] at hx
      rcases hx with hx | hx
      · exact .inr (.inl hx)
      · obtain ⟨id, hid, hx⟩ := mem_leasesRules.1 hx
        exact .inr (.inr (.inl (mem_leasesRules.2 ⟨id, Finmap.mem_of_mem_retain hid, hx⟩)))
    | failed => exact .inl hx

namespace Sane

theorem called (hs : s.Sane names) (h : s.Called conf names env call r) : (⟨r.fw, r.kernel, []⟩ : FwState).Sane names := by
  have hg := hs.generated
  have hc := hs.coherent
  have hsub : ∀ {k' : Kernel} {R : List Rule}, k'.content names.chain = s.kernel.content names.chain - R →
      Generated names k' := fun hk => hg.of_le (hk ▸ Multiset.sub_le_self _ _)
  cases call with
  | openPort addr port =>
    cases h with
    | @refreshed lease hl =>
      have hid : lease.id = (addr, port) := hc.id _ _ hl
      exact ⟨hg, hc.insert _ hid (hc.supported _ (Finmap.mem_of_lookup_eq_some hl)), hs.running⟩
    | @added k' _ _ hsup _ hk =>
      refine ⟨fun r hr => ?_, hc.insert _ rfl hsup, hs.running⟩
      rw [hk, Multiset.mem_add] at hr
      rcases hr with hr | hr
      · exact generated_idRules _ hr
      · exact hg r hr
    | refused => exact ⟨hg, hc, hs.running⟩
  | closePort addr port =>
    cases h with
    | removed _ _ hk => exact ⟨hsub hk, hc.erase _, hs.running⟩
    | ignored => exact ⟨hg, hc.erase _, hs.running⟩
    | failed => exact ⟨hg, hc.erase _, hs.running⟩
  | maintain =>
    cases h with
    | removed _ hk => exact ⟨hsub hk, hc.pruned env.now env.it, hs.running⟩
    | ignored => exact ⟨hg, hc.pruned env.now env.it, hs.running⟩
    | rebuilt _ _ hk =>
      refine ⟨fun r hr => ?_, hc.pruned env.now env.it, hs.running⟩
      rw [hk, Multiset.mem_add] at hr
      rcases hr with hr | hr
      · exact generated_ctrlRules hr
      · exact generated_leasesRules hr
    | failed => exact ⟨hg, hc.pruned env.now env.it, hs.running⟩

theorem step (hn : readConfiguration conf = .ok names) {input : FwCall × NftEnv} (hs : s.Sane names)
    (h : s.step conf input = .ok s') : s'.Sane names := by
  obtain ⟨r, hr, rfl⟩ := step_ok hn hs h
  exact ⟨(hs.called hr).generated, (hs.called hr).coherent, (hs.called hr).running⟩

theorem new {env : NftEnv} {k k' : Kernel} {fw : NftFirewall} (hn : readConfiguration conf = .ok names)
    (h : NftFirewall.new conf env k = .ok (fw, k')) : (⟨fw, k', []⟩ : FwState).Sane names ∧
      fw.leases = ∅ ∧ k'.content names.chain = ctrlRules conf names := by
  obtain ⟨names', hn', rfl, hk⟩ := NftFirewall.new_ok h
  obtain rfl : names' = names := Except.ok.inj (hn'.symm.trans hn)
  refine ⟨⟨fun r hr => ?_, Coherent.empty, rfl⟩, rfl, hk⟩
  rw [hk] at hr
  exact generated_ctrlRules hr

end Sane
end FwState

/-! ### A small installation -/

def sampleConf : Config := { nftFamily := "inet", nftTable := "filter", nftChainInput := "LETMEIN-INPUT" }

def sampleNames : NftNames := ⟨.inet, "filter", "LETMEIN-INPUT"⟩

/-- All `nft` programs succeed but the `i`-th ones of `fails`. -/
noncomputable def sampleEnv (now : Nat) (fails : List Nat) : NftEnv :=
  ⟨now, fun i => !fails.contains i, .ofKeys [(.v4 ⟨192, 0, 2, 7⟩, .tcp 22)] (by decide)⟩

/-- A port is opened and closed. The programs `fails` of `closePort` fail. -/
noncomputable def openThenClose (fails : List Nat) : List (FwCall × NftEnv) :=
  [(.openPort (.v4 ⟨192, 0, 2, 7⟩) (.tcp 22), sampleEnv 1 []),
    (.closePort (.v4 ⟨192, 0, 2, 7⟩) (.tcp 22), sampleEnv 2 fails)]

end Letmein
