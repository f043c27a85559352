import Letmein.NftInstalled

/-!
# The chain refines the history of calls

When every `nft` program succeeds, the chain holds exactly the rules of the control port and, for every
address and port that the history of calls leaves open (`lastOpen`), one rule per protocol. The lease
map is the link: it holds the open keys with the time at which they expire.
-/

namespace Letmein

/-- When the port was opened last for the address, if the latest event that matters to it was that: a
successful `openPort`, not a `closePort`, and not a `maintain` after its timeout. The events are given
latest first. -/
def lastOpen (timeout : Nat) (id : LeaseId) : List FwEvent → Option Nat
  | [] => none
  | ⟨.openPort addr port, now, .ok ()⟩ :: log => if (addr, port) = id then some now else lastOpen timeout id log
  | ⟨.openPort _ _, _, .error _⟩ :: log => lastOpen timeout id log
  | ⟨.closePort addr port, _, _⟩ :: log => if (addr, port) = id then none else lastOpen timeout id log
  | ⟨.maintain, now, _⟩ :: log => (lastOpen timeout id log).filter fun t => now < t + timeout

def FwCall.id? : FwCall → Option LeaseId
  | .openPort addr port => some (addr, port)
  | .closePort addr port => some (addr, port)
  | .maintain => none

/-- The keys that the history leaves open. -/
def openIds (timeout : Nat) (log : List FwEvent) : Finset LeaseId :=
  (log.filterMap (·.call.id?)).toFinset.filter fun id => (lastOpen timeout id log).isSome

theorem id_of_lastOpen_cons {timeout : Nat} {id : LeaseId} {e : FwEvent} {log : List FwEvent}
    (h : (lastOpen timeout id (e :: log)).isSome) : e.call.id? = some id ∨ (lastOpen timeout id log).isSome := by
  obtain ⟨⟨addr, port⟩ | ⟨addr, port⟩ | _, now, e | u⟩ := e
  · exact .inr h
  · by_cases hid : (addr, port) = id
    · exact .inl (congrArg some hid)
    · rw [lastOpen, if_neg hid] at h
      exact .inr h
  all_goals rw [lastOpen] at h
  · split at h
    · cases h
    · exact .inr h
  · split at h
    · cases h
    · exact .inr h
  all_goals
    obtain ⟨t, ht⟩ := Option.isSome_iff_exists.1 h
    rw [Option.filter_eq_some_iff] at ht
    exact .inr (Option.isSome_iff_exists.2 ⟨t, ht.1⟩)

theorem mem_of_lastOpen {timeout : Nat} {id : LeaseId} {log : List FwEvent}
    (h : (lastOpen timeout id log).isSome) : id ∈ log.filterMap (·.call.id?) := by
  induction log with
  | nil => cases h
  | cons e log ih =>
    rw [List.filterMap_cons]
    rcases id_of_lastOpen_cons h with hid | hid
    · rw [hid]
      exact List.mem_cons_self
    · split
      · exact ih hid
      · exact List.mem_cons_of_mem _ (ih hid)

theorem mem_openIds {timeout : Nat} {id : LeaseId} {log : List FwEvent} :
    id ∈ openIds timeout log ↔ (lastOpen timeout id log).isSome := by
  rw [openIds, Finset.mem_filter, List.mem_toFinset]
  exact ⟨fun h => h.2, fun h => ⟨mem_of_lastOpen h, h⟩⟩

variable {conf : Config} {names : NftNames} {variant : UInt16 → LeasePort}

theorem notMem_ctrlRules {id : LeaseId} {r : Rule} (h : r ∈ idRules names id) : r ∉ ctrlRules conf names := by
  intro hr
  obtain ⟨port, rfl⟩ := NftFirewall.mem_ctrlRules hr
  obtain ⟨p, -, hp⟩ := mem_idRules.1 h
  cases (ruleOf_injective hp).1

theorem notMem_leasesRules {m : LeaseMap} (hm : Uniform variant m) {id : LeaseId}
    (hid : id.2 = variant id.2.num) (hnot : id ∉ m) {r : Rule} (h : r ∈ idRules names id) :
    r ∉ leasesRules names m := by
  intro hr
  obtain ⟨id', hid', hr'⟩ := mem_leasesRules.1 hr
  obtain rfl := FwState.id_eq_of_shared hid (hm id' hid') h hr'
  exact hnot hid'

/-- Keys of one variant have different rules, so the kernel does not refuse to delete those of many. -/
theorem nodup_rulesOf_pruned {m : LeaseMap} (hc : Coherent names m) (hm : Uniform variant m) (now : Nat)
    (it : IterOrder LeaseId) : (rulesOf names (pruneAllLeaseTimeouts now it m).1).Nodup := by
  rw [rulesOf_eq_flatMap, List.nodup_flatMap]
  refine ⟨fun id _ => idRules_nodup names id, ?_⟩
  refine hc.nodup_pruned.imp_of_mem fun {id id'} hid hid' hne r hr hr' => hne ?_
  obtain ⟨lease, hl, -⟩ := hc.mem_pruned.1 hid
  obtain ⟨lease', hl', -⟩ := hc.mem_pruned.1 hid'
  exact FwState.id_eq_of_shared (hm id (Finmap.mem_of_lookup_eq_some hl))
    (hm id' (Finmap.mem_of_lookup_eq_some hl')) hr hr'

theorem sub_of_disjoint {C : Multiset Rule} {R : List Rule} (h : ∀ r ∈ R, r ∉ C) : C - R = C := by
  ext r
  rw [Multiset.count_sub, Multiset.coe_count]
  by_cases hr : r ∈ R
  · rw [Multiset.count_eq_zero.2 (h r hr), Nat.zero_sub]
  · rw [List.count_eq_zero.2 hr, Nat.sub_zero]

namespace FwState

variable {s s' : FwState} {call : FwCall} {env : NftEnv}

/-- The leases are the open keys of the history, and the chain holds their rules. -/
structure Tracks (conf : Config) (names : NftNames) (variant : UInt16 → LeasePort) (s : FwState) : Prop where
  sane : s.Sane names
  uniform : Uniform variant s.fw.leases
  leases : ∀ id, s.fw.leases.lookup id =
    (lastOpen conf.nftTimeout id s.log).map fun t => ⟨id.1, id.2, t + conf.nftTimeout⟩
  content : s.kernel.content names.chain = ctrlRules conf names + leasesRules names s.fw.leases
  returned : ∀ e ∈ s.log, e.val = .ok () ∨ ∃ addr port, e.call = .openPort addr port ∧ ¬ Supported names.family addr

/-- A call that is not for the control port, of the right variant, in which no `nft` program fails. -/
structure FaultFree (conf : Config) (variant : UInt16 → LeasePort) (input : FwCall × NftEnv) : Prop where
  nft : ∀ i, input.2.nft i = true
  notControl : ∀ port, input.1.port? = some port → conf.port.port ≠ port.num
  asks : Asks variant input.1

theorem call_returns (env : NftEnv) (hs : s.fw.shutdown = false)
    (hctl : ∀ port, call.port? = some port → conf.port.port ≠ port.num) : ∃ r, s.call conf env call = .ok r := by
  cases call with
  | openPort addr port => exact NftFirewall.openPort_returns hs (hctl port rfl)
  | closePort addr port => exact NftFirewall.closePort_returns hs (hctl port rfl)
  | maintain => exact NftFirewall.maintain_returns conf env s.kernel hs

namespace Tracks

theorem opened (h : s.Tracks conf names variant) (hf : FaultFree conf variant (call, env)) {addr : IpAddr} {port : LeasePort}
    {r : NftRet} (hcall : call = .openPort addr port)
    (hr : NftFirewall.Opened conf names env s.fw s.kernel addr port r)
    (hsane : (⟨r.fw, r.kernel, ⟨call, env.now, r.val⟩ :: s.log⟩ : FwState).Sane names) :
    (⟨r.fw, r.kernel, ⟨call, env.now, r.val⟩ :: s.log⟩ : FwState).Tracks conf names variant := by
  subst hcall
  have huni : ∀ lease, Uniform variant (s.fw.leases.insert (addr, port) lease) := fun lease id hid => by
    rcases Finmap.mem_insert.1 hid with rfl | hid
    · exact hf.asks port rfl
    · exact h.uniform id hid
  have hleases : ∀ id, (s.fw.leases.insert (addr, port) ⟨addr, port, env.now + conf.nftTimeout⟩).lookup id =
      (lastOpen conf.nftTimeout id (⟨.openPort addr port, env.now, .ok ()⟩ :: s.log)).map
        fun t => ⟨id.1, id.2, t + conf.nftTimeout⟩ := fun id => by
    rw [lastOpen]
    split
    · rename_i hid
      subst hid
      rw [Finmap.lookup_insert]; rfl
    · rename_i hid
      rw [Finmap.lookup_insert_of_ne _ fun he => hid he.symm]
      exact h.leases id
  have hret : ∀ e ∈ (⟨.openPort addr port, env.now, .ok ()⟩ :: s.log : List FwEvent), e.val = .ok () ∨
      ∃ addr port, e.call = .openPort addr port ∧ ¬ Supported names.family addr := by
    intro e he
    rcases List.mem_cons.1 he with rfl | he
    · exact .inl rfl
    · exact h.returned e he
  cases hr with
  | @refreshed lease hl =>
    have hid : lease.id = (addr, port) := h.sane.coherent.id _ _ hl
    have hlease : lease.refreshTimeout conf env.now = ⟨addr, port, env.now + conf.nftTimeout⟩ := by
      cases lease; cases hid; rfl
    dsimp only at hsane ⊢
    rw [hlease] at hsane ⊢
    refine ⟨hsane, huni _, hleases, ?_, hret⟩
    dsimp only
    rw [leasesRules_insert_of_mem (Finmap.mem_of_lookup_eq_some hl)]
    exact h.content
  | added hnew _ _ _ hk =>
    refine ⟨hsane, huni _, hleases, ?_, hret⟩
    dsimp only
    rw [hk, h.content, leasesRules_insert hnew, add_left_comm]
  | refused _ hwhy =>
    refine ⟨hsane, h.uniform, h.leases, h.content, fun e he => ?_⟩
    rcases List.mem_cons.1 he with rfl | he
    · refine .inr ⟨addr, port, rfl, ?_⟩
      rcases hwhy with hwhy | hwhy
      · exact hwhy
      · rw [hf.nft 0] at hwhy; cases hwhy
    · exact h.returned e he

theorem closed (h : s.Tracks conf names variant) (hf : FaultFree conf variant (call, env)) {addr : IpAddr} {port : LeasePort}
    {r : NftRet} (hcall : call = .closePort addr port)
    (hr : NftFirewall.Closed conf names env s.fw s.kernel addr port r)
    (hsane : (⟨r.fw, r.kernel, ⟨call, env.now, r.val⟩ :: s.log⟩ : FwState).Sane names) :
    (⟨r.fw, r.kernel, ⟨call, env.now, r.val⟩ :: s.log⟩ : FwState).Tracks conf names variant := by
  subst hcall
  have hno : ¬ (env.nft 1 = false ∨ env.nft 2 = false) := by
    rw [hf.nft 1, hf.nft 2]; simp
  cases hr with
  | removed _ _ hk =>
    refine ⟨hsane, fun id hid => h.uniform id (Finmap.mem_erase.1 hid).2, fun id => ?_, ?_, fun e he => ?_⟩
    · dsimp only
      rw [lastOpen]
      split
      · rename_i hid
        subst hid
        rw [Finmap.lookup_erase]; rfl
      · rename_i hid
        rw [Finmap.lookup_erase_ne fun he => hid he.symm]
        exact h.leases id
    · dsimp only
      rw [hk, h.content]
      by_cases hmem : (addr, port) ∈ s.fw.leases
      · rw [leasesRules_erase hmem, add_left_comm, add_tsub_cancel_left]
      · -- without a lease nothing is found
        rw [Finmap.erase_of_notMem hmem]
        refine sub_of_disjoint fun x hx hx' => ?_
        rcases Multiset.mem_add.1 hx' with hx' | hx'
        · exact notMem_ctrlRules hx hx'
        · exact notMem_leasesRules h.uniform (hf.asks port rfl) hmem hx hx'
    · rcases List.mem_cons.1 he with rfl | he
      · exact .inl rfl
      · exact h.returned e he
  | ignored hfail => exact absurd hfail hno
  | failed hfail => exact absurd hfail hno

theorem maintained (h : s.Tracks conf names variant) (hf : FaultFree conf variant (.maintain, env)) {r : NftRet}
    (hr : NftFirewall.Maintained conf names env s.fw s.kernel r)
    (hsane : (⟨r.fw, r.kernel, ⟨.maintain, env.now, r.val⟩ :: s.log⟩ : FwState).Sane names) :
    (⟨r.fw, r.kernel, ⟨.maintain, env.now, r.val⟩ :: s.log⟩ : FwState).Tracks conf names variant := by
  have hno : ¬ RemoveFails names env 0 s.kernel (pruneAllLeaseTimeouts env.now env.it s.fw.leases).1 := by
    rintro ⟨-, h1 | h2 | h3⟩
    · rw [hf.nft] at h1; cases h1
    · rw [hf.nft] at h2; cases h2
    · exact apply_found_ne_none h.sane.generated
        (nodup_rulesOf_pruned h.sane.coherent h.uniform env.now env.it) h3
  cases hr with
  | removed _ hk =>
    refine ⟨hsane, fun id hid => h.uniform id (Finmap.mem_of_mem_retain hid), fun id => ?_, ?_, fun e he => ?_⟩
    · dsimp only
      rw [lastOpen, pruneAllLeaseTimeouts, Finmap.lookup_retain, h.leases id]
      cases lastOpen conf.nftTimeout id s.log with
      | none => rfl
      | some t => simp [Option.filter, Lease.isTimedOut]
    · dsimp only
      rw [hk, h.content, ← h.sane.coherent.rulesOf_pruned env.now env.it, add_left_comm, add_tsub_cancel_left]
    · rcases List.mem_cons.1 he with rfl | he
      · exact .inl rfl
      · exact h.returned e he
  | ignored hfail => exact absurd hfail hno
  | rebuilt hfail => exact absurd hfail hno
  | failed hfail => exact absurd hfail hno

theorem step (hn : readConfiguration conf = .ok names) (h : s.Tracks conf names variant)
    {input : FwCall × NftEnv} (hf : FaultFree conf variant input) :
    ∃ s', s.step conf input = .ok s' ∧ s'.Tracks conf names variant := by
  obtain ⟨call, env⟩ := input
  obtain ⟨r, hr⟩ := call_returns env h.sane.running hf.notControl
  have hstep := step_of_call hr
  have hsane := h.sane.step hn hstep
  have hcalled := call_ok hn h.sane hr
  refine ⟨_, hstep, ?_⟩
  cases call with
  | openPort addr port => exact h.opened hf rfl hcalled hsane
  | closePort addr port => exact h.closed hf rfl hcalled hsane
  | maintain => exact h.maintained hf hcalled hsane

theorem keys_eq (h : s.Tracks conf names variant) : s.fw.leases.keys = openIds conf.nftTimeout s.log := by
  ext id
  rw [Finmap.mem_keys, mem_openIds, Finmap.mem_iff, h.leases id]
  cases lastOpen conf.nftTimeout id s.log with
  | none => simp
  | some t => simp

end Tracks

theorem Tracks.new {k k' : Kernel} {fw : NftFirewall} (hn : readConfiguration conf = .ok names)
    (hnew : NftFirewall.new conf env k = .ok (fw, k')) : (⟨fw, k', []⟩ : FwState).Tracks conf names variant := by
  obtain ⟨hsane, hempty, hctrl⟩ := Sane.new hn hnew
  have hempty : fw.leases = ∅ := hempty
  refine ⟨hsane, fun id hid => ?_, fun id => ?_, ?_, fun e he => by cases he⟩
  · rw [hempty] at hid
    exact absurd hid Finmap.notMem_empty
  · dsimp only
    rw [hempty, Finmap.lookup_empty]
    rfl
  · dsimp only
    rw [hctrl, hempty, leasesRules_empty, add_zero]

theorem log_of_run {inputs : List (FwCall × NftEnv)} (h : runAll (step conf) s inputs = .ok s') :
    s'.log.map (fun e => (e.call, e.now)) =
      (inputs.map fun input => (input.1, input.2.now)).reverse ++ s.log.map fun e => (e.call, e.now) := by
  induction inputs generalizing s with
  | nil => cases h; rfl
  | cons input inputs ih =>
    obtain ⟨s₁, h₁, h⟩ := Except.bind_ok h
    obtain ⟨r, -, h₁⟩ := Except.bind_ok h₁
    cases h₁
    rw [ih h]
    simp

theorem new_returns (hn : readConfiguration conf = .ok names) (hnft : ∀ i, env.nft i = true) (k : Kernel) :
    ∃ fw k', NftFirewall.new conf env k = .ok (fw, k') := by
  obtain ⟨k', hre, -⟩ := NftFirewall.nftablesFullRebuild_eq hn env 1 k ⟨∅, false⟩ Coherent.empty rfl
  rw [hnft 1] at hre
  refine ⟨⟨∅, false⟩, k', ?_⟩
  rw [NftFirewall.new, hnft 0, hre]; rfl

theorem shutdown_empties (hn : readConfiguration conf = .ok names) (hs : s.Sane names) (hnft : ∀ i, env.nft i = true) :
    ∃ r, s.fw.shutdownFw conf env s.kernel = .ok r ∧ r.val = .ok () ∧ r.kernel.content names.chain = 0 := by
  obtain ⟨k', hre, hk⟩ : ∃ k', NftFirewall.nftablesFullRebuild conf env 0 ⟨∅, true⟩ s.kernel =
      (if env.nft 0 then .ok k' else .error "Apply nftables") ∧ k'.content names.chain = 0 :=
    NftFirewall.nftablesFullRebuild_shutdown hn rfl
  rw [hnft 0] at hre
  refine ⟨⟨.ok (), ⟨∅, true⟩, k'⟩, ?_, rfl, hk⟩
  rw [NftFirewall.shutdownFw, hs.running]
  dsimp only
  rw [hre]; rfl

/-- Without failures a run returns, and its chain is what the history of the calls says: the rules of
the control port and the rules of every key that is open. A shutdown then empties the chain. The add
commands of a lease are one rule per protocol, which matches the address and the port and accepts. -/
theorem chain_refines_history (hn : NftNames.get conf = .ok names) (hnft : ∀ i, env.nft i = true) (k : Kernel)
    (variant : UInt16 → LeasePort) (inputs : List (FwCall × NftEnv))
    (hinputs : ∀ input ∈ inputs, FaultFree conf variant input) :
    (∃ fw k', NftFirewall.new conf env k = .ok (fw, k') ∧ ∃ s,
      runAll (step conf) ⟨fw, k', []⟩ inputs = .ok s ∧
      s.log.map (fun e => (e.call, e.now)) = (inputs.map fun input => (input.1, input.2.now)).reverse ∧
      (∀ e ∈ s.log, e.val = .ok () ∨
        ∃ addr port, e.call = .openPort addr port ∧ ¬ Supported names.family addr) ∧
      s.kernel.content names.chain = ctrlRules conf names +
        ∑ id ∈ openIds conf.nftTimeout s.log, (idRules names id : Multiset Rule) ∧
      ∀ env : NftEnv, (∀ i, env.nft i = true) → ∃ r, s.fw.shutdownFw conf env s.kernel = .ok r ∧
        r.val = .ok () ∧ r.kernel.content names.chain = 0) ∧
    ∀ lease saddr, statementMatchSaddr names.family lease.addr = .ok saddr →
      genAddLeaseCmds conf lease = .ok (lease.port.singles.map fun port => .add {
        family := names.family
        table := names.table
        chain := names.chainInput
        expr := [saddr, statementMatchDport port, .accept]
        comment := some (genRuleComment (some lease.addr) port) }) := by
  have hn := readConfiguration_eq hn
  constructor
  · obtain ⟨fw, k', hnew⟩ := new_returns hn hnft k
    have h0 : (⟨fw, k', []⟩ : FwState).Tracks conf names variant := Tracks.new hn hnew
    obtain ⟨s, hrun, hs⟩ := runAll_returns (fun s input hin hs => Tracks.step hn hs (hinputs input hin)) h0
    refine ⟨fw, k', hnew, s, hrun, ?_, hs.returned, ?_, fun env henv => shutdown_empties hn hs.sane henv⟩
    · rw [log_of_run hrun]
      exact List.append_nil _
    · rw [hs.content, leasesRules, hs.keys_eq]
  · intro lease saddr hsaddr
    rw [genAddLeaseCmds_eq hn ⟨saddr, hsaddr⟩, idRules, List.map_map]
    refine congrArg Except.ok (List.map_congr_left fun port _ => ?_)
    simp only [Function.comp_apply, ruleOf, saddrOf, Lease.id, hsaddr]
    rfl

theorem chain_refines_history_sample : FaultFree sampleConf .tcp (.maintain, sampleEnv 2 []) ∧
    ∃ fw k', NftFirewall.new sampleConf (sampleEnv 0 []) .empty = .ok (fw, k') ∧ ∃ s,
      runAll (step sampleConf) ⟨fw, k', []⟩ [(.openPort (.v4 ⟨192, 0, 2, 7⟩) (.tcp 22), sampleEnv 1 []),
        (.maintain, sampleEnv 2 [])] = .ok s ∧
      openIds sampleConf.nftTimeout s.log = {(.v4 ⟨192, 0, 2, 7⟩, .tcp 22)} ∧
      s.kernel.content sampleNames.chain = ctrlRules sampleConf sampleNames +
        ∑ id ∈ openIds sampleConf.nftTimeout s.log, (idRules sampleNames id : Multiset Rule) := by
  have hnft : ∀ now i, (sampleEnv now []).nft i = true := fun _ _ => rfl
  have hopen : FaultFree sampleConf .tcp (.openPort (.v4 ⟨192, 0, 2, 7⟩) (.tcp 22), sampleEnv 1 []) :=
    ⟨hnft 1, fun port hport => by cases hport; decide, fun port hport => by cases hport; rfl⟩
  have hmaintain : FaultFree sampleConf .tcp (.maintain, sampleEnv 2 []) :=
    ⟨hnft 2, fun port hport => (by cases hport), fun port hport => (by cases hport)⟩
  refine ⟨hmaintain, ?_⟩
  have hinputs : ∀ input ∈ [(.openPort (.v4 ⟨192, 0, 2, 7⟩) (.tcp 22), sampleEnv 1 []),
      (.maintain, sampleEnv 2 [])], FaultFree sampleConf .tcp input := by
    intro input hin
    rcases List.mem_cons.1 hin with rfl | hin
    · exact hopen
    · rw [List.mem_singleton.1 hin]
      exact hmaintain
  obtain ⟨fw, k', hnew, s, hrun, -, -, hcontent, -⟩ :=
    (chain_refines_history rfl (hnft 0) .empty .tcp _ hinputs).1
  refine ⟨fw, k', hnew, s, hrun, ?_, hcontent⟩
  cases hnew
  cases hrun
  decide

end FwState
end Letmein
