import Letmein.NftOps

/-!
# The calls of the firewall, case by case

`Opened`, `Closed` and `Maintained` say everything that `openPort`, `closePort` and `maintain` can do to
the leases and to the content of the chain, given that the configuration names a chain and that the
chain holds only generated rules. The invariants of runs are derived from these cases.
-/

namespace Letmein

def ctrlRules (conf : Config) (names : NftNames) : List Rule :=
  (if conf.port.tcp then [ruleOf names none (.tcp conf.port.port)] else []) ++
    (if conf.port.udp then [ruleOf names none (.udp conf.port.port)] else [])

namespace NftFirewall

variable {conf : Config} {names : NftNames} {env : NftEnv} {i : Nat} {k k' : Kernel} {fw : NftFirewall}
  {addr : IpAddr} {port : LeasePort} {r : NftRet}

/-! ### Batches -/

theorem genCtrlCmds_eq (hn : readConfiguration conf = .ok names) :
    genCtrlCmds conf = .ok ((ctrlRules conf names).map .add) := by
  have hcmd := genAddLeaseCmd_eq hn none fun a h => by cases h
  unfold genCtrlCmds ctrlRules
  cases conf.port.tcp <;> cases conf.port.udp <;> simp [hcmd] <;> rfl

theorem mem_ctrlRules {r : Rule} (h : r ∈ ctrlRules conf names) : ∃ port, r = ruleOf names none port := by
  unfold ctrlRules at h
  rcases List.mem_append.1 h with h | h <;> split at h <;> simp at h
  · exact ⟨_, h⟩
  · exact ⟨_, h⟩

theorem generated_chainId {rules : List Rule} (h : ∀ r ∈ rules, ∃ addr port, r = ruleOf names addr port) :
    rules.map Rule.erase = rules ∧ ∀ r ∈ rules, r.chainId = names.chain := by
  constructor
  · conv_rhs => rw [← List.map_id rules]
    refine List.map_congr_left fun r hr => ?_
    obtain ⟨addr, port, rfl⟩ := h r hr
    rfl
  · intro r hr
    obtain ⟨addr, port, rfl⟩ := h r hr
    rfl

theorem mem_rulesOf_generated {leases : List Lease} {r : Rule} (h : r ∈ rulesOf names leases) :
    ∃ addr port, r = ruleOf names addr port := by
  obtain ⟨lease, -, hr⟩ := List.mem_flatMap.1 h
  obtain ⟨port, -, rfl⟩ := mem_idRules.1 hr
  exact ⟨_, _, rfl⟩

theorem nftablesApplyBatch_eq {cmds : List NfCmd} (h : k.apply cmds = some k') :
    nftablesApplyBatch env i k cmds = if env.nft i then .ok k' else .error "Apply nftables" := by
  rw [nftablesApplyBatch, h]

theorem nftablesAddLease_eq (hn : readConfiguration conf = .ok names) (env : NftEnv) (i : Nat) (k : Kernel)
    (lease : Lease) (hs : Supported names.family lease.addr) :
    ∃ k', nftablesAddLease conf env i k lease = (if env.nft i then .ok k' else .error "Apply nftables") ∧
      k'.content names.chain = idRules names lease.id + k.content names.chain := by
  obtain ⟨k', hk', hcont⟩ := k.apply_adds (idRules names lease.id) fun _ h => idRules_chainId h
  rw [idRules_map_erase] at hcont
  refine ⟨k', ?_, hcont⟩
  rw [nftablesAddLease, genAddLeaseCmds_eq hn hs]
  exact nftablesApplyBatch_eq hk'

theorem nftablesAddLease_unsupported (hn : readConfiguration conf = .ok names) (env : NftEnv) (i : Nat)
    (k : Kernel) (lease : Lease) (hs : ¬ Supported names.family lease.addr) :
    ∃ e, nftablesAddLease conf env i k lease = .error e := by
  obtain ⟨e, he⟩ := genAddLeaseCmds_unsupported hn hs
  exact ⟨e, by rw [nftablesAddLease, he]; rfl⟩

theorem nftablesFullRebuild_eq (hn : readConfiguration conf = .ok names) (env : NftEnv) (i : Nat)
    (k : Kernel) (fw : NftFirewall) (hc : Coherent names fw.leases) (hs : fw.shutdown = false) :
    ∃ k', nftablesFullRebuild conf env i fw k = (if env.nft i then .ok k' else .error "Apply nftables") ∧
      k'.content names.chain = ctrlRules conf names + leasesRules names fw.leases := by
  have hgen : ∀ r ∈ ctrlRules conf names ++ rulesOf names (fw.leases.values env.it),
      ∃ addr port, r = ruleOf names addr port := fun r hr => by
    rcases List.mem_append.1 hr with hr | hr
    · obtain ⟨port, rfl⟩ := mem_ctrlRules hr
      exact ⟨_, _, rfl⟩
    · exact mem_rulesOf_generated hr
  obtain ⟨herase, hchain⟩ := generated_chainId hgen
  obtain ⟨k', hk', hcont⟩ := k.apply_rebuild _ hchain
  rw [herase, ← Multiset.coe_add, hc.rulesOf_values] at hcont
  refine ⟨k', ?_, hcont⟩
  have hcmds : (fw.leases.values env.it).mapM (genAddLeaseCmds conf) =
      .ok ((fw.leases.values env.it).map fun lease => (idRules names lease.id).map .add) := by
    refine Except.mapM_ok fun lease hl => genAddLeaseCmds_eq hn ?_
    obtain ⟨id, hl⟩ := Finmap.mem_values.1 hl
    have hs := hc.supported id (Finmap.mem_of_lookup_eq_some hl)
    rw [← hc.id id lease hl] at hs
    exact hs
  have hflat : ((fw.leases.values env.it).map fun lease => (idRules names lease.id).map NfCmd.add).flatten =
      (rulesOf names (fw.leases.values env.it)).map .add := by
    rw [rulesOf, List.map_flatMap, List.flatMap_def]
  unfold nftablesFullRebuild
  rw [hn, hs, genCtrlCmds_eq hn, hcmds]
  show nftablesApplyBatch env i k (.flush names.chain :: (_ ++ _)) = _
  rw [hflat, ← List.map_append]
  exact nftablesApplyBatch_eq hk'

theorem nftablesFullRebuild_shutdown (hn : readConfiguration conf = .ok names) (hs : fw.shutdown = true) :
    ∃ k', nftablesFullRebuild conf env i fw k = (if env.nft i then .ok k' else .error "Apply nftables") ∧
      k'.content names.chain = 0 := by
  refine ⟨k.keep fun x => x.chainId ≠ names.chain, ?_, k.content_flush names.chain⟩
  unfold nftablesFullRebuild
  rw [hn, hs]
  show nftablesApplyBatch env i k [.flush names.chain] = _
  exact nftablesApplyBatch_eq rfl

/-! ### Cases of the calls -/

inductive Opened (conf : Config) (names : NftNames) (env : NftEnv) (fw : NftFirewall) (k : Kernel)
    (addr : IpAddr) (port : LeasePort) : NftRet → Prop
  | refreshed {lease : Lease} (h : fw.leases.lookup (addr, port) = some lease) :
      Opened conf names env fw k addr port ⟨.ok (),
        { fw with leases := fw.leases.insert (addr, port) (lease.refreshTimeout conf env.now) }, k⟩
  | added {k' : Kernel} (hnew : (addr, port) ∉ fw.leases) (hctl : conf.port.port ≠ port.num)
      (hs : Supported names.family addr) (hnft : env.nft 0 = true)
      (hk : k'.content names.chain = idRules names (addr, port) + k.content names.chain) :
      Opened conf names env fw k addr port ⟨.ok (),
        { fw with leases := fw.leases.insert (addr, port) ⟨addr, port, env.now + conf.nftTimeout⟩ }, k'⟩
  | refused {e : String} (hnew : (addr, port) ∉ fw.leases)
      (hwhy : ¬ Supported names.family addr ∨ env.nft 0 = false) :
      Opened conf names env fw k addr port ⟨.error e, fw, k⟩

/-- What `closePort` does. The rules of the key are removed, with or without a lease. -/
inductive Closed (conf : Config) (names : NftNames) (env : NftEnv) (fw : NftFirewall) (k : Kernel)
    (addr : IpAddr) (port : LeasePort) : NftRet → Prop
  | removed {k' : Kernel} (h1 : env.nft 1 = true) (h2 : env.nft 2 = true)
      (hk : k'.content names.chain = k.content names.chain - idRules names (addr, port)) :
      Closed conf names env fw k addr port ⟨.ok (), { fw with leases := fw.leases.erase (addr, port) }, k'⟩
  | ignored (hfail : env.nft 1 = false ∨ env.nft 2 = false) (hdebug : conf.debug = true) :
      Closed conf names env fw k addr port ⟨.ok (), { fw with leases := fw.leases.erase (addr, port) }, k⟩
  | failed {e : String} (hfail : env.nft 1 = false ∨ env.nft 2 = false) (hdebug : conf.debug = false) :
      Closed conf names env fw k addr port ⟨.error e, { fw with leases := fw.leases.erase (addr, port) }, k⟩

/-- What `maintain` does with the leases that have timed out. -/
inductive Maintained (conf : Config) (names : NftNames) (env : NftEnv) (fw : NftFirewall) (k : Kernel) :
    NftRet → Prop
  | removed {k' : Kernel}
      (hok : ¬ RemoveFails names env 0 k (pruneAllLeaseTimeouts env.now env.it fw.leases).1)
      (hk : k'.content names.chain =
        k.content names.chain - rulesOf names (pruneAllLeaseTimeouts env.now env.it fw.leases).1) :
      Maintained conf names env fw k
        ⟨.ok (), { fw with leases := (pruneAllLeaseTimeouts env.now env.it fw.leases).2 }, k'⟩
  | ignored (hfail : RemoveFails names env 0 k (pruneAllLeaseTimeouts env.now env.it fw.leases).1)
      (hdebug : conf.debug = true) :
      Maintained conf names env fw k
        ⟨.ok (), { fw with leases := (pruneAllLeaseTimeouts env.now env.it fw.leases).2 }, k⟩
  | rebuilt {k' : Kernel}
      (hfail : RemoveFails names env 0 k (pruneAllLeaseTimeouts env.now env.it fw.leases).1)
      (hdebug : conf.debug = false)
      (hk : k'.content names.chain = ctrlRules conf names +
        leasesRules names (pruneAllLeaseTimeouts env.now env.it fw.leases).2) :
      Maintained conf names env fw k
        ⟨.ok (), { fw with leases := (pruneAllLeaseTimeouts env.now env.it fw.leases).2 }, k'⟩
  | failed {e : String}
      (hfail : RemoveFails names env 0 k (pruneAllLeaseTimeouts env.now env.it fw.leases).1)
      (hdebug : conf.debug = false) :
      Maintained conf names env fw k
        ⟨.error e, { fw with leases := (pruneAllLeaseTimeouts env.now env.it fw.leases).2 }, k⟩

theorem Lease.new_ok {now : Nat} {lease : Lease} (h : Lease.new conf now addr port = .ok lease) :
    conf.port.port ≠ port.num ∧ lease = ⟨addr, port, now + conf.nftTimeout⟩ := by
  obtain ⟨u, hu, h⟩ := Except.bind_ok h
  cases h
  exact ⟨check_ok hu, rfl⟩

theorem openPort_ok (hn : readConfiguration conf = .ok names)
    (h : fw.openPort conf env k addr port = .ok r) : Opened conf names env fw k addr port r := by
  obtain ⟨u, -, h⟩ := Except.bind_ok h
  dsimp only at h
  split at h
  · rename_i lease hl
    cases h
    exact .refreshed hl
  · rename_i hl
    have hnew := Finmap.lookup_eq_none.1 hl
    obtain ⟨lease, hlease, h⟩ := Except.bind_ok h
    obtain ⟨hctl, rfl⟩ := Lease.new_ok hlease
    by_cases hs : Supported names.family addr
    · obtain ⟨k', hadd, hk⟩ := nftablesAddLease_eq hn env 0 k ⟨addr, port, env.now + conf.nftTimeout⟩ hs
      rw [hadd] at h
      cases hnft : env.nft 0 <;> rw [hnft] at h <;> cases h
      · exact .refused hnew (.inr hnft)
      · exact .added hnew hctl hs hnft hk
    · obtain ⟨e, he⟩ :=
        nftablesAddLease_unsupported hn env 0 k ⟨addr, port, env.now + conf.nftTimeout⟩ hs
      rw [he] at h
      cases h
      exact .refused hnew (.inl hs)

theorem rulesOf_singleton (names : NftNames) (lease : Lease) : rulesOf names [lease] = idRules names lease.id := by
  simp [rulesOf]

/-- The rules of one lease are different, so the kernel never refuses to delete them. -/
theorem removeFails_singleton (hg : Generated names k) (lease : Lease) :
    RemoveFails names env 0 k [lease] ↔ env.nft 1 = false ∨ env.nft 2 = false := by
  have hnone : k.apply ((allFound names k [lease]).map (Kernel.deleteCmd names.chain)) ≠ none :=
    apply_found_ne_none hg (by rw [rulesOf_singleton]; exact idRules_nodup names lease.id)
  simp [RemoveFails, hnone]

theorem closed_of_remove (hn : readConfiguration conf = .ok names) (hg : Generated names k)
    {lease : Lease} (hid : lease.id = (addr, port)) {fw' : NftFirewall}
    (hfw : fw' = { fw with leases := fw.leases.erase (addr, port) })
    (h : (match (nftablesRemoveLeases conf env 0 k [lease]).2 with
      | .ok k' => (pure ⟨.ok (), fw', k'⟩ : Except Panic NftRet)
      | .error e => pure ⟨.error e, fw', k⟩) = .ok r) : Closed conf names env fw k addr port r := by
  subst hfw
  by_cases hf : RemoveFails names env 0 k [lease]
  · obtain ⟨j, e, hrem⟩ := nftablesRemoveLeases_of_fails hn hf
    have hfail := (removeFails_singleton hg lease).1 hf
    rw [hrem, removeError] at h
    cases hdebug : conf.debug <;> rw [hdebug] at h <;> cases h
    · exact .failed hfail hdebug
    · exact .ignored hfail hdebug
  · obtain ⟨j, k', hrem, -, happly⟩ := nftablesRemoveLeases_of_not_fails hn hf
    have hk := content_of_apply_found hg happly
    rw [rulesOf_singleton, hid] at hk
    simp only [removeFails_singleton hg, not_or, Bool.not_eq_false] at hf
    rw [hrem] at h
    cases h
    exact .removed hf.1 hf.2 hk

theorem closePort_ok (hn : readConfiguration conf = .ok names) (hg : Generated names k)
    (hc : Coherent names fw.leases) (h : fw.closePort conf env k addr port = .ok r) :
    Closed conf names env fw k addr port r := by
  obtain ⟨u, -, h⟩ := Except.bind_ok h
  dsimp only at h
  split at h
  · rename_i lease hl
    exact closed_of_remove hn hg (hc.id _ _ hl) rfl h
  · rename_i hl
    obtain ⟨lease, hlease, h⟩ := Except.bind_ok h
    obtain ⟨-, rfl⟩ := Lease.new_ok hlease
    refine closed_of_remove hn hg rfl ?_ h
    rw [Finmap.erase_of_notMem (Finmap.lookup_eq_none.1 hl)]

theorem maintain_ok (hn : readConfiguration conf = .ok names) (hg : Generated names k)
    (hc : Coherent names fw.leases) (h : fw.maintain conf env k = .ok r) :
    Maintained conf names env fw k r := by
  obtain ⟨u, hu, h⟩ := Except.bind_ok h
  have hrun : fw.shutdown = false := check_ok hu
  dsimp only at h
  split at h
  · rename_i hnil
    have hnil : (pruneAllLeaseTimeouts env.now env.it fw.leases).1 = [] := by simpa using hnil
    cases h
    refine .removed (fun hf => hf.1 hnil) ?_
    rw [hnil]; simp [rulesOf]
  · by_cases hf : RemoveFails names env 0 k (pruneAllLeaseTimeouts env.now env.it fw.leases).1
    · obtain ⟨j, e, hrem⟩ := nftablesRemoveLeases_of_fails hn hf
      obtain ⟨k', hre, hk⟩ := nftablesFullRebuild_eq hn env j k
        { fw with leases := (pruneAllLeaseTimeouts env.now env.it fw.leases).2 } (hc.pruned env.now env.it) hrun
      rw [hrem, removeError] at h
      cases hdebug : conf.debug with
      | true =>
        simp only [hdebug, if_true] at h
        cases h
        exact .ignored hf hdebug
      | false =>
        simp only [hdebug, Bool.false_eq_true, if_false, hre] at h
        cases hnft : env.nft j <;> rw [hnft] at h <;> cases h
        · exact .failed hf hdebug
        · exact .rebuilt hf hdebug hk
    · obtain ⟨j, k', hrem, -, happly⟩ := nftablesRemoveLeases_of_not_fails hn hf
      rw [hrem] at h
      cases h
      exact .removed hf (content_of_apply_found hg happly)

/-! ### The calls return -/

theorem maintain_returns (conf : Config) (env : NftEnv) (k : Kernel) (hs : fw.shutdown = false) :
    ∃ r, fw.maintain conf env k = .ok r := by
  unfold maintain check
  simp only [hs, if_true, bind, Except.bind, pure, Except.pure]
  split
  · exact ⟨_, rfl⟩
  · split
    · exact ⟨_, rfl⟩
    · split <;> exact ⟨_, rfl⟩

theorem openPort_returns (hs : fw.shutdown = false) (hctl : conf.port.port ≠ port.num) :
    ∃ r, fw.openPort conf env k addr port = .ok r := by
  unfold openPort Lease.new check
  simp only [hs, ne_eq, hctl, not_false_eq_true, if_true, bind, Except.bind, pure, Except.pure]
  split
  · exact ⟨_, rfl⟩
  · split <;> exact ⟨_, rfl⟩

theorem closePort_returns (hs : fw.shutdown = false) (hctl : conf.port.port ≠ port.num) :
    ∃ r, fw.closePort conf env k addr port = .ok r := by
  unfold closePort Lease.new check
  simp only [hs, ne_eq, hctl, not_false_eq_true, if_true, bind, Except.bind, pure, Except.pure]
  split <;> split <;> exact ⟨_, rfl⟩

theorem new_ok (h : new conf env k = .ok (fw, k')) : ∃ names, readConfiguration conf = .ok names ∧
    fw = ⟨∅, false⟩ ∧ k'.content names.chain = ctrlRules conf names := by
  unfold new at h
  split at h
  · cases hn : readConfiguration conf with
    | error e =>
      have : nftablesFullRebuild conf env 1 ⟨∅, false⟩ k = .error e := by rw [nftablesFullRebuild, hn]; rfl
      rw [this] at h
      cases h
    | ok names =>
      refine ⟨names, rfl, ?_⟩
      obtain ⟨k₁, hre, hk⟩ := nftablesFullRebuild_eq hn env 1 k ⟨∅, false⟩ Coherent.empty rfl
      rw [leasesRules_empty, add_zero] at hk
      rw [hre] at h
      cases hnft : env.nft 1 <;> rw [hnft] at h <;> cases h
      exact ⟨rfl, hk⟩
  · cases h

end NftFirewall
end Letmein
