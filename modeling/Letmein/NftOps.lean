import Letmein.Lib.Run
import Letmein.NftSpec
import Mathlib.Algebra.BigOperators.Group.Finset.Basic

/-!
# What the calls do

For each call of the firewall one relation says everything it can do to the leases and to the content
of the chain (`Opened`, `Closed`, `Maintained`). The rules that the leases stand for are
`leasesRules`, a sum over the keys of the lease map.
-/

namespace Letmein

variable {conf : Config} {names : NftNames} {env : NftEnv} {i : Nat} {k k' : Kernel} {leases : List Lease}

/-! ### Removing leases from the kernel -/

/-- The listed rules that are deleted for the leases. -/
def allFound (names : NftNames) (k : Kernel) (leases : List Lease) : List Rule :=
  leases.flatMap (found names k.rules)

def rulesOf (names : NftNames) (leases : List Lease) : List Rule :=
  leases.flatMap fun lease => idRules names lease.id

/-- One of the `nft` programs fails with which the rules are listed and deleted, be it that the kernel
refuses the batch. -/
def RemoveFails (names : NftNames) (env : NftEnv) (i : Nat) (k : Kernel) (leases : List Lease) : Prop :=
  leases ≠ [] ∧ (env.nft (i + 1) = false ∨ env.nft (i + 2) = false ∨
    k.apply ((allFound names k leases).map (Kernel.deleteCmd names.chain)) = none)

theorem mapM_genDeleteLeaseCmds (hn : readConfiguration conf = .ok names) (k : Kernel) (leases : List Lease) :
    ∃ cmds, leases.mapM (genDeleteLeaseCmds conf k.rules) = .ok cmds ∧
      cmds.flatten = (allFound names k leases).map (Kernel.deleteCmd names.chain) := by
  refine ⟨_, Except.mapM_ok fun lease _ => genDeleteLeaseCmds_eq hn k lease, ?_⟩
  rw [allFound, List.map_flatMap, List.flatMap_def]

theorem nftablesRemoveLeases_of_fails (hn : readConfiguration conf = .ok names)
    (hf : RemoveFails names env i k leases) :
    ∃ j e, NftFirewall.nftablesRemoveLeases conf env i k leases = (j, NftFirewall.removeError conf k e) := by
  obtain ⟨cmds, hcmds, hflat⟩ := mapM_genDeleteLeaseCmds hn k leases
  obtain ⟨hne, hwhy⟩ := hf
  unfold NftFirewall.nftablesRemoveLeases ListedRuleset.fromKernel
  rw [if_neg (by simpa using hne)]
  cases h1 : env.nft (i + 1) with
  | false => exact ⟨_, _, rfl⟩
  | true =>
    have hbatch : NftFirewall.nftablesApplyBatch env (i + 2) k cmds.flatten = .error "Apply nftables" := by
      rw [NftFirewall.nftablesApplyBatch, hflat]
      rcases hwhy with h | h | h
      · rw [h1] at h; cases h
      · split
        · rw [h]; rfl
        · rfl
      · rw [h]
    simp only [if_true, hcmds, hbatch]
    exact ⟨_, _, rfl⟩

theorem nftablesRemoveLeases_of_not_fails (hn : readConfiguration conf = .ok names)
    (hf : ¬ RemoveFails names env i k leases) :
    ∃ j k', NftFirewall.nftablesRemoveLeases conf env i k leases = (j, .ok k') ∧
      (j = if leases = [] then i else i + 3) ∧
      k.apply ((allFound names k leases).map (Kernel.deleteCmd names.chain)) = some k' := by
  by_cases hne : leases = []
  · subst hne
    exact ⟨i, k, rfl, rfl, rfl⟩
  obtain ⟨cmds, hcmds, hflat⟩ := mapM_genDeleteLeaseCmds hn k leases
  simp only [RemoveFails, not_and, not_or, Bool.not_eq_false] at hf
  obtain ⟨h1, h2, h3⟩ := hf hne
  obtain ⟨k', hk'⟩ := Option.ne_none_iff_exists'.1 h3
  refine ⟨i + 3, k', ?_, by rw [if_neg hne], hk'⟩
  have hbatch : NftFirewall.nftablesApplyBatch env (i + 2) k cmds.flatten = .ok k' := by
    rw [NftFirewall.nftablesApplyBatch, hflat, hk', h2]; rfl
  unfold NftFirewall.nftablesRemoveLeases ListedRuleset.fromKernel
  rw [if_neg (by simpa using hne), h1]
  simp only [if_true, hcmds, hbatch]

theorem Generated.of_le (hg : Generated names k) (h : k'.content names.chain ≤ k.content names.chain) :
    Generated names k' := fun r hr => hg r (Multiset.mem_of_le h hr)

theorem mem_allFound {r : Rule} (h : r ∈ allFound names k leases) : r ∈ k.rules ∧ r.chainId = names.chain := by
  obtain ⟨lease, -, hr⟩ := List.mem_flatMap.1 h
  exact mem_found hr

theorem allFound_map_erase (hg : Generated names k) (leases : List Lease) :
    (allFound names k leases).map Rule.erase = (rulesOf names leases).filter (· ∈ k.content names.chain) := by
  rw [allFound, rulesOf, List.map_flatMap, List.filter_flatMap]
  exact congrArg (leases.flatMap ·) (funext fun lease => found_map_erase hg lease)

/-- Removing leases subtracts their rules. -/
theorem content_of_apply_found (hg : Generated names k)
    (h : k.apply ((allFound names k leases).map (Kernel.deleteCmd names.chain)) = some k') :
    k'.content names.chain = k.content names.chain - rulesOf names leases :=
  Kernel.content_sub (fun _ hx => (mem_allFound hx).2) (allFound_map_erase hg leases)
    (Kernel.apply_deletes (fun _ hy => hy) (fun _ hx => mem_allFound hx) h)

theorem apply_found_ne_none (hg : Generated names k) (hnodup : (rulesOf names leases).Nodup) :
    k.apply ((allFound names k leases).map (Kernel.deleteCmd names.chain)) ≠ none := by
  have hfound : (allFound names k leases).Nodup := by
    refine List.Nodup.of_map Rule.erase ?_
    rw [allFound_map_erase hg]
    exact hnodup.filter _
  obtain ⟨k', hk'⟩ := Kernel.apply_deletes_some (fun x hx => mem_allFound hx) hfound
  rw [hk']
  exact Option.some_ne_none k'

/-! ### The rules of the lease map -/

/-- The rules that the leases stand for. -/
def leasesRules (names : NftNames) (leases : LeaseMap) : Multiset Rule :=
  ∑ id ∈ leases.keys, (idRules names id : Multiset Rule)

/-- Leases are filed under their key, for addresses that the family supports. -/
structure Coherent (names : NftNames) (leases : LeaseMap) : Prop where
  id : ∀ id lease, leases.lookup id = some lease → lease.id = id
  supported : ∀ id, id ∈ leases → Supported names.family id.1

theorem coe_flatMap {ids : List LeaseId} (hnodup : ids.Nodup) :
    (ids.flatMap (idRules names) : Multiset Rule) = ∑ id ∈ ids.toFinset, (idRules names id : Multiset Rule) := by
  induction ids with
  | nil => rfl
  | cons id ids ih =>
    obtain ⟨hid, hids⟩ := List.nodup_cons.1 hnodup
    rw [List.flatMap_cons, ← Multiset.coe_add, ih hids, List.toFinset_cons,
      Finset.sum_insert (by simpa using hid)]

theorem rulesOf_eq_flatMap (names : NftNames) (leases : List Lease) :
    rulesOf names leases = (leases.map Lease.id).flatMap (idRules names) := by
  rw [rulesOf, List.flatMap_map]

theorem not_timedOut_of_mem {m : LeaseMap} {it : IterOrder LeaseId} {now : Nat} {id : LeaseId} {lease : Lease}
    (hid : id ∈ (pruneAllLeaseTimeouts now it m).2) (hl : m.lookup id = some lease) :
    lease.isTimedOut now = false := by
  obtain ⟨l, hl'⟩ := Finmap.mem_iff.1 hid
  rw [pruneAllLeaseTimeouts, Finmap.lookup_retain, hl, Option.filter_eq_some_iff] at hl'
  obtain ⟨hsome, ht⟩ := hl'
  cases hsome
  simpa using ht

namespace Coherent
variable {m : LeaseMap} {it : IterOrder LeaseId}

theorem empty : Coherent names ∅ where
  id id lease h := by simp at h
  supported id h := absurd h Finmap.notMem_empty

theorem insert (h : Coherent names m) {id : LeaseId} (lease : Lease) (hid : lease.id = id)
    (hs : Supported names.family id.1) : Coherent names (m.insert id lease) where
  id id' l hl := by
    by_cases hid' : id' = id
    · subst hid'
      rw [Finmap.lookup_insert, Option.some.injEq] at hl
      rw [← hl, hid]
    · exact h.id id' l ((Finmap.lookup_insert_of_ne _ hid').symm.trans hl)
  supported id' hid' := by
    rcases Finmap.mem_insert.1 hid' with rfl | hid'
    · exact hs
    · exact h.supported id' hid'

theorem erase (h : Coherent names m) (id : LeaseId) : Coherent names (m.erase id) where
  id id' l hl := by
    by_cases hid : id' = id
    · subst hid
      rw [Finmap.lookup_erase] at hl
      cases hl
    · exact h.id id' l ((Finmap.lookup_erase_ne hid).symm.trans hl)
  supported id' hid := h.supported id' (Finmap.mem_erase.1 hid).2

theorem retain (h : Coherent names m) (p : LeaseId → Lease → Bool) : Coherent names (m.retain p) where
  id id l hl := by
    rw [Finmap.lookup_retain, Option.filter_eq_some_iff] at hl
    exact h.id id l hl.1
  supported id hid := h.supported id (Finmap.mem_of_mem_retain hid)

theorem map_id_values (h : Coherent names m) (it : IterOrder LeaseId) :
    (m.values it).map Lease.id = it.order m.keys := by
  rw [Finmap.values, List.map_filterMap]
  conv_rhs => rw [← List.filterMap_some (l := it.order m.keys)]
  refine List.filterMap_congr fun id hid => ?_
  obtain ⟨lease, hl⟩ := Finmap.mem_iff.1 (Finmap.mem_keys.1 ((it.mem_order _ _).1 hid))
  rw [hl, Option.map_some, h.id id lease hl]

theorem rulesOf_values (h : Coherent names m) (it : IterOrder LeaseId) :
    (rulesOf names (m.values it) : Multiset Rule) = leasesRules names m := by
  have hset : (it.order m.keys).toFinset = m.keys := by
    ext id; rw [List.mem_toFinset, it.mem_order]
  rw [rulesOf_eq_flatMap, h.map_id_values it, coe_flatMap (it.nodup _), hset, leasesRules]

variable {now : Nat}

theorem pruned (h : Coherent names m) (now : Nat) (it : IterOrder LeaseId) :
    Coherent names (pruneAllLeaseTimeouts now it m).2 :=
  h.retain fun _ lease => !lease.isTimedOut now

theorem mem_pruned (h : Coherent names m) {id : LeaseId} :
    id ∈ (pruneAllLeaseTimeouts now it m).1.map Lease.id ↔
      ∃ lease, m.lookup id = some lease ∧ lease.isTimedOut now = true := by
  simp only [pruneAllLeaseTimeouts, List.mem_map, List.mem_filter, Finmap.mem_values]
  constructor
  · rintro ⟨lease, ⟨⟨id', hl⟩, ht⟩, rfl⟩
    exact ⟨lease, h.id id' lease hl ▸ hl, ht⟩
  · rintro ⟨lease, hl, ht⟩
    exact ⟨lease, ⟨⟨id, hl⟩, ht⟩, h.id id lease hl⟩

theorem nodup_pruned (h : Coherent names m) : ((pruneAllLeaseTimeouts now it m).1.map Lease.id).Nodup := by
  refine List.Nodup.sublist (List.filter_sublist.map _) ?_
  rw [h.map_id_values it]
  exact it.nodup _

/-- Pruning splits the rules of the leases. -/
theorem rulesOf_pruned (h : Coherent names m) (now : Nat) (it : IterOrder LeaseId) :
    (rulesOf names (pruneAllLeaseTimeouts now it m).1 : Multiset Rule) +
      leasesRules names (pruneAllLeaseTimeouts now it m).2 = leasesRules names m := by
  have hsub : (pruneAllLeaseTimeouts now it m).2.keys ⊆ m.keys := fun id hid =>
    Finmap.mem_keys.2 (Finmap.mem_of_mem_retain (Finmap.mem_keys.1 hid))
  have hset : ((pruneAllLeaseTimeouts now it m).1.map Lease.id).toFinset =
      m.keys \ (pruneAllLeaseTimeouts now it m).2.keys := by
    ext id
    rw [List.mem_toFinset, h.mem_pruned, Finset.mem_sdiff, Finmap.mem_keys, Finmap.mem_keys, Finmap.mem_iff,
      Finmap.mem_iff]
    simp only [pruneAllLeaseTimeouts, Finmap.lookup_retain]
    cases m.lookup id with
    | none => simp
    | some lease => simp [Option.filter]
  rw [rulesOf_eq_flatMap, coe_flatMap h.nodup_pruned, hset, leasesRules, leasesRules,
    Finset.sum_sdiff hsub]

end Coherent

theorem leasesRules_empty (names : NftNames) : leasesRules names ∅ = 0 := rfl

theorem leasesRules_insert {m : LeaseMap} {id : LeaseId} (h : id ∉ m) (lease : Lease) :
    leasesRules names (m.insert id lease) = idRules names id + leasesRules names m := by
  rw [leasesRules, Finmap.keys_insert_eq, Finset.sum_insert (by rwa [Finmap.mem_keys]), leasesRules]

theorem leasesRules_insert_of_mem {m : LeaseMap} {id : LeaseId} (h : id ∈ m) (lease : Lease) :
    leasesRules names (m.insert id lease) = leasesRules names m := by
  rw [leasesRules, Finmap.keys_insert_eq, Finset.insert_eq_of_mem (Finmap.mem_keys.2 h), leasesRules]

theorem leasesRules_erase {m : LeaseMap} {id : LeaseId} (h : id ∈ m) :
    leasesRules names m = idRules names id + leasesRules names (m.erase id) := by
  rw [leasesRules, leasesRules, Finmap.keys_erase]
  exact (Finset.add_sum_erase _ (fun id => (idRules names id : Multiset Rule)) (Finmap.mem_keys.2 h)).symm

theorem mem_leasesRules {m : LeaseMap} {r : Rule} :
    r ∈ leasesRules names m ↔ ∃ id, id ∈ m ∧ r ∈ idRules names id := by
  rw [leasesRules, Multiset.mem_sum]
  simp only [Finmap.mem_keys, Multiset.mem_coe]

end Letmein
