import Mathlib.Data.Finmap
import Mathlib.Algebra.Order.BigOperators.Group.Multiset
import Mathlib.Algebra.Order.Monoid.NatCast
import Mathlib.Algebra.Order.Group.Nat

/-! # Hash maps

A hash map is a finite map: what it holds is a `Finmap`, what it does not fix is the order in which
it hands out its entries. `IterOrder` is one such order, chosen afresh by the environment at every
iteration. -/

abbrev HashMap (K V : Type) := Finmap fun _ : K => V

/-- An order in which a hash map may hand out its keys. -/
structure IterOrder (K : Type) where
  order : Finset K → List K
  nodup : ∀ s, (order s).Nodup
  mem_order : ∀ s k, k ∈ order s ↔ k ∈ s

namespace IterOrder
variable {K : Type} (it : IterOrder K)

/-- An order that hands out keys as they stand in `l`, when they are all there. -/
noncomputable def ofKeys [DecidableEq K] (l : List K) (hl : l.Nodup) : IterOrder K where
  order s := if ∀ k ∈ s, k ∈ l then l.filter (· ∈ s) else s.toList
  nodup s := by
    split
    · exact hl.filter _
    · exact s.nodup_toList
  mem_order s k := by
    split
    · rename_i h
      rw [List.mem_filter, decide_eq_true_eq]
      exact ⟨fun hk => hk.2, fun hk => ⟨h k hk, hk⟩⟩
    · exact Finset.mem_toList

end IterOrder

namespace Finmap
variable {K V : Type} [DecidableEq K] {m : HashMap K V} {k k' : K} {v v' : V}

def size (m : HashMap K V) : Nat := m.keys.card

/-- The values in the iteration order `it`. -/
def values (it : IterOrder K) (m : HashMap K V) : List V := (it.order m.keys).filterMap m.lookup

/-- The entries in the iteration order `it`. -/
def iter (it : IterOrder K) (m : HashMap K V) : List (K × V) :=
  (it.order m.keys).filterMap fun k => (m.lookup k).map fun v => (k, v)

def retain (p : K → V → Bool) (m : HashMap K V) : HashMap K V :=
  ⟨m.entries.filter fun e => p e.1 e.2, by
    rw [← Multiset.nodup_keys]
    exact Multiset.nodup_of_le (Multiset.map_le_map (Multiset.filter_le _ _))
      (Multiset.nodup_keys.2 m.nodupKeys)⟩

def sumBy (f : V → Nat) (m : HashMap K V) : Nat := (m.entries.map fun e => f e.2).sum

theorem insert_erase_self : (m.erase k).insert k v = m.insert k v := by
  refine ext_lookup fun x => ?_
  by_cases h : x = k
  · subst h; rw [lookup_insert, lookup_insert]
  · rw [lookup_insert_of_ne _ h, lookup_insert_of_ne _ h, lookup_erase_ne h]

theorem insert_lookup_self (h : m.lookup k = some v) : m.insert k v = m := by
  refine ext_lookup fun x => ?_
  by_cases hx : x = k
  · subst hx; rw [lookup_insert, h]
  · rw [lookup_insert_of_ne _ hx]

theorem erase_of_notMem (h : k ∉ m) : m.erase k = m := by
  refine ext_lookup fun x => ?_
  by_cases hx : x = k
  · subst hx; rw [lookup_erase, lookup_eq_none.2 h]
  · rw [lookup_erase_ne hx]

theorem keys_insert_eq : (m.insert k v).keys = Insert.insert k m.keys := by
  ext x; simp [mem_keys, mem_insert]

theorem size_insert_of_notMem (h : k ∉ m) : (m.insert k v).size = m.size + 1 := by
  rw [size, keys_insert_eq, Finset.card_insert_of_notMem (by rwa [mem_keys]), size]

theorem size_insert_of_mem (h : k ∈ m) : (m.insert k v).size = m.size := by
  rw [size, keys_insert_eq, Finset.insert_eq_of_mem (mem_keys.2 h), size]

theorem size_erase_le : (m.erase k).size ≤ m.size := by
  rw [size, keys_erase]; exact Finset.card_erase_le

theorem size_eq_zero : m.size = 0 ↔ m = ∅ := by
  rw [size, Finset.card_eq_zero]
  refine ⟨fun h => ext_lookup fun x => ?_, fun h => by rw [h]; rfl⟩
  rw [lookup_empty, lookup_eq_none, ← mem_keys, h]
  exact Finset.notMem_empty x

theorem sumBy_insert_of_notMem (f : V → Nat) (h : k ∉ m) : sumBy f (m.insert k v) = f v + sumBy f m := by
  rw [sumBy, entries_insert_of_notMem h, Multiset.map_cons, Multiset.sum_cons, sumBy]

theorem sumBy_insert (f : V → Nat) : sumBy f (m.insert k v) = f v + sumBy f (m.erase k) := by
  rw [← insert_erase_self, sumBy_insert_of_notMem f notMem_erase_self]

theorem sumBy_eq_add_erase (f : V → Nat) (h : m.lookup k = some v) :
    sumBy f m = f v + sumBy f (m.erase k) := by
  conv_lhs => rw [← insert_lookup_self h]
  exact sumBy_insert f

theorem sumBy_le_size_mul {f : V → Nat} {b : Nat} (h : ∀ k v, m.lookup k = some v → f v ≤ b) :
    sumBy f m ≤ m.size * b := by
  have hcard : m.size = Multiset.card (m.entries.map fun e => f e.2) := by
    rw [Multiset.card_map]; exact Multiset.card_map _ m.entries
  rw [hcard, ← Nat.nsmul_eq_mul]
  refine Multiset.sum_le_card_nsmul _ b fun x hx => ?_
  obtain ⟨⟨k, v⟩, he, rfl⟩ := Multiset.mem_map.1 hx
  exact h k v (lookup_eq_some_iff.2 he)

theorem lookup_retain (p : K → V → Bool) :
    (m.retain p).lookup k = (m.lookup k).filter (p k) := by
  refine Option.ext fun v => ?_
  rw [Option.filter_eq_some_iff, ← Option.mem_def, mem_lookup_iff, retain, Multiset.mem_filter,
    lookup_eq_some_iff]

theorem mem_of_mem_retain {p : K → V → Bool} (h : k ∈ m.retain p) : k ∈ m := by
  obtain ⟨v, hv⟩ := mem_iff.1 h
  rw [lookup_retain, Option.filter_eq_some_iff] at hv
  exact mem_of_lookup_eq_some hv.1

theorem mem_values {it : IterOrder K} : v ∈ m.values it ↔ ∃ k, m.lookup k = some v := by
  rw [values, List.mem_filterMap]
  refine ⟨fun ⟨k, _, h⟩ => ⟨k, h⟩, fun ⟨k, h⟩ => ⟨k, ?_, h⟩⟩
  rw [it.mem_order, mem_keys]
  exact mem_of_lookup_eq_some h

theorem lookup_singleton_iff : (singleton k v : HashMap K V).lookup k' = some v' ↔ k' = k ∧ v' = v := by
  by_cases h : k' = k
  · subst h
    rw [lookup_singleton_eq]
    simp [eq_comm]
  · have hnone : (singleton k v : HashMap K V).lookup k' = none := by
      rw [lookup_eq_none, mem_singleton]
      exact h
    simp [hnone, h]

theorem mem_iter {it : IterOrder K} : (k, v) ∈ m.iter it ↔ m.lookup k = some v := by
  rw [iter, List.mem_filterMap]
  constructor
  · rintro ⟨k', -, h⟩
    obtain ⟨v', hv, he⟩ := Option.map_eq_some_iff.1 h
    cases he
    exact hv
  · intro h
    exact ⟨k, (it.mem_order _ _).2 (mem_keys.2 (mem_of_lookup_eq_some h)), by rw [h]; rfl⟩

/-- The last entry of each key of a list, in the list's order. -/
def lastEntries : List (K × V) → List (K × V)
  | [] => []
  | e :: l => if e.1 ∈ l.map Prod.fst then lastEntries l else e :: lastEntries l

theorem lastEntries_subset {l : List (K × V)} : lastEntries l ⊆ l := by
  induction l with
  | nil => exact fun _ h => h
  | cons e l ih =>
    intro e' he'
    rw [lastEntries] at he'
    split_ifs at he'
    · exact List.mem_cons_of_mem _ (ih he')
    · rcases List.mem_cons.1 he' with rfl | he'
      · exact List.mem_cons_self
      · exact List.mem_cons_of_mem _ (ih he')

theorem lastEntries_eq {l : List (K × V)} (h : (l.map Prod.fst).Nodup) : lastEntries l = l := by
  induction l with
  | nil => rfl
  | cons e l ih =>
    rw [List.map_cons, List.nodup_cons] at h
    rw [lastEntries, if_neg h.1, ih h.2]

theorem lastEntries_nodup {l : List (K × V)} : ((lastEntries l).map Prod.fst).Nodup := by
  induction l with
  | nil => exact .nil
  | cons e l ih =>
    rw [lastEntries]
    split_ifs with h
    · exact ih
    · rw [List.map_cons, List.nodup_cons]
      exact ⟨fun hmem => h (List.map_subset _ lastEntries_subset hmem), ih⟩

/-- Inserting the entries of a list one after the other keeps the last one of each key. -/
theorem lookup_foldl_insert {l : List (K × V)} :
    (l.foldl (fun m e => m.insert e.1 e.2) m).lookup k = some v ↔
      (k, v) ∈ lastEntries l ∨ k ∉ l.map Prod.fst ∧ m.lookup k = some v := by
  induction l generalizing m with
  | nil => simp [lastEntries]
  | cons e l ih =>
    rw [List.foldl_cons, ih, lastEntries]
    by_cases hk : k = e.1
    · subst hk
      rw [lookup_insert]
      split_ifs with h
      · simp [h]
      · have hnot : (e.1, v) ∉ lastEntries l := fun hmem =>
          h (List.mem_map.2 ⟨(e.1, v), lastEntries_subset hmem, rfl⟩)
        simp [h, hnot, Prod.ext_iff, eq_comm]
    · rw [lookup_insert_of_ne _ hk]
      have hne : ¬ (k, v) = e := fun h => hk (congrArg Prod.fst h)
      split_ifs with h <;> simp [hk, hne]

theorem lookup_foldl_insert_eq {l : List (K × V)} :
    (l.foldl (fun m e => m.insert e.1 e.2) m).lookup k =
      ((l.filter fun e => e.1 = k).getLast?.map Prod.snd).or (m.lookup k) := by
  induction l using List.reverseRecOn with
  | nil => rfl
  | append_singleton l e ih =>
    rw [List.foldl_append, List.foldl_cons, List.foldl_nil, List.filter_append]
    by_cases hk : e.1 = k
    · subst hk
      rw [lookup_insert, List.filter_cons_of_pos (by simp), List.filter_nil, List.getLast?_concat]
      rfl
    · rw [lookup_insert_of_ne _ (Ne.symm hk), ih, List.filter_cons_of_neg (by simp [hk]), List.filter_nil,
        List.append_nil]

theorem exists_mem_lastEntries {l : List (K × V)} (h : k ∈ l.map Prod.fst) : ∃ v, (k, v) ∈ lastEntries l := by
  induction l with
  | nil => cases h
  | cons e l ih =>
    rw [lastEntries]
    split_ifs with he
    · rw [List.map_cons, List.mem_cons] at h
      rcases h with rfl | h
      · exact ih he
      · exact ih h
    · rw [List.map_cons, List.mem_cons] at h
      rcases h with rfl | h
      · exact ⟨e.2, List.mem_cons_self⟩
      · obtain ⟨v, hv⟩ := ih h
        exact ⟨v, List.mem_cons_of_mem _ hv⟩

theorem iter_empty {it : IterOrder K} : (∅ : HashMap K V).iter it = [] := by
  refine List.eq_nil_iff_forall_not_mem.2 fun e he => ?_
  have h := mem_iter.1 he
  rw [lookup_empty] at h
  cases h

theorem iter_keys {it : IterOrder K} : ((m.iter it).map Prod.fst).Nodup := by
  rw [iter, List.map_filterMap]
  refine (it.nodup m.keys).filterMap fun k k' x hk hk' => ?_
  simp only [Option.mem_def, Option.map_map, Option.map_eq_some_iff] at hk hk'
  obtain ⟨v, -, rfl⟩ := hk
  obtain ⟨v', -, h⟩ := hk'
  exact h.symm

end Finmap
