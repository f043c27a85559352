import Letmein.Lib.HashMap
import Letmein.Lib.Run
import Mathlib.Data.List.Nodup

/-! # Gathering one hash map from another

The entries of a hash map are read one after the other, each into an entry of a new map, and an entry that does
not go with those before it is an error. `Gathers` says what comes out of it without naming the order of the
entries, and `foldlM_gather_iter` is the equivalence: the outcome is the same in every order. -/

variable {K V K' V' ε : Type} [DecidableEq K']

namespace Finmap

/-- Read an entry and add it to `m`, unless `check` refuses it there. -/
def gather (read : K → V → Except ε (K' × V')) (check : HashMap K' V' → K' → V' → Except ε Unit)
    (m : HashMap K' V') (e : K × V) : Except ε (HashMap K' V') := do
  let r ← read e.1 e.2
  check m r.1 r.2
  return m.insert r.1 r.2

/-- `check` refuses an entry next to one with the same key or with a value that is not `R` to its own. -/
def Checks (R : V' → V' → Prop) (check : HashMap K' V' → K' → V' → Except ε Unit) : Prop :=
  ∀ m k v, check m k v = .ok () ↔ ∀ k' v', m.lookup k' = some v' → k' ≠ k ∧ R v' v

/-- What two entries are read to goes together. -/
def Apart (read : K → V → Except ε (K' × V')) (R : V' → V' → Prop) (e e' : K × V) : Prop :=
  ∀ r r', read e.1 e.2 = .ok r → read e'.1 e'.2 = .ok r' → r.1 ≠ r'.1 ∧ R r.2 r'.2

variable {read : K → V → Except ε (K' × V')} {check : HashMap K' V' → K' → V' → Except ε Unit}
  {R : V' → V' → Prop} {m m' : HashMap K' V'} {e : K × V} {l : List (K × V)}

theorem gather_ok_iff (hcheck : Checks R check) :
    gather read check m e = .ok m' ↔ ∃ r, read e.1 e.2 = .ok r ∧
      (∀ k v, m.lookup k = some v → k ≠ r.1 ∧ R v r.2) ∧ m' = m.insert r.1 r.2 := by
  constructor
  · intro h
    obtain ⟨r, hr, h⟩ := Except.bind_ok h
    obtain ⟨_, hok, h⟩ := Except.bind_ok h
    cases h
    exact ⟨r, hr, (hcheck m r.1 r.2).1 hok, rfl⟩
  · rintro ⟨r, hr, hok, rfl⟩
    have hok' := (hcheck m r.1 r.2).2 hok
    show (read e.1 e.2 >>= _) = _
    rw [hr]
    show (check m r.1 r.2 >>= _) = _
    rw [hok']
    rfl

/-- The map that a run of `gather` leaves, and what the run has checked on its way. -/
theorem foldlM_gather_ok (hcheck : Checks R check) (h : l.foldlM (gather read check) m = .ok m') :
    (∀ e ∈ l, ∃ r, read e.1 e.2 = .ok r ∧ ∀ k v, m.lookup k = some v → k ≠ r.1 ∧ R v r.2) ∧
    l.Pairwise (Apart read R) ∧
    ∀ k v, m'.lookup k = some v ↔ m.lookup k = some v ∨ ∃ e ∈ l, read e.1 e.2 = .ok (k, v) := by
  induction l generalizing m with
  | nil =>
    cases h
    exact ⟨by simp, .nil, by simp⟩
  | cons e l ih =>
    rw [List.foldlM_cons] at h
    obtain ⟨m₁, h₁, h⟩ := Except.bind_ok h
    obtain ⟨r, hr, hm, rfl⟩ := (gather_ok_iff hcheck).1 h₁
    obtain ⟨hvalid, hpair, hlookup⟩ := ih h
    have hfresh : m.lookup r.1 = none := by
      rcases hk : m.lookup r.1 with _ | v
      · rfl
      · exact ((hm r.1 v hk).1 rfl).elim
    refine ⟨?_, List.pairwise_cons.2 ⟨?_, hpair⟩, fun k v => ?_⟩
    · intro e' he'
      rcases List.mem_cons.1 he' with rfl | he'
      · exact ⟨r, hr, hm⟩
      · obtain ⟨r', hr', hins⟩ := hvalid e' he'
        refine ⟨r', hr', fun k v hk => hins k v ?_⟩
        rw [lookup_insert_of_ne _ (hm k v hk).1]
        exact hk
    · intro e' he' r₁ r₂ h₁ h₂
      obtain ⟨r', hr', hins⟩ := hvalid e' he'
      rw [hr] at h₁
      rw [hr'] at h₂
      cases h₁
      cases h₂
      exact hins r.1 r.2 (lookup_insert _)
    · rw [hlookup, List.exists_mem_cons_iff, hr]
      by_cases hk : k = r.1
      · subst hk
        rw [lookup_insert, hfresh]
        simp [Prod.ext_iff]
      · rw [lookup_insert_of_ne _ hk]
        have : ¬ r = (k, v) := fun h => hk (by rw [h])
        simp [this]

/-- A list of entries that can all be read and go together is gathered. -/
theorem foldlM_gather_returns (hcheck : Checks R check)
    (hvalid : ∀ e ∈ l, ∃ r, read e.1 e.2 = .ok r ∧ ∀ k v, m.lookup k = some v → k ≠ r.1 ∧ R v r.2)
    (hpair : l.Pairwise (Apart read R)) : ∃ m', l.foldlM (gather read check) m = .ok m' := by
  induction l generalizing m with
  | nil => exact ⟨m, rfl⟩
  | cons e l ih =>
    obtain ⟨r, hr, hm⟩ := hvalid e List.mem_cons_self
    obtain ⟨hhead, htail⟩ := List.pairwise_cons.1 hpair
    obtain ⟨m', hm'⟩ := ih (m := m.insert r.1 r.2) (fun e' he' => by
      obtain ⟨r', hr', hold⟩ := hvalid e' (List.mem_cons_of_mem _ he')
      refine ⟨r', hr', fun k v hk => ?_⟩
      by_cases hkr : k = r.1
      · subst hkr
        rw [lookup_insert] at hk
        cases hk
        exact hhead e' he' r r' hr hr'
      · rw [lookup_insert_of_ne _ hkr] at hk
        exact hold k v hk) htail
    exact ⟨m', by
      rw [List.foldlM_cons, (gather_ok_iff hcheck).2 ⟨r, hr, hm, rfl⟩]
      exact hm'⟩

omit [DecidableEq K'] in
theorem Apart.symm (hR : ∀ v v', R v v' → R v' v) {e e' : K × V} (h : Apart read R e e') :
    Apart read R e' e :=
  fun r r' hr hr' => ⟨(h r' r hr' hr).1.symm, hR _ _ (h r' r hr' hr).2⟩

variable [DecidableEq K]

/-- `m` has what the entries of `opts` are read to, all of them without a clash. -/
structure Gathers (read : K → V → Except ε (K' × V')) (R : V' → V' → Prop) (opts : HashMap K V)
    (m : HashMap K' V') : Prop where
  valid : ∀ n x, opts.lookup n = some x → ∃ r, read n x = .ok r
  apart : ∀ n x n' x', opts.lookup n = some x → opts.lookup n' = some x' → n ≠ n' →
    Apart read R (n, x) (n', x')
  lookup : ∀ k v, m.lookup k = some v ↔ ∃ n x, opts.lookup n = some x ∧ read n x = .ok (k, v)

theorem foldlM_gather_iter_returns {opts : HashMap K V} (hcheck : Checks R check)
    (hvalid : ∀ n x, opts.lookup n = some x → ∃ r, read n x = .ok r)
    (hapart : ∀ n x n' x', opts.lookup n = some x → opts.lookup n' = some x' → n ≠ n' →
      Apart read R (n, x) (n', x'))
    (it : IterOrder K) : ∃ m, (opts.iter it).foldlM (gather read check) ∅ = .ok m := by
  have hnodup : (opts.iter it).Nodup := iter_keys.of_map
  refine foldlM_gather_returns hcheck (fun e he => ?_)
    (hnodup.pairwise_of_forall_ne fun e he e' he' hne => ?_)
  · obtain ⟨r, hr⟩ := hvalid e.1 e.2 (mem_iter.1 he)
    exact ⟨r, hr, by simp⟩
  · refine hapart e.1 e.2 e'.1 e'.2 (mem_iter.1 he) (mem_iter.1 he') fun hk => hne ?_
    have hx : some e.2 = some e'.2 := by
      rw [← mem_iter.1 he, ← mem_iter.1 he', hk]
    exact Prod.ext hk (Option.some.inj hx)

/-- Gathering succeeds with `m` exactly if `m` is what `opts` describes, in every order of its entries. -/
theorem foldlM_gather_iter {opts : HashMap K V} (hcheck : Checks R check) (hR : ∀ v v', R v v' → R v' v)
    (it : IterOrder K) :
    (opts.iter it).foldlM (gather read check) ∅ = .ok m ↔ Gathers read R opts m := by
  constructor
  · intro h
    obtain ⟨hvalid, hpair, hlookup⟩ := foldlM_gather_ok hcheck h
    refine ⟨fun n x hn => ?_, fun n x n' x' hn hn' hne => ?_, fun k v => ?_⟩
    · obtain ⟨r, hr, -⟩ := hvalid (n, x) (mem_iter.2 hn)
      exact ⟨r, hr⟩
    · have : Std.Symm (Apart read R) := ⟨fun _ _ h => h.symm hR⟩
      exact hpair.forall (mem_iter.2 hn) (mem_iter.2 hn') fun h => hne (congrArg Prod.fst h)
    · rw [hlookup]
      simp only [lookup_empty, reduceCtorEq, false_or, Prod.exists, mem_iter]
  · intro h
    have hreturns : ∃ m', (opts.iter it).foldlM (gather read check) ∅ = .ok m' :=
      foldlM_gather_iter_returns hcheck h.valid h.apart it
    obtain ⟨m', hm'⟩ := hreturns
    obtain ⟨-, -, hlookup⟩ := foldlM_gather_ok hcheck hm'
    rw [hm']
    refine congrArg Except.ok (ext_lookup fun k => Option.ext fun v => ?_)
    rw [hlookup, h.lookup]
    simp only [lookup_empty, reduceCtorEq, false_or, Prod.exists, mem_iter]

/-- From one entry comes what it is read to. -/
theorem gathers_singleton_iff {n : K} {x : V} :
    Gathers read R (singleton n x) m ↔ ∃ r, read n x = .ok r ∧ m = singleton r.1 r.2 := by
  constructor
  · intro h
    obtain ⟨r, hr⟩ := h.valid n x (lookup_singleton_eq ..)
    refine ⟨r, hr, ext_lookup fun k => Option.ext fun v => ?_⟩
    rw [h.lookup, lookup_singleton_iff]
    simp only [lookup_singleton_iff]
    constructor
    · rintro ⟨n', x', ⟨rfl, rfl⟩, hr'⟩
      rw [hr] at hr'
      cases hr'
      exact ⟨rfl, rfl⟩
    · rintro ⟨rfl, rfl⟩
      exact ⟨n, x, ⟨rfl, rfl⟩, hr⟩
  · rintro ⟨r, hr, rfl⟩
    refine ⟨?_, ?_, ?_⟩
    · intro n' x' h'
      obtain ⟨rfl, rfl⟩ := lookup_singleton_iff.1 h'
      exact ⟨r, hr⟩
    · intro n₁ x₁ n₂ x₂ h₁ h₂ hne
      rw [(lookup_singleton_iff.1 h₁).1, (lookup_singleton_iff.1 h₂).1] at hne
      exact absurd rfl hne
    · intro k v
      simp only [lookup_singleton_iff]
      constructor
      · rintro ⟨rfl, rfl⟩
        exact ⟨n, x, ⟨rfl, rfl⟩, hr⟩
      · rintro ⟨n', x', ⟨rfl, rfl⟩, hr'⟩
        rw [hr] at hr'
        cases hr'
        exact ⟨rfl, rfl⟩

omit [DecidableEq K'] in
/-- Where `opts` has the last entry of each key of `l`, and `Q` says of entries that can be read whether they
clash. -/
theorem valid_apart_iff {opts : HashMap K V} {Q : K × V → K × V → Prop}
    (hopts : ∀ n x, opts.lookup n = some x ↔ (n, x) ∈ lastEntries l)
    (hR : ∀ v v', R v v' → R v' v)
    (hQ : ∀ e e' r r', read e.1 e.2 = .ok r → read e'.1 e'.2 = .ok r' → (¬ Q e e' ↔ r.1 ≠ r'.1 ∧ R r.2 r'.2)) :
    ((∀ n x, opts.lookup n = some x → ∃ r, read n x = .ok r) ∧
      ∀ n x n' x', opts.lookup n = some x → opts.lookup n' = some x' → n ≠ n' →
        Apart read R (n, x) (n', x')) ↔
    (∀ e ∈ lastEntries l, ∃ r, read e.1 e.2 = .ok r) ∧
      (lastEntries l).Pairwise fun e e' => ¬ Q e e' := by
  have hnodup : (lastEntries l).Nodup := lastEntries_nodup.of_map
  have hsymm : Std.Symm (Apart read R) := ⟨fun _ _ h => h.symm hR⟩
  constructor
  · rintro ⟨hvalid, hapart⟩
    have hread : ∀ e ∈ lastEntries l, ∃ r, read e.1 e.2 = .ok r := fun e he =>
      hvalid e.1 e.2 ((hopts e.1 e.2).2 he)
    refine ⟨hread, hnodup.pairwise_of_forall_ne fun e he e' he' hne => ?_⟩
    obtain ⟨r, hr⟩ := hread e he
    obtain ⟨r', hr'⟩ := hread e' he'
    refine (hQ e e' r r' hr hr').2 (hapart e.1 e.2 e'.1 e'.2 ((hopts _ _).2 he) ((hopts _ _).2 he') ?_ r r' hr hr')
    exact fun hk => hne (List.inj_on_of_nodup_map lastEntries_nodup he he' hk)
  · rintro ⟨hvalid, hpair⟩
    refine ⟨fun n x hn => hvalid (n, x) ((hopts n x).1 hn), fun n x n' x' hn hn' hne => ?_⟩
    have happ : (lastEntries l).Pairwise (Apart read R) :=
      hpair.imp fun {e e'} h r r' hr hr' => (hQ e e' r r' hr hr').1 h
    exact happ.forall ((hopts n x).1 hn) ((hopts n' x').1 hn') fun h => hne (congrArg Prod.fst h)

end Finmap
