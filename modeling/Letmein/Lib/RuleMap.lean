import Letmein.Lib.HashMap

/-! # Calls with rules

A rule map says of each call whether it is permitted: always if the call has no rules, if one of its rules
matches if there are some, and never if the call is not in the map. A map is built by additions, of a call or of
a call with a rule, and `permits_build_iff` says what it permits without naming their order. An addition of a call
alone has no effect as soon as the call has a rule. -/

abbrev RuleMap (S R : Type) := HashMap S (List R)

/-- What is added to a map: a call, or a call with a rule. -/
inductive Addition (S R : Type) where
  | call (s : S)
  | rule (s : S) (r : R)
deriving DecidableEq

namespace RuleMap
variable {S R C : Type} [DecidableEq S]

def addCall (map : RuleMap S R) (s : S) : RuleMap S R := map.insert s ((map.lookup s).getD [])

def addRule (map : RuleMap S R) (s : S) (r : R) : RuleMap S R := map.insert s ((map.lookup s).getD [] ++ [r])

def add (map : RuleMap S R) : Addition S R → RuleMap S R
  | .call s => map.addCall s
  | .rule s r => map.addRule s r

/-- The call `s` is permitted, with the arguments `c` that the rules are about. -/
def permits (holds : R → C → Bool) (map : RuleMap S R) (s : S) (c : C) : Bool :=
  (map.lookup s).any fun rules => rules.isEmpty || rules.any (holds · c)

def build (additions : List (Addition S R)) : RuleMap S R := additions.foldl add ∅

variable {holds : R → C → Bool} {map : RuleMap S R} {a : Addition S R} {additions : List (Addition S R)} {s : S} {r : R}
  {c : C}

/-! ## One addition -/

theorem mem_rules_add : r ∈ ((map.add a).lookup s).getD [] ↔ r ∈ (map.lookup s).getD [] ∨ a = .rule s r := by
  rcases a with s' | ⟨s', r'⟩
  · by_cases hs : s = s'
    · subst hs
      simp [add, addCall]
    · simp [add, addCall, Finmap.lookup_insert_of_ne _ hs]
  · by_cases hs : s = s'
    · subst hs
      simp [add, addRule, eq_comm]
    · have hs' : ¬ s' = s := fun h => hs h.symm
      simp [add, addRule, Finmap.lookup_insert_of_ne _ hs, hs']

theorem isSome_add : ((map.add a).lookup s).isSome ↔ (map.lookup s).isSome ∨ a = .call s ∨ ∃ r, a = .rule s r := by
  rcases a with s' | ⟨s', r'⟩
  · by_cases hs : s = s'
    · subst hs
      simp [add, addCall]
    · have hs' : ¬ s' = s := fun h => hs h.symm
      simp [add, addCall, Finmap.lookup_insert_of_ne _ hs, hs']
  · by_cases hs : s = s'
    · subst hs
      simp [add, addRule]
    · have hs' : ¬ s' = s := fun h => hs h.symm
      simp [add, addRule, Finmap.lookup_insert_of_ne _ hs, hs']

/-! ## All additions -/

theorem mem_rules_build : r ∈ ((build additions).lookup s).getD [] ↔ .rule s r ∈ additions := by
  induction additions using List.reverseRecOn with
  | nil => simp [build]
  | append_singleton additions a ih =>
    rw [build, List.foldl_append, List.foldl_cons, List.foldl_nil, mem_rules_add, ← build, ih, List.mem_append,
      List.mem_singleton, eq_comm]

theorem isSome_build :
    ((build additions).lookup s).isSome ↔ .call s ∈ additions ∨ ∃ r, .rule s r ∈ additions := by
  induction additions using List.reverseRecOn with
  | nil => simp [build]
  | append_singleton additions a ih =>
    rw [build, List.foldl_append, List.foldl_cons, List.foldl_nil, isSome_add, ← build, ih]
    simp only [List.mem_append, List.mem_singleton, exists_or, eq_comm (a := a)]
    exact or_or_or_comm

/-- A call is permitted if a rule that was added for it matches, or if it was added and no rule was added for it. -/
theorem permits_build_iff : permits holds (build additions) s c ↔
    (∃ r, .rule s r ∈ additions ∧ holds r c) ∨ .call s ∈ additions ∧ ∀ r, .rule s r ∉ additions := by
  have hrules : ∀ r, r ∈ ((build additions).lookup s).getD [] ↔ .rule s r ∈ additions := fun _ => mem_rules_build
  have hsome : ((build additions).lookup s).isSome ↔ .call s ∈ additions ∨ ∃ r, .rule s r ∈ additions := isSome_build
  rw [permits]
  rcases hlookup : (build additions).lookup s with _ | rules
  · rw [hlookup] at hrules hsome
    have hcall : .call s ∉ additions := fun h => (by cases hsome.2 (.inl h))
    have hrule : ∀ r, .rule s r ∉ additions := fun r h => (by cases hsome.2 (.inr ⟨r, h⟩))
    simp [hcall, hrule]
  · rw [hlookup] at hrules hsome
    rw [Option.getD_some] at hrules
    rw [Option.any_some, Bool.or_eq_true, List.any_eq_true, List.isEmpty_iff, or_comm]
    refine or_congr ?_ ?_
    · simp only [hrules]
    · rw [List.eq_nil_iff_forall_not_mem]
      simp only [hrules]
      constructor
      · intro hnone
        refine ⟨(hsome.1 rfl).resolve_right ?_, hnone⟩
        rintro ⟨r, hr⟩
        exact hnone r hr
      · exact fun h => h.2

end RuleMap
