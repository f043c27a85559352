import Mathlib.Data.List.Basic

/-! # Lists as indexed tables and as texts

Case analysis for a lookup after a table grew by one row or had one row replaced, the parts of a text
that is split at the first separator, and of a list that is split at its only element of a kind, what is part of
a list with a separator, what a partial function yields on a list, and counting by groups. -/

namespace List
variable {α : Type} {l : List α} {a b : α} {i j : Nat}

theorem getElem?_concat_cases (h : (l ++ [a])[i]? = some b) :
    l[i]? = some b ∨ i = l.length ∧ a = b := by
  rw [getElem?_append] at h
  split at h
  · exact .inl h
  · have hi : i - l.length = 0 := by
      by_contra hne
      rw [getElem?_eq_none (Nat.pos_of_ne_zero hne)] at h
      cases h
    rw [hi] at h
    cases h
    exact .inr ⟨by omega, rfl⟩

theorem getElem?_set_cases (h : (l.set i a)[j]? = some b) :
    j = i ∧ b = a ∨ j ≠ i ∧ l[j]? = some b := by
  rw [getElem?_set] at h
  split at h
  · split at h <;> cases h
    exact .inl ⟨by omega, rfl⟩
  · exact .inr ⟨by omega, h⟩

theorem append_cons_inj {l m l' m' : List α} (hl : a ∉ l) (hm : a ∉ m)
    (h : l ++ a :: l' = m ++ a :: m') : l = m ∧ l' = m' := by
  induction l generalizing m with
  | nil =>
    cases m with
    | nil => exact ⟨rfl, (cons.inj h).2⟩
    | cons b m => exact absurd (cons.inj h).1 fun hab => hm (hab ▸ mem_cons_self)
  | cons c l ih =>
    cases m with
    | nil => exact absurd (cons.inj h).1 fun hab => hl (hab ▸ mem_cons_self)
    | cons b m =>
      obtain ⟨rfl, htail⟩ := cons.inj h
      obtain ⟨rfl, hrest⟩ := ih (fun ha => hl (mem_cons_of_mem _ ha)) (fun ha => hm (mem_cons_of_mem _ ha)) htail
      exact ⟨rfl, hrest⟩

/-- Where the only element that satisfies `p` is. -/
theorem append_cons_eq_of_only {p : α → Prop} {l m l' m' : List α} (hm : ∀ x ∈ m, ¬ p x) (hm' : ∀ x ∈ m', ¬ p x)
    (ha : p a) (h : l ++ a :: l' = m ++ b :: m') : l = m ∧ a = b ∧ l' = m' := by
  induction l generalizing m with
  | nil =>
    cases m with
    | nil => exact ⟨rfl, cons.inj h⟩
    | cons c m => exact absurd ha ((cons.inj h).1 ▸ hm c mem_cons_self)
  | cons c l ih =>
    cases m with
    | nil => exact absurd ha (hm' a ((cons.inj h).2 ▸ mem_append_right l mem_cons_self))
    | cons d m =>
      obtain ⟨rfl, htail⟩ := cons.inj h
      obtain ⟨rfl, hrest⟩ := ih (fun x hx => hm x (mem_cons_of_mem _ hx)) htail
      exact ⟨rfl, hrest⟩

theorem Sublist.append_cons {l m : List α} (h : l.Sublist m) (l' : List α) (a : α) :
    (a :: l).Sublist (l' ++ a :: m) :=
  (h.cons_cons a).trans (sublist_append_right l' _)

theorem Sublist.skip {l m : List α} (h : l.Sublist m) (l' : List α) (a : α) : l.Sublist (l' ++ a :: m) :=
  (h.cons a).trans (sublist_append_right l' _)

/-- A part of a list without the separator is on one side of it. -/
theorem infix_append_cons_iff {l m m' : List α} (h : a ∉ l) : l <:+: m ++ a :: m' ↔ l <:+: m ∨ l <:+: m' := by
  constructor
  · rintro ⟨s, t, heq⟩
    rw [append_assoc, append_eq_append_iff] at heq
    rcases heq with ⟨x, rfl, hx⟩ | ⟨x, rfl, hx⟩
    · -- it starts before the separator
      rcases append_eq_append_iff.mp hx with ⟨y, rfl, -⟩ | ⟨y, rfl, hy⟩
      · exact .inl ⟨s, y, by rw [append_assoc]⟩
      · cases y with
        | nil => exact .inl ⟨s, [], by simp⟩
        | cons b y =>
          obtain ⟨rfl, -⟩ := cons.inj hy
          exact absurd (mem_append_right _ mem_cons_self) h
    · cases x with
      | nil =>
        cases l with
        | nil => exact .inl nil_infix
        | cons b l =>
          obtain ⟨rfl, -⟩ := cons.inj hx
          exact absurd mem_cons_self h
      | cons b x =>
        obtain ⟨-, rfl⟩ := cons.inj hx
        exact .inr ⟨x, t, append_assoc _ _ _⟩
  · rintro (h | h)
    · exact h.trans (prefix_append _ _).isInfix
    · exact h.trans ((suffix_cons a m').trans (suffix_append _ _)).isInfix

/-- What a partial function yields, along with the elements on which it is defined. -/
theorem forall₂_filterMap {β : Type} {R : α → β → Prop} {p : α → Bool} {f : α → Option β}
    (hsome : ∀ a b, f a = some b → p a = true ∧ R a b) (hnone : ∀ a, f a = none → p a = false) :
    Forall₂ R (l.filter p) (l.filterMap f) := by
  induction l with
  | nil => exact .nil
  | cons a l ih =>
    rw [filter_cons, filterMap_cons]
    cases hf : f a with
    | none =>
      rw [if_neg (by rw [hnone a hf]; exact Bool.false_ne_true)]
      exact ih
    | some b =>
      obtain ⟨hp, hR⟩ := hsome a b hf
      rw [if_pos hp]
      exact .cons hR ih

/-- Replacing a row by one that yields the same, and by one that yields nothing. -/
theorem filterMap_set_of_eq {β : Type} {f : α → Option β} (h : l[i]? = some a) (hf : f b = f a) :
    (l.set i b).filterMap f = l.filterMap f := by
  induction l generalizing i with
  | nil => cases h
  | cons c l ih =>
    cases i with
    | zero =>
      cases h
      rw [set_cons_zero, filterMap_cons, filterMap_cons, hf]
    | succ i => rw [set_cons_succ, filterMap_cons, filterMap_cons, ih h]

theorem filterMap_set_perm {β : Type} {f : α → Option β} {x : β} (h : l[i]? = some a) (ha : f a = some x)
    (hb : f b = none) : (l.filterMap f).Perm (x :: (l.set i b).filterMap f) := by
  induction l generalizing i with
  | nil => cases h
  | cons c l ih =>
    cases i with
    | zero =>
      cases h
      rw [set_cons_zero, filterMap_cons_some ha, filterMap_cons_none hb]
    | succ i =>
      rw [set_cons_succ]
      cases hc : f c with
      | none =>
        rw [filterMap_cons_none hc, filterMap_cons_none hc]
        exact ih h
      | some y =>
        rw [filterMap_cons_some hc, filterMap_cons_some hc]
        exact ((ih h).cons y).trans (.swap x y _)

/-- A part between separators has no separator. -/
theorem not_mem_of_mem_splitOn [BEq α] [LawfulBEq α] {part : List α} (h : part ∈ l.splitOn a) : a ∉ part := by
  rw [splitOn_eq_splitOnP] at h
  intro hmem
  induction l generalizing part with
  | nil =>
    rw [splitOnP_nil, mem_singleton] at h
    rw [h] at hmem
    cases hmem
  | cons b l ih =>
    rw [splitOnP_cons_eq_if_modifyHead] at h
    split_ifs at h with hb
    · rcases mem_cons.1 h with rfl | h
      · cases hmem
      · exact ih h hmem
    · rcases hsplit : l.splitOnP (· == a) with _ | ⟨first, rest⟩
      · exact splitOnP_ne_nil _ _ hsplit
      · rw [hsplit, modifyHead_cons] at h
        rw [hsplit] at ih
        rcases mem_cons.1 h with rfl | h
        · rcases mem_cons.1 hmem with rfl | hmem
          · exact hb (beq_self_eq_true _)
          · exact ih mem_cons_self hmem
        · exact ih (mem_cons_of_mem _ h) hmem

/-- If each group of elements with one key has at most as many `p` as `q`, then so has the list. -/
theorem countP_le_of_groups {κ : Type} [DecidableEq κ] (key : α → κ) {p q : α → Bool}
    (h : ∀ k, (l.filter (key · = k)).countP p ≤ (l.filter (key · = k)).countP q) : l.countP p ≤ l.countP q := by
  induction hn : l.length using Nat.strongRecOn generalizing l with
  | _ n ih =>
    rcases l with _ | ⟨x, l⟩
    · exact Nat.le_refl _
    · -- the group of the first element, and the rest, which is shorter
      have hrest : ((x :: l).filter fun y => !decide (key y = key x)).length < n := by
        rw [← hn, List.filter_cons_of_neg (by simp), List.length_cons]
        exact Nat.lt_succ_of_le (List.length_filter_le _ _)
      have hle := ih _ hrest (fun k => ?_) rfl
      · have hp := List.countP_eq_countP_filter_add (x :: l) p fun y => decide (key y = key x)
        have hq := List.countP_eq_countP_filter_add (x :: l) q fun y => decide (key y = key x)
        have hfirst := h (key x)
        omega
      · by_cases hk : k = key x
        · have hnil : ((x :: l).filter fun y => !decide (key y = key x)).filter (key · = k) = [] := by
            rw [List.filter_filter, List.filter_eq_nil_iff]
            intro y _
            simp [hk]
          rw [hnil]
          exact Nat.le_refl _
        · have hsame : ((x :: l).filter fun y => !decide (key y = key x)).filter (key · = k) =
              (x :: l).filter (key · = k) := by
            rw [List.filter_filter]
            refine List.filter_congr fun y _ => ?_
            by_cases hy : key y = k
            · simp [hy, hk]
            · simp [hy]
          rw [hsame]
          exact h k

end List
