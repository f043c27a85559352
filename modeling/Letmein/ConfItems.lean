import Letmein.ConfSpec
import Letmein.Lib.List
import Mathlib.Data.List.Perm.Basic

/-!
# The items of a value

The value of a resource or of the control port is a list of items between slashes. An item has a key before its
first colon, or it is a list of entries between commas. What is said here of a list of items does not depend on
their order.
-/

namespace Letmein
open Text

def items (value : Text) : List Text := value.splitOn '/'

/-- The entries between commas, without white space around them. -/
def entries (s : Text) : List Text := (s.splitOn ',').map trim

/-- The text before the first colon, without white space around it. -/
def itemKey (item : Text) : Option Text := (splitOnce ':' item).map fun p => trim p.1

/-- The text after the first colon of an item that has this key. -/
def valueOf (key item : Text) : Option Text :=
  (splitOnce ':' item).bind fun p => if trim p.1 = key then some p.2 else none

/-- The values of the items that have this key. -/
def keyed (key : Text) (its : List Text) : List Text := its.filterMap (valueOf key)

section
variable (lower : Text → Text)

/-- The entry is `tcp` or `udp`, with `lower` for the lower case of a text. -/
def IsProtocol (v : Text) : Prop := lower v = "tcp".toList ∨ lower v = "udp".toList

/-- An item without a key has this protocol. -/
def Lists (protocol : Text) (its : List Text) : Prop :=
  ∃ item ∈ its, ':' ∉ item ∧ ∃ v ∈ entries item, lower v = protocol

instance (protocol : Text) (its : List Text) : Decidable (Lists lower protocol its) :=
  inferInstanceAs (Decidable (∃ item ∈ its, _))

end

variable {key item value : Text} {its its' : List Text}

/-! ## The texts -/

/-- The items of a value in another order are the items of a value. -/
theorem exists_items_eq (h : its.Perm (items value)) : ∃ value', items value' = its := by
  refine ⟨List.intercalate ['/'] its, List.splitOn_intercalate '/' (fun item hitem => ?_) ?_⟩
  · exact List.not_mem_of_mem_splitOn (h.mem_iff.1 hitem)
  · rintro rfl
    exact List.splitOn_ne_nil _ _ h.symm.eq_nil

theorem entries_of_not_mem {s : Text} (h : ',' ∉ s) : entries s = [trim s] := by
  rw [entries, List.splitOn_eq_singleton h, List.map_singleton]

theorem valueOf_eq_none (h : ':' ∉ item) : valueOf key item = none := by
  rw [valueOf, splitOnce_eq_none_iff.2 h]
  rfl

theorem valueOf_eq_some_iff :
    valueOf key item = some value ↔ ∃ k, splitOnce ':' item = some (k, value) ∧ trim k = key := by
  rw [valueOf]
  rcases splitOnce ':' item with _ | ⟨k, v⟩
  · simp
  · by_cases hk : trim k = key
    · simp [hk]
    · simp only [Option.bind_some, if_neg hk, Option.some.injEq, Prod.mk.injEq]
      refine ⟨nofun, ?_⟩
      rintro ⟨k', ⟨rfl, -⟩, hk'⟩
      exact absurd hk' hk

theorem itemKey_eq_some_iff : itemKey item = some key ↔ ∃ value, valueOf key item = some value := by
  simp only [valueOf_eq_some_iff, itemKey, Option.map_eq_some_iff, Prod.exists]
  rw [exists_comm]

theorem colon_mem_of_valueOf (h : valueOf key item = some value) : ':' ∈ item := by
  by_contra hplain
  rw [valueOf_eq_none hplain] at h
  cases h

/-- An item has one key. -/
theorem valueOf_eq_none_of_ne {key' : Text} (h : valueOf key item = some value) (hne : key ≠ key') :
    valueOf key' item = none := by
  obtain ⟨k, hsplit, rfl⟩ := valueOf_eq_some_iff.1 h
  rcases h' : valueOf key' item with _ | value'
  · rfl
  · obtain ⟨k', hsplit', hk'⟩ := valueOf_eq_some_iff.1 h'
    rw [hsplit] at hsplit'
    cases hsplit'
    exact absurd hk' hne

theorem entries_ne_nil (s : Text) : entries s ≠ [] := by
  rw [entries, Ne, List.map_eq_nil_iff]
  exact List.splitOn_ne_nil _ _

theorem parseUInt_trim (max : Nat) (s : Text) : parseUInt max (trim s) = parseUInt max s := by
  rw [parseUInt, parseUInt, trim_trim]

@[simp] theorem parseU16_trim (s : Text) : parseU16 (trim s) = parseU16 s := by
  rw [parseU16, parseU16, parseUInt_trim]

@[simp] theorem userId_fromStr_trim (s : Text) : UserId.fromStr (trim s) = UserId.fromStr s := by
  rw [UserId.fromStr, UserId.fromStr, parseId, parseId, trim_trim]

/-- An item without a colon is a list of entries. -/
theorem mapItem_plain (h : ':' ∉ item) : mapItem item = .ok (.values (entries item)) := by
  rw [mapItem, splitOnce_eq_none_iff.2 h]
  rfl

theorem mapItem_keyed (h : splitOnce ':' item = some (key, value)) (hkey : trim key ≠ []) :
    mapItem item = .ok (if ',' ∈ value then .keyValues (trim key) (entries value)
      else .keyValue (trim key) (trim value)) := by
  have hne : key ≠ [] := by
    rintro rfl
    exact hkey rfl
  rw [mapItem, h]
  simp only [List.isEmpty_iff, if_neg hne, if_neg hkey, entries]
  split_ifs <;> rfl

theorem mapItem_without_key (h : splitOnce ':' item = some (key, value)) (hkey : trim key = []) :
    mapItem item = .error "Invalid item key." := by
  rw [mapItem, h]
  simp only [List.isEmpty_iff, hkey, if_true, ite_self]

/-! ## One more item -/

theorem keyed_concat : keyed key (its ++ [item]) = keyed key its ++ (valueOf key item).toList := by
  rw [keyed, List.filterMap_append, ← keyed]
  rcases h : valueOf key item with _ | value <;> simp [h]

theorem lists_concat {lower : Text → Text} {protocol : Text} :
    Lists lower protocol (its ++ [item]) ↔ Lists lower protocol its ∨ Lists lower protocol [item] := by
  simp only [Lists, List.mem_append, or_and_right, exists_or]

theorem lists_singleton {lower : Text → Text} {protocol : Text} (h : ':' ∉ item) :
    Lists lower protocol [item] ↔ ∃ v ∈ entries item, lower v = protocol := by
  simp [Lists, h]

theorem not_lists_of_valueOf {lower : Text → Text} {protocol : Text} (h : valueOf key item = some value) :
    ¬ Lists lower protocol [item] := by
  rintro ⟨item', hmem, hplain, -⟩
  rw [List.mem_singleton.1 hmem] at hplain
  exact hplain (colon_mem_of_valueOf h)

/-! ## Another order -/

theorem Lists.perm {lower : Text → Text} {protocol : Text} (h : its.Perm its') :
    Lists lower protocol its ↔ Lists lower protocol its' := by
  simp only [Lists, h.mem_iff]

/-- A key that is there once at most has the same value in every order. -/
theorem keyed_perm (h : its.Perm its') (hone : (keyed key its).length ≤ 1) : keyed key its' = keyed key its := by
  have hperm : (keyed key its').Perm (keyed key its) := h.symm.filterMap _
  rcases hk : keyed key its with _ | ⟨value, _ | ⟨_, _⟩⟩
  · rw [hk] at hperm
    exact hperm.eq_nil
  · rw [hk] at hperm
    exact List.perm_singleton.1 hperm
  · rw [hk] at hone
    simp at hone

theorem keyed_perm_singleton (h : its.Perm its') (hone : keyed key its = [value]) : keyed key its' = [value] := by
  rw [keyed_perm h (by rw [hone, List.length_singleton]), hone]

/-! ## Protocols -/

/-- A function that sets the flag of an entry, where `set tcp udp` adds these flags to what is set. -/
def FlagsOf {σ : Type} (lower : Text → Text) (set : Bool → Bool → σ → σ) (flag : σ → Text → Except String σ) : Prop :=
  ∀ s v s', flag s v = .ok s' ↔ IsProtocol lower v ∧
    s' = set (lower v = "tcp".toList) (lower v = "udp".toList) s

theorem flagsOf_ite {σ : Type} {lower : Text → Text} {set : Bool → Bool → σ → σ} {unknown : Text → String} :
    FlagsOf lower set fun s v => if lower v = "tcp".toList then .ok (set true false s)
      else if lower v = "udp".toList then .ok (set false true s) else .error (unknown v) := by
  intro s v s'
  have hne : "tcp".toList ≠ "udp".toList := by decide
  by_cases htcp : lower v = "tcp".toList
  · simp only [IsProtocol, htcp, hne, if_true, Except.ok.injEq]
    simp [eq_comm]
  · by_cases hudp : lower v = "udp".toList
    · simp only [IsProtocol, hudp, hne.symm, if_true, if_false, Except.ok.injEq]
      simp [eq_comm]
    · simp only [IsProtocol, htcp, hudp, if_false, or_self, false_and, reduceCtorEq]

/-- A loop that sets a flag for each entry sets those of all entries. -/
theorem FlagsOf.foldlM_ok_iff {σ : Type} {lower : Text → Text} {flag : σ → Text → Except String σ}
    {set : Bool → Bool → σ → σ} (hflag : FlagsOf lower set flag) (hnone : ∀ s, set false false s = s)
    (hset : ∀ t u t' u' s, set t u (set t' u' s) = set (t' || t) (u' || u) s) {vs : List Text} {s s' : σ} :
    vs.foldlM flag s = .ok s' ↔ (∀ v ∈ vs, IsProtocol lower v) ∧
      s' = set (∃ v ∈ vs, lower v = "tcp".toList) (∃ v ∈ vs, lower v = "udp".toList) s := by
  induction vs generalizing s with
  | nil => simp [hnone, pure, Except.pure, eq_comm]
  | cons v vs ih =>
    rw [List.foldlM_cons, List.forall_mem_cons]
    constructor
    · intro h
      obtain ⟨s₁, h₁, h⟩ := Except.bind_ok h
      obtain ⟨hv, rfl⟩ := (hflag s v s₁).1 h₁
      obtain ⟨hvs, rfl⟩ := ih.1 h
      refine ⟨⟨hv, hvs⟩, ?_⟩
      rw [hset]
      simp
    · rintro ⟨⟨hv, hvs⟩, rfl⟩
      rw [(hflag s v _).2 ⟨hv, rfl⟩]
      refine ih.2 ⟨hvs, ?_⟩
      rw [hset]
      simp

end Letmein
