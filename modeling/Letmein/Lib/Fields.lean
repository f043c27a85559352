import Letmein.Lib.Net
import Letmein.Lib.Run
import Letmein.Lib.Text

/-! # Fields and decimal numbers in text

The fields of a line between separators, as `str::splitn` makes them, and decimal numbers: what is shown of a number
is read back by `fromStrRadix`. -/

namespace Text

variable {c : Char} {s part rest : Text} {n max : Nat}

/-- At most `n` parts; the last one is what is left, with its separators. -/
def splitn (c : Char) : Nat → Text → List Text
  | 0, _ => []
  | 1, s => [s]
  | n + 2, s =>
    match splitOnce c s with
    | some (part, rest) => part :: splitn c (n + 1) rest
    | none => [s]

theorem splitn_of_notMem (h : c ∉ s) : splitn c (n + 1) s = [s] := by
  cases n with
  | zero => rfl
  | succ n => rw [splitn, splitOnce_eq_none_iff.2 h]

theorem splitn_append (h : c ∉ part) : splitn c (n + 2) (part ++ c :: rest) = part :: splitn c (n + 1) rest := by
  rw [splitn, splitOnce_append h]

/-- The first part is what comes before the first separator. -/
theorem splitn_cases (c : Char) (n : Nat) (s : Text) :
    c ∉ s ∧ splitn c (n + 2) s = [s] ∨
      ∃ part rest, c ∉ part ∧ s = part ++ c :: rest ∧ splitn c (n + 2) s = part :: splitn c (n + 1) rest := by
  by_cases h : c ∈ s
  · obtain ⟨⟨part, rest⟩, hs⟩ := Option.ne_none_iff_exists'.1 (mt splitOnce_eq_none_iff.1 (not_not.2 h))
    obtain ⟨rfl, hpart⟩ := splitOnce_eq_some_iff.1 hs
    exact .inr ⟨part, rest, hpart, rfl, splitn_append hpart⟩
  · exact .inl ⟨h, splitn_of_notMem h⟩

/-! ## Decimal numbers -/

theorem toDigit_digitChar : ∀ d < 10, toDigit 10 (Nat.digitChar d) = some d := by decide

theorem digitChar_not_whitespace : ∀ d < 10, isWhitespace (Nat.digitChar d) = false := by decide

theorem foldlM_decimal (hn : n ≤ max) : (Nat.toDigits 10 n).foldlM (addDigit 10 max) 0 = .ok n := by
  induction n using Nat.strong_induction_on with
  | _ n ih =>
    by_cases hlt : n < 10
    · have hdigit : addDigit 10 max 0 (Nat.digitChar n) = .ok n := by
        rw [addDigit, toDigit_digitChar n hlt]
        simp [hn]
      rw [Nat.toDigits_of_lt_base hlt, List.foldlM_cons, hdigit]
      rfl
    · have hdiv : n / 10 < n := Nat.div_lt_self (by omega) (by decide)
      have hdigit : addDigit 10 max (n / 10) (Nat.digitChar (n % 10)) = .ok n := by
        have heq : n / 10 * 10 + n % 10 = n := by omega
        rw [addDigit, toDigit_digitChar _ (Nat.mod_lt _ (by decide))]
        simp [heq, hn]
      rw [Nat.toDigits_of_base_le (by decide) (by omega), List.foldlM_append, ih (n / 10) hdiv (by omega)]
      show (addDigit 10 max (n / 10) (Nat.digitChar (n % 10)) >>= _) = _
      rw [hdigit]
      rfl

/-- A decimal number starts with a digit and not with a sign. -/
theorem decimal_cons (n : Nat) : ∃ d rest, d < 10 ∧ Nat.toDigits 10 n = Nat.digitChar d :: rest := by
  rcases htext : Nat.toDigits 10 n with _ | ⟨c, rest⟩
  · have hpos : 0 < (Nat.toDigits 10 n).length := Nat.length_toDigits_pos
    rw [htext] at hpos
    cases hpos
  · have hc : c ∈ Nat.toDigits 10 n := by rw [htext]; exact List.mem_cons_self
    obtain ⟨d, hd, rfl⟩ := Nat.exists_of_mem_toDigits (by decide) hc
    exact ⟨d, rest, hd, rfl⟩

theorem digitChar_ne_sign : ∀ d < 10, Nat.digitChar d ≠ '+' ∧ Nat.digitChar d ≠ '-' := by decide

/-- What is shown of a number that is not too large is read back. -/
theorem fromStrRadix_decimal (hn : n ≤ max) : fromStrRadix 10 max (Nat.toDigits 10 n) = .ok n := by
  have hfold := foldlM_decimal hn
  obtain ⟨d, rest, hd, htext⟩ := decimal_cons n
  obtain ⟨hplus, hminus⟩ := digitChar_ne_sign d hd
  rw [htext] at hfold ⊢
  unfold fromStrRadix
  split
  · rename_i h
    cases h
  · rename_i h
    exact absurd (List.cons.inj h).1 hplus
  · rename_i h
    exact absurd (List.cons.inj h).1 hminus
  · rename_i h
    exact absurd (List.cons.inj h).1 hplus
  · exact hfold

/-- A number that is read is not too large. -/
theorem fromStrRadix_le {radix : Nat} (h : fromStrRadix radix max s = .ok n) : n ≤ max := by
  have hfold : ∀ {digits : Text} {m : Nat}, m ≤ max → digits.foldlM (addDigit radix max) m = .ok n → n ≤ max := by
    intro digits
    induction digits with
    | nil =>
      intro m hm h
      cases h
      exact hm
    | cons c digits ih =>
      intro m hm h
      rw [List.foldlM_cons] at h
      obtain ⟨m', hdigit, h⟩ := Except.bind_ok h
      unfold addDigit at hdigit
      split at hdigit
      · cases hdigit
      · split at hdigit
        · cases hdigit
          exact ih (by assumption) h
        · cases hdigit
  unfold fromStrRadix at h
  split at h
  · cases h
  · cases h
  · cases h
  · exact hfold (Nat.zero_le max) h
  · exact hfold (Nat.zero_le max) h

theorem trim_decimal (n : Nat) (s : Text) (hs : ∀ c ∈ s, isWhitespace c = true) :
    trim (Nat.toDigits 10 n ++ s) = Nat.toDigits 10 n := by
  have hdigits : ∀ c ∈ Nat.toDigits 10 n, isWhitespace c = false := by
    intro c hc
    obtain ⟨d, hd, rfl⟩ := Nat.exists_of_mem_toDigits (by decide) hc
    exact digitChar_not_whitespace d hd
  obtain ⟨d, rest, hd, htext⟩ := decimal_cons n
  have hstart : trimStart (Nat.toDigits 10 n ++ s) = Nat.toDigits 10 n ++ s := by
    rw [htext]
    exact trimStart_cons (digitChar_not_whitespace d hd)
  have hend : ∀ s : Text, (∀ c ∈ s, isWhitespace c = true) →
      trimEnd (Nat.toDigits 10 n ++ s) = Nat.toDigits 10 n := by
    intro s hs
    induction s using List.reverseRecOn with
    | nil =>
      rw [List.append_nil]
      exact trimEnd_eq_self hdigits
    | append_singleton s c ih =>
      rw [trimEnd_eq, ← List.append_assoc, List.rdropWhile_concat_pos _ _ _ (hs c (by simp)), ← trimEnd_eq]
      exact ih fun c hc => hs c (by simp [hc])
  rw [trim, hstart, hend s hs]

end Text
