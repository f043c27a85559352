import Letmein.Lib.Net
import Letmein.Lib.Text

/-! # Hexadecimal numbers in text

The form `{:0wX}` of a number, with capital letters and zeros in front up to a width, and that it is read back
by `fromStrRadix`. -/

namespace Text

def hexDigit (d : Nat) : Char := (Nat.digitChar d).toUpper

/-- The number, as `{:0wX}` shows it for the width `w`. -/
def upperHex (w n : Nat) : Text :=
  let digits := (Nat.toDigits 16 n).map Char.toUpper
  List.replicate (w - digits.length) '0' ++ digits

/-- A character that `upperHex` writes. -/
def IsHexDigit (c : Char) : Prop := ∃ d < 16, c = hexDigit d

theorem toDigit_hexDigit : ∀ d < 16, toDigit 16 (hexDigit d) = some d := by decide

theorem hexDigit_not_whitespace : ∀ d < 16, isWhitespace (hexDigit d) = false := by decide

theorem hexDigit_ascii : ∀ d < 16, (hexDigit d).toNat < 128 := by decide

theorem hexDigit_ne : ∀ d < 16, hexDigit d ∉ ['+', '-', '#', '[', '=', '\n', '\r'] := by decide

variable {c : Char} {s : Text} {w n max : Nat}

theorem IsHexDigit.not_whitespace (h : IsHexDigit c) : isWhitespace c = false := by
  obtain ⟨d, hd, rfl⟩ := h
  exact hexDigit_not_whitespace d hd

theorem IsHexDigit.ascii (h : IsHexDigit c) : c.toNat < 128 := by
  obtain ⟨d, hd, rfl⟩ := h
  exact hexDigit_ascii d hd

theorem IsHexDigit.ne (h : IsHexDigit c) : c ∉ ['+', '-', '#', '[', '=', '\n', '\r'] := by
  obtain ⟨d, hd, rfl⟩ := h
  exact hexDigit_ne d hd

theorem isHexDigit_of_mem_upperHex (h : c ∈ upperHex w n) : IsHexDigit c := by
  rcases List.mem_append.1 h with h | h
  · rw [List.eq_of_mem_replicate h]
    exact ⟨0, by decide, rfl⟩
  · obtain ⟨c', hc', rfl⟩ := List.mem_map.1 h
    obtain ⟨d, hd, rfl⟩ := Nat.exists_of_mem_toDigits (by decide) hc'
    exact ⟨d, hd, rfl⟩

theorem upperHex_ne_nil : upperHex w n ≠ [] := by
  refine List.append_ne_nil_of_right_ne_nil _ fun h => ?_
  have hpos : 0 < (Nat.toDigits 16 n).length := Nat.length_toDigits_pos
  rw [List.map_eq_nil_iff.1 h] at hpos
  cases hpos

/-- The digits of a number that is not too large are read back. -/
theorem foldlM_toDigits (hn : n ≤ max) :
    ((Nat.toDigits 16 n).map Char.toUpper).foldlM (addDigit 16 max) 0 = .ok n := by
  induction n using Nat.strong_induction_on with
  | _ n ih =>
    by_cases hlt : n < 16
    · rw [Nat.toDigits_of_lt_base hlt, List.map_singleton, List.foldlM_cons]
      have hdigit : addDigit 16 max 0 (hexDigit n) = .ok n := by
        rw [addDigit, toDigit_hexDigit n hlt]
        simp [hn]
      show (addDigit 16 max 0 (hexDigit n) >>= _) = _
      rw [hdigit]
      rfl
    · have hdiv : n / 16 < n := Nat.div_lt_self (by omega) (by decide)
      rw [Nat.toDigits_of_base_le (by decide) (by omega), List.map_append, List.map_singleton, List.foldlM_append,
        ih (n / 16) hdiv (by omega)]
      have hdigit : addDigit 16 max (n / 16) (hexDigit (n % 16)) = .ok n := by
        have heq : n / 16 * 16 + n % 16 = n := by omega
        rw [addDigit, toDigit_hexDigit _ (Nat.mod_lt _ (by decide))]
        simp [heq, hn]
      show (addDigit 16 max (n / 16) (hexDigit (n % 16)) >>= _) = _
      rw [hdigit]
      rfl

theorem foldlM_zeros (k : Nat) : (List.replicate k '0').foldlM (addDigit 16 max) 0 = .ok 0 := by
  induction k with
  | zero => rfl
  | succ k ih =>
    rw [List.replicate_succ, List.foldlM_cons]
    have hzero : addDigit 16 max 0 '0' = .ok 0 := by
      have htoDigit : toDigit 16 '0' = some 0 := by decide
      simp [addDigit, htoDigit]
    rw [hzero]
    exact ih

/-- What `{:0wX}` shows is read back. -/
theorem fromStrRadix_upperHex (hn : n ≤ max) : fromStrRadix 16 max (upperHex w n) = .ok n := by
  have hfold : (upperHex w n).foldlM (addDigit 16 max) 0 = .ok n := by
    rw [upperHex, List.foldlM_append, foldlM_zeros]
    exact foldlM_toDigits hn
  rcases htext : upperHex w n with _ | ⟨c, rest⟩
  · exact absurd htext upperHex_ne_nil
  · have hc : IsHexDigit c := isHexDigit_of_mem_upperHex (w := w) (n := n) (by rw [htext]; exact List.mem_cons_self)
    have hplus : c ≠ '+' := fun h => hc.ne (by simp [h])
    have hminus : c ≠ '-' := fun h => hc.ne (by simp [h])
    rw [htext] at hfold
    unfold fromStrRadix
    split
    · rename_i h
      cases h
    · rename_i h
      exact absurd (List.cons.inj h).1 hplus
    · rename_i h
      exact absurd (List.cons.inj h).1 hminus
    · rename_i digits h
      exact absurd (List.cons.inj h).1 hplus
    · exact hfold

end Text
