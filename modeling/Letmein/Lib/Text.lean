import Mathlib.Data.List.DropRight
import Mathlib.Data.List.TakeWhile

/-! # Texts

The methods of Rust's `str` that a parser of configuration texts needs, on lists of characters:
trimming white space, lines, the parts around a separator, and numbers in a radix. -/

abbrev Text := List Char

namespace Text

/-- `char::is_whitespace`, the Unicode property `White_Space`. -/
def isWhitespace (c : Char) : Bool :=
  let n := c.toNat
  9 ≤ n ∧ n ≤ 13 ∨ n = 0x20 ∨ n = 0x85 ∨ n = 0xA0 ∨ n = 0x1680 ∨ 0x2000 ≤ n ∧ n ≤ 0x200A ∨
    n = 0x2028 ∨ n = 0x2029 ∨ n = 0x202F ∨ n = 0x205F ∨ n = 0x3000

def trimStart (s : Text) : Text := s.dropWhile isWhitespace

def trimEnd (s : Text) : Text := (s.reverse.dropWhile isWhitespace).reverse

def trim (s : Text) : Text := trimEnd (trimStart s)

/-- The text before and after the first `c`. -/
def splitOnce (c : Char) : Text → Option (Text × Text)
  | [] => none
  | d :: s => if d = c then some ([], s) else (splitOnce c s).map fun p => (d :: p.1, p.2)

/-- The lines of the text after a part of the first line, which is given backwards. A line feed ends a
line, with a carriage return before it; what follows the last line feed is a line unless it is empty. -/
def linesFrom : Text → Text → List Text
  | cur, [] => if cur = [] then [] else [cur.reverse]
  | cur, c :: s =>
    if c = '\n' then
      (match cur with
        | '\r' :: line => line.reverse
        | line => line.reverse) :: linesFrom [] s
    else linesFrom (c :: cur) s

def lines (s : Text) : List Text := linesFrom [] s

/-- `char::to_digit` -/
def toDigit (radix : Nat) (c : Char) : Option Nat :=
  let d :=
    if '0' ≤ c ∧ c ≤ '9' then c.toNat - '0'.toNat
    else if 'a' ≤ c ∧ c ≤ 'z' then c.toNat - 'a'.toNat + 10
    else if 'A' ≤ c ∧ c ≤ 'Z' then c.toNat - 'A'.toNat + 10
    else radix
  if d < radix then some d else none

def addDigit (radix max n : Nat) (c : Char) : Except String Nat :=
  match toDigit radix c with
  | none => .error "invalid digit found in string"
  | some d => if n * radix + d ≤ max then .ok (n * radix + d) else .error "number too large to fit in target type"

/-- `from_str_radix` of an unsigned type with the largest value `max`. A plus sign may come first. -/
def fromStrRadix (radix max : Nat) (s : Text) : Except String Nat :=
  match s with
  | [] => .error "cannot parse integer from empty string"
  | ['+'] => .error "invalid digit found in string"
  | ['-'] => .error "invalid digit found in string"
  | '+' :: digits => digits.foldlM (addDigit radix max) 0
  | digits => digits.foldlM (addDigit radix max) 0

def isAscii (s : Text) : Bool := s.all fun c => c.toNat < 128

/-! ## White space at the ends -/

variable {s before after : Text} {c : Char}

theorem trimEnd_eq (s : Text) : trimEnd s = s.rdropWhile isWhitespace := rfl

theorem trimStart_cons (h : isWhitespace c = false) : trimStart (c :: s) = c :: s := by
  rw [trimStart, List.dropWhile_cons_of_neg (by simp [h])]

theorem trimEnd_concat (h : isWhitespace c = false) : trimEnd (s ++ [c]) = s ++ [c] := by
  rw [trimEnd_eq, List.rdropWhile_concat_neg _ _ _ (by simp [h])]

theorem trimStart_head (h : trimStart s = c :: after) : isWhitespace c = false := by
  have hnot := List.head?_dropWhile_not isWhitespace s
  rw [← trimStart, h] at hnot
  simpa using hnot

theorem trimEnd_trimEnd (s : Text) : trimEnd (trimEnd s) = trimEnd s := by
  rw [trimEnd_eq, trimEnd_eq, List.rdropWhile_idempotent]

/-- A text that starts with something else than white space keeps its start. -/
theorem trimEnd_cons (h : isWhitespace c = false) : ∃ after', trimEnd (c :: s) = c :: after' := by
  have hne : trimEnd (c :: s) ≠ [] := by
    rw [trimEnd_eq, Ne, List.rdropWhile_eq_nil_iff]
    intro hall
    rw [hall c List.mem_cons_self] at h
    cases h
  obtain ⟨t, ht⟩ := List.rdropWhile_prefix isWhitespace (c :: s)
  rw [← trimEnd_eq] at ht
  rcases htrim : trimEnd (c :: s) with _ | ⟨d, after'⟩
  · exact absurd htrim hne
  · rw [htrim] at ht
    cases ht
    exact ⟨after', rfl⟩

theorem trimStart_trim (s : Text) : trimStart (trim s) = trim s := by
  rcases hs : trimStart s with _ | ⟨c, after⟩
  · rw [trim, hs]
    rfl
  · obtain ⟨after', hend⟩ := trimEnd_cons (s := after) (trimStart_head hs)
    rw [trim, hs, hend, trimStart_cons (trimStart_head hs)]

@[simp] theorem trim_trim (s : Text) : trim (trim s) = trim s := by
  rw [trim, trimStart_trim, trim, trimEnd_trimEnd]

theorem trim_cons (h : isWhitespace c = true) : trim (c :: s) = trim s := by
  rw [trim, trimStart, List.dropWhile_cons_of_pos h]
  rfl

theorem trimEnd_eq_self (h : ∀ c ∈ s, isWhitespace c = false) : trimEnd s = s := by
  rcases List.eq_nil_or_concat s with rfl | ⟨init, c, rfl⟩
  · rfl
  · rw [List.concat_eq_append, trimEnd_concat (h c (by simp))]

/-- Text without white space is trimmed to itself. -/
theorem trim_eq_self (h : ∀ c ∈ s, isWhitespace c = false) : trim s = s := by
  have hstart : trimStart s = s := by
    rcases s with _ | ⟨c, s⟩
    · rfl
    · exact trimStart_cons (h c List.mem_cons_self)
  rw [trim, hstart, trimEnd_eq_self h]

/-! ## Lines -/

theorem linesFrom_append (hnl : '\n' ∉ before) (cur : Text) :
    linesFrom cur (before ++ s) = linesFrom (before.reverse ++ cur) s := by
  induction before generalizing cur with
  | nil => rfl
  | cons c before ih =>
    rw [List.mem_cons, not_or] at hnl
    have hstep : linesFrom cur (c :: (before ++ s)) = linesFrom (c :: cur) (before ++ s) := by
      conv_lhs => unfold linesFrom
      exact if_neg (Ne.symm hnl.1)
    rw [List.cons_append, hstep, ih hnl.2, List.reverse_cons, List.append_assoc]
    rfl

/-- A line up to its line feed. -/
theorem lines_cons (hnl : '\n' ∉ before) (hcr : before.getLast? ≠ some '\r') :
    lines (before ++ '\n' :: s) = before :: lines s := by
  rw [lines, linesFrom_append hnl, List.append_nil]
  conv_lhs => unfold linesFrom
  rw [if_pos rfl]
  refine congrArg (· :: linesFrom [] s) ?_
  split
  · rename_i line hline
    rw [← List.head?_reverse, hline] at hcr
    exact absurd rfl hcr
  · exact List.reverse_reverse before

/-! ## The first separator -/

theorem splitOnce_eq_none_iff : splitOnce c s = none ↔ c ∉ s := by
  induction s with
  | nil => simp [splitOnce]
  | cons d s ih =>
    rw [splitOnce]
    split_ifs with h
    · simp [h]
    · simp [ih, eq_comm (a := c), h]

theorem splitOnce_append (h : c ∉ before) : splitOnce c (before ++ c :: after) = some (before, after) := by
  induction before with
  | nil => simp [splitOnce]
  | cons d before ih =>
    rw [List.mem_cons, not_or] at h
    rw [List.cons_append, splitOnce, if_neg (Ne.symm h.1), ih h.2]
    rfl

theorem splitOnce_eq_some_iff :
    splitOnce c s = some (before, after) ↔ s = before ++ c :: after ∧ c ∉ before := by
  constructor
  · intro h
    induction s generalizing before with
    | nil => cases h
    | cons d s ih =>
      rw [splitOnce] at h
      split_ifs at h with hd
      · cases h
        exact ⟨by rw [hd, List.nil_append], List.not_mem_nil⟩
      · obtain ⟨p, hp, he⟩ := Option.map_eq_some_iff.1 h
        cases he
        obtain ⟨hs, hbefore⟩ := ih hp
        refine ⟨by rw [hs, List.cons_append], ?_⟩
        rw [List.mem_cons, not_or]
        exact ⟨Ne.symm hd, hbefore⟩
  · rintro ⟨rfl, h⟩
    exact splitOnce_append h

end Text
