import Letmein.Lib.Text
import Mathlib.Algebra.Group.Nat.Defs

/-! # Texts as bytes

A string is the UTF-8 encoding of a text, and its positions count bytes. `slice` is the part between two positions,
defined only inside the string and where characters start. The position of an ASCII character that is searched
for is the length of the text before it, so the parts around it can be sliced (`slice_append`). -/

namespace Text

def encode (s : Text) : List UInt8 := s.flatMap String.utf8EncodeChar

/-- `str::from_utf8` -/
def decode (bytes : List UInt8) : Option Text := bytes.toByteArray.utf8Decode?.map Array.toList

/-- `str::len` -/
def len (s : Text) : Nat := (encode s).length

/-- A byte that does not start a character. -/
def isContinuation (b : UInt8) : Bool := 0x80 ≤ b && b < 0xC0

/-- `str::is_char_boundary` -/
def isCharBoundary (s : Text) (i : Nat) : Bool :=
  i == 0 || i == len s || ((encode s)[i]?.any fun b => !isContinuation b)

/-- The part `s[i..j]`, if there is one. -/
def slice (s : Text) (i j : Nat) : Option Text :=
  if i ≤ j ∧ isCharBoundary s i ∧ isCharBoundary s j then decode (((encode s).take j).drop i) else none

/-- `str::find` of an ASCII character, which is one byte. -/
def find (c : Char) (s : Text) : Option Nat := (encode s).findIdx? (· == c.toUInt8)

variable {a b s before after : Text} {c d : Char}

@[simp] theorem encode_append : encode (a ++ b) = encode a ++ encode b := List.flatMap_append

@[simp] theorem len_nil : len [] = 0 := rfl

@[simp] theorem len_append : len (a ++ b) = len a + len b := by
  rw [len, encode_append, List.length_append, len, len]

theorem decode_encode (s : Text) : decode (encode s) = some s := by
  have h : (encode s).toByteArray = s.utf8Encode := rfl
  rw [decode, h, List.utf8Decode?_utf8Encode]
  rfl

/-- What is decoded is what was encoded. -/
theorem decode_eq_some_iff {bytes : List UInt8} : decode bytes = some s ↔ encode s = bytes := by
  constructor
  · intro h
    obtain ⟨chars, hchars, rfl⟩ := Option.map_eq_some_iff.1 h
    have hsome : bytes.toByteArray.utf8Decode?.isSome := by rw [hchars]; rfl
    obtain ⟨l, hl⟩ := ByteArray.isSome_utf8Decode?_iff.1 hsome
    rw [hl, List.utf8Decode?_utf8Encode] at hchars
    cases hchars
    have hbytes := congrArg (fun b : ByteArray => b.data.toList) hl
    simp only [List.utf8Encode, List.toList_data_toByteArray] at hbytes
    exact hbytes.symm
  · rintro rfl
    exact decode_encode s

/-! ## The bytes of a character -/

theorem ascii_encode (h : c.toNat < 128) : String.utf8EncodeChar c = [c.toUInt8] := by
  rw [String.utf8EncodeChar, if_pos (show c.val.toNat ≤ 0x7f by exact Nat.le_of_lt_succ h)]
  rfl

theorem byte_of_not_ascii (h : 128 ≤ c.toNat) {x : UInt8} (hx : x ∈ String.utf8EncodeChar c) : 128 ≤ x.toNat := by
  rw [String.utf8EncodeChar, if_neg (show ¬ c.val.toNat ≤ 0x7f by exact Nat.not_le_of_lt h)] at hx
  split_ifs at hx
  all_goals
    simp only [List.mem_cons, List.not_mem_nil, or_false] at hx
    rcases hx with rfl | rfl | rfl | rfl <;> simp only [UInt8.toNat_ofNat'] <;> omega

theorem first_byte (c : Char) : ∃ x rest, String.utf8EncodeChar c = x :: rest ∧ isContinuation x = false := by
  rw [String.utf8EncodeChar]
  split_ifs with h
  all_goals
    refine ⟨_, _, rfl, ?_⟩
    simp only [isContinuation, UInt8.le_iff_toNat_le, UInt8.lt_iff_toNat_lt, UInt8.toNat_ofNat', Bool.and_eq_false_iff,
      decide_eq_false_iff_not, UInt8.reduceToNat]
    omega

/-- A byte of an ASCII character is the character. -/
theorem ascii_mem_encode (hc : c.toNat < 128) : c.toUInt8 ∈ encode s ↔ c ∈ s := by
  rw [encode, List.mem_flatMap]
  constructor
  · rintro ⟨d, hd, hmem⟩
    rcases Nat.lt_or_ge d.toNat 128 with hascii | hwide
    · rw [ascii_encode hascii, List.mem_singleton] at hmem
      have hnat : c.toUInt8.toNat = d.toUInt8.toNat := by rw [hmem]
      have heq : c.toNat = d.toNat := by
        simp only [Char.toUInt8, UInt32.toNat_toUInt8] at hnat
        have hc' : c.val.toNat = c.toNat := rfl
        have hd' : d.val.toNat = d.toNat := rfl
        omega
      rw [Char.toNat_inj.1 heq]
      exact hd
    · have hbyte := byte_of_not_ascii hwide hmem
      simp only [Char.toUInt8, UInt32.toNat_toUInt8] at hbyte
      have hc' : c.val.toNat = c.toNat := rfl
      omega
  · intro h
    exact ⟨c, h, by rw [ascii_encode hc]; exact List.mem_singleton_self _⟩

/-! ## Parts -/

/-- A character starts after each part of a text. -/
theorem isCharBoundary_append (a b : Text) : isCharBoundary (a ++ b) (len a) = true := by
  rcases b with _ | ⟨c, b⟩
  · simp [isCharBoundary]
  · obtain ⟨x, rest, hx, hfirst⟩ := first_byte c
    have hbyte : (encode (a ++ c :: b))[len a]? = some x := by
      have hcons : encode (c :: b) = x :: (rest ++ encode b) := by
        rw [encode, List.flatMap_cons, hx]
        rfl
      rw [encode_append, hcons, len, List.getElem?_append_right (Nat.le_refl _), Nat.sub_self]
      rfl
    rw [isCharBoundary, hbyte, Option.any_some, hfirst, Bool.not_false, Bool.or_true]

/-- The part of a text between two others. -/
theorem slice_append (a b s : Text) : slice (a ++ b ++ s) (len a) (len a + len b) = some b := by
  have hstart : isCharBoundary (a ++ b ++ s) (len a) = true := by
    rw [List.append_assoc]
    exact isCharBoundary_append a (b ++ s)
  have hend : isCharBoundary (a ++ b ++ s) (len a + len b) = true := by
    rw [← len_append]
    exact isCharBoundary_append (a ++ b) s
  have hbytes : ((encode (a ++ b ++ s)).take (len a + len b)).drop (len a) = encode b := by
    have htake : (encode (a ++ b ++ s)).take (len a + len b) = encode (a ++ b) := by
      rw [← len_append, encode_append (a := a ++ b)]
      exact List.take_left
    rw [htake, encode_append]
    exact List.drop_left
  rw [slice, if_pos ⟨Nat.le_add_right _ _, hstart, hend⟩, hbytes, decode_encode]

theorem slice_start (a b : Text) : slice (a ++ b) 0 (len a) = some a := by
  have h := slice_append [] a b
  rwa [len_nil, Nat.zero_add] at h

theorem slice_end (a b : Text) : slice (a ++ b) (len a) (len (a ++ b)) = some b := by
  have h := slice_append a b []
  rwa [List.append_nil, ← len_append] at h

theorem len_ascii (h : c.toNat < 128) : len [c] = 1 := by
  rw [len, encode, List.flatMap_singleton, ascii_encode h]
  rfl

theorem len_pos (h : s ≠ []) : 0 < len s := by
  rcases s with _ | ⟨c, s⟩
  · exact absurd rfl h
  · obtain ⟨x, rest, hx, -⟩ := first_byte c
    rw [len, encode, List.flatMap_cons, hx]
    simp

/-- The bytes of an ASCII text are its characters. -/
theorem len_of_isAscii (h : isAscii s) : len s = s.length := by
  induction s with
  | nil => rfl
  | cons c s ih =>
    rw [isAscii, List.all_cons, Bool.and_eq_true, decide_eq_true_iff] at h
    have hcons : len (c :: s) = len [c] + len s := len_append (a := [c])
    rw [hcons, len_ascii h.1, ih h.2, List.length_cons, Nat.add_comm]

/-! ## The first separator -/

theorem find_eq_none_iff (hc : c.toNat < 128) : find c s = none ↔ c ∉ s := by
  rw [find, List.findIdx?_eq_none_iff, ← ascii_mem_encode hc]
  constructor
  · intro h hmem
    exact absurd (h _ hmem) (by simp)
  · intro h x hx
    rw [beq_eq_false_iff_ne]
    rintro rfl
    exact h hx

/-- The first separator is found after the text before it. -/
theorem find_append (hc : c.toNat < 128) (h : c ∉ before) : find c (before ++ c :: after) = some (len before) := by
  have hnone : (encode before).findIdx? (· == c.toUInt8) = none := (find_eq_none_iff hc).2 h
  have hcons : encode (c :: after) = c.toUInt8 :: encode after := by
    rw [encode, List.flatMap_cons, ascii_encode hc]
    rfl
  rw [find, encode_append, List.findIdx?_append, hnone, hcons, List.findIdx?_cons]
  simp [len]

end Text
