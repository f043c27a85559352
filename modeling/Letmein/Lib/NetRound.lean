import Letmein.Lib.NetRead
import Mathlib.Data.Nat.Bitwise

/-! # Addresses are read back

Every address is what its text form is read to (`IpAddr.fromStr_text`). Each reader is run on what is shown of one thing
and a rest that does not go on with it. -/

namespace IpAddr
open Text

/-! ## Numbers -/

section
variable {radix maxDigits limit n : Nat} {allowZeroPrefix : Bool} {s : Text}

theorem toDigit_digitChar_of_lt : ∀ radix ≤ 16, ∀ d < radix, toDigit radix (Nat.digitChar d) = some d := by
  decide +kernel

theorem digits_isDigit (hb : 1 < radix) (hb' : radix ≤ 16) {c : Char} (hc : c ∈ Nat.toDigits radix n) :
    (toDigit radix c).isSome = true := by
  obtain ⟨d, hd, rfl⟩ := Nat.exists_of_mem_toDigits hb hc
  rw [toDigit_digitChar_of_lt radix hb' d hd]
  rfl

theorem foldl_digits (hb : 1 < radix) (hb' : radix ≤ 16) (n : Nat) :
    (Nat.toDigits radix n).foldl (fun n c => n * radix + (toDigit radix c).getD 0) 0 = n := by
  induction n using Nat.strong_induction_on with
  | _ n ih =>
    by_cases hlt : n < radix
    · rw [Nat.toDigits_of_lt_base hlt]
      simp [toDigit_digitChar_of_lt radix hb' n hlt]
    · have hmod : n % radix < radix := Nat.mod_lt _ (by omega)
      rw [Nat.toDigits_of_base_le hb (by omega), List.foldl_append, ih (n / radix) (Nat.div_lt_self (by omega) hb)]
      simp only [List.foldl_cons, List.foldl_nil, toDigit_digitChar_of_lt radix hb' _ hmod, Option.getD_some]
      rw [Nat.mul_comm]
      exact Nat.div_add_mod n radix

/-- Only zero is shown with a leading zero. -/
theorem digits_head (hb : 1 < radix) (hb' : radix ≤ 16) (hn : 0 < n) : (Nat.toDigits radix n).head? ≠ some '0' := by
  have hzero : ∀ d < 16, 0 < d → Nat.digitChar d ≠ '0' := by decide
  induction n using Nat.strong_induction_on with
  | _ n ih =>
    by_cases hlt : n < radix
    · rw [Nat.toDigits_of_lt_base hlt]
      simpa using hzero n (by omega) hn
    · have hdiv : 0 < n / radix := Nat.div_pos (by omega) (by omega)
      have hne : Nat.toDigits radix (n / radix) ≠ [] := List.ne_nil_of_length_pos Nat.length_toDigits_pos
      rw [Nat.toDigits_of_base_le hb (by omega), List.head?_append_of_ne_nil _ hne]
      exact ih (n / radix) (Nat.div_lt_self (by omega) hb) hdiv

/-- The rest does not begin with a digit. -/
def Stops (radix : Nat) (s : Text) : Prop := ∀ c, s.head? = some c → toDigit radix c = none

theorem stops_nil : Stops radix [] := by simp [Stops]

theorem stops_cons {c : Char} (h : toDigit radix c = none) : Stops radix (c :: s) := by simp [Stops, h]

theorem readNumber_digits (hb : 1 < radix) (hb' : radix ≤ 16) (hn : n < limit) (hlen : n < radix ^ maxDigits)
    (hmax : 0 < maxDigits) (hs : Stops radix s) :
    readNumber radix maxDigits limit allowZeroPrefix (Nat.toDigits radix n ++ s) = some (n, s) := by
  have hall : ∀ c ∈ Nat.toDigits radix n, (toDigit radix c).isSome = true := fun c hc => digits_isDigit hb hb' hc
  have hstop : s.takeWhile (fun c => (toDigit radix c).isSome) = [] ∧
      s.dropWhile (fun c => (toDigit radix c).isSome) = s := by
    cases s with
    | nil => simp
    | cons c s => simp [hs c rfl]
  have htake : (Nat.toDigits radix n ++ s).takeWhile (fun c => (toDigit radix c).isSome) = Nat.toDigits radix n := by
    rw [List.takeWhile_append_of_pos hall, hstop.1, List.append_nil]
  have hdrop : (Nat.toDigits radix n ++ s).dropWhile (fun c => (toDigit radix c).isSome) = s := by
    rw [List.dropWhile_append_of_pos hall, hstop.2]
  have hpos : 0 < (Nat.toDigits radix n).length := Nat.length_toDigits_pos
  have hle : (Nat.toDigits radix n).length ≤ maxDigits := (Nat.length_toDigits_le_iff hb hmax).2 hlen
  have hprefix : ¬ (allowZeroPrefix = false ∧ (Nat.toDigits radix n).head? = some '0' ∧
      1 < (Nat.toDigits radix n).length) := by
    rintro ⟨-, hzero, hlong⟩
    rcases Nat.eq_zero_or_pos n with rfl | hn
    · rw [Nat.toDigits_of_lt_base (by omega)] at hlong
      simp at hlong
    · exact digits_head hb hb' hn hzero
  unfold readNumber
  simp only [htake, hdrop, foldl_digits hb hb']
  rw [if_neg (by omega), if_neg hprefix, if_pos hn]

end

/-! ## IPv4 -/

section
variable {s : Text}

theorem toDigit_dot : toDigit 10 '.' = none := by decide

theorem toDigit_colon : toDigit 16 ':' = none := by decide

theorem readGivenChar_cons (c : Char) (s : Text) : readGivenChar c (c :: s) = some s := by simp [readGivenChar]

theorem readOctet_digits (o : UInt8) (hs : Stops 10 s) (index : Nat) :
    readOctet index ((if index = 0 then [] else ['.']) ++ Nat.toDigits 10 o.toNat ++ s) = some (o, s) := by
  have hlt : o.toNat < 256 := o.toNat_lt
  have hread : readNumber 10 3 256 false (Nat.toDigits 10 o.toNat ++ s) = some (o.toNat, s) :=
    readNumber_digits (by decide) (by decide) hlt (by omega) (by decide) hs
  unfold readOctet readSeparator
  split_ifs
  · rw [List.nil_append, hread]
    simp
  · rw [List.append_assoc, List.singleton_append, readGivenChar_cons, Option.bind_some, hread]
    simp

theorem readIpv4Addr_text (x : Ipv4Addr) (hs : Stops 10 s) : readIpv4Addr (x.text ++ s) = some (x, s) := by
  obtain ⟨a, b, c, d⟩ := x
  have htext : (Ipv4Addr.mk a b c d).text ++ s = Nat.toDigits 10 a.toNat ++ '.' :: (Nat.toDigits 10 b.toNat ++
      '.' :: (Nat.toDigits 10 c.toNat ++ '.' :: (Nat.toDigits 10 d.toNat ++ s))) := by
    simp [Ipv4Addr.text, Ipv4Addr.octets, List.intercalate_cons_cons]
  have hdot : ∀ t, Stops 10 ('.' :: t) := fun t => stops_cons toDigit_dot
  have h0 := fun t => readOctet_digits a (hdot t) 0
  have h1 := fun t => readOctet_digits b (hdot t) 1
  have h2 := fun t => readOctet_digits c (hdot t) 2
  have h3 := readOctet_digits d hs 3
  simp only [if_true, Nat.one_ne_zero, if_false, List.nil_append, List.cons_append, OfNat.ofNat_ne_zero] at h0 h1 h2 h3
  rw [htext, readIpv4Addr, h0]
  dsimp only [Option.bind_eq_bind, Option.bind_some]
  rw [h1]
  dsimp only [Option.bind_some]
  rw [h2]
  dsimp only [Option.bind_some]
  rw [h3]
  rfl

/-- There is no IPv4 address without a dot before the first colon. -/
theorem readIpv4Addr_eq_none (hs : '.' ∉ s.takeWhile (· ≠ ':')) : readIpv4Addr s = none := by
  have hrest : ∀ p, readOctet 0 s = some p → readOctet 1 p.2 = none := by
    rintro ⟨a, t⟩ hread
    obtain ⟨q, hnum, hq⟩ := Option.map_eq_some_iff.1 hread
    rw [readSeparator, if_pos rfl] at hnum
    have ht : t = s.dropWhile fun c => (toDigit 10 c).isSome := by
      unfold readNumber at hnum
      simp only at hnum
      split_ifs at hnum
      cases hnum
      cases hq
      rfl
    have hhead : ∀ u, t ≠ '.' :: u := by
      intro u hu
      refine hs ?_
      rw [← List.takeWhile_append_dropWhile (p := fun c => (toDigit 10 c).isSome) (l := s), ← ht, hu,
        List.takeWhile_append_of_pos]
      · simp
      · intro c hc
        have hdigit := List.mem_takeWhile_imp hc
        simp only [decide_eq_true_eq]
        rintro rfl
        revert hdigit
        decide
    rw [readOctet, readSeparator, if_neg (by decide)]
    cases t with
    | nil => rfl
    | cons c t =>
      have hc : c ≠ '.' := fun hc => hhead t (by rw [hc])
      simp [readGivenChar, hc]
  rw [readIpv4Addr]
  cases hread : readOctet 0 s with
  | none => rfl
  | some p =>
    show (readOctet 1 p.2 >>= _) = none
    rw [hrest p hread]
    rfl

end

/-! ## Groups of an IPv6 address -/

/-- The groups from this index on, each after a colon unless it is the first one. -/
def groups : (index : Nat) → List UInt16 → Text
  | _, [] => []
  | index, g :: chunk => (if index = 0 then [] else [':']) ++ Nat.toDigits 16 g.toNat ++ groups (index + 1) chunk

theorem groups_zero (chunk : List UInt16) : groups 0 chunk = Ipv6Addr.fmtSubslice chunk := by
  have hcons : ∀ (index : Nat) (g : UInt16) (chunk : List UInt16),
      Nat.toDigits 16 g.toNat ++ groups (index + 1) chunk = Ipv6Addr.fmtSubslice (g :: chunk) := by
    intro index g chunk
    induction chunk generalizing index g with
    | nil => simp [groups, Ipv6Addr.fmtSubslice]
    | cons g' chunk ih =>
      rw [groups, if_neg (Nat.succ_ne_zero index), List.append_assoc, ih, Ipv6Addr.fmtSubslice,
        Ipv6Addr.fmtSubslice, List.map_cons, List.map_cons, List.map_cons, List.intercalate_cons_cons]
      simp
  cases chunk with
  | nil => rfl
  | cons g chunk => exact hcons 0 g chunk

/-- The rest of the groups is over, or it begins with a colon. -/
def Ends (s : Text) : Prop := s = [] ∨ ∃ t, s = ':' :: t

theorem Ends.stops {s : Text} (h : Ends s) : Stops 16 s := by
  rcases h with rfl | ⟨t, rfl⟩
  · exact stops_nil
  · exact stops_cons toDigit_colon

theorem Ends.groups {s : Text} (h : Ends s) (index : Nat) (chunk : List UInt16) : Ends (groups (index + 1) chunk ++ s) := by
  cases chunk with
  | nil => exact h
  | cons g chunk => exact .inr ⟨_, rfl⟩

/-- A group is no IPv4 address. -/
theorem readIpv4Addr_group (g : UInt16) {s : Text} (hs : Ends s) : readIpv4Addr (Nat.toDigits 16 g.toNat ++ s) = none := by
  refine readIpv4Addr_eq_none ?_
  have hcolon : ∀ c ∈ Nat.toDigits 16 g.toNat, decide (c ≠ ':') = true := by
    intro c hc
    have hne : c ≠ ':' := by
      rintro rfl
      exact Nat.notMem_toDigits (by decide) (by decide) (by decide) hc
    simp [hne]
  have hrest : s.takeWhile (· ≠ ':') = [] := by
    rcases hs with rfl | ⟨t, rfl⟩ <;> simp
  rw [List.takeWhile_append_of_pos hcolon, hrest, List.append_nil]
  exact Nat.notMem_toDigits (by decide) (by decide) (by decide)

theorem readSeparator_groups {α : Type} (index : Nat) (inner : Text → Option α) (s : Text) :
    readSeparator ':' index inner ((if index = 0 then [] else [':']) ++ s) = inner s := by
  unfold readSeparator
  split_ifs
  · rfl
  · rw [List.singleton_append, readGivenChar_cons, Option.bind_some]

theorem readGroups_groups (chunk : List UInt16) (left index : Nat) {s : Text} (hs : Ends s) :
    readGroups (chunk.length + left) index (groups index chunk ++ s) =
      (chunk ++ (readGroups left (index + chunk.length) s).1, (readGroups left (index + chunk.length) s).2) := by
  induction chunk generalizing index with
  | nil => simp [groups]
  | cons g chunk ih =>
    have hends := hs.groups index chunk
    have hlt : g.toNat < 65536 := g.toNat_lt
    have hnum : readNumber 16 4 65536 true (Nat.toDigits 16 g.toNat ++ (groups (index + 1) chunk ++ s)) =
        some (g.toNat, groups (index + 1) chunk ++ s) :=
      readNumber_digits (by decide) (by decide) hlt (by omega) (by decide) hends.stops
    have hlength : (g :: chunk).length + left = (chunk.length + left) + 1 := by
      rw [List.length_cons]
      omega
    have hindex : index + (g :: chunk).length = index + 1 + chunk.length := by
      rw [List.length_cons]
      omega
    rw [hlength, hindex, groups, List.append_assoc, List.append_assoc, readGroups, readSeparator_groups,
      readSeparator_groups, readIpv4Addr_group g hends, ite_self, hnum]
    simp only [ih (index + 1)]
    simp

/-- Where no group begins. -/
theorem readGroups_end (left index : Nat) {s : Text} (hs : s = [] ∨ ∃ t, s = ':' :: ':' :: t) :
    readGroups left index s = ([], false, s) := by
  cases left with
  | zero => rfl
  | succ left =>
    have hnone : ∀ {t : Text}, Ends t → readIpv4Addr t = none ∧ readNumber 16 4 65536 true t = none := by
      rintro t (rfl | ⟨t, rfl⟩)
      · exact ⟨readIpv4Addr_eq_none (by simp), rfl⟩
      · refine ⟨readIpv4Addr_eq_none (by simp), ?_⟩
        simp [readNumber, toDigit_colon]
    have hsep : ∀ {α : Type} (inner : Text → Option α), (∀ t, Ends t → inner t = none) →
        readSeparator ':' index inner s = none := by
      intro α inner hinner
      unfold readSeparator
      rcases hs with rfl | ⟨t, rfl⟩
      · split_ifs
        · exact hinner _ (.inl rfl)
        · rfl
      · split_ifs
        · exact hinner _ (.inr ⟨_, rfl⟩)
        · rw [readGivenChar_cons, Option.bind_some]
          exact hinner _ (.inr ⟨_, rfl⟩)
    rw [readGroups, hsep _ fun t ht => (hnone ht).1, hsep _ fun t ht => (hnone ht).2, ite_self]

/-- All groups are read, if there are not too many. -/
theorem readGroups_fmtSubslice {chunk : List UInt16} {left : Nat} (hle : chunk.length ≤ left) {s : Text}
    (hs : s = [] ∨ ∃ t, s = ':' :: ':' :: t) :
    readGroups left 0 (Ipv6Addr.fmtSubslice chunk ++ s) = (chunk, false, s) := by
  have hends : Ends s := hs.imp_right fun ⟨t, ht⟩ => ⟨_, ht⟩
  have hread := readGroups_groups chunk (left - chunk.length) 0 hends
  rw [readGroups_end _ _ hs, groups_zero, List.append_nil] at hread
  rwa [show chunk.length + (left - chunk.length) = left by omega] at hread

/-! ## IPv6 -/

theorem ofSegments_segments (x : Ipv6Addr) : ofSegments x.segments = some x := rfl

theorem readIpv6Addr_full {x : Ipv6Addr} : readIpv6Addr (Ipv6Addr.fmtSubslice x.segments) = some (x, []) := by
  have hread : readGroups 8 0 (Ipv6Addr.fmtSubslice x.segments ++ []) = (x.segments, false, []) :=
    readGroups_fmtSubslice (Nat.le_refl 8) (.inl rfl)
  rw [List.append_nil] at hread
  unfold readIpv6Addr
  rw [hread]
  dsimp only
  rw [if_pos (show x.segments.length = 8 from rfl), ofSegments_segments]
  rfl

/-- What comes after `::` is read from the first index on again. -/
theorem readIpv6Addr_compressed (head : List UInt16) (hhead : head.length < 8) {t : Text} {tail : List UInt16} {ipv4 : Bool}
    (hread : readGroups (8 - (head.length + 1)) 0 t = (tail, ipv4, [])) {x : Ipv6Addr}
    (hx : x.segments = head ++ List.replicate (8 - head.length - tail.length) 0 ++ tail) :
    readIpv6Addr (Ipv6Addr.fmtSubslice head ++ ':' :: ':' :: t) = some (x, []) := by
  have hfirst : readGroups 8 0 (Ipv6Addr.fmtSubslice head ++ ':' :: ':' :: t) = (head, false, ':' :: ':' :: t) :=
    readGroups_fmtSubslice (by omega) (.inr ⟨_, rfl⟩)
  unfold readIpv6Addr
  rw [hfirst]
  dsimp only
  rw [if_neg (by omega), if_neg Bool.false_ne_true, readGivenChar_cons]
  dsimp only [Option.bind_eq_bind, Option.bind_some]
  rw [readGivenChar_cons]
  dsimp only [Option.bind_some]
  rw [hread]
  dsimp only
  rw [← hx, ofSegments_segments]
  rfl

/-- Two octets make the group again. -/
theorem octets_group (g : UInt16) : (g >>> 8).toUInt8.toUInt16 <<< 8 ||| g.toUInt8.toUInt16 = g := by
  refine UInt16.toNat.inj ?_
  have hlt : g.toNat < 65536 := g.toNat_lt
  have hhigh : (g >>> 8).toUInt8.toUInt16.toNat = g.toNat / 256 := by
    rw [UInt8.toNat_toUInt16, UInt16.toNat_toUInt8, UInt16.toNat_shiftRight, Nat.shiftRight_eq_div_pow]
    exact Nat.mod_eq_of_lt (by simp; omega)
  have hlow : g.toUInt8.toUInt16.toNat = g.toNat % 256 := by rw [UInt8.toNat_toUInt16, UInt16.toNat_toUInt8]
  have hshift : (g.toNat / 256) <<< 8 % 2 ^ 16 = (g.toNat / 256) <<< 8 := by
    rw [Nat.shiftLeft_eq]
    exact Nat.mod_eq_of_lt (by omega)
  rw [UInt16.toNat_or, UInt16.toNat_shiftLeft, hhigh, hlow]
  show (g.toNat / 256) <<< 8 % 2 ^ 16 ||| g.toNat % 256 = g.toNat
  rw [hshift, ← Nat.shiftLeft_add_eq_or_of_lt (by omega), Nat.shiftLeft_eq]
  omega

/-- The last two groups of a mapped address are given as an IPv4 address. -/
theorem readGroups_mapped (x : Ipv4Addr) : readGroups 7 0 ("ffff:".toList ++ x.text) =
    ([(0xFFFF : UInt16), x.a.toUInt16 <<< 8 ||| x.b.toUInt16, x.c.toUInt16 <<< 8 ||| x.d.toUInt16], true, []) := by
  have hgroup := readGroups_groups [0xFFFF] 6 0 (.inr ⟨x.text, rfl⟩ : Ends (':' :: x.text))
  have hipv4 : readIpv4Addr x.text = some (x, []) := by
    have hread := readIpv4Addr_text x stops_nil
    rwa [List.append_nil] at hread
  have hlast : readGroups 6 1 (':' :: x.text) =
      ([x.a.toUInt16 <<< 8 ||| x.b.toUInt16, x.c.toUInt16 <<< 8 ||| x.d.toUInt16], true, []) := by
    rw [readGroups, if_neg (by decide), readSeparator, if_neg (by decide), readGivenChar_cons, Option.bind_some, hipv4]
  rw [show 0 + [(0xFFFF : UInt16)].length = 1 from rfl, hlast] at hgroup
  exact hgroup

theorem readIpv6Addr_text (x : Ipv6Addr) : readIpv6Addr x.text = some (x, []) := by
  unfold Ipv6Addr.text
  cases hmapped : x.toIpv4Mapped with
  | some ipv4 =>
    obtain ⟨s0, s1, s2, s3, s4, s5, s6, s7⟩ := x
    unfold Ipv6Addr.toIpv4Mapped at hmapped
    split_ifs at hmapped with hs
    obtain ⟨rfl, rfl, rfl, rfl, rfl, rfl⟩ := hs
    cases hmapped
    refine readIpv6Addr_compressed [] (by decide) (readGroups_mapped _) ?_
    simp only [octets_group]
    rfl
  | none =>
    dsimp only
    generalize hz : Ipv6Addr.zeroes x.segments 0 ⟨0, 0⟩ ⟨0, 0⟩ = z
    have hsegments := x.segments_eq_append hz
    split_ifs with hlen
    · generalize x.segments.take z.start = head at hsegments
      generalize x.segments.drop (z.start + z.len) = tail at hsegments
      have hcount : 8 = head.length + z.len + tail.length := by
        have hlength := congrArg List.length hsegments
        rw [List.length_append, List.length_append, List.length_replicate] at hlength
        exact hlength
      have hzeros : 8 - head.length - tail.length = z.len := by omega
      have hread : readGroups (8 - (head.length + 1)) 0 (Ipv6Addr.fmtSubslice tail ++ []) = (tail, false, []) :=
        readGroups_fmtSubslice (by omega) (.inl rfl)
      rw [List.append_nil] at hread
      exact readIpv6Addr_compressed head (by omega) hread (by rw [hzeros, ← hsegments])
    · exact readIpv6Addr_full

/-! ## Addresses -/

/-- An address is what its text is read to. -/
theorem fromStr_text (addr : IpAddr) : fromStr addr.text = some addr := by
  cases addr with
  | v4 x =>
    have hread := readIpv4Addr_text x stops_nil
    rw [List.append_nil] at hread
    simp [fromStr, IpAddr.text, hread]
  | v6 x =>
    have hnone : readIpv4Addr x.text = none := by
      refine readIpv4Addr_eq_none fun hdot => ?_
      cases hmapped : x.toIpv4Mapped with
      | some ipv4 =>
        unfold Ipv6Addr.text at hdot
        rw [hmapped] at hdot
        simp at hdot
      | none => exact x.dot_notMem_text hmapped ((List.takeWhile_sublist _).subset hdot)
    simp [fromStr, IpAddr.text, hnone, readIpv6Addr_text]

end IpAddr
