import Mathlib.Data.List.Basic
import Mathlib.Data.List.TakeWhile

/-! # Internet addresses and their text form

Addresses as in `std::net`, and their `Display` form: dotted decimal for IPv4, colon separated
hexadecimal segments for IPv6 with the longest run of zero segments (of two or more, the first of
equal ones) written `::`, and `::ffff:a.b.c.d` for an IPv4-mapped IPv6 address. The text form is
injective (`IpAddr.text_injective`): splitting it at its separators gives the segments back. -/

/-! ### Digits -/

namespace Nat

theorem digitChar_injOn : ∀ m < 16, ∀ n < 16, digitChar m = digitChar n → m = n := by decide

theorem toDigits_injective {b : Nat} (hb : 1 < b) (hb' : b ≤ 16) :
    ∀ {m n : Nat}, toDigits b m = toDigits b n → m = n := by
  intro m
  induction m using Nat.strong_induction_on with
  | _ m ih =>
    intro n h
    by_cases hm : m < b <;> by_cases hn : n < b
    · rw [toDigits_of_lt_base hm, toDigits_of_lt_base hn, List.singleton_inj] at h
      exact digitChar_injOn m (by omega) n (by omega) h
    · rw [toDigits_of_lt_base hm, toDigits_of_base_le hb (by omega)] at h
      have := congrArg List.length h
      have := length_toDigits_pos (b := b) (n := n / b)
      simp at *
    · rw [toDigits_of_lt_base hn, toDigits_of_base_le hb (by omega)] at h
      have := congrArg List.length h
      have := length_toDigits_pos (b := b) (n := m / b)
      simp at *
    · rw [toDigits_of_base_le (n := m) hb (by omega), toDigits_of_base_le (n := n) hb (by omega)] at h
      obtain ⟨hd, hl⟩ := List.append_inj' h rfl
      have hdiv := ih (m / b) (Nat.div_lt_self (by omega) hb) hd
      have hlt : ∀ x, x % b < b := fun x => Nat.mod_lt _ (by omega)
      have hmod := digitChar_injOn _ (Nat.lt_of_lt_of_le (hlt m) hb') _ (Nat.lt_of_lt_of_le (hlt n) hb')
        (List.singleton_inj.1 hl)
      rw [← Nat.div_add_mod m b, ← Nat.div_add_mod n b, hdiv, hmod]

theorem exists_of_mem_toDigits {b n : Nat} {c : Char} (hb : 1 < b) (hc : c ∈ toDigits b n) :
    ∃ d < b, c = digitChar d := by
  induction n using Nat.strong_induction_on with
  | _ n ih =>
    by_cases hn : n < b
    · rw [toDigits_of_lt_base hn, List.mem_singleton] at hc
      exact ⟨n, hn, hc⟩
    · rw [toDigits_of_base_le hb (by omega), List.mem_append, List.mem_singleton] at hc
      rcases hc with hc | hc
      · exact ih (n / b) (Nat.div_lt_self (by omega) hb) hc
      · exact ⟨n % b, Nat.mod_lt _ (by omega), hc⟩

theorem notMem_toDigits {b n : Nat} {c : Char} (hb : 1 < b) (hb' : b ≤ 16)
    (h : ∀ d < 16, c ≠ digitChar d) : c ∉ toDigits b n := fun hc => by
  obtain ⟨d, hd, rfl⟩ := exists_of_mem_toDigits hb hc
  exact h d (by omega) rfl

end Nat

/-! ### Addresses -/

structure Ipv4Addr where
  (a b c d : UInt8)
deriving DecidableEq, Repr

structure Ipv6Addr where
  (s0 s1 s2 s3 s4 s5 s6 s7 : UInt16)
deriving DecidableEq, Repr

inductive IpAddr where
  | v4 (addr : Ipv4Addr)
  | v6 (addr : Ipv6Addr)
deriving DecidableEq, Repr

inductive SocketAddr where
  | v4 (ip : Ipv4Addr) (port : UInt16)
  | v6 (ip : Ipv6Addr) (port : UInt16) (flowinfo scopeId : UInt32)
deriving DecidableEq, Repr

def SocketAddr.ip : SocketAddr → IpAddr
  | .v4 ip _ => .v4 ip
  | .v6 ip _ _ _ => .v6 ip

/-! ### Text form -/

namespace Ipv4Addr

def octets (x : Ipv4Addr) : List UInt8 := [x.a, x.b, x.c, x.d]

def text (x : Ipv4Addr) : List Char :=
  ['.'].intercalate (x.octets.map fun o => Nat.toDigits 10 o.toNat)

theorem octets_injective {x y : Ipv4Addr} (h : x.octets = y.octets) : x = y := by
  cases x; cases y; simpa [octets] using h

end Ipv4Addr

namespace Ipv6Addr

def segments (x : Ipv6Addr) : List UInt16 := [x.s0, x.s1, x.s2, x.s3, x.s4, x.s5, x.s6, x.s7]

/-- The embedded address of `::ffff:a.b.c.d`. -/
def toIpv4Mapped (x : Ipv6Addr) : Option Ipv4Addr :=
  if x.s0 = 0 ∧ x.s1 = 0 ∧ x.s2 = 0 ∧ x.s3 = 0 ∧ x.s4 = 0 ∧ x.s5 = 0xFFFF then
    some ⟨(x.s6 >>> 8).toUInt8, x.s6.toUInt8, (x.s7 >>> 8).toUInt8, x.s7.toUInt8⟩
  else none

structure Span where
  start : Nat
  len : Nat

/-- The first of the longest runs of zero segments; `i` is the index of the next segment. -/
def zeroes : List UInt16 → (i : Nat) → (longest current : Span) → Span
  | [], _, longest, _ => longest
  | s :: rest, i, longest, current =>
    if s = 0 then
      let current := ⟨if current.len = 0 then i else current.start, current.len + 1⟩
      zeroes rest (i + 1) (if longest.len < current.len then current else longest) current
    else zeroes rest (i + 1) longest ⟨0, 0⟩

/-- A colon separated part of the address. -/
def fmtSubslice (chunk : List UInt16) : List Char :=
  [':'].intercalate (chunk.map fun s => Nat.toDigits 16 s.toNat)

def text (x : Ipv6Addr) : List Char :=
  match x.toIpv4Mapped with
  | some ipv4 => "::ffff:".toList ++ ipv4.text
  | none =>
    let z := zeroes x.segments 0 ⟨0, 0⟩ ⟨0, 0⟩
    if 1 < z.len then
      fmtSubslice (x.segments.take z.start) ++ ':' :: ':' :: fmtSubslice (x.segments.drop (z.start + z.len))
    else fmtSubslice x.segments

theorem segments_injective {x y : Ipv6Addr} (h : x.segments = y.segments) : x = y := by
  cases x; cases y; simpa [segments] using h

end Ipv6Addr

def IpAddr.text : IpAddr → List Char
  | .v4 addr => addr.text
  | .v6 addr => addr.text

/-- The address without IPv4-mapping. -/
def IpAddr.toCanonical : IpAddr → IpAddr
  | .v4 a => .v4 a
  | .v6 a =>
    match a.toIpv4Mapped with
    | some a => .v4 a
    | none => .v6 a

/-! ### The text form is injective -/

theorem toDigits_toNat_injective8 {b : Nat} (hb : 1 < b) (hb' : b ≤ 16) :
    Function.Injective fun o : UInt8 => Nat.toDigits b o.toNat :=
  fun _ _ h => UInt8.toNat_inj.1 (Nat.toDigits_injective hb hb' h)

theorem toDigits_toNat_injective16 {b : Nat} (hb : 1 < b) (hb' : b ≤ 16) :
    Function.Injective fun o : UInt16 => Nat.toDigits b o.toNat :=
  fun _ _ h => UInt16.toNat_inj.1 (Nat.toDigits_injective hb hb' h)

namespace Ipv4Addr

theorem text_injective {x y : Ipv4Addr} (h : x.text = y.text) : x = y := by
  have hsplit : ∀ z : Ipv4Addr,
      z.text.splitOn '.' = z.octets.map fun o => Nat.toDigits 10 o.toNat := fun z =>
    List.splitOn_intercalate '.' (fun l hl => by
      obtain ⟨o, -, rfl⟩ := List.mem_map.1 hl
      exact Nat.notMem_toDigits (by decide) (by decide) (by decide)) (by simp [octets])
  have hmap := hsplit x
  rw [h, hsplit y] at hmap
  exact octets_injective (List.map_injective_iff.2
    (toDigits_toNat_injective8 (by decide) (by decide)) hmap.symm)

theorem dot_mem_text (x : Ipv4Addr) : '.' ∈ x.text := by
  simp [text, octets, List.intercalate]

theorem notMem_text (x : Ipv4Addr) {c : Char} (hc : c ≠ '.') (h : ∀ d < 16, c ≠ Nat.digitChar d) :
    c ∉ x.text := by
  have hn : ∀ o : UInt8, c ∉ Nat.toDigits 10 o.toNat := fun o =>
    Nat.notMem_toDigits (by decide) (by decide) h
  simp [text, octets, List.intercalate, hc, hn]

end Ipv4Addr

namespace Ipv6Addr

/-- The segments of `sp` are all zero. -/
def ZeroSpan (l : List UInt16) (sp : Span) : Prop :=
  ∀ j, sp.start ≤ j → j < sp.start + sp.len → l[j]? = some 0

theorem ZeroSpan.eq_append {l : List UInt16} {sp : Span} (h : ZeroSpan l sp) :
    l = l.take sp.start ++ List.replicate sp.len 0 ++ l.drop (sp.start + sp.len) := by
  have hmid : (l.drop sp.start).take sp.len = List.replicate sp.len 0 := by
    refine List.ext_getElem? fun j => ?_
    rw [List.getElem?_take, List.getElem?_replicate, List.getElem?_drop]
    split
    · exact h _ (by omega) (by omega)
    · rfl
  rw [← hmid, ← List.drop_drop, List.append_assoc, List.take_append_drop, List.take_append_drop]

/-- `zeroes` keeps two facts: the longest run so far is zero, and so is the current one, which ends
at the next segment `i`. -/
theorem zeroSpan_zeroes (l : List UInt16) : ∀ (rest pre : List UInt16) (longest current : Span),
    l = pre ++ rest → ZeroSpan l longest → ZeroSpan l current →
    (current.len = 0 ∨ current.start + current.len = pre.length) →
    ZeroSpan l (zeroes rest pre.length longest current) := by
  intro rest
  induction rest with
  | nil => intro pre longest current _ hlong _ _; exact hlong
  | cons s rest ih =>
    intro pre longest current hl hlong hcur hend
    have hl' : l = (pre ++ [s]) ++ rest := by rw [hl, List.append_assoc]; rfl
    have hlen : (pre ++ [s]).length = pre.length + 1 := by simp
    unfold zeroes
    split
    · rename_i hs
      have hnew : ZeroSpan l ⟨if current.len = 0 then pre.length else current.start, current.len + 1⟩ := by
        intro j h1 h2
        by_cases hj : j = pre.length
        · subst hj; rw [hl, hs]; simp
        · refine hcur j ?_ ?_ <;> split at h1 <;> split at h2 <;> simp only at * <;> omega
      rw [← hlen]
      refine ih _ _ _ hl' ?_ hnew ?_
      · exact (em _).elim (fun h => if_pos h ▸ hnew) (fun h => if_neg h ▸ hlong)
      · right
        simp only [hlen]
        split <;> omega
    · rw [← hlen]
      exact ih _ _ _ hl' hlong (fun j h1 h2 => by simp at h1 h2) (.inl rfl)

theorem segments_eq_append (x : Ipv6Addr) {z : Span} (hz : zeroes x.segments 0 ⟨0, 0⟩ ⟨0, 0⟩ = z) :
    x.segments = x.segments.take z.start ++ List.replicate z.len 0 ++ x.segments.drop (z.start + z.len) := by
  have hnil : ZeroSpan x.segments ⟨0, 0⟩ := fun j _ h => by simp at h
  have h := zeroSpan_zeroes x.segments x.segments [] ⟨0, 0⟩ ⟨0, 0⟩ rfl hnil hnil (.inl rfl)
  rw [List.length_nil, hz] at h
  exact h.eq_append

def pieces (chunk : List UInt16) : List (List Char) := chunk.map fun s => Nat.toDigits 16 s.toNat

theorem pieces_injective : Function.Injective pieces :=
  List.map_injective_iff.2 (toDigits_toNat_injective16 (by decide) (by decide))

theorem nil_notMem_pieces (chunk : List UInt16) : [] ∉ pieces chunk := by
  simp [pieces]

theorem colon_notMem_pieces (chunk : List UInt16) : ∀ l ∈ pieces chunk, ':' ∉ l := by
  intro l hl
  obtain ⟨s, -, rfl⟩ := List.mem_map.1 hl
  exact Nat.notMem_toDigits (by decide) (by decide) (by decide)

theorem splitOn_fmtSubslice (chunk : List UInt16) :
    (fmtSubslice chunk).splitOn ':' = if chunk = [] then [[]] else pieces chunk := by
  split
  · rename_i h; subst h; rfl
  · rename_i h
    exact List.splitOn_intercalate ':' (colon_notMem_pieces chunk) (by simpa [pieces] using h)

theorem takeWhile_splitOn (chunk : List UInt16) (tail : List (List Char)) :
    ((fmtSubslice chunk).splitOn ':' ++ [] :: tail).takeWhile (· ≠ []) = pieces chunk := by
  rw [splitOn_fmtSubslice]
  split
  · rename_i h; subst h; rfl
  · rw [List.takeWhile_append_of_pos]
    · simp
    · intro l hl; simpa using fun h : l = [] => nil_notMem_pieces chunk (h ▸ hl)

theorem takeWhile_reverse_splitOn (chunk : List UInt16) (tail : List (List Char)) :
    (((fmtSubslice chunk).splitOn ':').reverse ++ [] :: tail).takeWhile (· ≠ []) =
      (pieces chunk).reverse := by
  rw [splitOn_fmtSubslice]
  split
  · rename_i h; subst h; rfl
  · rw [List.takeWhile_append_of_pos]
    · simp
    · intro l hl
      simpa using fun h : l = [] => nil_notMem_pieces chunk (h ▸ List.mem_reverse.1 hl)

theorem compressed_injective {p q p' q' : List UInt16}
    (h : fmtSubslice p ++ ':' :: ':' :: fmtSubslice q = fmtSubslice p' ++ ':' :: ':' :: fmtSubslice q') :
    p = p' ∧ q = q' := by
  have hsplit : ∀ r t : List UInt16, (fmtSubslice r ++ ':' :: ':' :: fmtSubslice t).splitOn ':' =
      (fmtSubslice r).splitOn ':' ++ [] :: (fmtSubslice t).splitOn ':' := fun r t => by
    rw [List.splitOn_append_cons_self]
    exact congrArg _ (List.splitOn_append_cons_self [] (fmtSubslice t))
  have hs := congrArg (List.splitOn ':') h
  rw [hsplit, hsplit] at hs
  constructor
  · have hw := congrArg (List.takeWhile (· ≠ [])) hs
    rw [takeWhile_splitOn, takeWhile_splitOn] at hw
    exact pieces_injective hw
  · have hw := congrArg (fun l => (List.reverse l).takeWhile (· ≠ [])) hs
    simp only [List.reverse_append, List.reverse_cons, List.append_assoc, List.singleton_append] at hw
    rw [takeWhile_reverse_splitOn, takeWhile_reverse_splitOn] at hw
    exact pieces_injective (List.reverse_injective hw)

/-- A text with `::` has an empty piece, one without has none. -/
theorem compressed_ne_full {p q l : List UInt16} (hl : l ≠ []) :
    fmtSubslice p ++ ':' :: ':' :: fmtSubslice q ≠ fmtSubslice l := by
  intro h
  have hs := congrArg (List.splitOn ':') h
  rw [List.splitOn_append_cons_self, splitOn_fmtSubslice l, if_neg hl] at hs
  have : (':' :: fmtSubslice q).splitOn ':' = [] :: (fmtSubslice q).splitOn ':' :=
    List.splitOn_append_cons_self [] (fmtSubslice q)
  rw [this] at hs
  exact nil_notMem_pieces l (hs ▸ by simp)

theorem full_injective {l l' : List UInt16} (hl : l ≠ []) (hl' : l' ≠ [])
    (h : fmtSubslice l = fmtSubslice l') : l = l' := by
  have hs := congrArg (List.splitOn ':') h
  rw [splitOn_fmtSubslice, splitOn_fmtSubslice, if_neg hl, if_neg hl'] at hs
  exact pieces_injective hs

theorem segments_ne_nil (x : Ipv6Addr) : x.segments ≠ [] := by simp [segments]

theorem mem_intercalate {sep : List Char} {c : Char} :
    ∀ {ls : List (List Char)}, c ∈ sep.intercalate ls → c ∈ sep ∨ ∃ l ∈ ls, c ∈ l
  | [], h => by simp at h
  | [l], h => .inr ⟨l, by simp, by simpa using h⟩
  | l :: l' :: ls, h => by
    rw [List.intercalate_cons_cons, List.mem_append, List.mem_append] at h
    rcases h with (h | h) | h
    · exact .inr ⟨l, by simp, h⟩
    · exact .inl h
    · rcases mem_intercalate h with h | ⟨l'', hl, h⟩
      · exact .inl h
      · exact .inr ⟨l'', List.mem_cons_of_mem _ hl, h⟩

theorem notMem_fmtSubslice (chunk : List UInt16) {c : Char} (hc : c ≠ ':')
    (h : ∀ d < 16, c ≠ Nat.digitChar d) : c ∉ fmtSubslice chunk := by
  intro hm
  rcases mem_intercalate hm with hm | ⟨l, hl, hm⟩
  · exact hc (List.mem_singleton.1 hm)
  · obtain ⟨s, -, rfl⟩ := List.mem_map.1 hl
    exact Nat.notMem_toDigits (by decide) (by decide) h hm

theorem notMem_text (x : Ipv6Addr) {c : Char} (hc : c ≠ ':') (hc' : c ≠ '.')
    (h : ∀ d < 16, c ≠ Nat.digitChar d) : c ∉ x.text := by
  have hf : c ≠ 'f' := h 15 (by decide)
  unfold text
  split
  · simp [hc, hf, Ipv4Addr.notMem_text _ hc' h]
  · simp only
    split <;> simp [hc, notMem_fmtSubslice _ hc h]

theorem dot_notMem_text {x : Ipv6Addr} (hx : x.toIpv4Mapped = none) : '.' ∉ x.text := by
  have hn : ∀ chunk, '.' ∉ fmtSubslice chunk := fun chunk =>
    notMem_fmtSubslice chunk (by decide) (by decide)
  unfold text
  rw [hx]
  simp only
  split <;> simp [hn]

theorem colon_mem_text (x : Ipv6Addr) : ':' ∈ x.text := by
  unfold text
  split
  · simp
  · simp only
    split
    · simp
    · simp [fmtSubslice, segments, List.intercalate]

theorem toIpv4Mapped_injective {x y : Ipv6Addr} {a : Ipv4Addr} (hx : x.toIpv4Mapped = some a)
    (hy : y.toIpv4Mapped = some a) : x = y := by
  have hbytes : ∀ s t : UInt16, (s >>> 8).toUInt8 = (t >>> 8).toUInt8 → s.toUInt8 = t.toUInt8 → s = t := by
    intro s t h1 h2
    have h1 := congrArg UInt8.toNat h1
    have h2 := congrArg UInt8.toNat h2
    have hs := s.toNat_lt
    have ht := t.toNat_lt
    simp only [UInt16.toNat_toUInt8, UInt16.toNat_shiftRight] at h1 h2
    refine UInt16.toNat_inj.1 ?_
    simp [Nat.shiftRight_eq_div_pow] at h1
    omega
  cases x; cases y
  simp only [toIpv4Mapped] at hx hy
  split at hx
  · split at hy
    · rename_i h1 h2
      obtain rfl := Option.some.inj hx
      simp only [Option.some.injEq, Ipv4Addr.mk.injEq] at hy
      obtain ⟨e1, e2, e3, e4⟩ := hy
      obtain ⟨rfl, rfl, rfl, rfl, rfl, rfl⟩ := h1
      obtain ⟨rfl, rfl, rfl, rfl, rfl, rfl⟩ := h2
      rw [hbytes _ _ e1 e2, hbytes _ _ e3 e4]
    · cases hy
  · cases hx

/-- The segments are what stands left and right of the longest run of zeros, and zeros for the rest
up to the eight segments of an address. -/
theorem segments_of_compressed {x y : Ipv6Addr} {z z' : Span}
    (hz : zeroes x.segments 0 ⟨0, 0⟩ ⟨0, 0⟩ = z) (hz' : zeroes y.segments 0 ⟨0, 0⟩ ⟨0, 0⟩ = z')
    (hl : x.segments.take z.start = y.segments.take z'.start)
    (hr : x.segments.drop (z.start + z.len) = y.segments.drop (z'.start + z'.len)) : x = y := by
  have hx := segments_eq_append x hz
  have hy := segments_eq_append y hz'
  have hlen : z.len = z'.len := by
    have h1 := congrArg List.length hx
    have h2 := congrArg List.length hy
    rw [← hl, ← hr] at h2
    simp only [List.length_append, List.length_replicate] at h1 h2
    have : x.segments.length = y.segments.length := rfl
    omega
  refine segments_injective ?_
  rw [hx, hy, hl, hr, hlen]

theorem text_injective {x y : Ipv6Addr} (h : x.text = y.text) : x = y := by
  cases hx : x.toIpv4Mapped with
  | some a =>
    cases hy : y.toIpv4Mapped with
    | some b =>
      simp only [text, hx, hy] at h
      have hab := Ipv4Addr.text_injective (List.append_cancel_left h)
      exact toIpv4Mapped_injective hx (hab ▸ hy)
    | none =>
      refine absurd ?_ (dot_notMem_text hy)
      rw [← h, text, hx]
      exact List.mem_append_right _ a.dot_mem_text
  | none =>
    cases hy : y.toIpv4Mapped with
    | some b =>
      refine absurd ?_ (dot_notMem_text hx)
      rw [h, text, hy]
      exact List.mem_append_right _ b.dot_mem_text
    | none =>
      simp only [text, hx, hy] at h
      split at h <;> split at h
      · obtain ⟨hl, hr⟩ := compressed_injective h
        exact segments_of_compressed rfl rfl hl hr
      · exact absurd h (compressed_ne_full y.segments_ne_nil)
      · exact absurd h.symm (compressed_ne_full x.segments_ne_nil)
      · exact segments_injective (full_injective x.segments_ne_nil y.segments_ne_nil h)

end Ipv6Addr

namespace IpAddr

theorem text_injective : Function.Injective text := by
  intro x y h
  cases x with
  | v4 a =>
    cases y with
    | v4 b => exact congrArg _ (Ipv4Addr.text_injective h)
    | v6 b =>
      have hc : ':' ∈ a.text := (show a.text = b.text from h) ▸ b.colon_mem_text
      exact absurd hc (a.notMem_text (by decide) (by decide))
  | v6 a =>
    cases y with
    | v4 b =>
      have hc : ':' ∈ b.text := (show a.text = b.text from h) ▸ a.colon_mem_text
      exact absurd hc (b.notMem_text (by decide) (by decide))
    | v6 b => exact congrArg _ (Ipv6Addr.text_injective h)

theorem notMem_text (x : IpAddr) {c : Char} (hc : c ≠ ':') (hc' : c ≠ '.')
    (h : ∀ d < 16, c ≠ Nat.digitChar d) : c ∉ x.text := by
  cases x with
  | v4 a => exact a.notMem_text hc' h
  | v6 a => exact a.notMem_text hc hc' h

example : (IpAddr.v6 ⟨0x2001, 0xdb8, 0, 0, 1, 0, 0, 0⟩).text = "2001:db8:0:0:1::".toList := by decide
example : (IpAddr.v6 ⟨0, 0, 0, 0, 0, 0xffff, 0x0a00, 0x0001⟩).text = "::ffff:10.0.0.1".toList := by decide

end IpAddr
