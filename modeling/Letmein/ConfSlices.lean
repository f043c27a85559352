import Letmein.ConfLoad
import Letmein.Lib.Utf8
import Letmein.Panic

/-!
# The slices of the parsers (`ini.rs`, `parse_items.rs`, `parse.rs` of `letmein-conf`)

The parsers cut a string at positions in bytes, and a position that is outside of the string or inside of a
character panics. Here are the parsers with the positions that the source computes, where `Letmein.Ini` and
`Letmein.ConfLoad` cut a text at its separators. `parsers_never_panic` says that both always return the same.
-/

namespace Letmein.Sliced
open Text

/-- A call that returns a value or an error, or panics. -/
abbrev Fallible := ExceptT String (Except Panic)

/-- The call that returns `x`. -/
def returns {α : Type} (x : Except String α) : Fallible α := ExceptT.mk (.ok x)

/-! ## Slices -/

/-- `&s[start..stop]` -/
def index (s : Text) (start stop : Nat) : Fallible Text :=
  match slice s start stop with
  | some part => pure part
  | none => ExceptT.lift (.error .slice)

/-- `&s[..=last]` -/
def indexTo (s : Text) (last : Nat) : Fallible Text := index s 0 (last + 1)

/-- `&s[start..]` -/
def indexFrom (s : Text) (start : Nat) : Fallible Text := index s start (len s)

/-! ## The parsers -/

def parseHeader (p : Ini.Parser) (line : Text) : Fallible Ini.Parser := do
  let line := trimEnd line
  let shown := String.ofList line
  if line.getLast? = some ']' then
    let beginChlen := len ['[']
    let endChlen := len [']']
    let stop ← ExceptT.lift (checkedSub (len line) endChlen)
    let sname ← index line beginChlen stop
    if sname.isEmpty then throw s!"Section name is empty: '{shown}'"
    else if sname ∈ p.sections then throw s!"Duplicate section name: '{shown}'"
    else return p.startSection sname
  else throw s!"Invalid section name: '{shown}'"

def parseOption (p : Ini.Parser) (line : Text) : Fallible Ini.Parser :=
  let shown := String.ofList line
  match h : p.inSection with
  | none => throw s!"Option is not inside of a section: '{shown}'"
  | some sect =>
    match find '=' line with
    | none => throw s!"Option has no equal sign '=': '{shown}'"
    | some idx => do
      let chlen := len ['=']
      if chlen ≤ idx then
        let last ← ExceptT.lift (checkedSub idx chlen)
        let name ← indexTo line last
        let value ← indexFrom line (idx + chlen)
        return p.insertOption sect h (trimEnd name) value
      else throw s!"Option has no name before equal sign '=': '{shown}'"

def parseLine (p : Ini.Parser) (line : Text) : Fallible Ini.Parser :=
  let line := trimStart line
  match line with
  | [] => return p
  | '#' :: _ => return p
  | '[' :: _ => parseHeader p line
  | _ => parseOption p line

/-- `Ini::parse_str` -/
def parseStr (ini : Ini) (content : Text) : Except Panic (Except String Unit × Ini) := do
  let read ← ((lines content).foldlM parseLine .start).run
  -- The sections are replaced if every line was read.
  return (read.map fun _ => (), read.toOption.elim ini Ini.Parser.toIni)

def mapItem (item : Text) : Fallible MapItem :=
  match find ':' item with
  | some idx => do
    let chlen := len [':']
    if idx < chlen then throw "Invalid item key."
    else
      let last ← ExceptT.lift (checkedSub idx chlen)
      let key ← indexTo item last
      if (trim key).isEmpty then throw "Invalid item key."
      else
        let value ← indexFrom item (idx + chlen)
        if (find ',' value).isSome then return .keyValues (trim key) ((value.splitOn ',').map trim)
        else return .keyValue (trim key) (trim value)
  | none => return .values ((item.splitOn ',').map trim)

/-- `Map::from_str` -/
def mapItems (s : Text) : Fallible (List MapItem) := (s.splitOn '/').mapM mapItem

def parseHexdigit (s : Text) : Fallible UInt8 := do
  ExceptT.lift (check (len s = 1) .hexdigitLen)
  let digit ← returns (fromStrRadix 16 0xFF s)
  return UInt8.ofNat digit

/-- The byte that two digits give. -/
def parseByte (s : Text) (i : Nat) : Fallible UInt8 := do
  let hi ← index s (i * 2) (i * 2 + 1)
  let hi ← parseHexdigit hi
  let lo ← index s (i * 2 + 1) (i * 2 + 2)
  let lo ← parseHexdigit lo
  return hi <<< 4 ||| lo

def parseHex (size : Nat) (s : Text) : Fallible (List UInt8) :=
  let s := trim s
  if !isAscii s then throw "Hex string contains invalid characters."
  else if len s ≠ size * 2 then throw s!"Hex string is too short: Expected {size * 2}, got {len s} chars"
  else (List.range size).mapM (parseByte s)

/-! ## Calls that return -/

variable {α β σ : Type} {s before after part : Text} {c : Char} {i j : Nat}

theorem returns_bind {x : Except String α} {f : α → Fallible β} {g : α → Except String β}
    (h : ∀ a, f a = returns (g a)) : returns x >>= f = returns (x >>= g) := by
  cases x with
  | error e => rfl
  | ok a => exact h a

theorem foldlM_returns {f : σ → α → Fallible σ} {g : σ → α → Except String σ} (h : ∀ s a, f s a = returns (g s a))
    (l : List α) (s : σ) : l.foldlM f s = returns (l.foldlM g s) := by
  induction l generalizing s with
  | nil => rfl
  | cons a l ih =>
    rw [List.foldlM_cons, List.foldlM_cons, h]
    exact returns_bind ih

theorem mapM_returns {f : α → Fallible β} {g : α → Except String β} (h : ∀ a, f a = returns (g a)) (l : List α) :
    l.mapM f = returns (l.mapM g) := by
  induction l with
  | nil => rfl
  | cons a l ih =>
    rw [List.mapM_cons, List.mapM_cons, h, ih]
    exact returns_bind fun b => returns_bind fun bs => rfl

theorem index_eq (h : slice s i j = some part) : index s i j = pure part := by
  rw [index, h]

theorem checkedSub_le (h : j ≤ i) : checkedSub i j = .ok (i - j) := if_pos h

/-- The parts around the first separator. -/
theorem index_separator (hc : c.toNat < 128) (h : splitOnce c s = some (before, after)) :
    find c s = some (len before) ∧ (before ≠ [] → indexTo s (len before - 1) = pure before) ∧
      indexFrom s (len before + 1) = pure after := by
  obtain ⟨rfl, hnot⟩ := splitOnce_eq_some_iff.1 h
  refine ⟨find_append hc hnot, fun hne => index_eq ?_, index_eq ?_⟩
  · have hpos := len_pos hne
    rw [Nat.sub_add_cancel hpos]
    exact slice_start before (c :: after)
  · have hsplit : before ++ c :: after = (before ++ [c]) ++ after := by simp
    have hlen : len before + 1 = len (before ++ [c]) := by rw [len_append, len_ascii hc]
    rw [hsplit, hlen]
    exact slice_end (before ++ [c]) after

/-! ## Every call returns -/

variable {p : Ini.Parser} {line item : Text}

/-- A header that ends in a bracket has its name between two characters of one byte. -/
theorem index_header {rest : Text} (h : ('[' :: rest).getLast? = some ']') :
    len [']'] ≤ len ('[' :: rest) ∧
    index ('[' :: rest) (len ['[']) (len ('[' :: rest) - len [']']) = pure ('[' :: rest).tail.dropLast := by
  obtain ⟨sname, hrest⟩ : ∃ sname, rest = sname ++ [']'] := by
    rcases List.eq_nil_or_concat' rest with rfl | ⟨sname, last, rfl⟩
    · simp at h
    · rw [← List.cons_append, List.getLast?_concat] at h
      exact ⟨sname, by rw [Option.some.inj h]⟩
  subst hrest
  have hline : '[' :: (sname ++ [']']) = ['['] ++ sname ++ [']'] := rfl
  rw [hline, len_append]
  refine ⟨Nat.le_add_left _ _, index_eq ?_⟩
  have hname : (['['] ++ sname ++ [']']).tail.dropLast = sname := List.dropLast_concat
  rw [Nat.add_sub_cancel, len_append, hname]
  exact slice_append ['['] sname [']']

theorem parseHeader_returns (rest : Text) :
    parseHeader p ('[' :: rest) = returns (Ini.parseHeader p ('[' :: rest)) := by
  obtain ⟨rest', hrest'⟩ := trimEnd_cons (c := '[') (s := rest) (by decide)
  rw [parseHeader, Ini.parseHeader]
  simp only [hrest']
  by_cases hlast : ('[' :: rest').getLast? = some ']'
  · obtain ⟨hle, hindex⟩ := index_header hlast
    rw [if_pos hlast, if_pos hlast, checkedSub_le hle]
    show (index _ _ _ >>= _) = _
    rw [hindex]
    show ite _ _ _ = _
    split_ifs <;> rfl
  · rw [if_neg hlast, if_neg hlast]
    rfl

theorem parseOption_returns : parseOption p line = returns (Ini.parseOption p line) := by
  obtain ⟨sections, inSection, created⟩ := p
  rcases inSection with _ | sect
  · rfl
  · rcases hsplit : splitOnce '=' line with _ | ⟨name, value⟩
    · have hfind : find '=' line = none := (find_eq_none_iff (by decide)).2 (splitOnce_eq_none_iff.1 hsplit)
      simp only [parseOption, Ini.parseOption, hsplit, hfind]
      rfl
    · obtain ⟨hfind, hname, hvalue⟩ := index_separator (by decide) hsplit
      simp only [parseOption, Ini.parseOption, hsplit, hfind, len_ascii (c := '=') (by decide)]
      by_cases hempty : name = []
      · rw [hempty]
        rfl
      · have hpos := len_pos hempty
        rw [if_pos (Nat.succ_le_of_lt hpos), if_neg (by simpa using hempty), checkedSub_le hpos]
        show (indexTo _ _ >>= _) = _
        rw [hname hempty]
        show (indexFrom _ _ >>= _) = _
        rw [hvalue]
        rfl

theorem parseLine_returns : parseLine p line = returns (Ini.parseLine p line) := by
  simp only [parseLine]
  split
  · rename_i hline
    simp only [Ini.parseLine, hline]
    rfl
  · rename_i hline
    simp only [Ini.parseLine, hline]
    rfl
  · rename_i rest hline
    simp only [Ini.parseLine, hline]
    exact parseHeader_returns rest
  · rename_i hnil hcomment hheader
    have hoption : Ini.parseLine p line = Ini.parseOption p (trimStart line) := by simp only [Ini.parseLine]
    rw [hoption]
    exact parseOption_returns

theorem parseStr_returns (ini : Ini) (content : Text) : parseStr ini content = .ok (ini.parseStr content) := by
  have hstart : Ini.Parser.start = {} := rfl
  rw [parseStr, Ini.parseStr, hstart, foldlM_returns fun p line => parseLine_returns]
  rcases (lines content).foldlM Ini.parseLine {} with e | p <;> rfl

theorem mapItem_returns : mapItem item = returns (Letmein.mapItem item) := by
  rcases hsplit : splitOnce ':' item with _ | ⟨key, value⟩
  · have hfind : find ':' item = none := (find_eq_none_iff (by decide)).2 (splitOnce_eq_none_iff.1 hsplit)
    simp only [mapItem, Letmein.mapItem, hsplit, hfind]
    rfl
  · obtain ⟨hfind, hkey, hvalue⟩ := index_separator (by decide) hsplit
    simp only [mapItem, Letmein.mapItem, hsplit, hfind, len_ascii (c := ':') (by decide)]
    by_cases hempty : key = []
    · rw [hempty]
      rfl
    · have hpos := len_pos hempty
      have hcomma : (find ',' value).isSome ↔ ',' ∈ value := by
        rw [← not_iff_not, Bool.not_eq_true, Option.isSome_eq_false_iff, Option.isNone_iff_eq_none]
        exact find_eq_none_iff (by decide)
      rw [if_neg (by omega), if_neg (by simpa using hempty), checkedSub_le hpos]
      show (indexTo _ _ >>= _) = _
      rw [hkey hempty]
      show ite _ _ _ = _
      by_cases hblank : (trim key).isEmpty
      · rw [if_pos hblank, if_pos hblank]
        rfl
      · rw [if_neg hblank, if_neg hblank, hvalue]
        show ite _ _ _ = _
        simp only [hcomma]
        split_ifs <;> rfl

theorem mapItems_returns (s : Text) : mapItems s = returns (Letmein.mapItems s) :=
  mapM_returns (fun _ => mapItem_returns) (s.splitOn '/')

/-! ## Hexadecimal digits -/

theorem parseHexdigit_returns {d : Char} (hd : d.toNat < 128) :
    parseHexdigit [d] = returns (Letmein.parseHexdigit d) := by
  have hlen : check (len [d] = 1) .hexdigitLen = .ok () := if_pos (len_ascii hd)
  rw [parseHexdigit, hlen]
  show (returns _ >>= _) = _
  exact returns_bind fun _ => rfl

/-- The bytes from position `k` on are those of the digits that are left. -/
theorem parseBytes_returns {read left : Text} (hs : isAscii (read ++ left)) {k n : Nat} (hread : read.length = k * 2)
    (hleft : left.length = n * 2) : (List.range' k n).mapM (parseByte (read ++ left)) =
      returns (List.Vector.toList <$> parseHexdigits n left hleft) := by
  induction n generalizing read left k with
  | zero => rfl
  | succ n ih =>
    obtain ⟨hi, lo, left, rfl⟩ : ∃ hi lo left', left = hi :: lo :: left' := by
      rcases left with _ | ⟨hi, _ | ⟨lo, left⟩⟩
      · simp at hleft
      · simp at hleft
        omega
      · exact ⟨hi, lo, left, rfl⟩
    have hparts : isAscii read ∧ hi.toNat < 128 ∧ lo.toNat < 128 := by
      simp only [isAscii, List.all_append, List.all_cons, Bool.and_eq_true, decide_eq_true_iff] at hs
      exact ⟨hs.1, hs.2.1, hs.2.2.1⟩
    obtain ⟨hascii, hhi, hlo⟩ := hparts
    have hlen : len read = k * 2 := by rw [len_of_isAscii hascii, hread]
    have hslice : index (read ++ hi :: lo :: left) (k * 2) (k * 2 + 1) = pure [hi] := by
      have h := slice_append read [hi] (lo :: left)
      rw [hlen, len_ascii hhi] at h
      exact index_eq (by rw [← h]; simp)
    have hslice' : index (read ++ hi :: lo :: left) (k * 2 + 1) (k * 2 + 2) = pure [lo] := by
      have h := slice_append (read ++ [hi]) [lo] left
      rw [len_append, hlen, len_ascii hhi, len_ascii hlo] at h
      exact index_eq (by rw [← h]; simp)
    have hrest : (List.range' (k + 1) n).mapM (parseByte (read ++ hi :: lo :: left)) =
        returns (List.Vector.toList <$> parseHexdigits n left (by simp at hleft; omega)) := by
      have happend : read ++ hi :: lo :: left = (read ++ [hi, lo]) ++ left := by simp
      rw [happend] at hs ⊢
      exact ih hs (by simp [hread]; omega) (by simp at hleft; omega)
    have hbyte : parseByte (read ++ hi :: lo :: left) k = returns (do
        let hi ← Letmein.parseHexdigit hi
        let lo ← Letmein.parseHexdigit lo
        return hi <<< 4 ||| lo) := by
      rw [parseByte, hslice]
      show (parseHexdigit [hi] >>= _) = _
      rw [parseHexdigit_returns hhi]
      refine returns_bind fun h => ?_
      rw [hslice']
      show (parseHexdigit [lo] >>= _) = _
      rw [parseHexdigit_returns hlo]
      exact returns_bind fun l => rfl
    rw [List.range'_succ, List.mapM_cons, hbyte, hrest, parseHexdigits]
    rcases Letmein.parseHexdigit hi with e | h
    · rfl
    · rcases Letmein.parseHexdigit lo with e | l
      · rfl
      · rcases parseHexdigits n left _ with e | bytes <;> rfl

theorem parseHex_returns (size : Nat) (s : Text) :
    parseHex size s = returns (List.Vector.toList <$> Letmein.parseHex size s) := by
  simp only [parseHex, Letmein.parseHex]
  by_cases hascii : isAscii (trim s)
  · have hlen := len_of_isAscii hascii
    rw [hascii, Bool.not_true, if_neg Bool.false_ne_true, if_neg Bool.false_ne_true, hlen]
    by_cases hsize : (trim s).length = size * 2
    · rw [if_neg (not_not.2 hsize), dif_pos hsize, List.range_eq_range']
      exact @parseBytes_returns [] (trim s) hascii 0 size rfl hsize
    · rw [if_pos hsize, dif_neg hsize]
      rfl
  · rw [Bool.not_eq_true] at hascii
    rw [hascii, Bool.not_false, if_pos rfl, if_pos rfl]
    rfl

/-! ## All slices -/

/-- A string of bytes that is valid UTF-8 is the encoding of one text. For every text the parsers return what
their models on texts return, so no slice panics, and the slices around a separator that is not the first character
are the text before it and the text after it. -/
theorem parsers_never_panic :
    (∀ ini content, parseStr ini content = .ok (ini.parseStr content)) ∧
    (∀ s, mapItems s = returns (Letmein.mapItems s)) ∧
    (∀ size s, parseHex size s = returns (List.Vector.toList <$> Letmein.parseHex size s)) ∧
    ∀ c ∈ ['=', ':'], ∀ s idx, find c s = some idx → len [c] ≤ idx → ∃ before after, s = before ++ c :: after ∧
      c ∉ before ∧ indexTo s (idx - len [c]) = pure before ∧ indexFrom s (idx + len [c]) = pure after := by
  refine ⟨parseStr_returns, mapItems_returns, parseHex_returns, fun c hc s idx hfind hidx => ?_⟩
  have hascii : c.toNat < 128 := by
    rcases List.mem_pair.1 hc with rfl | rfl <;> decide
  rcases hsplit : splitOnce c s with _ | ⟨before, after⟩
  · rw [(find_eq_none_iff hascii).2 (splitOnce_eq_none_iff.1 hsplit)] at hfind
    cases hfind
  · obtain ⟨hs, hnot⟩ := splitOnce_eq_some_iff.1 hsplit
    obtain ⟨hfind', hbefore, hafter⟩ := index_separator hascii hsplit
    rw [hfind'] at hfind
    cases hfind
    rw [len_ascii hascii] at hidx ⊢
    refine ⟨before, after, hs, hnot, hbefore ?_, hafter⟩
    rintro rfl
    simp at hidx

end Letmein.Sliced
