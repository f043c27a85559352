import Letmein.ConfUnique
import Letmein.IniSpec
import Letmein.Lib.Hex

/-!
# Generated keys (`letmein/src/command/genkey.rs`)

`runGenkey` prints a line that is meant to be copied into the section `[KEYS]` of a configuration. The line is read
back to the user and the key it was printed for, and so are all lines of a section that is made of such lines.
-/

namespace Letmein
open Text

/-- `secure_random`, with the bytes that the operating system gave. -/
def secureRandom {size : Nat} (buf : List.Vector UInt8 size) : Except Panic (List.Vector UInt8 size) := do
  check (8 ≤ size) .random
  check (buf ≠ List.Vector.replicate size 0) .random
  check (buf ≠ List.Vector.replicate size 0xFF) .random
  check (!buf.toList.all fun x => buf.toList.head? == some x) .random
  return buf

/-- The bytes of a key, each as `{:02X}` shows it. -/
def keyText (key : List UInt8) : Text := key.flatMap fun b => upperHex 2 b.toNat

/-- The line of a user without its line feed. -/
def genkeyLine (user : UserId) (key : Key) : Text :=
  (idText user.id).toList ++ " = ".toList ++ keyText key.toList

/-- What is printed, with the bytes that the operating system gave for the key. -/
def runGenkey (conf : Config) (user : Option UserId) (random : Key) : Except Panic Text := do
  let user := user.getD conf.defaultUser
  let key ← secureRandom random
  return genkeyLine user key ++ ['\n']

/-! ## Random keys -/

/-- `secure_random` does not return bytes that are all the same. -/
theorem secureRandom_ok_iff {key : Key} :
    secureRandom key = .ok key ↔ ∀ b, key ≠ List.Vector.replicate 32 b := by
  have hfirst : (key.toList.all fun x => key.toList.head? == some x) ↔ ∃ b, key = List.Vector.replicate 32 b := by
    simp only [List.all_eq_true, beq_iff_eq]
    constructor
    · intro h
      obtain ⟨b, rest, hkey⟩ := List.Vector.exists_eq_cons key
      refine ⟨b, List.Vector.toList_injective ?_⟩
      refine List.eq_replicate_iff.2 ⟨key.toList_length, fun x hx => ?_⟩
      have hhead := h x hx
      rw [hkey, List.Vector.toList_cons] at hhead
      cases hhead
      rfl
    · rintro ⟨b, rfl⟩ x hx
      rw [List.eq_of_mem_replicate hx]
      rfl
  constructor
  · intro h b hb
    obtain ⟨_, -, h⟩ := Except.bind_ok h
    obtain ⟨_, -, h⟩ := Except.bind_ok h
    obtain ⟨_, -, h⟩ := Except.bind_ok h
    obtain ⟨_, hcheck, -⟩ := Except.bind_ok h
    have hnot := check_ok hcheck
    rw [hfirst.2 ⟨b, hb⟩] at hnot
    cases hnot
  · intro h
    have hnot : (!key.toList.all fun x => key.toList.head? == some x) = true := by
      rw [Bool.not_eq_true', ← Bool.not_eq_true, hfirst]
      rintro ⟨b, hb⟩
      exact h b hb
    rw [secureRandom, check, if_pos (by decide), check, if_pos (h 0), check, if_pos (h 0xFF), check, if_pos hnot]
    rfl

/-! ## Numbers -/

theorem idText_toList (id : UInt32) : (idText id).toList = upperHex 8 id.toNat := by
  rw [idText, String.toList_ofList]
  rfl

theorem isHexDigit_of_mem_keyText {key : List UInt8} {c : Char} (h : c ∈ keyText key) : IsHexDigit c := by
  obtain ⟨b, -, hc⟩ := List.mem_flatMap.1 h
  exact isHexDigit_of_mem_upperHex hc

theorem trim_upperHex (w n : Nat) : trim (upperHex w n) = upperHex w n :=
  trim_eq_self fun _ hc => (isHexDigit_of_mem_upperHex hc).not_whitespace

/-- The id parser undoes the id formatting. -/
theorem userId_fromStr_idText (id : UserId) : UserId.fromStr (idText id.id).toList = .ok id := by
  have hle : id.id.toNat ≤ 0xFFFFFFFF := Nat.le_of_lt_succ id.id.toNat_lt
  rw [UserId.fromStr, parseId, idText_toList, trim_upperHex, fromStrRadix_upperHex hle]
  show Except.ok (UserId.mk (UInt32.ofNat id.id.toNat)) = _
  rw [UInt32.ofNat_toNat]

theorem upperHex_byte : ∀ n < 256, upperHex 2 n = [hexDigit (n / 16), hexDigit (n % 16)] := by decide +kernel

theorem nibbles : ∀ n < 256, UInt8.ofNat (n / 16) <<< 4 ||| UInt8.ofNat (n % 16) = UInt8.ofNat n := by
  decide +kernel

theorem parseHexdigit_hexDigit : ∀ d < 16, parseHexdigit (hexDigit d) = .ok (UInt8.ofNat d) := by decide

theorem keyText_cons (b : UInt8) (key : List UInt8) :
    keyText (b :: key) = hexDigit (b.toNat / 16) :: hexDigit (b.toNat % 16) :: keyText key := by
  rw [keyText, List.flatMap_cons, upperHex_byte _ b.toNat_lt]
  rfl

theorem keyText_length (key : List UInt8) : (keyText key).length = key.length * 2 := by
  induction key with
  | nil => rfl
  | cons b key ih =>
    rw [keyText_cons, List.length_cons, List.length_cons, ih, List.length_cons]
    omega

theorem parseHexdigits_keyText {size : Nat} (key : List.Vector UInt8 size) (s : Text) (h : s.length = size * 2)
    (hs : s = keyText key.toList) : parseHexdigits size s h = .ok key := by
  induction size generalizing s with
  | zero =>
    rw [List.Vector.eq_nil key]
    rfl
  | succ size ih =>
    obtain ⟨b, key, rfl⟩ := List.Vector.exists_eq_cons key
    rw [List.Vector.toList_cons, keyText_cons] at hs
    subst hs
    have hb := b.toNat_lt
    have hrest := ih key (keyText key.toList) (by rw [keyText_length, List.Vector.toList_length]) rfl
    simp only [parseHexdigits, parseHexdigit_hexDigit _ (show b.toNat / 16 < 16 by omega),
      parseHexdigit_hexDigit _ (Nat.mod_lt b.toNat (show 0 < 16 by decide)), hrest, bind, Except.bind, pure, Except.pure]
    rw [nibbles _ hb, UInt8.ofNat_toNat]

/-- `parse_hex` undoes the formatting of a key, with a blank before it or without. -/
theorem parseHex_keyText (key : Key) {s : Text} (hs : trim s = keyText key.toList) : parseHex 32 s = .ok key := by
  have hascii : isAscii (keyText key.toList) = true := by
    rw [isAscii, List.all_eq_true]
    intro c hc
    exact decide_eq_true (isHexDigit_of_mem_keyText hc).ascii
  have hlen : (keyText key.toList).length = 32 * 2 := by rw [keyText_length, List.Vector.toList_length]
  simp only [parseHex, hs, hascii]
  rw [if_neg (by decide), dif_pos hlen, parseHexdigits_keyText key _ hlen rfl]

/-! ## One line -/

variable {user : UserId} {key : Key} {l : List (UserId × Key)}

theorem genkeyLine_eq (user : UserId) (key : Key) :
    genkeyLine user key = (upperHex 8 user.id.toNat ++ [' ']) ++ '=' :: ' ' :: keyText key.toList := by
  rw [genkeyLine, idText_toList]
  simp

/-- The line starts with a digit. -/
theorem genkeyLine_head (user : UserId) (key : Key) :
    ∃ c rest, genkeyLine user key = c :: rest ∧ IsHexDigit c := by
  rw [genkeyLine_eq]
  rcases h : upperHex 8 user.id.toNat with _ | ⟨c, rest⟩
  · exact absurd h upperHex_ne_nil
  · refine ⟨c, _, rfl, isHexDigit_of_mem_upperHex (w := 8) (n := user.id.toNat) ?_⟩
    rw [h]
    exact List.mem_cons_self

theorem trimStart_genkeyLine (user : UserId) (key : Key) : trimStart (genkeyLine user key) = genkeyLine user key := by
  obtain ⟨c, rest, hline, hc⟩ := genkeyLine_head user key
  rw [hline, trimStart_cons hc.not_whitespace]

/-- A character of the line is a digit, a blank or the equal sign. -/
theorem mem_genkeyLine {c : Char} (h : c ∈ genkeyLine user key) : IsHexDigit c ∨ c = ' ' ∨ c = '=' := by
  rw [genkeyLine_eq] at h
  simp only [List.mem_append, List.mem_cons, List.not_mem_nil, or_false] at h
  rcases h with (h | h) | h | h | h
  · exact .inl (isHexDigit_of_mem_upperHex h)
  · exact .inr (.inl h)
  · exact .inr (.inr h)
  · exact .inr (.inl h)
  · exact .inl (isHexDigit_of_mem_keyText h)

theorem splitOnce_genkeyLine (user : UserId) (key : Key) :
    splitOnce '=' (genkeyLine user key) = some (upperHex 8 user.id.toNat ++ [' '], ' ' :: keyText key.toList) := by
  rw [genkeyLine_eq]
  refine splitOnce_append fun h => ?_
  rcases List.mem_append.1 h with h | h
  · exact (isHexDigit_of_mem_upperHex h).ne (by simp)
  · simp at h

theorem headerName_genkeyLine (user : UserId) (key : Key) : Ini.headerName (genkeyLine user key) = none := by
  obtain ⟨c, rest, hline, hc⟩ := genkeyLine_head user key
  unfold Ini.headerName
  split
  · rename_i rest' h
    rw [trimStart_genkeyLine, hline] at h
    cases h
    exact absurd (by simp) hc.ne
  · rfl

/-- The line sets an option with the name of the user. -/
theorem optionOf_genkeyLine (user : UserId) (key : Key) :
    Ini.optionOf (genkeyLine user key) = some ((idText user.id).toList, ' ' :: keyText key.toList) := by
  obtain ⟨c, rest, hline, hc⟩ := genkeyLine_head user key
  have hname : trimEnd (upperHex 8 user.id.toNat ++ [' ']) = (idText user.id).toList := by
    rw [trimEnd_eq, List.rdropWhile_concat_pos _ _ _ (by decide), ← trimEnd_eq, idText_toList]
    exact trimEnd_eq_self fun _ hc => (isHexDigit_of_mem_upperHex hc).not_whitespace
  unfold Ini.optionOf
  split
  · rename_i h
    rw [trimStart_genkeyLine, hline] at h
    cases h
  · rename_i rest' h
    rw [trimStart_genkeyLine, hline] at h
    cases h
    exact absurd (by simp) hc.ne
  · rename_i rest' h
    rw [trimStart_genkeyLine, hline] at h
    cases h
    exact absurd (by simp) hc.ne
  · rw [trimStart_genkeyLine, splitOnce_genkeyLine, Option.map_some, hname]

/-- The option is read to the user and the key. -/
theorem keyOf_genkeyLine (h : ∀ b, key ≠ List.Vector.replicate 32 b) :
    keyOf (idText user.id).toList (' ' :: keyText key.toList) = .ok (user, key) := by
  have htrim : trim (' ' :: keyText key.toList) = keyText key.toList := by
    rw [trim_cons (by decide)]
    exact trim_eq_self fun c hc => (isHexDigit_of_mem_keyText hc).not_whitespace
  rw [keyOf, userId_fromStr_idText, parseHex_keyText key htrim]
  show (if key = _ then _ else if key = _ then _ else _) = _
  rw [if_neg (h 0), if_neg (h 0xFF)]
  rfl

/-! ## All lines -/

/-- A section of printed lines. -/
def genkeyText (printed : List Text) : Text := "[KEYS]\n".toList ++ printed.flatten

def printedLines (l : List (UserId × Key)) : List Text := l.map fun e => genkeyLine e.1 e.2 ++ ['\n']

theorem lines_printed (l : List (UserId × Key)) :
    lines (printedLines l).flatten = l.map fun e => genkeyLine e.1 e.2 := by
  induction l with
  | nil => rfl
  | cons e l ih =>
    have hnot : ∀ c ∈ ['\n', '\r'], c ∉ genkeyLine e.1 e.2 := by
      intro c hc h
      rcases mem_genkeyLine h with hdigit | rfl | rfl
      · refine hdigit.ne ?_
        rcases List.mem_pair.1 hc with rfl | rfl <;> simp
      · exact absurd hc (by decide)
      · exact absurd hc (by decide)
    have hcr : (genkeyLine e.1 e.2).getLast? ≠ some '\r' := fun h => hnot '\r' (by simp) (List.mem_of_getLast? h)
    rw [printedLines, List.map_cons, List.flatten_cons, ← printedLines, List.append_assoc, List.singleton_append,
      lines_cons (hnot '\n' (by simp)) hcr, ih, List.map_cons]

theorem lines_genkeyText (l : List (UserId × Key)) :
    lines (genkeyText (printedLines l)) = "[KEYS]".toList :: l.map fun e => genkeyLine e.1 e.2 := by
  rw [← lines_printed]
  show lines ("[KEYS]".toList ++ '\n' :: (printedLines l).flatten) = _
  exact lines_cons (by decide) (by decide)

theorem genkeyText_accepted (ini : Ini) (l : List (UserId × Key)) :
    (ini.parseStr (genkeyText (printedLines l))).1 = .ok () := by
  have hheader : Ini.IsHeader "[KEYS]".toList "KEYS".toList := by
    unfold Ini.IsHeader
    decide
  rw [Ini.parseStr_ok_iff, lines_genkeyText]
  intro before line after h
  rcases before with _ | ⟨first, before⟩
  · cases h
    exact .inr (.inr (.inl ⟨_, hheader, by decide, by simp⟩))
  · rw [List.cons_append, List.cons.injEq] at h
    obtain ⟨rfl, h⟩ := h
    have hmem : line ∈ l.map fun e => genkeyLine e.1 e.2 := by
      rw [h]
      simp
    obtain ⟨e, -, rfl⟩ := List.mem_map.1 hmem
    obtain ⟨c, rest, hline, hc⟩ := genkeyLine_head e.1 e.2
    have hne : ∀ d ∈ ['[', '='], (genkeyLine e.1 e.2).head? ≠ some d := by
      intro d hd hhead
      rw [hline] at hhead
      cases hhead
      refine hc.ne ?_
      rcases List.mem_pair.1 hd with rfl | rfl <;> simp
    refine .inr (.inr (.inr ⟨?_, ⟨_, List.mem_cons_self, _, hheader⟩, ?_, ?_⟩)) <;> rw [trimStart_genkeyLine]
    · exact hne '[' (by simp)
    · rw [genkeyLine_eq]
      simp
    · exact hne '=' (by simp)

theorem optionLines_genkeyText (l : List (UserId × Key)) :
    keyLines (genkeyText (printedLines l)) =
      l.map fun e => ((idText e.1.id).toList, ' ' :: keyText e.2.toList) := by
  rw [keyLines, Ini.optionLines, lines_genkeyText]
  have hheader : Ini.headerName "[KEYS]".toList = some "KEYS".toList := by decide
  simp only [Ini.optionLinesFrom, hheader]
  induction l with
  | nil => rfl
  | cons e l ih =>
    simp only [List.map_cons, Ini.optionLinesFrom, headerName_genkeyLine, optionOf_genkeyLine, if_true, ih]

/-- What `run_genkey` prints for a key that is not constant. -/
theorem runGenkey_ok (conf : Config) (h : ∀ b, key ≠ List.Vector.replicate 32 b) :
    runGenkey conf (some user) key = .ok (genkeyLine user key ++ ['\n']) := by
  rw [runGenkey, secureRandom_ok_iff.2 h]
  rfl

theorem idText_inj {user user' : UserId} (h : (idText user.id).toList = (idText user'.id).toList) : user = user' := by
  have hparsed := userId_fromStr_idText user
  rw [h, userId_fromStr_idText user'] at hparsed
  exact (Except.ok.inj hparsed).symm

/-- A section of lines that are read to the entries of a list gives these entries. -/
theorem getKeys_of_lines {content : Text} {ini ini' : Ini} (name : UserId → Text) (value : Key → Text)
    (hparse : ini.parseStr content = (.ok (), ini')) (hids : (l.map Prod.fst).Nodup)
    (hlines : keyLines content = l.map fun e => (name e.1, value e.2)) (hinj : Function.Injective name)
    (hread : ∀ e ∈ l, keyOf (name e.1) (value e.2) = .ok e) (it : IterOrder Text) :
    getKeys ini' it = .ok (l.foldl (fun m e => m.insert e.1 e.2) ∅) := by
  have hnames : ((keyLines content).map Prod.fst).Nodup := by
    rw [hlines, List.Nodup, List.pairwise_map, List.pairwise_map]
    rw [List.Nodup, List.pairwise_map] at hids
    exact hids.imp fun hne h => hne (hinj h)
  have hlookup : ∀ n v, (ini'.options "KEYS".toList).lookup n = some v ↔
      ∃ e ∈ l, name e.1 = n ∧ value e.2 = v := by
    intro n v
    rw [options_lookup hparse, ← keyLines, Finmap.lastEntries_eq hnames, hlines]
    simp only [List.mem_map, Prod.mk.injEq]
  rw [getKeys_ok_iff]
  refine ⟨fun n v h => ?_, fun n v n' v' h h' hne r r' hr hr' => ⟨?_, trivial⟩, fun user key => ?_⟩
  · obtain ⟨e, he, rfl, rfl⟩ := (hlookup _ _).1 h
    exact ⟨_, hread e he⟩
  · obtain ⟨e, he, rfl, rfl⟩ := (hlookup _ _).1 h
    obtain ⟨e', he', rfl, rfl⟩ := (hlookup _ _).1 h'
    rw [hread e he] at hr
    rw [hread e' he'] at hr'
    cases hr
    cases hr'
    intro huser
    exact hne (congrArg name huser)
  · rw [Finmap.lookup_foldl_insert, Finmap.lastEntries_eq hids]
    simp only [Finmap.lookup_empty, reduceCtorEq, and_false, or_false]
    constructor
    · intro hmem
      exact ⟨_, _, (hlookup _ _).2 ⟨_, hmem, rfl, rfl⟩, hread _ hmem⟩
    · rintro ⟨n, v, h, hr⟩
      obtain ⟨e, he, rfl, rfl⟩ := (hlookup _ _).1 h
      rw [hread e he] at hr
      cases hr
      exact he

/-- The keys of the text are those that were printed. -/
theorem getKeys_genkeyText {ini ini' : Ini} (hids : (l.map Prod.fst).Nodup)
    (hkeys : ∀ e ∈ l, ∀ b, e.2 ≠ List.Vector.replicate 32 b)
    (hparse : ini.parseStr (genkeyText (printedLines l)) = (.ok (), ini')) (it : IterOrder Text) :
    getKeys ini' it = .ok (l.foldl (fun m e => m.insert e.1 e.2) ∅) := by
  refine getKeys_of_lines (fun user => (idText user.id).toList) (fun key => ' ' :: keyText key.toList) hparse hids
    (optionLines_genkeyText l) (fun user user' => idText_inj) ?_ it
  rintro ⟨user, key⟩ he
  exact keyOf_genkeyLine (hkeys _ he)

/-- Lines that were printed for different users load back: a section of them is accepted, in every order of its
options, and gives each user the key it was printed with. The parsers of numbers and keys undo their
formatting. -/
theorem genkey_loads (conf : Config) (ini : Ini) (l : List (UserId × Key)) (hids : (l.map Prod.fst).Nodup)
    (hkeys : ∀ e ∈ l, ∀ b, e.2 ≠ List.Vector.replicate 32 b) :
    (∃ printed ini' keys, (l.mapM fun e => runGenkey conf (some e.1) e.2) = .ok printed ∧
      ini.parseStr (genkeyText printed) = (.ok (), ini') ∧ (∀ it, getKeys ini' it = .ok keys) ∧
      ∀ user key, keys.lookup user = some key ↔ (user, key) ∈ l) ∧
    (∀ user : UserId, UserId.fromStr (idText user.id).toList = .ok user) ∧
    ∀ key : Key, parseHex 32 (keyText key.toList) = .ok key := by
  obtain ⟨ini', hparse⟩ : ∃ ini', ini.parseStr (genkeyText (printedLines l)) = (.ok (), ini') := by
    rw [← genkeyText_accepted ini l]
    exact ⟨_, rfl⟩
  refine ⟨⟨printedLines l, ini', l.foldl (fun m e => m.insert e.1 e.2) ∅, ?_, hparse,
    getKeys_genkeyText hids hkeys hparse, fun user key => ?_⟩, userId_fromStr_idText, fun key => parseHex_keyText key ?_⟩
  · exact Except.mapM_ok fun e he => runGenkey_ok conf (hkeys e he)
  · rw [Finmap.lookup_foldl_insert, Finmap.lastEntries_eq hids]
    simp
  · exact trim_eq_self fun c hc => (isHexDigit_of_mem_keyText hc).not_whitespace

/-- A key that starts with `b`, and is otherwise zero. -/
def sampleGenkey (b : UInt8) : Key := b ::ᵥ List.Vector.replicate 31 0

theorem sampleGenkey_ne {b : UInt8} (hb : b ≠ 0) (b' : UInt8) : sampleGenkey b ≠ List.Vector.replicate 32 b' := by
  intro h
  have h₁ : b = b' := congrArg List.Vector.head h
  have h₂ : 0 = b' := congrArg (fun k : Key => k.tail.head) h
  exact hb (h₁.trans h₂.symm)

/-- The lines of two users. -/
def sampleUsers : List (UserId × Key) := [(⟨7⟩, sampleGenkey 1), (⟨8⟩, sampleGenkey 2)]

theorem genkey_loads_sample : ∃ printed ini' keys,
    (sampleUsers.mapM fun e => runGenkey {} (some e.1) e.2) = .ok printed ∧
      Ini.parseStr {} (genkeyText printed) = (.ok (), ini') ∧ (∀ it, getKeys ini' it = .ok keys) ∧
      ∀ user key, keys.lookup user = some key ↔ (user, key) ∈ sampleUsers := by
  refine (genkey_loads {} {} sampleUsers (by decide) ?_).1
  rintro e he
  rcases List.mem_pair.1 he with rfl | rfl
  · exact sampleGenkey_ne (by decide)
  · exact sampleGenkey_ne (by decide)

end Letmein
