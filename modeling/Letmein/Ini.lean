import Letmein.Lib.HashMap
import Letmein.Lib.Run
import Letmein.Lib.Text

/-!
# `.ini` texts (`letmein-conf/src/ini.rs`)

`parseStr` reads a text line by line into sections of options. The options of a section are a hash map:
a later option replaces an earlier one that has the same name. `optionLines` is the section's own text,
every option line of it in order, and `parseStr_options` says what the map keeps of these lines.
-/

namespace Letmein
open Text

/-- The options of one section. -/
abbrev IniSection := HashMap Text Text

structure Ini where
  sections : HashMap Text IniSection := ∅

namespace Ini

/-- The locals of `parse_str`. The section that the next option goes to has been created. -/
structure Parser where
  sections : HashMap Text IniSection := ∅
  inSection : Option Text := none
  created : ∀ sect, inSection = some sect → (sections.lookup sect).isSome := by simp

namespace Parser

/-- Before the first line. -/
def start : Parser := {}

def startSection (p : Parser) (sname : Text) : Parser where
  sections := p.sections.insert sname ∅
  inSection := some sname
  created sect h := by
    cases h
    rw [Finmap.lookup_insert, Option.isSome_some]

def insertOption (p : Parser) (sect : Text) (h : p.inSection = some sect) (name value : Text) : Parser where
  sections := p.sections.insert sect (((p.sections.lookup sect).get (p.created sect h)).insert name value)
  inSection := p.inSection
  created sect' h' := by
    rw [h] at h'
    cases h'
    rw [Finmap.lookup_insert, Option.isSome_some]

end Parser

/-- A line that starts with a bracket. -/
def parseHeader (p : Parser) (line : Text) : Except String Parser :=
  let line := trimEnd line
  let shown := String.ofList line
  if line.getLast? = some ']' then
    let sname := line.tail.dropLast
    if sname.isEmpty then .error s!"Section name is empty: '{shown}'"
    else if sname ∈ p.sections then .error s!"Duplicate section name: '{shown}'"
    else .ok (p.startSection sname)
  else .error s!"Invalid section name: '{shown}'"

def parseOption (p : Parser) (line : Text) : Except String Parser :=
  let shown := String.ofList line
  match h : p.inSection with
  | none => .error s!"Option is not inside of a section: '{shown}'"
  | some sect =>
    match splitOnce '=' line with
    | none => .error s!"Option has no equal sign '=': '{shown}'"
    | some (name, value) =>
      if name.isEmpty then .error s!"Option has no name before equal sign '=': '{shown}'"
      else .ok (p.insertOption sect h (trimEnd name) value)

def parseLine (p : Parser) (line : Text) : Except String Parser :=
  let line := trimStart line
  match line with
  | [] => .ok p
  | '#' :: _ => .ok p
  | '[' :: _ => parseHeader p line
  | _ => parseOption p line

/-- The parser is left as it was when the text has an error. -/
def parseStr (ini : Ini) (content : Text) : Except String Unit × Ini :=
  match (lines content).foldlM parseLine {} with
  | .ok p => (.ok (), ⟨p.sections⟩)
  | .error e => (.error e, ini)

def get (ini : Ini) (sect option : Text) : Option Text :=
  match ini.sections.lookup sect with
  | some options => options.lookup option
  | none => none

/-- An iterator over the options of a section. -/
def optionsIter (ini : Ini) (it : IterOrder Text) (sect : Text) : Option (List (Text × Text)) :=
  (ini.sections.lookup sect).map fun options => options.iter it

/-- The options of a section, none if the text does not have it. -/
def options (ini : Ini) (sect : Text) : IniSection := (ini.sections.lookup sect).getD ∅

/-! ## The lines of a section -/

def headerName (line : Text) : Option Text :=
  match trimStart line with
  | '[' :: rest => some (trimEnd ('[' :: rest)).tail.dropLast
  | _ => none

/-- The name and the value that an option line gives. -/
def optionOf (line : Text) : Option (Text × Text) :=
  match trimStart line with
  | [] => none
  | '#' :: _ => none
  | '[' :: _ => none
  | line => (splitOnce '=' line).map fun o => (trimEnd o.1, o.2)

/-- The option lines of section `sect` among these lines, which follow a line of section `cur`. -/
def optionLinesFrom (sect : Text) (cur : Option Text) : List Text → List (Text × Text)
  | [] => []
  | line :: rest =>
    match headerName line, optionOf line with
    | some sname, _ => optionLinesFrom sect (some sname) rest
    | none, some o =>
      if cur = some sect then o :: optionLinesFrom sect cur rest else optionLinesFrom sect cur rest
    | none, none => optionLinesFrom sect cur rest

/-- All option lines of a section of the text, in order. -/
def optionLines (content : Text) (sect : Text) : List (Text × Text) :=
  optionLinesFrom sect none (lines content)

variable {p p' : Parser} {line : Text}

/-- What a line does: nothing, start a section that is not there yet, or set an option. -/
theorem parseLine_ok (h : parseLine p line = .ok p') :
    (headerName line = none ∧ optionOf line = none ∧ p' = p) ∨
    (∃ sname, headerName line = some sname ∧ sname ∉ p.sections ∧ p' = p.startSection sname) ∨
    ∃ sect hsect name value, headerName line = none ∧ optionOf line = some (name, value) ∧
      p' = p.insertOption sect hsect name value := by
  simp only [parseLine] at h
  split at h
  · rename_i hline
    cases h
    exact .inl ⟨by simp [headerName, hline], by simp [optionOf, hline], rfl⟩
  · rename_i hline
    cases h
    exact .inl ⟨by simp [headerName, hline], by simp [optionOf, hline], rfl⟩
  · rename_i rest hline
    refine .inr (.inl ⟨(trimEnd ('[' :: rest)).tail.dropLast, by simp only [headerName, hline], ?_⟩)
    simp only [parseHeader, hline] at h
    split_ifs at h with hlast hempty hmem
    cases h
    exact ⟨hmem, rfl⟩
  · rename_i hnil hcomment hheader
    refine .inr (.inr ?_)
    unfold parseOption at h
    split at h
    · cases h
    · rename_i sect hsect
      split at h
      · cases h
      · rename_i name value hsplit
        split_ifs at h
        cases h
        refine ⟨sect, hsect, trimEnd name, value, ?_, ?_, rfl⟩
        · unfold headerName
          split
          · rename_i hline
            exact (hheader _ hline).elim
          · rfl
        · unfold optionOf
          split
          · rename_i hline
            exact (hnil hline).elim
          · rename_i hline
            exact (hcomment _ hline).elim
          · rename_i hline
            exact (hheader _ hline).elim
          · rw [hsplit]
            rfl

/-- The sections that a parser has read so far. -/
def Parser.toIni (p : Parser) : Ini := ⟨p.sections⟩

theorem options_startSection {sname : Text} (h : sname ∉ p.sections) (sect : Text) :
    (p.startSection sname).toIni.options sect = p.toIni.options sect := by
  by_cases hs : sect = sname
  · subst hs
    simp [Parser.toIni, options, Parser.startSection, Finmap.lookup_eq_none.2 h]
  · simp [Parser.toIni, options, Parser.startSection, Finmap.lookup_insert_of_ne _ hs]

theorem options_insertOption {cur : Text} {hcur : p.inSection = some cur} {name value : Text} (sect : Text) :
    (p.insertOption cur hcur name value).toIni.options sect =
      if p.inSection = some sect then (p.toIni.options sect).insert name value else p.toIni.options sect := by
  rw [hcur]
  by_cases hs : sect = cur
  · subst hs
    obtain ⟨m, hm⟩ := Option.isSome_iff_exists.1 (p.created sect hcur)
    simp [Parser.toIni, options, Parser.insertOption, hm]
  · have hne : ¬ some cur = some sect := fun h => hs (Option.some.inj h).symm
    simp [Parser.toIni, options, Parser.insertOption, Finmap.lookup_insert_of_ne _ hs, hne]

theorem parseLines_options {ls : List Text} (h : ls.foldlM parseLine p = .ok p') (sect : Text) :
    p'.toIni.options sect = (optionLinesFrom sect p.inSection ls).foldl (fun m o => m.insert o.1 o.2)
      (p.toIni.options sect) := by
  induction ls generalizing p with
  | nil =>
    cases h
    rfl
  | cons line rest ih =>
    rw [List.foldlM_cons] at h
    obtain ⟨q, hq, h⟩ := Except.bind_ok h
    rw [ih h]
    rcases parseLine_ok hq with ⟨hh, ho, rfl⟩ | ⟨sname, hh, hnew, rfl⟩ | ⟨cur, hcur, name, value, hh, ho, rfl⟩
    · simp only [optionLinesFrom, hh, ho]
    · rw [options_startSection hnew]
      simp only [optionLinesFrom, hh, Parser.startSection]
    · rw [options_insertOption]
      simp only [optionLinesFrom, hh, ho, Parser.insertOption]
      split_ifs <;> rfl

/-- Of the option lines of a section the map keeps the last one of each name. -/
theorem parseStr_options {ini ini' : Ini} {content : Text} (h : parseStr ini content = (.ok (), ini'))
    (sect : Text) :
    ini'.options sect = (optionLines content sect).foldl (fun m o => m.insert o.1 o.2) ∅ := by
  unfold parseStr at h
  split at h
  · rename_i p hp
    cases h
    exact parseLines_options hp sect
  · cases h

end Ini

end Letmein
