import Letmein.Ini

/-!
# The grammar of `.ini` texts

`LineOk before line` says of a line, by itself and by the headers of the lines before it, whether the parser takes
it. A text is accepted exactly if all its lines are taken, and then an option has the value of its last line.
-/

namespace Letmein.Ini
open Text

/-- A header is a name in brackets, with white space around it. -/
def IsHeader (line name : Text) : Prop := trim line = '[' :: (name ++ [']'])

/-- A line that the parser takes after the lines `before`: a blank line, a comment, a header with a new name, or
an option in a section. -/
def LineOk (before : List Text) (line : Text) : Prop :=
  trimStart line = [] ∨ (trimStart line).head? = some '#' ∨
  (∃ name, IsHeader line name ∧ name ≠ [] ∧ ∀ l ∈ before, ¬ IsHeader l name) ∨
  (trimStart line).head? ≠ some '[' ∧ (∃ l ∈ before, ∃ name, IsHeader l name) ∧
    '=' ∈ trimStart line ∧ (trimStart line).head? ≠ some '='

/-! ## Headers -/

section
variable {p p' : Parser} {line name rest : Text} {ls before : List Text}

theorem IsHeader.trimStart (h : IsHeader line name) : ∃ rest, trimStart line = '[' :: rest := by
  rw [IsHeader, trim] at h
  rcases hline : Text.trimStart line with _ | ⟨c, rest⟩
  · rw [hline] at h
    cases h
  · obtain ⟨rest', hend⟩ := trimEnd_cons (s := rest) (trimStart_head hline)
    rw [hline, hend] at h
    cases h
    exact ⟨rest, rfl⟩

theorem IsHeader.headerName (h : IsHeader line name) : headerName line = some name := by
  obtain ⟨rest, hline⟩ := h.trimStart
  rw [IsHeader, trim, hline] at h
  rw [Ini.headerName, hline]
  simp only [h]
  simp

theorem IsHeader.inj {name' : Text} (h : IsHeader line name) (h' : IsHeader line name') : name = name' := by
  have hname := h.headerName
  rw [h'.headerName] at hname
  cases hname
  rfl

/-- What `parse_str` tests of a line that starts with a bracket. -/
theorem isHeader_iff (hline : Text.trimStart line = '[' :: rest) :
    IsHeader line name ↔ (trimEnd ('[' :: rest)).getLast? = some ']' ∧
      (trimEnd ('[' :: rest)).tail.dropLast = name := by
  obtain ⟨rest', hend⟩ := trimEnd_cons (s := rest) (trimStart_head hline)
  rw [IsHeader, trim, hline, hend, List.tail_cons]
  constructor
  · intro h
    cases h
    rw [← List.cons_append, List.getLast?_concat, List.dropLast_concat]
    exact ⟨rfl, rfl⟩
  · rintro ⟨hlast, rfl⟩
    rcases List.eq_nil_or_concat rest' with rfl | ⟨init, c, rfl⟩
    · cases hlast
    · rw [List.concat_eq_append, ← List.cons_append, List.getLast?_concat] at hlast
      cases hlast
      rw [List.concat_eq_append, List.dropLast_concat]

/-! ## One line -/

theorem parseHeader_returns_iff (hline : Text.trimStart line = '[' :: rest) :
    (∃ p', parseHeader p ('[' :: rest) = .ok p') ↔ ∃ name, IsHeader line name ∧ name ≠ [] ∧ name ∉ p.sections := by
  simp only [isHeader_iff hline, parseHeader]
  split_ifs with hlast hempty hmem
  · refine ⟨fun h => by simp at h, ?_⟩
    rintro ⟨name, ⟨-, rfl⟩, hne, -⟩
    exact absurd (List.isEmpty_iff.1 hempty) hne
  · refine ⟨fun h => by simp at h, ?_⟩
    rintro ⟨name, ⟨-, rfl⟩, -, hnot⟩
    exact absurd hmem hnot
  · exact ⟨fun _ => ⟨_, ⟨hlast, rfl⟩, fun h => hempty (List.isEmpty_iff.2 h), hmem⟩, fun _ => ⟨_, rfl⟩⟩
  · refine ⟨fun h => by simp at h, ?_⟩
    rintro ⟨name, ⟨h, -⟩, -⟩
    exact absurd h hlast

theorem parseOption_returns_iff : (∃ p', parseOption p line = .ok p') ↔
    p.inSection.isSome ∧ '=' ∈ line ∧ line.head? ≠ some '=' := by
  unfold parseOption
  split
  · rename_i hsect
    rw [hsect]
    exact ⟨fun h => by simp at h, fun h => by simp at h⟩
  · rename_i sect hsect
    have hsome : p.inSection.isSome := by rw [hsect, Option.isSome_some]
    split
    · rename_i hsplit
      exact ⟨fun h => by simp at h, fun h => absurd h.2.1 (splitOnce_eq_none_iff.1 hsplit)⟩
    · rename_i name value hsplit
      obtain ⟨rfl, hname⟩ := splitOnce_eq_some_iff.1 hsplit
      have hmem : '=' ∈ name ++ '=' :: value := by simp
      split_ifs with hempty
      · rw [List.isEmpty_iff.1 hempty]
        exact ⟨fun h => by simp at h, fun h => absurd rfl h.2.2⟩
      · refine ⟨fun _ => ⟨hsome, hmem, ?_⟩, fun _ => ⟨_, rfl⟩⟩
        rcases name with _ | ⟨c, name⟩
        · exact absurd rfl hempty
        · intro h
          cases h
          exact hname List.mem_cons_self

theorem parseLine_returns_iff : (∃ p', parseLine p line = .ok p') ↔
    Text.trimStart line = [] ∨ (Text.trimStart line).head? = some '#' ∨
    (∃ name, IsHeader line name ∧ name ≠ [] ∧ name ∉ p.sections) ∨
    (Text.trimStart line).head? ≠ some '[' ∧ p.inSection.isSome ∧
      '=' ∈ Text.trimStart line ∧ (Text.trimStart line).head? ≠ some '=' := by
  simp only [parseLine]
  split
  · rename_i hline
    exact ⟨fun _ => .inl hline, fun _ => ⟨_, rfl⟩⟩
  · rename_i hline
    exact ⟨fun _ => .inr (.inl (by rw [hline]; rfl)), fun _ => ⟨_, rfl⟩⟩
  · rename_i rest hline
    rw [hline, parseHeader_returns_iff hline]
    simp
  · rename_i hnil hcomment hheader
    rw [parseOption_returns_iff]
    have hhash : (Text.trimStart line).head? ≠ some '#' := by
      intro h
      obtain ⟨rest, hrest⟩ := List.head?_eq_some_iff.1 h
      exact hcomment rest hrest
    have hbracket : (Text.trimStart line).head? ≠ some '[' := by
      intro h
      obtain ⟨rest, hrest⟩ := List.head?_eq_some_iff.1 h
      exact hheader rest hrest
    constructor
    · intro h
      exact .inr (.inr (.inr ⟨hbracket, h⟩))
    · rintro (h | h | ⟨name, h, -⟩ | ⟨-, h⟩)
      · exact absurd h hnil
      · exact absurd h hhash
      · obtain ⟨rest, hrest⟩ := h.trimStart
        exact absurd hrest (hheader rest)
      · exact h

/-! ## All lines -/

/-- The sections of the parser are the headers of the lines so far. -/
structure HeadersRead (ls : List Text) (p : Parser) : Prop where
  sections : ∀ name, name ∈ p.sections ↔ ∃ l ∈ ls, IsHeader l name
  inSection : p.inSection.isSome ↔ ∃ l ∈ ls, ∃ name, IsHeader l name

theorem lineOk_iff (h : HeadersRead before p) : LineOk before line ↔ ∃ p', parseLine p line = .ok p' := by
  have hnew : ∀ name, (∀ l ∈ before, ¬ IsHeader l name) ↔ name ∉ p.sections := by
    intro name
    rw [h.sections]
    push Not
    rfl
  rw [parseLine_returns_iff, LineOk, h.inSection]
  simp only [hnew]

theorem not_isHeader (h : headerName line = none) : ¬ IsHeader line name := by
  intro hheader
  rw [hheader.headerName] at h
  cases h

/-- A line that starts a section is a header. -/
theorem isHeader_of_parseLine (hline : parseLine p line = .ok p') (h : headerName line = some name) :
    IsHeader line name := by
  have hbracket : (Text.trimStart line).head? = some '[' := by
    unfold headerName at h
    split at h
    · rename_i rest hrest
      rw [hrest]
      rfl
    · cases h
  rcases parseLine_returns_iff.1 ⟨p', hline⟩ with hnil | hhash | ⟨name', hheader, -⟩ | ⟨hnot, -⟩
  · rw [hnil] at hbracket
    cases hbracket
  · rw [hhash] at hbracket
    cases hbracket
  · rw [hheader.headerName] at h
    cases h
    exact hheader
  · exact absurd hbracket hnot

theorem HeadersRead.concat (h : HeadersRead ls p) (hline : parseLine p line = .ok p') :
    HeadersRead (ls ++ [line]) p' := by
  have hsplit : ∀ name, (∃ l ∈ ls ++ [line], IsHeader l name) ↔ (∃ l ∈ ls, IsHeader l name) ∨ IsHeader line name := by
    intro name
    simp only [List.mem_append, List.mem_singleton, or_and_right, exists_or, exists_eq_left]
  have hsplit' : (∃ l ∈ ls ++ [line], ∃ name, IsHeader l name) ↔
      (∃ l ∈ ls, ∃ name, IsHeader l name) ∨ ∃ name, IsHeader line name := by
    simp only [List.mem_append, List.mem_singleton, or_and_right, exists_or, exists_eq_left]
  rcases parseLine_ok hline with ⟨hh, -, rfl⟩ | ⟨sname, hh, -, rfl⟩ | ⟨sect, hsect, name, value, hh, -, rfl⟩
  · refine ⟨fun name => ?_, ?_⟩
    · rw [hsplit, or_iff_left (not_isHeader hh)]
      exact h.sections name
    · rw [hsplit', or_iff_left fun ⟨_, hname⟩ => not_isHeader hh hname]
      exact h.inSection
  · have hheader := isHeader_of_parseLine hline hh
    refine ⟨fun name => ?_, ?_⟩
    · show name ∈ p.sections.insert sname ∅ ↔ _
      rw [hsplit, Finmap.mem_insert, h.sections, or_comm]
      refine or_congr_right ⟨fun hname => ?_, fun hname => hname.inj hheader⟩
      rw [hname]
      exact hheader
    · rw [hsplit']
      exact ⟨fun _ => .inr ⟨sname, hheader⟩, fun _ => rfl⟩
  · have hmem : sect ∈ p.sections := Finmap.mem_iff.2 (Option.isSome_iff_exists.1 (p.created sect hsect))
    refine ⟨fun name' => ?_, ?_⟩
    · show name' ∈ p.sections.insert sect _ ↔ _
      rw [hsplit, or_iff_left (not_isHeader hh), Finmap.mem_insert, ← h.sections]
      refine or_iff_right_of_imp ?_
      rintro rfl
      exact hmem
    · rw [hsplit', or_iff_left fun ⟨_, hname⟩ => not_isHeader hh hname]
      exact h.inSection

theorem parseLines_headers (h : ls.foldlM parseLine {} = .ok p) : HeadersRead ls p := by
  induction ls using List.reverseRecOn generalizing p with
  | nil =>
    cases h
    exact ⟨by simp [Finmap.notMem_empty], by simp⟩
  | append_singleton ls line ih =>
    rw [List.foldlM_append] at h
    obtain ⟨p₁, h₁, h⟩ := Except.bind_ok h
    rw [List.foldlM_cons] at h
    obtain ⟨p₂, h₂, h⟩ := Except.bind_ok h
    cases h
    exact (ih h₁).concat h₂

/-- The parser gets through all lines exactly if it takes each of them after those before it. -/
theorem parseLines_returns_iff : (∃ p, ls.foldlM parseLine {} = .ok p) ↔
    ∀ before line after, ls = before ++ line :: after → LineOk before line := by
  constructor
  · rintro ⟨p, h⟩ before line after rfl
    rw [List.foldlM_append] at h
    obtain ⟨p₁, h₁, h⟩ := Except.bind_ok h
    rw [List.foldlM_cons] at h
    obtain ⟨p₂, h₂, -⟩ := Except.bind_ok h
    exact (lineOk_iff (parseLines_headers h₁)).2 ⟨p₂, h₂⟩
  · intro h
    induction ls using List.reverseRecOn with
    | nil => exact ⟨_, rfl⟩
    | append_singleton ls line ih =>
      obtain ⟨p, hp⟩ := ih fun before l after hls => h before l (after ++ [line]) (by rw [hls]; simp)
      obtain ⟨p', hp'⟩ := (lineOk_iff (parseLines_headers hp)).1 (h ls line [] rfl)
      refine ⟨p', ?_⟩
      rw [List.foldlM_append, hp]
      show (parseLine p line >>= fun p₂ => [].foldlM parseLine p₂) = .ok p'
      rw [hp']
      rfl

end

/-! ## The text -/

theorem parseStr_ok_iff {ini : Ini} {content : Text} : (ini.parseStr content).1 = .ok () ↔
    ∀ before line after, lines content = before ++ line :: after → LineOk before line := by
  rw [← parseLines_returns_iff, parseStr]
  split
  · rename_i p hp
    exact ⟨fun _ => ⟨p, hp⟩, fun _ => rfl⟩
  · rename_i e he
    refine ⟨fun h => by simp at h, ?_⟩
    rintro ⟨p, hp⟩
    rw [he] at hp
    cases hp

/-- A text is accepted exactly if every line is taken after those before it. An option then has the value of the
last line of its section that names it, whatever the parser held before, and if the text is not accepted, the
parser holds what it held before. -/
theorem parseStr_grammar (ini : Ini) (content : Text) :
    ((ini.parseStr content).1 = .ok () ↔
      ∀ before line after, lines content = before ++ line :: after → LineOk before line) ∧
    ((ini.parseStr content).1 = .ok () → ∀ sect option, (ini.parseStr content).2.get sect option =
      ((optionLines content sect).filter fun o => o.1 = option).getLast?.map Prod.snd) ∧
    ∀ e, (ini.parseStr content).1 = .error e → (ini.parseStr content).2 = ini := by
  refine ⟨parseStr_ok_iff, ?_, ?_⟩
  · intro hok sect option
    have hparse : ini.parseStr content = (.ok (), (ini.parseStr content).2) := by rw [← hok]
    have hoptions := parseStr_options hparse sect
    have hget : (ini.parseStr content).2.get sect option =
        ((ini.parseStr content).2.options sect).lookup option := by
      rw [get, options]
      rcases (ini.parseStr content).2.sections.lookup sect with _ | opts <;> rfl
    rw [hget, hoptions, Finmap.lookup_foldl_insert_eq]
    simp
  · intro e he
    rw [parseStr] at he ⊢
    split at he
    · cases he
    · rfl

end Letmein.Ini
