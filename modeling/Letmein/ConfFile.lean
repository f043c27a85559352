import Letmein.ConfUnique
import Letmein.IniSpec
import Letmein.Lib.Utf8

/-!
# Loading a configuration file (`Config::load`, `Ini::new_from_file`)

The errors of a file come from four places: it cannot be opened or read, it is not UTF-8, it is not an `.ini` text,
or a setting is not valid. `load` of a client takes every error of the first three kinds for a missing file.
`load_faithful_iff` says when it does what it is meant to do.
-/

namespace Letmein
open Text

/-- What there is at a path: nothing that can be opened, something that cannot be read, or the bytes of a file. -/
inductive File where
  | notOpened
  | notRead
  | content (bytes : List UInt8)

namespace Ini

def parseBytes (ini : Ini) (content : List UInt8) : Except String Unit × Ini :=
  match decode content with
  | some text => ini.parseStr text
  | none => (.error "Configuration content file to UTF-8 conversion", ini)

def readFile (ini : Ini) : File → Except String Unit × Ini
  | .notOpened => (.error "Open configuration file", ini)
  | .notRead => (.error "Read configuration file", ini)
  | .content buf => ini.parseBytes buf

def newFromFile (file : File) : Except String Ini :=
  match readFile {} file with
  | (.ok (), ini) => .ok ini
  | (.error e, _) => .error e

/-- The bytes are UTF-8, and the parser takes every line of the text. -/
def ValidBytes (bytes : List UInt8) : Prop :=
  ∃ text, decode bytes = some text ∧
    ∀ before line after, lines text = before ++ line :: after → LineOk before line

/-- A file is read to an `Ini` exactly if it can be read and is valid. -/
theorem newFromFile_ok_iff {file : File} {ini : Ini} : newFromFile file = .ok ini ↔
    ∃ bytes text, file = .content bytes ∧ decode bytes = some text ∧ parseStr {} text = (.ok (), ini) := by
  constructor
  · intro h
    unfold newFromFile at h
    split at h
    · rename_i ini' hread
      cases h
      rcases file with _ | _ | bytes
      · cases hread
      · cases hread
      · simp only [readFile, parseBytes] at hread
        split at hread
        · rename_i text htext
          exact ⟨bytes, text, rfl, htext, hread⟩
        · cases hread
    · cases h
  · rintro ⟨bytes, text, rfl, htext, hparse⟩
    rw [newFromFile, readFile, parseBytes, htext]
    simp only [hparse]

theorem newFromFile_returns_iff {file : File} :
    (∃ ini, newFromFile file = .ok ini) ↔ ∃ bytes, file = .content bytes ∧ ValidBytes bytes := by
  simp only [newFromFile_ok_iff]
  constructor
  · rintro ⟨ini, bytes, text, hfile, htext, hparse⟩
    exact ⟨bytes, hfile, text, htext, parseStr_ok_iff.1 (by rw [hparse])⟩
  · rintro ⟨bytes, hfile, text, htext, hlines⟩
    exact ⟨_, bytes, text, hfile, htext, Prod.ext (parseStr_ok_iff.2 hlines) rfl⟩

end Ini

section
variable [StdText]

/-- `file` is what there is at the path. -/
def Config.load (conf : Config) (path : String) (file : File) (it : IterOrder Text) (itR : IterOrder ResourceId) :
    Except String Unit × Config :=
  match Ini.newFromFile file with
  | .ok ini =>
    match conf.loadIni ini it itR with
    | (.ok (), conf') => (.ok (), { conf' with path := some path })
    | (.error e, conf') => (.error e, conf')
  | .error _ =>
    if conf.variant = .server then (.error s!"Failed to load configuration {path.quote}", conf)
    else (.ok (), { conf with path := some path })

/-- A load that fails changes nothing. A load that succeeds gives the settings of the file, or the file of a client
cannot be read and the settings stay. A file that can be read and is not valid is an error. -/
structure LoadFaithful (conf : Config) (path : String) (file : File) (it : IterOrder Text)
    (itR : IterOrder ResourceId) : Prop where
  failed : ∀ e conf', conf.load path file it itR = (.error e, conf') → conf' = conf
  loaded : ∀ conf', conf.load path file it itR = (.ok (), conf') →
    ((∀ bytes, file ≠ .content bytes) ∧ conf.variant = .client ∧ conf' = { conf with path := some path }) ∨
    ∃ ini fresh, Ini.newFromFile file = .ok ini ∧ (Config.new conf.variant).loadIni ini it itR = (.ok (), fresh) ∧
      conf' = { fresh with path := some path }
  reported : ∀ bytes, file = .content bytes → ¬ Ini.ValidBytes bytes →
    ∃ e, conf.load path file it itR = (.error e, conf)

variable {conf conf' : Config} {ini : Ini} {path : String} {file : File} {it : IterOrder Text}
  {itR : IterOrder ResourceId}

/-! ## The settings do not depend on those before -/

/-- Only the variant and the path are taken from the configuration before. -/
theorem readIni_fresh (conf : Config) : readIni ini conf it itR =
    (fun fresh => { fresh with path := conf.path }) <$> readIni ini (.new conf.variant) it itR := by
  unfold readIni
  rcases getDebug ini with e | debug
  · rfl
  rcases getPort ini with e | port
  · rfl
  rcases getControlTimeout ini with e | timeout
  · rfl
  rcases getControlErrorPolicy ini with e | policy
  · rfl
  rcases getSeccomp ini with e | seccomp
  · rfl
  rcases getKeys ini it with e | keys
  · rfl
  rcases getResources ini it itR with e | resources
  · rfl
  obtain ⟨variant, path⟩ := conf
  rcases variant with _ | _
  · rcases getNftExe ini with e | exe
    · rfl
    rcases getNftFamily ini with e | family
    · rfl
    rcases getNftTable ini with e | table
    · rfl
    rcases getNftChainInput ini with e | chain
    · rfl
    rcases getNftTimeout ini with e | timeout
    · rfl
    rfl
  · rcases getDefaultUser ini with e | user
    · rfl
    rfl

theorem loadIni_fresh (h : conf.loadIni ini it itR = (.ok (), conf')) :
    ∃ fresh, (Config.new conf.variant).loadIni ini it itR = (.ok (), fresh) ∧ conf' = { fresh with path := conf.path } := by
  have hread := loadIni_ok h
  rw [readIni_fresh] at hread
  obtain ⟨fresh, hfresh, rfl⟩ := Except.of_map_ok hread
  exact ⟨fresh, by rw [Config.loadIni, hfresh], rfl⟩

/-! ## What a load does -/

theorem loadIni_failed {e : String} (h : conf.loadIni ini it itR = (.error e, conf')) : conf' = conf := by
  unfold Config.loadIni at h
  split at h
  · cases h
  · cases h
    rfl

/-- A load that fails leaves the configuration and its path. -/
theorem load_failed {e : String} (h : conf.load path file it itR = (.error e, conf')) : conf' = conf := by
  unfold Config.load at h
  split at h
  · split at h
    · cases h
    · rename_i hload
      cases h
      exact loadIni_failed hload
  · split_ifs at h
    · cases h
      rfl
    · cases h

/-- The settings of a file that was loaded are those of its content. -/
theorem load_content (hfile : Ini.newFromFile file = .ok ini) (h : conf.load path file it itR = (.ok (), conf')) :
    ∃ fresh, (Config.new conf.variant).loadIni ini it itR = (.ok (), fresh) ∧ conf' = { fresh with path := some path } := by
  rw [Config.load, hfile] at h
  simp only at h
  split at h
  · rename_i conf₁ hload
    cases h
    obtain ⟨fresh, hfresh, rfl⟩ := loadIni_fresh hload
    exact ⟨fresh, hfresh, rfl⟩
  · cases h

theorem load_server (hvariant : conf.variant = .server) (hfile : ∀ ini, Ini.newFromFile file ≠ .ok ini) :
    ∃ e, conf.load path file it itR = (.error e, conf) := by
  unfold Config.load
  split
  · rename_i ini hini
    exact absurd hini (hfile ini)
  · rw [if_pos hvariant]
    exact ⟨_, rfl⟩

/-- A client goes on without a file that it cannot read, for whatever reason. -/
theorem load_client (hvariant : conf.variant = .client) (hfile : ∀ ini, Ini.newFromFile file ≠ .ok ini) :
    conf.load path file it itR = (.ok (), { conf with path := some path }) := by
  have hserver : ¬ conf.variant = .server := by
    rw [hvariant]
    decide
  unfold Config.load
  split
  · rename_i ini hini
    exact absurd hini (hfile ini)
  · rw [if_neg hserver]

omit [StdText] in
theorem newFromFile_of_invalid {bytes : List UInt8} (h : ¬ Ini.ValidBytes bytes) (ini : Ini) :
    Ini.newFromFile (.content bytes) ≠ .ok ini := by
  intro hini
  obtain ⟨bytes', hbytes, hvalid⟩ := Ini.newFromFile_returns_iff.1 ⟨ini, hini⟩
  cases hbytes
  exact h hvalid

/-- A load is faithful exactly if the configuration is the server's, or there is no file that can be read, or its
content is valid. -/
theorem load_faithful_iff (conf : Config) (path : String) (file : File) (it : IterOrder Text)
    (itR : IterOrder ResourceId) : LoadFaithful conf path file it itR ↔
    conf.variant = .server ∨ ∀ bytes, file = .content bytes → Ini.ValidBytes bytes := by
  have hvariants : conf.variant = .server ∨ conf.variant = .client := by cases conf.variant <;> simp
  constructor
  · intro h
    rcases hvariants with hvariant | hvariant
    · exact .inl hvariant
    · refine .inr fun bytes hfile => ?_
      by_contra hvalid
      obtain ⟨e, he⟩ := h.reported bytes hfile hvalid
      subst hfile
      rw [load_client hvariant (newFromFile_of_invalid hvalid)] at he
      cases he
  · intro h
    refine ⟨fun e conf' => load_failed, fun conf' hload => ?_, fun bytes hfile hvalid => ?_⟩
    · rcases hini : Ini.newFromFile file with e | ini
      · have hnone : ∀ ini, Ini.newFromFile file ≠ .ok ini := fun ini => by rw [hini]; exact fun h => (by cases h)
        rcases hvariants with hvariant | hvariant
        · obtain ⟨e, he⟩ : ∃ e, conf.load path file it itR = (.error e, conf) := load_server hvariant hnone
          rw [he] at hload
          cases hload
        · rw [load_client hvariant hnone] at hload
          cases hload
          refine .inl ⟨fun bytes hfile => ?_, hvariant, rfl⟩
          have hvalid := h.resolve_left (by rw [hvariant]; decide) bytes hfile
          obtain ⟨ini, hok⟩ := Ini.newFromFile_returns_iff.2 ⟨bytes, hfile, hvalid⟩
          exact hnone ini hok
      · obtain ⟨fresh, hfresh, hconf⟩ := load_content hini hload
        exact .inr ⟨ini, fresh, rfl, hfresh, hconf⟩
    · subst hfile
      rcases h with hserver | hall
      · exact load_server hserver (newFromFile_of_invalid hvalid)
      · exact absurd (hall bytes rfl) hvalid

end

/-- The file of a client that holds the letter `x` is no configuration, and no error is reported. -/
theorem load_client_invalid :
    (@Config.load asciiStd (.new .client) "letmein.conf" (.content [0x78]) (anyOrder _) (anyOrder _)).1 = .ok () ∧
    ¬ @LoadFaithful asciiStd (.new .client) "letmein.conf" (.content [0x78]) (anyOrder _) (anyOrder _) := by
  have hdecode : decode [0x78] = some ['x'] := decode_encode ['x']
  have hinvalid : ¬ Ini.ValidBytes [0x78] := by
    rintro ⟨text, htext, hlines⟩
    rw [hdecode] at htext
    cases htext
    have hok : (Ini.parseStr {} ['x']).1 = .ok () := Ini.parseStr_ok_iff.2 hlines
    revert hok
    decide
  have hload := @load_client asciiStd (.new .client) "letmein.conf" _ (anyOrder _) (anyOrder _) rfl
    (newFromFile_of_invalid hinvalid)
  refine ⟨by rw [hload], fun h => ?_⟩
  obtain ⟨e, he⟩ := @LoadFaithful.reported asciiStd _ _ _ _ _ h _ rfl hinvalid
  rw [hload] at he
  cases he

end Letmein
