import Letmein.ConfSpec

/-!
# Definitions that are given twice

A user or a resource that a configuration text defines twice is an error where `getKeys` and `getResources` see
both definitions. They see what the sections' hash maps kept, which of two options of the same spelling is the
later one. `loadIni_unique_iff` says when a text with two definitions is refused and when a line gets lost.
-/

namespace Letmein
open Text

def keyLines (content : Text) : List (Text × Text) := Ini.optionLines content "KEYS".toList

def resourceLines (content : Text) : List (Text × Text) := Ini.optionLines content "RESOURCES".toList

/-! ## Clashes -/

/-- The names of two lines denote the same user. -/
def SameUser (o o' : Text × Text) : Prop := ∃ id, UserId.fromStr o.1 = .ok id ∧ UserId.fromStr o'.1 = .ok id

/-- The names of two lines denote the same resource, or the lines define the same port. -/
def SameResource (o o' : Text × Text) : Prop :=
  (∃ id, ResourceId.fromStr o.1 = .ok id ∧ ResourceId.fromStr o'.1 = .ok id) ∨
    ∃ port, DefinesPort o.2 port ∧ DefinesPort o'.2 port

/-- Two lines of the text define the same user, the same resource or the same port. -/
def Clash (content : Text) : Prop :=
  (∃ o o', [o, o'].Sublist (keyLines content) ∧ SameUser o o') ∨
    ∃ o o', [o, o'].Sublist (resourceLines content) ∧ SameResource o o'

/-- No two lines of `[KEYS]` and no two lines of `[RESOURCES]` have a name of the same spelling. -/
def DistinctNames (content : Text) : Prop :=
  ((keyLines content).map Prod.fst).Nodup ∧ ((resourceLines content).map Prod.fst).Nodup

instance (content : Text) : Decidable (DistinctNames content) := inferInstanceAs (Decidable (_ ∧ _))

section
variable [StdText]

/-- A text without an error beside lines that were replaced: its settings and the last line of each name are
valid, and no two of these lines clash. -/
structure Sound (ini : Ini) (content : Text) (variant : ConfigVariant) : Prop where
  settings : SettingsOk ini variant
  keys : ∀ o ∈ Finmap.lastEntries (keyLines content), ∃ r, keyOf o.1 o.2 = .ok r
  users : (Finmap.lastEntries (keyLines content)).Pairwise fun o o' => ¬ SameUser o o'
  resources : ∀ o ∈ Finmap.lastEntries (resourceLines content), ∃ r, resourceOf o.1 o.2 = .ok r
  ports : (Finmap.lastEntries (resourceLines content)).Pairwise fun o o' => ¬ SameResource o o'

/-- Two definitions of one thing are an error that leaves the configuration as it was, and a configuration
that is loaded has what every line says. -/
structure UniqueDefinitions (ini : Ini) (content : Text) (conf : Config) (it : IterOrder Text)
    (itR : IterOrder ResourceId) : Prop where
  refused : Clash content → ∃ e, conf.loadIni ini it itR = (.error e, conf)
  keys : ∀ conf', conf.loadIni ini it itR = (.ok (), conf') → ∀ o ∈ keyLines content,
    ∃ id key, keyOf o.1 o.2 = .ok (id, key) ∧ conf'.key id = some key
  resources : ∀ conf', conf.loadIni ini it itR = (.ok (), conf') → ∀ o ∈ resourceLines content,
    ∃ id res, resourceOf o.1 o.2 = .ok (id, res) ∧ conf'.resource id = some res

end

/-! ## When a text is loaded -/

theorem not_sameUser_iff {o o' : Text × Text} {r r' : UserId × Key} (h : keyOf o.1 o.2 = .ok r)
    (h' : keyOf o'.1 o'.2 = .ok r') : ¬ SameUser o o' ↔ r.1 ≠ r'.1 ∧ True := by
  rw [SameUser, (keyOf_ok h).1, (keyOf_ok h').1]
  simp [eq_comm]

theorem exists_sublist_of_not_nodup {l : List (Text × Text)} (h : ¬ (l.map Prod.fst).Nodup) :
    ∃ o o', [o, o'].Sublist l ∧ o.1 = o'.1 := by
  rw [List.Nodup, List.pairwise_map, List.pairwise_iff_forall_sublist] at h
  push Not at h
  exact h

section
variable [StdText] {ini ini₀ : Ini} {content : Text} {conf : Config} {it : IterOrder Text}
  {itR : IterOrder ResourceId}

theorem not_sameResource_iff {o o' : Text × Text} {r r' : ResourceId × Resource}
    (h : resourceOf o.1 o.2 = .ok r) (h' : resourceOf o'.1 o'.2 = .ok r') :
    ¬ SameResource o o' ↔ r.1 ≠ r'.1 ∧ r.2.portNumber ≠ r'.2.portNumber := by
  obtain ⟨hid, hport, -⟩ := resourceOf_ok h
  obtain ⟨hid', hport', -⟩ := resourceOf_ok h'
  simp only [SameResource, hid, hid', hport, hport']
  simp [eq_comm]

omit [StdText] in
theorem options_lookup (h : ini₀.parseStr content = (.ok (), ini)) (sect n x : Text) :
    (ini.options sect).lookup n = some x ↔ (n, x) ∈ Finmap.lastEntries (Ini.optionLines content sect) := by
  rw [Ini.parseStr_options h, Finmap.lookup_foldl_insert]
  simp

/-- A text is loaded exactly if it is sound, in every order of the hash maps' entries. -/
theorem readIni_returns_iff (h : ini₀.parseStr content = (.ok (), ini)) :
    (∃ conf', readIni ini conf it itR = .ok conf') ↔ Sound ini content conf.variant := by
  have hkeys := Finmap.valid_apart_iff (Q := SameUser) (R := fun _ _ => True)
    (options_lookup h "KEYS".toList) (fun _ _ h => h) fun _ _ _ _ => not_sameUser_iff
  have hres := Finmap.valid_apart_iff (Q := SameResource) (R := fun r r' : Resource => r.portNumber ≠ r'.portNumber)
    (options_lookup h "RESOURCES".toList) (fun _ _ h => h.symm) fun _ _ _ _ => not_sameResource_iff
  constructor
  · rintro ⟨conf', hconf⟩
    obtain ⟨hset, -, hk, hr⟩ := readIni_ok hconf
    have hk := getKeys_ok_iff.1 hk
    have hr := getResources_ok_iff.1 hr
    obtain ⟨hkv, hkp⟩ := hkeys.1 ⟨hk.valid, hk.apart⟩
    obtain ⟨hrv, hrp⟩ := hres.1 ⟨hr.valid, hr.apart⟩
    exact ⟨hset, hkv, hkp, hrv, hrp⟩
  · rintro ⟨hset, hkv, hkp, hrv, hrp⟩
    obtain ⟨hkvalid, hkapart⟩ := hkeys.2 ⟨hkv, hkp⟩
    obtain ⟨hrvalid, hrapart⟩ := hres.2 ⟨hrv, hrp⟩
    obtain ⟨keys, hk⟩ := Finmap.foldlM_gather_iter_returns checkKey_checks hkvalid hkapart it
    obtain ⟨resources, hr⟩ := Finmap.foldlM_gather_iter_returns (checkResource_checks itR) hrvalid hrapart it
    have hk := (Finmap.foldlM_gather_iter checkKey_checks (fun _ _ h => h) it).1 hk
    have hr := (Finmap.foldlM_gather_iter (checkResource_checks itR) (fun _ _ h => h.symm) it).1 hr
    exact readIni_returns hset (getKeys_ok_iff.2 hk) (getResources_ok_iff.2 hr)

/-! ## When two definitions are an error -/

/-- Where every line counts, a clash is an error. -/
theorem not_clash_of_sound (hnames : DistinctNames content) (hs : Sound ini content conf.variant) :
    ¬ Clash content := by
  have husers := hs.users
  have hports := hs.ports
  rw [Finmap.lastEntries_eq hnames.1] at husers
  rw [Finmap.lastEntries_eq hnames.2] at hports
  rintro (⟨o, o', hsub, hsame⟩ | ⟨o, o', hsub, hsame⟩)
  · exact husers.forall_sublist hsub hsame
  · exact hports.forall_sublist hsub hsame

/-- Of two lines of the same spelling the last is read in a sound text, so both have its identification. -/
theorem clash_of_sound (hnames : ¬ DistinctNames content) (hs : Sound ini content conf.variant) :
    Clash content := by
  rcases not_and_or.1 hnames with hkeys | hres
  · obtain ⟨o, o', hsub, hname⟩ := exists_sublist_of_not_nodup hkeys
    have hmem : o.1 ∈ (keyLines content).map Prod.fst := List.mem_map_of_mem (hsub.subset (by simp))
    obtain ⟨x, hx⟩ := Finmap.exists_mem_lastEntries hmem
    obtain ⟨r, hr⟩ := hs.keys _ hx
    have hid := (keyOf_ok hr).1
    exact .inl ⟨o, o', hsub, r.1, hid, by rw [← hname]; exact hid⟩
  · obtain ⟨o, o', hsub, hname⟩ := exists_sublist_of_not_nodup hres
    have hmem : o.1 ∈ (resourceLines content).map Prod.fst := List.mem_map_of_mem (hsub.subset (by simp))
    obtain ⟨x, hx⟩ := Finmap.exists_mem_lastEntries hmem
    obtain ⟨r, hr⟩ := hs.resources _ hx
    have hid := (resourceOf_ok hr).1
    exact .inr ⟨o, o', hsub, .inl ⟨r.1, hid, by rw [← hname]; exact hid⟩⟩

theorem uniqueDefinitions_of_distinctNames (h : ini₀.parseStr content = (.ok (), ini))
    (hnames : DistinctNames content) : UniqueDefinitions ini content conf it itR := by
  refine ⟨fun hclash => loadIni_error fun conf' hconf => ?_, fun conf' hconf o ho => ?_, fun conf' hconf o ho => ?_⟩
  · exact not_clash_of_sound hnames ((readIni_returns_iff h).1 ⟨conf', hconf⟩) hclash
  · rw [← Finmap.lastEntries_eq hnames.1] at ho
    have hlookup := (options_lookup h _ _ _).2 ho
    obtain ⟨-, -, hkeys, -⟩ := readIni_ok (loadIni_ok hconf)
    have hg := getKeys_ok_iff.1 hkeys
    obtain ⟨r, hr⟩ := hg.valid _ _ hlookup
    exact ⟨r.1, r.2, hr, (hg.lookup _ _).2 ⟨_, _, hlookup, hr⟩⟩
  · rw [← Finmap.lastEntries_eq hnames.2] at ho
    have hlookup := (options_lookup h _ _ _).2 ho
    obtain ⟨-, -, -, hres⟩ := readIni_ok (loadIni_ok hconf)
    have hg := getResources_ok_iff.1 hres
    obtain ⟨r, hr⟩ := hg.valid _ _ hlookup
    exact ⟨r.1, r.2, hr, (hg.lookup _ _).2 ⟨_, _, hlookup, hr⟩⟩

/-- A text that is not sound is not loaded, so nothing is replaced. -/
theorem uniqueDefinitions_of_not_sound (h : ini₀.parseStr content = (.ok (), ini))
    (hs : ¬ Sound ini content conf.variant) : UniqueDefinitions ini content conf it itR := by
  have hnot : ∀ conf', readIni ini conf it itR ≠ .ok conf' := fun conf' hconf =>
    hs ((readIni_returns_iff h).1 ⟨conf', hconf⟩)
  exact ⟨fun _ => loadIni_error hnot, fun conf' hconf => (hnot _ (loadIni_ok hconf)).elim,
    fun conf' hconf => (hnot _ (loadIni_ok hconf)).elim⟩

theorem not_uniqueDefinitions (h : ini₀.parseStr content = (.ok (), ini)) (hnames : ¬ DistinctNames content)
    (hs : Sound ini content conf.variant) : ¬ UniqueDefinitions ini content conf it itR := by
  intro hunique
  obtain ⟨e, he⟩ := hunique.refused (clash_of_sound hnames hs)
  have hreturns : ∃ conf', readIni ini conf it itR = .ok conf' := (readIni_returns_iff h).2 hs
  obtain ⟨conf', hconf⟩ := hreturns
  rw [Config.loadIni, hconf] at he
  cases he

/-- Two definitions of one user, resource or port are an error, and no line is replaced by another, exactly
if names of the same spelling do not occur twice or the text is refused for something else. -/
theorem loadIni_unique_iff (h : ini₀.parseStr content = (.ok (), ini)) :
    UniqueDefinitions ini content conf it itR ↔ DistinctNames content ∨ ¬ Sound ini content conf.variant := by
  constructor
  · intro hunique
    by_contra hnot
    rw [not_or, not_not] at hnot
    exact not_uniqueDefinitions h hnot.1 hnot.2 hunique
  · rintro (hnames | hs)
    · exact uniqueDefinitions_of_distinctNames h hnames
    · exact uniqueDefinitions_of_not_sound h hs

end

/-! ## A key that is replaced -/

/-- Two lines for user 1. -/
def sampleText : Text :=
  ("[KEYS]\n" ++ "1 = 1111111111111111111111111111111111111111111111111111111111111111\n" ++
    "1 = 2222222222222222222222222222222222222222222222222222222222222222\n").toList

theorem sampleText_eq : sampleText =
    ['[', 'K', 'E', 'Y', 'S', ']', '\n'] ++ ['1', ' ', '=', ' '] ++ List.replicate 64 '1' ++ ['\n'] ++
      ['1', ' ', '=', ' '] ++ List.replicate 64 '2' ++ ['\n'] := by decide +kernel

/-- Lower case of the letters `A` to `Z`, and no fractional durations. -/
@[reducible] def asciiStd : StdText where
  toLowercase s := s.map Char.toLower
  secsF64 _ := none

noncomputable def anyOrder (K : Type) [DecidableEq K] : IterOrder K := IterOrder.ofKeys [] .nil

def sampleIni : Ini := (Ini.parseStr {} sampleText).2

theorem sampleText_parse : Ini.parseStr {} sampleText = (.ok (), sampleIni) := by
  have h : (Ini.parseStr {} sampleText).1 = .ok () := by
    rw [sampleText_eq]
    decide +kernel
  rw [sampleIni, ← h]

theorem sampleText_sound : @Sound asciiStd sampleIni sampleText .server := by
  have hlast : Finmap.lastEntries (keyLines sampleText) =
      [("1".toList, (' ' :: List.replicate 64 '2'))] := by
    rw [sampleText_eq]
    decide +kernel
  have hnone : Finmap.lastEntries (resourceLines sampleText) = [] := by
    rw [sampleText_eq]
    decide +kernel
  have hset : @SettingsOk asciiStd sampleIni .server := by
    rw [sampleIni, sampleText_eq]
    exact @settingsOk_of_missing _ asciiStd (by decide +kernel) (by decide +kernel)
  refine @Sound.mk asciiStd _ _ _ hset ?_ ?_ ?_ ?_
  · rw [hlast, List.forall_mem_singleton]
    exact ⟨(⟨1⟩, List.Vector.replicate 32 0x22), by decide +kernel⟩
  · rw [hlast]
    exact List.pairwise_singleton _ _
  · simp [hnone]
  · simp [hnone]

theorem sampleText_not_distinct : ¬ DistinctNames sampleText := by
  rw [sampleText_eq]
  decide +kernel

/-- The second line for user 1 replaces the first one without an error. -/
theorem sampleText_not_unique :
    ¬ @UniqueDefinitions asciiStd sampleIni sampleText (.new .server) (anyOrder _) (anyOrder _) :=
  @not_uniqueDefinitions asciiStd _ _ _ _ _ _ sampleText_parse sampleText_not_distinct sampleText_sound

theorem loadIni_unique_iff_sampleText :
    @UniqueDefinitions asciiStd sampleIni sampleText (.new .server) (anyOrder _) (anyOrder _) ↔
      DistinctNames sampleText ∨ ¬ @Sound asciiStd sampleIni sampleText .server :=
  @loadIni_unique_iff asciiStd _ _ _ _ _ _ sampleText_parse

end Letmein
