import Letmein.ConfLoad

/-!
# What a loaded configuration is made of

`getKeys` and `getResources` return the map that the options of their section describe, or an error, whatever the
order in which the hash maps hand out their entries (`getKeys_ok_iff`, `getResources_ok_iff`). A resource and
the control port have at least one protocol.
-/

namespace Letmein
open Text

variable {ini : Ini} {name value : Text} {it : IterOrder Text} {itR : IterOrder ResourceId}

/-! ## Keys -/

theorem checkKey_checks : Finmap.Checks (fun _ _ => True) checkKey := by
  intro keys id key
  unfold checkKey
  split_ifs with h
  · obtain ⟨key', hkey⟩ := Finmap.mem_iff.1 h
    exact ⟨nofun, fun hall => ((hall id key' hkey).1 rfl).elim⟩
  · refine ⟨fun _ id' key' hkey => ⟨?_, trivial⟩, fun _ => rfl⟩
    rintro rfl
    exact h (Finmap.mem_of_lookup_eq_some hkey)

theorem optionsIter_foldlM (ini : Ini) (it : IterOrder Text) {σ ε : Type} (f : σ → Text × Text → Except ε σ) (s : σ)
    (sect : Text) :
    (match ini.optionsIter it sect with
      | some options => options.foldlM f s
      | none => .ok s) = ((ini.options sect).iter it).foldlM f s := by
  rw [Ini.optionsIter, Ini.options]
  rcases ini.sections.lookup sect with _ | options
  · rw [Option.getD_none, Finmap.iter_empty]
    rfl
  · rfl

/-- The keys are what the options of `[KEYS]` are read to. -/
theorem getKeys_ok_iff {keys : HashMap UserId Key} :
    getKeys ini it = .ok keys ↔ Finmap.Gathers keyOf (fun _ _ => True) (ini.options "KEYS".toList) keys := by
  have h := optionsIter_foldlM ini it (Finmap.gather keyOf checkKey) ∅ "KEYS".toList
  rw [← Finmap.foldlM_gather_iter checkKey_checks (fun _ _ h => h) it, ← h]
  rfl

theorem keyOf_ok {id : UserId} {key : Key} (h : keyOf name value = .ok (id, key)) :
    UserId.fromStr name = .ok id ∧ parseHex 32 value = .ok key := by
  obtain ⟨id', hid, h⟩ := Except.bind_ok h
  obtain ⟨key', hkey, h⟩ := Except.bind_ok h
  rw [Except.mapError_ok_iff] at hid hkey
  split_ifs at h
  cases h
  exact ⟨hid, hkey⟩

/-! ## Resources -/

theorem checkResource_checks (itR : IterOrder ResourceId) :
    Finmap.Checks (fun r r' => r.portNumber ≠ r'.portNumber) (checkResource itR) := by
  intro resources id res
  have hpair : ∀ other, checkResourcePair id res.portNumber other = .ok () ↔
      other.1 ≠ id ∧ other.2.portNumber ≠ res.portNumber := by
    intro other
    unfold checkResourcePair
    split_ifs with hid hport <;> simp [*]
  rw [checkResource, Except.forM_ok_iff]
  simp only [Prod.forall, hpair, Finmap.mem_iter]

variable [StdText]

/-- The resources are what the options of `[RESOURCES]` are read to. -/
theorem getResources_ok_iff {resources : HashMap ResourceId Resource} :
    getResources ini it itR = .ok resources ↔
      Finmap.Gathers resourceOf (fun r r' => r.portNumber ≠ r'.portNumber) (ini.options "RESOURCES".toList)
        resources := by
  have h := optionsIter_foldlM ini it (Finmap.gather resourceOf (checkResource itR)) ∅
    "RESOURCES".toList
  rw [← Finmap.foldlM_gather_iter (checkResource_checks itR) (fun _ _ h => h.symm) it, ← h]
  rfl

/-- The value has an item that gives this port. -/
def DefinesPort (value : Text) (port : UInt16) : Prop :=
  ∃ items v, mapItems value = .ok items ∧ .keyValue "port".toList v ∈ items ∧ parseU16 v = .ok port

theorem resourceFlag_ok {r r' : ResourceItems} {v : Text} (h : resourceFlag r v = .ok r') : r'.port = r.port := by
  simp only [resourceFlag] at h
  split_ifs at h <;> cases h <;> rfl

theorem resourceFlags_ok {r r' : ResourceItems} {vs : List Text} (h : vs.foldlM resourceFlag r = .ok r') :
    r'.port = r.port := by
  induction vs generalizing r with
  | nil =>
    cases h
    rfl
  | cons v vs ih =>
    rw [List.foldlM_cons] at h
    obtain ⟨r₁, h₁, h⟩ := Except.bind_ok h
    rw [ih h, resourceFlag_ok h₁]

theorem resourceItem_port {r r' : ResourceItems} {item : MapItem} (h : resourceItem r item = .ok r')
    (port : UInt16) :
    r'.port = some port ↔
      r.port = some port ∨ ∃ v, item = .keyValue "port".toList v ∧ parseU16 v = .ok port := by
  rcases item with ⟨k, v⟩ | ⟨k, vs⟩ | vs
  · simp only [resourceItem] at h
    split_ifs at h with hk hport husers hempty
    · obtain ⟨p, hp, h⟩ := Except.bind_ok h
      cases h
      rw [Except.mapError_ok_iff] at hp
      have hnone : r.port = none := by simpa using hport
      simp [hk, hnone, hp]
    · cases h
      refine ⟨.inl, ?_⟩
      rintro (h | ⟨v', h, -⟩)
      · exact h
      · cases h
        exact (hk rfl).elim
  · simp only [resourceItem] at h
    split_ifs at h
    cases h
    simp
  · rw [resourceFlags_ok h]
    simp

theorem resourceItems_port {r r' : ResourceItems} {items : List MapItem}
    (h : items.foldlM resourceItem r = .ok r') (port : UInt16) :
    r'.port = some port ↔
      r.port = some port ∨ ∃ v, .keyValue "port".toList v ∈ items ∧ parseU16 v = .ok port := by
  induction items generalizing r with
  | nil =>
    cases h
    simp
  | cons item items ih =>
    rw [List.foldlM_cons] at h
    obtain ⟨r₁, h₁, h⟩ := Except.bind_ok h
    rw [ih h, resourceItem_port h₁, or_assoc, ← exists_or]
    simp only [List.mem_cons, or_and_right, eq_comm (a := item)]

/-- An option that is read to a resource: its name is the identification, the resource has the port that the
value gives and at least one protocol. -/
theorem resourceOf_ok {id : ResourceId} {res : Resource} (h : resourceOf name value = .ok (id, res)) :
    ResourceId.fromStr name = .ok id ∧ (∀ port, DefinesPort value port ↔ res.portNumber = port) ∧
      ∃ port tcp udp users, res = .port port tcp udp users ∧ (tcp || udp) := by
  obtain ⟨id', hid, h⟩ := Except.bind_ok h
  obtain ⟨items, hitems, h⟩ := Except.bind_ok h
  obtain ⟨r, hr, h⟩ := Except.bind_ok h
  rw [Except.mapError_ok_iff] at hid hitems
  have hport := resourceItems_port hr
  rcases hp : r.port with _ | p
  · simp only [hp] at h
    cases h
  · simp only [hp] at h
    obtain ⟨users, -, h⟩ := Except.bind_ok h
    cases h
    refine ⟨hid, fun port => ?_, p, _, r.udp, users, rfl, ?_⟩
    · have h' := hport port
      rw [hp, Option.some.injEq] at h'
      show _ ↔ p = port
      rw [h', DefinesPort, hitems]
      simp
    · cases r.tcp <;> cases r.udp <;> rfl

/-! ## The control port -/

theorem getPort_ok {controlPort : ControlPort} (h : getPort ini = .ok controlPort) :
    controlPort.tcp || controlPort.udp := by
  unfold getPort at h
  split at h
  · obtain ⟨items, -, h⟩ := Except.bind_ok h
    obtain ⟨cp, -, h⟩ := Except.bind_ok h
    split_ifs at h with hnone
    · cases h
      rfl
    · cases h
      revert hnone
      cases controlPort.tcp <;> cases controlPort.udp <;> decide
  · cases h
    rfl

/-! ## The whole configuration -/

/-- Every setting outside `[KEYS]` and `[RESOURCES]` that the variant reads is valid. -/
structure SettingsOk (ini : Ini) (variant : ConfigVariant) : Prop where
  debug : ∃ x, getDebug ini = .ok x
  port : ∃ x, getPort ini = .ok x
  controlTimeout : ∃ x, getControlTimeout ini = .ok x
  controlErrorPolicy : ∃ x, getControlErrorPolicy ini = .ok x
  seccomp : ∃ x, getSeccomp ini = .ok x
  client : variant = .client → ∃ x, getDefaultUser ini = .ok x
  server : variant = .server → (∃ x, getNftExe ini = .ok x) ∧ (∃ x, getNftFamily ini = .ok x) ∧
    (∃ x, getNftTable ini = .ok x) ∧ (∃ x, getNftChainInput ini = .ok x) ∧ ∃ x, getNftTimeout ini = .ok x

/-- The settings of a server that are not given have their defaults. -/
theorem settingsOk_of_missing (hgeneral : ini.sections.lookup "GENERAL".toList = none)
    (hnft : ini.sections.lookup "NFTABLES".toList = none) : SettingsOk ini .server := by
  have hget : ∀ option, ini.get "GENERAL".toList option = none := fun option => by rw [Ini.get, hgeneral]
  have hget' : ∀ option, ini.get "NFTABLES".toList option = none := fun option => by rw [Ini.get, hnft]
  refine ⟨⟨false, ?_⟩, ⟨{}, ?_⟩, ⟨5000, ?_⟩, ⟨.always, ?_⟩, ⟨.off, ?_⟩, nofun, fun _ =>
    ⟨⟨"nft", ?_⟩, ⟨"", ?_⟩, ⟨"", ?_⟩, ⟨"", ?_⟩, ⟨600000, ?_⟩⟩⟩
  · rw [getDebug, hget]
  · rw [getPort, hget]
  · rw [getControlTimeout, hget]
  · rw [getControlErrorPolicy, hget]
  · rw [getSeccomp, hget]
  · rw [getNftExe, hget']
  · rw [getNftFamily, hget']
  · rw [getNftTable, hget']
  · rw [getNftChainInput, hget']
  · rw [getNftTimeout, hget']

variable {conf conf' : Config}

/-- What a configuration that was read is made of. -/
theorem readIni_ok (h : readIni ini conf it itR = .ok conf') :
    SettingsOk ini conf.variant ∧ getPort ini = .ok conf'.port ∧ getKeys ini it = .ok conf'.keys ∧
      getResources ini it itR = .ok conf'.resources := by
  obtain ⟨debug, hdebug, h⟩ := Except.bind_ok h
  obtain ⟨port, hport, h⟩ := Except.bind_ok h
  obtain ⟨timeout, htimeout, h⟩ := Except.bind_ok h
  obtain ⟨policy, hpolicy, h⟩ := Except.bind_ok h
  obtain ⟨seccomp, hseccomp, h⟩ := Except.bind_ok h
  obtain ⟨keys, hkeys, h⟩ := Except.bind_ok h
  obtain ⟨resources, hresources, h⟩ := Except.bind_ok h
  rcases hv : conf.variant with _ | _
  · simp only [hv] at h
    obtain ⟨exe, hexe, h⟩ := Except.bind_ok h
    obtain ⟨family, hfamily, h⟩ := Except.bind_ok h
    obtain ⟨table, htable, h⟩ := Except.bind_ok h
    obtain ⟨chain, hchain, h⟩ := Except.bind_ok h
    obtain ⟨nftTimeout, hnftTimeout, h⟩ := Except.bind_ok h
    cases h
    exact ⟨⟨⟨_, hdebug⟩, ⟨_, hport⟩, ⟨_, htimeout⟩, ⟨_, hpolicy⟩, ⟨_, hseccomp⟩, nofun,
      fun _ => ⟨⟨_, hexe⟩, ⟨_, hfamily⟩, ⟨_, htable⟩, ⟨_, hchain⟩, ⟨_, hnftTimeout⟩⟩⟩, hport, hkeys, hresources⟩
  · simp only [hv] at h
    obtain ⟨user, huser, h⟩ := Except.bind_ok h
    cases h
    exact ⟨⟨⟨_, hdebug⟩, ⟨_, hport⟩, ⟨_, htimeout⟩, ⟨_, hpolicy⟩, ⟨_, hseccomp⟩, fun _ => ⟨_, huser⟩, nofun⟩,
      hport, hkeys, hresources⟩

theorem readIni_returns {keys : HashMap UserId Key} {resources : HashMap ResourceId Resource}
    (hset : SettingsOk ini conf.variant) (hkeys : getKeys ini it = .ok keys)
    (hres : getResources ini it itR = .ok resources) : ∃ conf', readIni ini conf it itR = .ok conf' := by
  obtain ⟨⟨debug, hdebug⟩, ⟨port, hport⟩, ⟨timeout, htimeout⟩, ⟨policy, hpolicy⟩, ⟨seccomp, hseccomp⟩,
    hclient, hserver⟩ := hset
  rcases hv : conf.variant with _ | _
  · obtain ⟨⟨exe, hexe⟩, ⟨family, hfamily⟩, ⟨table, htable⟩, ⟨chain, hchain⟩, ⟨nftTimeout, hnftTimeout⟩⟩ :=
      hserver hv
    simp only [readIni, hdebug, hport, htimeout, hpolicy, hseccomp, hkeys, hres, hv, hexe, hfamily, htable,
      hchain, hnftTimeout]
    exact ⟨_, rfl⟩
  · obtain ⟨user, huser⟩ := hclient hv
    simp only [readIni, hdebug, hport, htimeout, hpolicy, hseccomp, hkeys, hres, hv, huser]
    exact ⟨_, rfl⟩

theorem loadIni_ok (h : conf.loadIni ini it itR = (.ok (), conf')) : readIni ini conf it itR = .ok conf' := by
  unfold Config.loadIni at h
  split at h
  · cases h
    assumption
  · cases h

/-- A load that does not succeed leaves the configuration as it was. -/
theorem loadIni_error (h : ∀ conf', readIni ini conf it itR ≠ .ok conf') :
    ∃ e, conf.loadIni ini it itR = (.error e, conf) := by
  unfold Config.loadIni
  split
  · rename_i conf' hconf
    exact (h conf' hconf).elim
  · exact ⟨_, rfl⟩

end Letmein
