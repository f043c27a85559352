import Letmein.ConfSpec

/-!
# The tables of keys and resources

The tables are built from the options of a section and searched in the order of a hash map. Nothing depends on
that order: a table that is returned is described by the options alone, and since no two of its resources have
the same port, at most one resource can be the answer to a search.
-/

namespace Letmein
open Text

/-- Every resource has a protocol, and no two resources have the same port. -/
structure ResourceTable (resources : HashMap ResourceId Resource) : Prop where
  protocols : ∀ id port tcp udp users, resources.lookup id = some (.port port tcp udp users) → tcp || udp
  ports : ∀ id id' res res', resources.lookup id = some res → resources.lookup id' = some res' →
    res.portNumber = res'.portNumber → id = id'

/-- The resource has this port and allows the user, if one is given. -/
def Resource.Serves (res : Resource) (port : UInt16) (userId : Option UserId) : Prop :=
  res.portNumber = port ∧ ∀ user, userId = some user → res.containsUser user

section
variable {conf : Config} {it : IterOrder ResourceId} {port : UInt16} {userId : Option UserId} {id : ResourceId}

/-- A resource that serves the port is found, or another one before it. -/
theorem resourceIdByPort_returns {res : Resource} (hres : conf.resource id = some res)
    (hserves : res.Serves port userId) : ∃ id', conf.resourceIdByPort it port userId = some id' := by
  obtain ⟨p, tcp, udp, users⟩ := res
  obtain ⟨rfl, huser⟩ := hserves
  rw [← Option.isSome_iff_exists, Config.resourceIdByPort, List.find?_isSome]
  have hmem : id ∈ it.order conf.resources.keys :=
    (it.mem_order _ _).2 (Finmap.mem_keys.2 (Finmap.mem_of_lookup_eq_some hres))
  rw [Config.resource] at hres
  refine ⟨id, hmem, ?_⟩
  rcases userId with _ | user
  · simp [hres, Resource.portNumber]
  · have hcontains := huser user rfl
    simp [hres, Resource.portNumber, hcontains]

/-- In a table without two resources of the same port a search finds the resource that serves the port. -/
theorem ResourceTable.resourceIdByPort_iff (h : ResourceTable conf.resources) :
    conf.resourceIdByPort it port userId = some id ↔
      ∃ res, conf.resource id = some res ∧ res.Serves port userId := by
  constructor
  · intro hid
    obtain ⟨res, hres, hport, huser⟩ := Config.resourceIdByPort_some hid
    exact ⟨res, hres, hport, huser⟩
  · rintro ⟨res, hres, hserves⟩
    obtain ⟨id', hid'⟩ : ∃ id', conf.resourceIdByPort it port userId = some id' := resourceIdByPort_returns hres hserves
    obtain ⟨res', hres', hport', -⟩ := Config.resourceIdByPort_some hid'
    have hports : res'.portNumber = res.portNumber := by rw [hport', hserves.1]
    rw [hid', h.ports id' id res' res hres' hres hports]

end

variable [StdText] {ini : Ini} {it it' : IterOrder Text} {itR itR' : IterOrder ResourceId}

omit [StdText] in
theorem getKeys_toOption : (getKeys ini it).toOption = (getKeys ini it').toOption :=
  Except.toOption_congr fun _ => by rw [getKeys_ok_iff, getKeys_ok_iff]

theorem getResources_toOption : (getResources ini it itR).toOption = (getResources ini it' itR').toOption :=
  Except.toOption_congr fun _ => by rw [getResources_ok_iff, getResources_ok_iff]

theorem getResources_table {resources : HashMap ResourceId Resource}
    (h : getResources ini it itR = .ok resources) : ResourceTable resources := by
  have hg := getResources_ok_iff.1 h
  constructor
  · intro id port tcp udp users hid
    obtain ⟨name, value, -, hread⟩ := (hg.lookup _ _).1 hid
    obtain ⟨-, -, port', tcp', udp', users', hres, hproto⟩ := resourceOf_ok hread
    cases hres
    exact hproto
  · intro id id' res res' hid hid' hport
    obtain ⟨name, value, hopt, hread⟩ := (hg.lookup _ _).1 hid
    obtain ⟨name', value', hopt', hread'⟩ := (hg.lookup _ _).1 hid'
    by_cases hname : name = name'
    · subst hname
      rw [hopt] at hopt'
      cases hopt'
      rw [hread] at hread'
      cases hread'
      rfl
    · exact absurd hport (hg.apart _ _ _ _ hopt hopt' hname _ _ hread hread').2

/-- Whatever order the hash maps hand out their entries in, the keys and the resources of an `Ini` are the
same, every table of resources has distinct ports and a protocol for each resource, and in a configuration that
was loaded a search by port and user finds the one resource that serves them. -/
theorem tables_any_order (ini : Ini) (it it' : IterOrder Text) (itR itR' : IterOrder ResourceId) :
    (getKeys ini it).toOption = (getKeys ini it').toOption ∧
    (getResources ini it itR).toOption = (getResources ini it' itR').toOption ∧
    (∀ resources, getResources ini it itR = .ok resources → ResourceTable resources) ∧
    ∀ conf conf' : Config, conf.loadIni ini it itR = (.ok (), conf') →
      ∀ (itS itS' : IterOrder ResourceId) (port : UInt16) (userId : Option UserId),
      conf'.resourceIdByPort itS port userId = conf'.resourceIdByPort itS' port userId ∧
      ∀ id, conf'.resourceIdByPort itS port userId = some id ↔
        ∃ res, conf'.resource id = some res ∧ res.Serves port userId := by
  refine ⟨getKeys_toOption, getResources_toOption, fun resources h => getResources_table h, ?_⟩
  intro conf conf' hload itS itS' port userId
  obtain ⟨-, -, -, hres⟩ := readIni_ok (loadIni_ok hload)
  have htable := getResources_table hres
  refine ⟨Option.ext fun id => ?_, fun id => htable.resourceIdByPort_iff⟩
  rw [htable.resourceIdByPort_iff, htable.resourceIdByPort_iff]

end Letmein
