import Letmein.ConfItems
import Letmein.ConfUnique

/-!
# The grammar of a resource

A resource is read item by item into `ResourceItems`. `ItemsRead` describes what the loop has made of the items so
far without naming their order, `getResources_grammar` is what follows for a line of `[RESOURCES]`: which lines
are accepted, and what resource a line gives.
-/

namespace Letmein
open Text

/-! ## Lines that are accepted -/

section
variable (lower : Text → Text)

/-- One port, users at most once, and protocols in all other items. -/
structure ResourceGrammar (its : List Text) : Prop where
  port : ∃ value port, keyed "port".toList its = [value] ∧ ',' ∉ value ∧ parseU16 value = .ok port
  users : (keyed "users".toList its).length ≤ 1 ∧
    ∀ value ∈ keyed "users".toList its, ∀ user ∈ value.splitOn ',', ∃ id, UserId.fromStr user = .ok id
  others : ∀ item ∈ its, itemKey item = some "port".toList ∨ itemKey item = some "users".toList ∨
    ':' ∉ item ∧ ∀ v ∈ entries item, IsProtocol lower v

/-- The resource has the port, the protocols and the users of the items; TCP if there is no protocol. -/
structure Denotes (its : List Text) (port : UInt16) (tcp udp : Bool) (users : List UserId) : Prop where
  port : ∃ value, keyed "port".toList its = [value] ∧ parseU16 value = .ok port
  tcp : tcp ↔ Lists lower "tcp".toList its ∨ ¬ Lists lower "tcp".toList its ∧ ¬ Lists lower "udp".toList its
  udp : udp ↔ Lists lower "udp".toList its
  users : ((keyed "users".toList its).flatMap (·.splitOn ',')).map UserId.fromStr = users.map .ok

variable {lower}

theorem ResourceGrammar.perm {its its' : List Text} (h : its.Perm its') (hg : ResourceGrammar lower its) :
    ResourceGrammar lower its' := by
  obtain ⟨value, port, hport, hcomma, hparse⟩ := hg.port
  have hport' : keyed "port".toList its' = [value] := keyed_perm_singleton h hport
  have husers : keyed "users".toList its' = keyed "users".toList its := keyed_perm h hg.users.1
  refine ⟨⟨value, port, hport', hcomma, hparse⟩, ?_, fun item hitem => hg.others item (h.mem_iff.2 hitem)⟩
  rw [husers]
  exact hg.users

theorem Denotes.perm {its its' : List Text} (h : its.Perm its') (hg : ResourceGrammar lower its) {port : UInt16}
    {tcp udp : Bool} {users : List UserId} (hd : Denotes lower its port tcp udp users) :
    Denotes lower its' port tcp udp users := by
  obtain ⟨value, hport, hparse⟩ := hd.port
  have hport' : keyed "port".toList its' = [value] := keyed_perm_singleton h hport
  have husers : keyed "users".toList its' = keyed "users".toList its := keyed_perm h hg.users.1
  refine ⟨⟨value, hport', hparse⟩, ?_, ?_, ?_⟩
  · rw [hd.tcp, Lists.perm h, Lists.perm h]
  · rw [hd.udp, Lists.perm h]
  · rw [husers]
    exact hd.users

/-- The items determine the resource. -/
theorem Denotes.unique {its : List Text} {port port' : UInt16} {tcp tcp' udp udp' : Bool} {users users' : List UserId}
    (hd : Denotes lower its port tcp udp users) (hd' : Denotes lower its port' tcp' udp' users') :
    Resource.port port tcp udp users = .port port' tcp' udp' users' := by
  obtain ⟨value, hkey, hparse⟩ := hd.port
  obtain ⟨value', hkey', hparse'⟩ := hd'.port
  have hport : port = port' := by
    rw [hkey] at hkey'
    cases hkey'
    rw [hparse] at hparse'
    cases hparse'
    rfl
  have htcp : tcp = tcp' := Bool.eq_iff_iff.2 (hd.tcp.trans hd'.tcp.symm)
  have hudp : udp = udp' := Bool.eq_iff_iff.2 (hd.udp.trans hd'.udp.symm)
  have husers : users = users' := by
    have hinj : Function.Injective (Except.ok : UserId → Except String UserId) := fun _ _ h => Except.ok.inj h
    exact List.map_injective_iff.2 hinj (hd.users.symm.trans hd'.users)
  rw [hport, htcp, hudp, husers]

/-- Users that are listed restrict the resource. -/
theorem Denotes.users_ne_nil {its : List Text} {port : UInt16} {tcp udp : Bool} {users : List UserId}
    (hd : Denotes lower its port tcp udp users) {item : Text} (hitem : item ∈ its)
    (hkey : itemKey item = some "users".toList) : users ≠ [] := by
  obtain ⟨p, hp, hkey⟩ := Option.map_eq_some_iff.1 hkey
  have hvalue : valueOf "users".toList item = some p.2 := by
    rw [valueOf, hp]
    simp [hkey]
  have hmem : p.2 ∈ keyed "users".toList its := List.mem_filterMap.2 ⟨item, hitem, hvalue⟩
  rintro rfl
  have husers := hd.users
  rw [List.map_nil, List.map_eq_nil_iff, List.flatMap_eq_nil_iff] at husers
  exact List.splitOn_ne_nil _ _ (husers _ hmem)

end

/-! ## One item -/

def ResourceItems.addProtocols (tcp udp : Bool) (r : ResourceItems) : ResourceItems :=
  { r with tcp := r.tcp || tcp, udp := r.udp || udp }

section
variable [StdText] {r r' : ResourceItems} {item : Text} {its : List Text}

theorem resourceFlag_flagsOf : FlagsOf toLowercase ResourceItems.addProtocols resourceFlag := by
  have heq : resourceFlag = fun s v => if toLowercase v = "tcp".toList then .ok (ResourceItems.addProtocols true false s)
      else if toLowercase v = "udp".toList then .ok (ResourceItems.addProtocols false true s)
      else .error s!"[RESOURCE] unknown option: {String.ofList (toLowercase v)}" := by
    funext s v
    simp [resourceFlag, ResourceItems.addProtocols]
  rw [heq]
  exact flagsOf_ite

theorem resourceFlags_ok_iff {vs : List Text} : vs.foldlM resourceFlag r = .ok r' ↔
    (∀ v ∈ vs, IsProtocol toLowercase v) ∧ r' = r.addProtocols (∃ v ∈ vs, toLowercase v = "tcp".toList)
      (∃ v ∈ vs, toLowercase v = "udp".toList) := by
  refine resourceFlag_flagsOf.foldlM_ok_iff ?_ ?_
  · intro s
    simp [ResourceItems.addProtocols]
  · intro t u t' u' s
    simp [ResourceItems.addProtocols, Bool.or_assoc]

theorem resourceItem_keyValue_ok_iff {k v : Text} : resourceItem r (.keyValue k v) = .ok r' ↔
    (k = "port".toList ∧ r.port = none ∧ ∃ port, parseU16 v = .ok port ∧ r' = { r with port := some port }) ∨
    k = "users".toList ∧ r.users = [] ∧ r' = { r with users := [v] } := by
  have hne : "port".toList ≠ "users".toList := by decide
  simp only [resourceItem]
  split_ifs with hport hsome husers hsome
  · refine ⟨fun h => by simp at h, ?_⟩
    rintro (⟨-, hnone, -⟩ | ⟨hk, -⟩)
    · rw [hnone] at hsome
      cases hsome
    · exact absurd (hport.symm.trans hk) hne
  · have hnone : r.port = none := by simpa using hsome
    constructor
    · intro h
      obtain ⟨port, hparse, h⟩ := Except.bind_ok h
      rw [Except.mapError_ok_iff] at hparse
      cases h
      exact .inl ⟨hport, hnone, port, hparse, rfl⟩
    · rintro (⟨-, -, port, hparse, rfl⟩ | ⟨hk, -⟩)
      · rw [hparse]
        rfl
      · exact absurd (hport.symm.trans hk) hne
  · refine ⟨fun h => by simp at h, ?_⟩
    rintro (⟨hk, -⟩ | ⟨-, hnil, -⟩)
    · exact absurd hk hport
    · rw [hnil] at hsome
      cases hsome
  · have hnil : r.users = [] := by simpa using hsome
    constructor
    · intro h
      cases h
      exact .inr ⟨husers, hnil, by rw [hnil]; rfl⟩
    · rintro (⟨hk, -⟩ | ⟨-, -, rfl⟩)
      · exact absurd hk hport
      · rw [hnil]
        rfl
  · refine ⟨fun h => by simp at h, ?_⟩
    rintro (⟨hk, -⟩ | ⟨hk, -⟩)
    · exact absurd hk hport
    · exact absurd hk husers

theorem resourceItem_keyValues_ok_iff {k : Text} {vs : List Text} : resourceItem r (.keyValues k vs) = .ok r' ↔
    k = "users".toList ∧ r.users = [] ∧ r' = { r with users := vs } := by
  have hne : "port".toList ≠ "users".toList := by decide
  simp only [resourceItem]
  split_ifs with hport husers hsome
  · refine ⟨fun h => by simp at h, ?_⟩
    rintro ⟨hk, -⟩
    exact absurd (hport.symm.trans hk) hne
  · refine ⟨fun h => by simp at h, ?_⟩
    rintro ⟨-, hnil, -⟩
    rw [hnil] at hsome
    cases hsome
  · have hnil : r.users = [] := by simpa using hsome
    constructor
    · intro h
      cases h
      exact ⟨husers, hnil, rfl⟩
    · rintro ⟨-, -, rfl⟩
      rfl
  · refine ⟨fun h => by simp at h, ?_⟩
    rintro ⟨hk, -⟩
    exact absurd hk husers

/-- What one item does: set the port or the users, which are not set yet, or add protocols. -/
theorem readItem_ok_iff : (mapItem item >>= resourceItem r) = .ok r' ↔
    (∃ value port, valueOf "port".toList item = some value ∧ ',' ∉ value ∧ parseU16 value = .ok port ∧
      r.port = none ∧ r' = { r with port := some port }) ∨
    (∃ value, valueOf "users".toList item = some value ∧ r.users = [] ∧
      r' = { r with users := entries value }) ∨
    ':' ∉ item ∧ (∀ v ∈ entries item, IsProtocol toLowercase v) ∧
      r' = r.addProtocols (Lists toLowercase "tcp".toList [item]) (Lists toLowercase "udp".toList [item]) := by
  have hpos : ∀ k : Text, k = "port".toList ∨ k = "users".toList → k ≠ [] := by
    rintro k (rfl | rfl) <;> decide
  rcases hsplit : splitOnce ':' item with _ | ⟨key, value⟩
  · have hplain := splitOnce_eq_none_iff.1 hsplit
    rw [mapItem_plain hplain]
    show (entries item).foldlM resourceFlag r = .ok r' ↔ _
    simp only [valueOf_eq_none hplain, resourceFlags_ok_iff, lists_singleton hplain, hplain]
    simp
  · have hcolon : ':' ∈ item := by
      rw [(splitOnce_eq_some_iff.1 hsplit).1]
      simp
    have hvalue : ∀ k v, valueOf k item = some v ↔ trim key = k ∧ value = v := by
      intro k v
      rw [valueOf_eq_some_iff, hsplit]
      constructor
      · rintro ⟨k', hk', rfl⟩
        cases hk'
        exact ⟨rfl, rfl⟩
      · rintro ⟨rfl, rfl⟩
        exact ⟨key, rfl, rfl⟩
    by_cases hkey : trim key = []
    · rw [mapItem_without_key hsplit hkey]
      refine ⟨fun h => (by cases h), ?_⟩
      rintro (⟨v, port, hv, -⟩ | ⟨v, hv, -⟩ | ⟨hnot, -⟩)
      · exact absurd hkey (hpos _ (.inl ((hvalue _ _).1 hv).1))
      · exact absurd hkey (hpos _ (.inr ((hvalue _ _).1 hv).1))
      · exact absurd hcolon hnot
    · rw [mapItem_keyed hsplit hkey]
      split_ifs with hcomma
      · show resourceItem r (.keyValues (trim key) (entries value)) = .ok r' ↔ _
        rw [resourceItem_keyValues_ok_iff]
        constructor
        · rintro ⟨hk, hnil, hr⟩
          exact .inr (.inl ⟨value, (hvalue _ _).2 ⟨hk, rfl⟩, hnil, hr⟩)
        · rintro (⟨v, port, hv, hnot, -⟩ | ⟨v, hv, hnil, hr⟩ | ⟨hnot, -⟩)
          · obtain ⟨-, rfl⟩ := (hvalue _ _).1 hv
            exact absurd hcomma hnot
          · obtain ⟨hk, rfl⟩ := (hvalue _ _).1 hv
            exact ⟨hk, hnil, hr⟩
          · exact absurd hcolon hnot
      · show resourceItem r (.keyValue (trim key) (trim value)) = .ok r' ↔ _
        rw [resourceItem_keyValue_ok_iff, parseU16_trim, ← entries_of_not_mem hcomma]
        constructor
        · rintro (⟨hk, hnone, port, hparse, hr⟩ | ⟨hk, hnil, hr⟩)
          · exact .inl ⟨value, port, (hvalue _ _).2 ⟨hk, rfl⟩, hcomma, hparse, hnone, hr⟩
          · exact .inr (.inl ⟨value, (hvalue _ _).2 ⟨hk, rfl⟩, hnil, hr⟩)
        · rintro (⟨v, port, hv, -, hparse, hnone, hr⟩ | ⟨v, hv, hnil, hr⟩ | ⟨hnot, -⟩)
          · obtain ⟨hk, rfl⟩ := (hvalue _ _).1 hv
            exact .inl ⟨hk, hnone, port, hparse, hr⟩
          · obtain ⟨hk, rfl⟩ := (hvalue _ _).1 hv
            exact .inr ⟨hk, hnil, hr⟩
          · exact absurd hcolon hnot

/-! ## All items -/

/-- What the items have said, in whatever order they came. -/
structure ItemsRead (its : List Text) (r : ResourceItems) : Prop where
  port : keyed "port".toList its = [] ∧ r.port = none ∨ ∃ value port,
    keyed "port".toList its = [value] ∧ ',' ∉ value ∧ parseU16 value = .ok port ∧ r.port = some port
  users : (keyed "users".toList its).length ≤ 1 ∧ r.users = (keyed "users".toList its).flatMap entries
  tcp : r.tcp ↔ Lists toLowercase "tcp".toList its
  udp : r.udp ↔ Lists toLowercase "udp".toList its
  others : ∀ item ∈ its, itemKey item = some "port".toList ∨ itemKey item = some "users".toList ∨
    ':' ∉ item ∧ ∀ v ∈ entries item, IsProtocol toLowercase v

theorem ItemsRead.concat (h : ItemsRead its r) (hitem : (mapItem item >>= resourceItem r) = .ok r') :
    ItemsRead (its ++ [item]) r' := by
  have hne : "port".toList ≠ "users".toList := by decide
  rcases readItem_ok_iff.1 hitem with ⟨value, port, hv, hcomma, hparse, hnone, rfl⟩ | ⟨value, hv, hnil, rfl⟩ |
    ⟨hplain, hprotocols, rfl⟩
  · have hport : keyed "port".toList its = [] := by
      rcases h.port with ⟨hport, -⟩ | ⟨_, _, -, -, -, hsome⟩
      · exact hport
      · rw [hnone] at hsome
        cases hsome
    refine ⟨.inr ⟨value, port, ?_, hcomma, hparse, rfl⟩, ?_, ?_, ?_, ?_⟩
    · rw [keyed_concat, hport, hv]
      rfl
    · rw [keyed_concat, valueOf_eq_none_of_ne hv hne, Option.toList_none, List.append_nil]
      exact h.users
    · rw [lists_concat, or_iff_left (not_lists_of_valueOf hv)]
      exact h.tcp
    · rw [lists_concat, or_iff_left (not_lists_of_valueOf hv)]
      exact h.udp
    · rw [List.forall_mem_append, List.forall_mem_singleton]
      exact ⟨h.others, .inl (itemKey_eq_some_iff.2 ⟨value, hv⟩)⟩
  · have husers : keyed "users".toList its = [] := by
      have hflat := h.users.2
      rw [hnil, eq_comm, List.flatMap_eq_nil_iff] at hflat
      exact List.eq_nil_iff_forall_not_mem.2 fun v hmem => entries_ne_nil v (hflat v hmem)
    refine ⟨?_, ?_, ?_, ?_, ?_⟩
    · rw [keyed_concat, valueOf_eq_none_of_ne hv hne.symm, Option.toList_none, List.append_nil]
      exact h.port
    · rw [keyed_concat, husers, hv]
      exact ⟨Nat.le_refl 1, (List.append_nil _).symm⟩
    · rw [lists_concat, or_iff_left (not_lists_of_valueOf hv)]
      exact h.tcp
    · rw [lists_concat, or_iff_left (not_lists_of_valueOf hv)]
      exact h.udp
    · rw [List.forall_mem_append, List.forall_mem_singleton]
      exact ⟨h.others, .inr (.inl (itemKey_eq_some_iff.2 ⟨value, hv⟩))⟩
  · refine ⟨?_, ?_, ?_, ?_, ?_⟩
    · rw [keyed_concat, valueOf_eq_none hplain, Option.toList_none, List.append_nil]
      exact h.port
    · rw [keyed_concat, valueOf_eq_none hplain, Option.toList_none, List.append_nil]
      exact h.users
    · rw [lists_concat, ← h.tcp]
      simp [ResourceItems.addProtocols]
    · rw [lists_concat, ← h.udp]
      simp [ResourceItems.addProtocols]
    · rw [List.forall_mem_append, List.forall_mem_singleton]
      exact ⟨h.others, .inr (.inr ⟨hplain, hprotocols⟩)⟩

theorem ItemsRead.of_concat (h : ItemsRead (its ++ [item]) r') :
    ∃ r, ItemsRead its r ∧ (mapItem item >>= resourceItem r) = .ok r' := by
  have hne : "port".toList ≠ "users".toList := by decide
  obtain ⟨hport, husers, htcp, hudp, hothers⟩ := h
  rw [List.forall_mem_append, List.forall_mem_singleton] at hothers
  obtain ⟨hothers, hitem⟩ := hothers
  rw [keyed_concat] at hport husers
  rw [lists_concat] at htcp hudp
  rcases hitem with hkey | hkey | ⟨hplain, hprotocols⟩
  · obtain ⟨value, hv⟩ := itemKey_eq_some_iff.1 hkey
    rw [hv, Option.toList_some] at hport
    rw [valueOf_eq_none_of_ne hv hne, Option.toList_none, List.append_nil] at husers
    rw [or_iff_left (not_lists_of_valueOf hv)] at htcp hudp
    rcases hport with ⟨hport, -⟩ | ⟨value', port, hport, hcomma, hparse, hsome⟩
    · exact absurd hport (List.append_ne_nil_of_right_ne_nil _ (List.cons_ne_nil _ _))
    · obtain ⟨hnil, hvalue⟩ := List.append_eq_singleton_iff.1 hport |>.resolve_right fun hr => by simp at hr
      cases hvalue
      refine ⟨{ r' with port := none }, ⟨.inl ⟨hnil, rfl⟩, husers, htcp, hudp, hothers⟩, ?_⟩
      refine readItem_ok_iff.2 (.inl ⟨value, port, hv, hcomma, hparse, rfl, ?_⟩)
      rw [← hsome]
  · obtain ⟨value, hv⟩ := itemKey_eq_some_iff.1 hkey
    rw [hv, Option.toList_some] at husers
    rw [valueOf_eq_none_of_ne hv hne.symm, Option.toList_none, List.append_nil] at hport
    rw [or_iff_left (not_lists_of_valueOf hv)] at htcp hudp
    obtain ⟨hlen, hflat⟩ := husers
    have hnil : keyed "users".toList its = [] := by
      rw [List.length_append, List.length_singleton] at hlen
      exact List.eq_nil_of_length_eq_zero (by omega)
    rw [hnil, List.nil_append, List.flatMap_singleton] at hflat
    refine ⟨{ r' with users := [] }, ⟨hport, ?_, htcp, hudp, hothers⟩, ?_⟩
    · rw [hnil]
      exact ⟨Nat.zero_le 1, rfl⟩
    · refine readItem_ok_iff.2 (.inr (.inl ⟨value, hv, rfl, ?_⟩))
      rw [← hflat]
  · rw [valueOf_eq_none hplain, Option.toList_none, List.append_nil] at hport husers
    refine ⟨{ r' with tcp := Lists toLowercase "tcp".toList its, udp := Lists toLowercase "udp".toList its },
      ⟨hport, husers, decide_eq_true_iff, decide_eq_true_iff, hothers⟩, ?_⟩
    refine readItem_ok_iff.2 (.inr (.inr ⟨hplain, hprotocols, ?_⟩))
    have htcp' : r'.tcp = (decide (Lists toLowercase "tcp".toList its) ||
        decide (Lists toLowercase "tcp".toList [item])) := by
      rw [← Bool.decide_or, Bool.eq_iff_iff, decide_eq_true_iff]
      exact htcp
    have hudp' : r'.udp = (decide (Lists toLowercase "udp".toList its) ||
        decide (Lists toLowercase "udp".toList [item])) := by
      rw [← Bool.decide_or, Bool.eq_iff_iff, decide_eq_true_iff]
      exact hudp
    rw [ResourceItems.addProtocols, ← htcp', ← hudp']

/-- The loop over the items returns exactly what they say. -/
theorem foldlM_resourceItem_ok_iff :
    (∃ l, its.mapM mapItem = .ok l ∧ l.foldlM resourceItem {} = .ok r) ↔ ItemsRead its r := by
  rw [Except.mapM_foldlM_ok_iff]
  refine Except.foldlM_ok_iff (fun r => ?_) fun its item r' => ?_
  · constructor
    · rintro ⟨hport, husers, htcp, hudp, -⟩
      have hnone : r.port = none := by
        rcases hport with ⟨-, h⟩ | ⟨_, _, h, -⟩
        · exact h
        · cases h
      obtain ⟨port, users, tcp, udp⟩ := r
      have htcp : tcp = false := by simpa [Lists] using htcp
      have hudp : udp = false := by simpa [Lists] using hudp
      have husers : users = [] := husers.2
      have hport : port = none := hnone
      rw [htcp, hudp, husers, hport]
    · rintro rfl
      exact ⟨.inl ⟨rfl, rfl⟩, ⟨Nat.zero_le 1, rfl⟩, by simp [Lists], by simp [Lists], by simp⟩
  · refine ⟨ItemsRead.of_concat, ?_⟩
    rintro ⟨r, h, hitem⟩
    exact h.concat hitem

/-! ## The resource -/

omit [StdText] in
theorem map_fromStr_entries (values : List Text) :
    (values.flatMap entries).map UserId.fromStr = (values.flatMap (·.splitOn ',')).map UserId.fromStr := by
  simp [List.map_flatMap, entries, Function.comp_def]

variable {name value : Text} {id : ResourceId} {res : Resource}

theorem resourceOf_grammar (h : resourceOf name value = .ok (id, res)) :
    ResourceGrammar toLowercase (items value) ∧ ∃ port tcp udp users, res = .port port tcp udp users ∧
      Denotes toLowercase (items value) port tcp udp users := by
  obtain ⟨id', hid, h⟩ := Except.bind_ok h
  obtain ⟨l, hl, h⟩ := Except.bind_ok h
  obtain ⟨r, hr, h⟩ := Except.bind_ok h
  rw [Except.mapError_ok_iff] at hl
  have hread : ItemsRead (items value) r := foldlM_resourceItem_ok_iff.1 ⟨l, hl, hr⟩
  rcases hread.port with ⟨-, hnone⟩ | ⟨v, port, hport, hcomma, hparse, hsome⟩
  · rw [hnone] at h
    cases h
  · rw [hsome] at h
    obtain ⟨users, husers, h⟩ := Except.bind_ok h
    cases h
    rw [Except.mapM_mapError_ok_iff, hread.users.2, map_fromStr_entries] at husers
    refine ⟨⟨⟨v, port, hport, hcomma, hparse⟩, ⟨hread.users.1, ?_⟩, hread.others⟩, port, _, r.udp, users, rfl,
      ⟨⟨v, hport, hparse⟩, ?_, hread.udp, husers⟩⟩
    · intro value' hvalue' user huser
      have hmem : UserId.fromStr user ∈ users.map .ok := by
        rw [← husers]
        exact List.mem_map_of_mem (List.mem_flatMap.2 ⟨value', hvalue', huser⟩)
      obtain ⟨id, -, hid⟩ := List.mem_map.1 hmem
      exact ⟨id, hid.symm⟩
    · rw [← hread.tcp, ← hread.udp]
      cases r.tcp <;> cases r.udp <;> simp

theorem resourceOf_returns (hid : ResourceId.fromStr name = .ok id)
    (hg : ResourceGrammar toLowercase (items value)) : ∃ res, resourceOf name value = .ok (id, res) := by
  obtain ⟨v, port, hport, hcomma, hparse⟩ := hg.port
  obtain ⟨users, husers⟩ : ∃ users : List UserId,
      ((keyed "users".toList (items value)).flatMap (·.splitOn ',')).map UserId.fromStr = users.map .ok := by
    refine Except.exists_map_ok fun user huser => ?_
    obtain ⟨v', hv', huser⟩ := List.mem_flatMap.1 huser
    exact hg.users.2 v' hv' user huser
  have hread : ItemsRead (items value) (.mk (some port) ((keyed "users".toList (items value)).flatMap entries)
      (Lists toLowercase "tcp".toList (items value)) (Lists toLowercase "udp".toList (items value))) :=
    ⟨.inr ⟨v, port, hport, hcomma, hparse, rfl⟩, ⟨hg.users.1, rfl⟩, decide_eq_true_iff, decide_eq_true_iff, hg.others⟩
  obtain ⟨l, hl, hr⟩ := foldlM_resourceItem_ok_iff.2 hread
  rw [← map_fromStr_entries] at husers
  have husers' := Except.mapM_mapError_ok_iff
    (g := fun _ => s!"[RESOURCE] '{idText id.id}': 'user' id is invalid").2 husers
  have hid' : (ResourceId.fromStr name).mapError (fun _ => "[RESOURCES]") = .ok id := Except.mapError_ok_iff.2 hid
  have hl' : (mapItems value).mapError (fun _ => "[RESOURCES]") = .ok l := Except.mapError_ok_iff.2 hl
  simp only [resourceOf, hid', hl', bind, Except.bind, hr]
  simp only [husers']
  exact ⟨_, rfl⟩

/-! ## A line of `[RESOURCES]` -/

/-- The lower case of a text is `tcp` or `udp` exactly if the text is these letters, each of them a small or a
capital one. -/
def LowersProtocols : Prop :=
  ∀ v w, w = "tcp".toList ∨ w = "udp".toList → (toLowercase v = w ↔ v.map Char.toLower = w)

theorem LowersProtocols.isProtocol (h : LowersProtocols) :
    IsProtocol toLowercase = IsProtocol (List.map Char.toLower) := by
  funext v
  rw [IsProtocol, IsProtocol, h v _ (.inl rfl), h v _ (.inr rfl)]

theorem LowersProtocols.lists (h : LowersProtocols) {w : Text} (hw : w = "tcp".toList ∨ w = "udp".toList) :
    Lists toLowercase w = Lists (List.map Char.toLower) w := by
  funext its
  simp only [Lists, h _ w hw]

theorem LowersProtocols.grammar (h : LowersProtocols) :
    ResourceGrammar toLowercase its ↔ ResourceGrammar (List.map Char.toLower) its := by
  constructor
  · rintro ⟨hport, husers, hothers⟩
    rw [h.isProtocol] at hothers
    exact ⟨hport, husers, hothers⟩
  · rintro ⟨hport, husers, hothers⟩
    rw [← h.isProtocol] at hothers
    exact ⟨hport, husers, hothers⟩

theorem LowersProtocols.denotes (h : LowersProtocols) {port : UInt16} {tcp udp : Bool} {users : List UserId}
    (hd : Denotes toLowercase its port tcp udp users) : Denotes (List.map Char.toLower) its port tcp udp users := by
  obtain ⟨hport, htcp, hudp, husers⟩ := hd
  rw [h.lists (.inl rfl), h.lists (.inr rfl)] at htcp
  rw [h.lists (.inr rfl)] at hudp
  exact ⟨hport, htcp, hudp, husers⟩

/-- Items in another order are read to the same resource. -/
theorem resourceOf_perm {value' : Text} (h : (items value).Perm (items value'))
    (hread : resourceOf name value = .ok (id, res)) : resourceOf name value' = .ok (id, res) := by
  obtain ⟨hg, port, tcp, udp, users, rfl, hd⟩ := resourceOf_grammar hread
  obtain ⟨hid, -, -⟩ := resourceOf_ok hread
  obtain ⟨res', hread'⟩ := resourceOf_returns hid (hg.perm h)
  obtain ⟨-, port', tcp', udp', users', rfl, hd'⟩ := resourceOf_grammar hread'
  rw [hread', hd'.unique (hd.perm h hg)]

theorem getResources_line_iff {ini : Ini} (hini : ini.options "RESOURCES".toList = Finmap.singleton name value)
    {it : IterOrder Text} {itR : IterOrder ResourceId} {resources : HashMap ResourceId Resource} :
    getResources ini it itR = .ok resources ↔
      ∃ r, resourceOf name value = .ok r ∧ resources = Finmap.singleton r.1 r.2 := by
  rw [getResources_ok_iff, hini, Finmap.gathers_singleton_iff]

/-- A line of `[RESOURCES]` with a valid name is accepted exactly if its value is in the grammar. The resource has
the port, the protocols and the users of the items, the same for every order of the items, and it is
restricted to users if the line has the key `users`. -/
theorem getResources_grammar (hlower : LowersProtocols) (hid : ResourceId.fromStr name = .ok id) {ini : Ini}
    (hini : ini.options "RESOURCES".toList = Finmap.singleton name value) (it : IterOrder Text)
    (itR : IterOrder ResourceId) :
    ((∃ resources, getResources ini it itR = .ok resources) ↔
      ResourceGrammar (List.map Char.toLower) (items value)) ∧
    (∀ resources, getResources ini it itR = .ok resources → ∃ port tcp udp users,
      resources = Finmap.singleton id (.port port tcp udp users) ∧
      Denotes (List.map Char.toLower) (items value) port tcp udp users ∧
      ∀ item ∈ items value, itemKey item = some "users".toList → users ≠ []) ∧
    ∀ ini' value', (items value').Perm (items value) →
      ini'.options "RESOURCES".toList = Finmap.singleton name value' →
      (getResources ini' it itR).toOption = (getResources ini it itR).toOption := by
  refine ⟨?_, ?_, ?_⟩
  · rw [← hlower.grammar]
    constructor
    · rintro ⟨resources, h⟩
      obtain ⟨⟨id', res⟩, hread, -⟩ := (getResources_line_iff hini).1 h
      exact (resourceOf_grammar hread).1
    · intro hg
      obtain ⟨res, hread⟩ := resourceOf_returns hid hg
      exact ⟨_, (getResources_line_iff hini).2 ⟨_, hread, rfl⟩⟩
  · intro resources h
    obtain ⟨⟨id', res⟩, hread, rfl⟩ := (getResources_line_iff hini).1 h
    have hid' := (resourceOf_ok hread).1
    rw [hid] at hid'
    cases hid'
    obtain ⟨-, port, tcp, udp, users, rfl, hd⟩ := resourceOf_grammar hread
    exact ⟨port, tcp, udp, users, rfl, hlower.denotes hd, fun item hitem hkey => hd.users_ne_nil hitem hkey⟩
  · intro ini' value' hperm hini'
    refine Except.toOption_congr fun resources => ?_
    rw [getResources_line_iff hini, getResources_line_iff hini']
    constructor
    · rintro ⟨r, hread, hr⟩
      exact ⟨r, resourceOf_perm hperm hread, hr⟩
    · rintro ⟨r, hread, hr⟩
      exact ⟨r, resourceOf_perm hperm.symm hread, hr⟩

end

/-- An `Ini` with one resource. -/
def resourceIni (name value : Text) : Ini where
  sections := Finmap.singleton "RESOURCES".toList (Finmap.singleton name value)

theorem resourceIni_options (name value : Text) :
    (resourceIni name value).options "RESOURCES".toList = Finmap.singleton name value := by
  rw [Ini.options, resourceIni, Finmap.lookup_singleton_eq]
  rfl

theorem getResources_grammar_sample : ∃ resources,
    @getResources asciiStd (resourceIni "3A".toList "Udp, TCP/ users : 1,2/port:4000".toList) (anyOrder _) (anyOrder _) =
      .ok resources := by
  refine (@getResources_grammar asciiStd _ _ ⟨0x3A⟩ (fun _ _ _ => Iff.rfl) (by decide) _
    (resourceIni_options _ _) _ _).1.2 ⟨?_, ?_, ?_⟩
  · exact ⟨"4000".toList, 4000, by decide, by decide, by decide⟩
  · refine ⟨by decide, ?_⟩
    have hkeyed : keyed "users".toList (items "Udp, TCP/ users : 1,2/port:4000".toList) = [" 1,2".toList] := by decide
    rw [hkeyed, List.forall_mem_singleton]
    have hsplit : " 1,2".toList.splitOn ',' = [" 1".toList, "2".toList] := by decide
    rw [hsplit, List.forall_mem_cons, List.forall_mem_singleton]
    exact ⟨⟨⟨1⟩, by decide⟩, ⟨⟨2⟩, by decide⟩⟩
  · unfold IsProtocol
    decide

end Letmein
