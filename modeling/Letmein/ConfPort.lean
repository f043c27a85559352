import Letmein.ConfItems
import Letmein.ConfUnique

/-!
# The order of the items of the control port

An item of `[GENERAL] port` is a number or a list of protocols. The loop over the items takes every number for the
port, so the last one stays. `getPort_order_iff` says when the order of the items does not matter: the value is
refused for one of its items, or all numbers in it are the same port.
-/

namespace Letmein
open Text

/-- An item that is taken for a port number. -/
def IsPortNumber (item : Text) : Prop := ',' ∉ item ∧ isNumber item

instance (item : Text) : Decidable (IsPortNumber item) := inferInstanceAs (Decidable (_ ∧ _))

/-- The port that an item gives. -/
def portOf (item : Text) : Option UInt16 := if IsPortNumber item then (parseU16 item).toOption else none

/-- The ports that the items give, in their order. -/
def portNumbers (its : List Text) : List UInt16 := its.filterMap portOf

def protocolItems (its : List Text) : List Text := its.filter fun item => ¬ IsPortNumber item

section
variable [StdText]

/-- An item that is accepted: a number of 16 bits or a list of protocols. -/
def PortItem (item : Text) : Prop :=
  ':' ∉ item ∧ if IsPortNumber item then ∃ port, parseU16 item = .ok port
    else ∀ v ∈ entries item, IsProtocol toLowercase v

/-- Some item is refused, or all port numbers are the same. -/
def PortUnambiguous (value : Text) : Prop :=
  (∃ item ∈ items value, ¬ PortItem item) ∨
    ∀ p ∈ portNumbers (items value), ∀ q ∈ portNumbers (items value), p = q

/-- The outcome is the same for every order of the items. -/
def PortOrderFree (value : Text) : Prop :=
  ∀ (ini ini' : Ini) (value' : Text), ini.get "GENERAL".toList "port".toList = some value →
    ini'.get "GENERAL".toList "port".toList = some value' → (items value').Perm (items value) →
    (getPort ini').toOption = (getPort ini).toOption

/-- A value with two different port numbers is refused. -/
def RefusesTwoPorts (value : Text) : Prop :=
  ∀ ini : Ini, ini.get "GENERAL".toList "port".toList = some value →
    (∃ p ∈ portNumbers (items value), ∃ q ∈ portNumbers (items value), p ≠ q) → ∃ e, getPort ini = .error e

end

/-! ## One item -/

theorem isNumber_trim (s : Text) : isNumber (trim s) = isNumber s := by
  rw [isNumber, isNumber, trim_trim]

theorem entries_length_iff {s : Text} : (entries s).length = 1 ↔ ',' ∉ s := by
  constructor
  · intro h
    rw [entries, List.length_map, List.length_eq_one_iff] at h
    obtain ⟨part, hpart⟩ := h
    have hs : [','].intercalate (s.splitOn ',') = s := List.intercalate_splitOn ','
    rw [hpart, List.intercalate_singleton] at hs
    rw [← hs]
    exact List.not_mem_of_mem_splitOn (l := s) (by rw [hpart]; exact List.mem_singleton_self part)
  · intro h
    rw [entries_of_not_mem h, List.length_singleton]

/-- What `get_port` tests of the entries of an item. -/
theorem isPortNumber_iff {item : Text} :
    (entries item).length = 1 ∧ isNumber ((entries item).headD []) ↔ IsPortNumber item := by
  rw [entries_length_iff, IsPortNumber]
  refine and_congr_right fun h => ?_
  rw [entries_of_not_mem h, List.headD_cons, isNumber_trim]

def ControlPort.addProtocols (tcp udp : Bool) (cp : ControlPort) : ControlPort :=
  { cp with tcp := cp.tcp || tcp, udp := cp.udp || udp }

section
variable [StdText] {cp cp' : ControlPort} {item : Text} {its its' : List Text}

theorem controlPortFlag_flagsOf : FlagsOf toLowercase ControlPort.addProtocols controlPortFlag := by
  have heq : controlPortFlag = fun s v => if toLowercase v = "tcp".toList then .ok (ControlPort.addProtocols true false s)
      else if toLowercase v = "udp".toList then .ok (ControlPort.addProtocols false true s)
      else .error s!"[GENERAL] port: Unknown option: {String.ofList (toLowercase v)}" := by
    funext s v
    simp [controlPortFlag, ControlPort.addProtocols]
  rw [heq]
  exact flagsOf_ite

theorem controlPortFlags_ok_iff {vs : List Text} : vs.foldlM controlPortFlag cp = .ok cp' ↔
    (∀ v ∈ vs, IsProtocol toLowercase v) ∧ cp' = cp.addProtocols (∃ v ∈ vs, toLowercase v = "tcp".toList)
      (∃ v ∈ vs, toLowercase v = "udp".toList) := by
  refine controlPortFlag_flagsOf.foldlM_ok_iff ?_ ?_
  · intro s
    simp [ControlPort.addProtocols]
  · intro t u t' u' s
    simp [ControlPort.addProtocols, Bool.or_assoc]

/-- An item with a colon is refused. -/
theorem portItem_keyed (h : ':' ∈ item) : (mapItem item >>= controlPortItem cp) ≠ .ok cp' := by
  intro hok
  obtain ⟨m, hm, hok⟩ := Except.bind_ok hok
  rcases hsplit : splitOnce ':' item with _ | ⟨key, value⟩
  · exact splitOnce_eq_none_iff.1 hsplit h
  · by_cases hkey : trim key = []
    · rw [mapItem_without_key hsplit hkey] at hm
      cases hm
    · rw [mapItem_keyed hsplit hkey] at hm
      cases hm
      split_ifs at hok <;> cases hok

/-- What one item does: it replaces the port, or it adds protocols. -/
theorem portItem_ok_iff (hplain : ':' ∉ item) : (mapItem item >>= controlPortItem cp) = .ok cp' ↔
    if IsPortNumber item then ∃ port, parseU16 item = .ok port ∧ cp' = { cp with port }
    else (∀ v ∈ entries item, IsProtocol toLowercase v) ∧
      cp' = cp.addProtocols (Lists toLowercase "tcp".toList [item]) (Lists toLowercase "udp".toList [item]) := by
  rw [mapItem_plain hplain]
  show controlPortItem cp (.values (entries item)) = .ok cp' ↔ _
  simp only [controlPortItem]
  by_cases hnumber : IsPortNumber item
  · rw [if_pos (isPortNumber_iff.2 hnumber), if_pos hnumber, entries_of_not_mem hnumber.1, List.headD_cons,
      parseU16_trim]
    constructor
    · intro h
      obtain ⟨port, hport, h⟩ := Except.bind_ok h
      cases h
      exact ⟨port, hport, rfl⟩
    · rintro ⟨port, hport, rfl⟩
      rw [hport]
      rfl
  · rw [if_neg (fun h => hnumber (isPortNumber_iff.1 h)), if_neg hnumber, controlPortFlags_ok_iff]
    simp only [lists_singleton hplain]

/-! ## All items -/

/-- What the items have said. The port is the last one that is given. -/
structure PortRead (its : List Text) (cp : ControlPort) : Prop where
  valid : ∀ item ∈ its, PortItem item
  port : cp.port = (portNumbers its).getLast?.getD 5800
  tcp : cp.tcp ↔ Lists toLowercase "tcp".toList (protocolItems its)
  udp : cp.udp ↔ Lists toLowercase "udp".toList (protocolItems its)

omit [StdText] in
theorem portNumbers_concat : portNumbers (its ++ [item]) = portNumbers its ++ (portOf item).toList := by
  rw [portNumbers, List.filterMap_append, ← portNumbers]
  rcases h : portOf item with _ | port <;> simp [h]

omit [StdText] in
theorem protocolItems_concat_number (h : IsPortNumber item) : protocolItems (its ++ [item]) = protocolItems its := by
  simp [protocolItems, h]

omit [StdText] in
theorem protocolItems_concat (h : ¬ IsPortNumber item) :
    protocolItems (its ++ [item]) = protocolItems its ++ [item] := by
  simp [protocolItems, h]

theorem PortRead.concat (h : PortRead its cp) (hitem : (mapItem item >>= controlPortItem cp) = .ok cp') :
    PortRead (its ++ [item]) cp' := by
  by_cases hcolon : ':' ∈ item
  · exact absurd hitem (portItem_keyed hcolon)
  rw [portItem_ok_iff hcolon] at hitem
  by_cases hnumber : IsPortNumber item
  · rw [if_pos hnumber] at hitem
    obtain ⟨port, hport, rfl⟩ := hitem
    have hof : portOf item = some port := by
      rw [portOf, if_pos hnumber, hport]
      rfl
    refine ⟨?_, ?_, ?_, ?_⟩
    · rw [List.forall_mem_append, List.forall_mem_singleton]
      exact ⟨h.valid, hcolon, by rw [if_pos hnumber]; exact ⟨port, hport⟩⟩
    · rw [portNumbers_concat, hof, Option.toList_some, List.getLast?_concat]
      rfl
    · rw [protocolItems_concat_number hnumber]
      exact h.tcp
    · rw [protocolItems_concat_number hnumber]
      exact h.udp
  · rw [if_neg hnumber] at hitem
    obtain ⟨hprotocols, rfl⟩ := hitem
    have hof : portOf item = none := by rw [portOf, if_neg hnumber]
    refine ⟨?_, ?_, ?_, ?_⟩
    · rw [List.forall_mem_append, List.forall_mem_singleton]
      exact ⟨h.valid, hcolon, by rw [if_neg hnumber]; exact hprotocols⟩
    · rw [portNumbers_concat, hof, Option.toList_none, List.append_nil]
      exact h.port
    · rw [protocolItems_concat hnumber, lists_concat, ← h.tcp]
      simp [ControlPort.addProtocols]
    · rw [protocolItems_concat hnumber, lists_concat, ← h.udp]
      simp [ControlPort.addProtocols]

/-- Items that are all accepted are read. -/
theorem portRead_returns (hvalid : ∀ item ∈ its, PortItem item) (cp : ControlPort) :
    ∃ cp', its.foldlM (fun cp item => mapItem item >>= controlPortItem cp) cp = .ok cp' := by
  induction its generalizing cp with
  | nil => exact ⟨cp, rfl⟩
  | cons item its ih =>
    rw [List.forall_mem_cons] at hvalid
    obtain ⟨⟨hcolon, hitem⟩, hvalid⟩ := hvalid
    obtain ⟨cp₁, hcp₁⟩ : ∃ cp₁, (mapItem item >>= controlPortItem cp) = .ok cp₁ := by
      simp only [portItem_ok_iff hcolon]
      by_cases hnumber : IsPortNumber item
      · rw [if_pos hnumber] at hitem
        obtain ⟨port, hport⟩ := hitem
        exact ⟨_, by rw [if_pos hnumber]; exact ⟨port, hport, rfl⟩⟩
      · rw [if_neg hnumber] at hitem
        exact ⟨_, by rw [if_neg hnumber]; exact ⟨hitem, rfl⟩⟩
    obtain ⟨cp', hcp'⟩ := ih hvalid cp₁
    refine ⟨cp', ?_⟩
    rw [List.foldlM_cons, hcp₁]
    exact hcp'

theorem portRead_of_foldlM
    (h : its.foldlM (fun cp item => mapItem item >>= controlPortItem cp) { port := 5800, tcp := false, udp := false } =
      .ok cp) : PortRead its cp := by
  induction its using List.reverseRecOn generalizing cp with
  | nil =>
    cases h
    exact ⟨by simp, rfl, by simp [protocolItems, Lists], by simp [protocolItems, Lists]⟩
  | append_singleton its item ih =>
    rw [List.foldlM_append] at h
    obtain ⟨cp₁, h₁, h⟩ := Except.bind_ok h
    rw [List.foldlM_cons] at h
    obtain ⟨cp₂, h₂, h⟩ := Except.bind_ok h
    cases h
    exact (ih h₁).concat h₂

theorem PortRead.unique (h : PortRead its cp) (h' : PortRead its cp') : cp = cp' := by
  obtain ⟨port, tcp, udp⟩ := cp
  obtain ⟨port', tcp', udp'⟩ := cp'
  have hport : port = port' := h.port.trans h'.port.symm
  have htcp : tcp = tcp' := Bool.eq_iff_iff.2 (h.tcp.trans h'.tcp.symm)
  have hudp : udp = udp' := Bool.eq_iff_iff.2 (h.udp.trans h'.udp.symm)
  rw [hport, htcp, hudp]

/-! ## The control port -/

variable {ini : Ini} {value : Text}

/-- TCP is the default if no protocol is given. -/
def ControlPort.orTcp (cp : ControlPort) : ControlPort := { cp with tcp := cp.tcp || !cp.udp }

theorem getPort_eq (hget : ini.get "GENERAL".toList "port".toList = some value) :
    getPort ini = (do
      let its ← (mapItems value).mapError fun _ => "[GENERAL] port"
      let cp ← its.foldlM controlPortItem { port := 5800, tcp := false, udp := false }
      return cp.orTcp) := by
  rw [getPort, hget]
  refine congrArg _ (funext fun its => congrArg _ (funext fun cp => ?_))
  obtain ⟨port, tcp, udp⟩ := cp
  cases tcp <;> cases udp <;> rfl

/-- The control port is what the items say. -/
theorem getPort_ok_iff (hget : ini.get "GENERAL".toList "port".toList = some value) :
    getPort ini = .ok cp' ↔ ∃ cp, PortRead (items value) cp ∧ cp' = cp.orTcp := by
  rw [getPort_eq hget]
  constructor
  · intro h
    obtain ⟨l, hl, h⟩ := Except.bind_ok h
    obtain ⟨cp, hcp, h⟩ := Except.bind_ok h
    cases h
    rw [Except.mapError_ok_iff] at hl
    exact ⟨cp, portRead_of_foldlM (Except.mapM_foldlM_ok_iff.1 ⟨l, hl, hcp⟩), rfl⟩
  · rintro ⟨cp, hread, rfl⟩
    obtain ⟨cp₁, hcp₁⟩ := portRead_returns hread.valid { port := 5800, tcp := false, udp := false }
    have hcp := hread.unique (portRead_of_foldlM hcp₁)
    obtain ⟨l, hl, hfold⟩ := Except.mapM_foldlM_ok_iff.2 hcp₁
    have hl' : (mapItems value).mapError (fun _ => "[GENERAL] port") = .ok l := Except.mapError_ok_iff.2 hl
    rw [hl']
    show (l.foldlM controlPortItem _ >>= _) = _
    rw [hfold, hcp]
    rfl

theorem getPort_returns (hget : ini.get "GENERAL".toList "port".toList = some value)
    (hvalid : ∀ item ∈ items value, PortItem item) :
    ∃ cp, getPort ini = .ok cp ∧ cp.port = (portNumbers (items value)).getLast?.getD 5800 := by
  obtain ⟨cp, hcp⟩ := portRead_returns hvalid { port := 5800, tcp := false, udp := false }
  have hread := portRead_of_foldlM hcp
  exact ⟨cp.orTcp, (getPort_ok_iff hget).2 ⟨cp, hread, rfl⟩, hread.port⟩

omit [StdText] in
theorem portNumbers_perm (h : its.Perm its') (hsame : ∀ p ∈ portNumbers its, ∀ q ∈ portNumbers its, p = q) :
    portNumbers its' = portNumbers its := by
  have hperm : (portNumbers its').Perm (portNumbers its) := h.symm.filterMap _
  rcases hports : portNumbers its with _ | ⟨p, ps⟩
  · rw [hports] at hperm
    exact hperm.eq_nil
  · have hrep : p :: ps = List.replicate (ps.length + 1) p := by
      refine List.eq_replicate_of_mem fun q hq => ?_
      exact hsame q (by rw [hports]; exact hq) p (by rw [hports]; exact List.mem_cons_self)
    rw [hports, hrep, List.perm_replicate] at hperm
    rw [hperm, ← hrep]

/-- Items that name one port at most are read to the same in every order. -/
theorem PortRead.perm (h : its.Perm its') (hsame : ∀ p ∈ portNumbers its, ∀ q ∈ portNumbers its, p = q)
    (hread : PortRead its cp) : PortRead its' cp := by
  have hprotocols : (protocolItems its).Perm (protocolItems its') := h.filter _
  refine ⟨fun item hitem => hread.valid item (h.mem_iff.2 hitem), ?_, ?_, ?_⟩
  · rw [portNumbers_perm h hsame]
    exact hread.port
  · rw [← Lists.perm hprotocols]
    exact hread.tcp
  · rw [← Lists.perm hprotocols]
    exact hread.udp

/-! ## When the order does not matter -/

/-- An `Ini` with this value for the control port. -/
def portIni (value : Text) : Ini where
  sections := Finmap.singleton "GENERAL".toList (Finmap.singleton "port".toList value)

omit [StdText] in
theorem portIni_get (value : Text) : (portIni value).get "GENERAL".toList "port".toList = some value := by
  rw [Ini.get, portIni, Finmap.lookup_singleton_eq]
  exact Finmap.lookup_singleton_eq ..

theorem portOrderFree_of_unambiguous (h : PortUnambiguous value) : PortOrderFree value := by
  intro ini ini' value' hget hget' hperm
  refine Except.toOption_congr fun cp' => ?_
  rw [getPort_ok_iff hget, getPort_ok_iff hget']
  rcases h with ⟨item, hitem, hbad⟩ | hsame
  · constructor
    · rintro ⟨cp, hread, -⟩
      exact absurd (hread.valid item (hperm.mem_iff.2 hitem)) hbad
    · rintro ⟨cp, hread, -⟩
      exact absurd (hread.valid item hitem) hbad
  · have hsame' : ∀ p ∈ portNumbers (items value'), ∀ q ∈ portNumbers (items value'), p = q := by
      rw [portNumbers_perm hperm.symm hsame]
      exact hsame
    constructor
    · rintro ⟨cp, hread, rfl⟩
      exact ⟨cp, hread.perm hperm hsame', rfl⟩
    · rintro ⟨cp, hread, rfl⟩
      exact ⟨cp, hread.perm hperm.symm hsame, rfl⟩

theorem refusesTwoPorts_of_unambiguous (h : PortUnambiguous value) : RefusesTwoPorts value := by
  rintro ini hget ⟨p, hp, q, hq, hne⟩
  rcases h with ⟨item, hitem, hbad⟩ | hsame
  · rcases hport : getPort ini with e | cp'
    · exact ⟨e, rfl⟩
    · obtain ⟨cp, hread, -⟩ := (getPort_ok_iff hget).1 hport
      exact absurd (hread.valid item hitem) hbad
  · exact absurd (hsame p hp q hq) hne

/-- An order of valid items in which any of the port numbers comes last, and is the port. -/
theorem exists_order (hvalid : ∀ item ∈ items value, PortItem item) {p : UInt16}
    (hp : p ∈ portNumbers (items value)) :
    ∃ value', (items value').Perm (items value) ∧ ∃ cp, getPort (portIni value') = .ok cp ∧ cp.port = p := by
  obtain ⟨item, hitem, hof⟩ := List.mem_filterMap.1 hp
  have hperm : ((items value).erase item ++ [item]).Perm (items value) :=
    (List.perm_append_singleton _ _).trans (List.perm_cons_erase hitem).symm
  obtain ⟨value', hvalue'⟩ := exists_items_eq hperm
  rw [← hvalue'] at hperm
  obtain ⟨cp, hcp, hport⟩ := getPort_returns (portIni_get value') fun item' hitem' =>
    hvalid item' (hperm.mem_iff.1 hitem')
  refine ⟨value', hperm, cp, hcp, ?_⟩
  rw [hport, hvalue', portNumbers_concat, hof, Option.toList_some, List.getLast?_concat]
  rfl

/-- Two different port numbers among valid items: each of them is the port in some order. -/
theorem not_portOrderFree (hvalid : ∀ item ∈ items value, PortItem item) {p q : UInt16}
    (hp : p ∈ portNumbers (items value)) (hq : q ∈ portNumbers (items value)) (hne : p ≠ q) :
    ¬ PortOrderFree value := by
  intro hfree
  obtain ⟨v, hv, cp, hcp, rfl⟩ := exists_order hvalid hp
  obtain ⟨v', hv', cp', hcp', rfl⟩ := exists_order hvalid hq
  have h := hfree _ _ v (portIni_get value) (portIni_get v) hv
  have h' := hfree _ _ v' (portIni_get value) (portIni_get v') hv'
  rw [hcp] at h
  rw [hcp', ← h] at h'
  cases h'
  exact hne rfl

/-- The order of the items does not matter, and two different port numbers are refused, exactly for the values
that have an invalid item or no two different port numbers. -/
theorem getPort_order_iff (value : Text) :
    (PortOrderFree value ↔ PortUnambiguous value) ∧ (RefusesTwoPorts value ↔ PortUnambiguous value) := by
  refine ⟨⟨fun hfree => ?_, portOrderFree_of_unambiguous⟩, ⟨fun hrefuses => ?_, refusesTwoPorts_of_unambiguous⟩⟩
  · by_contra hnot
    rw [PortUnambiguous, not_or] at hnot
    push Not at hnot
    obtain ⟨hvalid, p, hp, q, hq, hne⟩ := hnot
    exact not_portOrderFree hvalid hp hq hne hfree
  · by_contra hnot
    rw [PortUnambiguous, not_or] at hnot
    push Not at hnot
    obtain ⟨hvalid, htwo⟩ := hnot
    obtain ⟨e, he⟩ := hrefuses (portIni value) (portIni_get value) htwo
    obtain ⟨cp, hcp, -⟩ := getPort_returns (portIni_get value) hvalid
    rw [he] at hcp
    cases hcp

end

/-- The last of two port numbers is the port, in either order. -/
theorem getPort_two_numbers :
    @getPort asciiStd (portIni "1234/5678".toList) = .ok { port := 5678 } ∧
    @getPort asciiStd (portIni "5678/1234".toList) = .ok { port := 1234 } ∧
    ¬ @PortOrderFree asciiStd "1234/5678".toList ∧ ¬ @RefusesTwoPorts asciiStd "1234/5678".toList := by
  have h : @getPort asciiStd (portIni "1234/5678".toList) = .ok { port := 5678 } := by decide
  have h' : @getPort asciiStd (portIni "5678/1234".toList) = .ok { port := 1234 } := by decide
  refine ⟨h, h', fun hfree => ?_, fun hrefuses => ?_⟩
  · have hperm : (items "5678/1234".toList).Perm (items "1234/5678".toList) := by decide
    have hsame := hfree _ _ _ (portIni_get _) (portIni_get _) hperm
    rw [h, h'] at hsame
    revert hsame
    decide
  · obtain ⟨e, he⟩ := hrefuses _ (portIni_get _) ⟨1234, by decide, 5678, by decide, by decide⟩
    rw [h] at he
    cases he

end Letmein
