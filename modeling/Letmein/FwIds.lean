import Letmein.FwTasks
import Letmein.Lib.Fields

/-!
# Who letmeind is (`letmeinfwd/src/uid_gid.rs`, `read_etc_passwd`, `make_pidfile` of `letmeind/src/main.rs`)

letmeinfwd looks up the user and the group `letmeind` in `/etc/passwd` and `/etc/group` when it starts, and the process
id in the PID-file for every connection. A connection is accepted if its credentials are these.
-/

namespace Letmein
open Text

/-- What the look-up of a user differs in from that of a group. -/
structure IdDb where
  owner : String
  file : String
  field : String
  numFields : Nat

def passwdDb : IdDb := ⟨"User", "passwd", "uid", 7⟩

def groupDb : IdDb := ⟨"Group", "group", "gid", 4⟩

/-- The id in the fields after the name. -/
def entryId (db : IdDb) : List Text → Except String UInt32
  | [] => .error s!"Get {db.file} password"
  | [_] => .error s!"Get {db.file} {db.field}"
  | _ :: id :: _ =>
    match fromStrRadix 10 0xFFFFFFFF id with
    | .ok n => .ok (UInt32.ofNat n)
    | .error _ => .error s!"Parse {db.file} {db.field}"

/-- The id of the first line with this name. -/
def findId (db : IdDb) (name : Text) : List Text → Except String UInt32
  | [] => .error s!"{db.owner} '{String.ofList name}' not found in /etc/{db.file}"
  | line :: ls =>
    match splitn ':' db.numFields line with
    | [] => .error s!"Get {db.file} name"
    | first :: fields => if first = name then entryId db fields else findId db name ls

/-- `data` is the content of the file, unless it cannot be read. -/
def getId (db : IdDb) (data : Option Text) (name : Text) : Except String UInt32 :=
  match data with
  | none => .error s!"Read /etc/{db.file} database"
  | some data => findId db name (lines data)

def osGetUid : Option Text → Text → Except String UInt32 := getId passwdDb

def osGetGid : Option Text → Text → Except String UInt32 := getId groupDb

/-- The ids that are stored for `FirewallServer.accept`. In test mode they keep their initial value. -/
def readEtcPasswd (numConnections : Nat) (testMode : Bool) (passwd group : Option Text) : Except String FwdOpts :=
  if testMode then .ok ⟨numConnections, true, 0xFFFFFFFF, 0xFFFFFFFF⟩
  else do
    let uid ← osGetUid passwd "letmeind".toList
    let gid ← osGetGid group "letmeind".toList
    return ⟨numConnections, false, uid, gid⟩

/-- The text that letmeind writes to its PID-file. -/
def makePidfile (pid : UInt32) : Text := Nat.toDigits 10 pid.toNat ++ ['\n']

/-! ## The lines of a database -/

/-- The first field of the line is the name. -/
def Names (name line : Text) : Prop := line = name ∨ ∃ rest, line = name ++ ':' :: rest

/-- The line has the name, a password and a number that is the id. -/
def HasId (name line : Text) (id : UInt32) : Prop :=
  ∃ pw num tail, line = name ++ ':' :: (pw ++ ':' :: (num ++ tail)) ∧ ':' ∉ pw ∧ ':' ∉ num ∧
    (tail = [] ∨ ∃ rest, tail = ':' :: rest) ∧ fromStrRadix 10 0xFFFFFFFF num = .ok id.toNat

/-- The id is the one on the first line of the file that is for letmeind. -/
def IdInFile (data : Text) (id : UInt32) : Prop :=
  ∃ pre line post, lines data = pre ++ line :: post ∧ (∀ l ∈ pre, ¬ Names "letmeind".toList l) ∧
    HasId "letmeind".toList line id

variable {db : IdDb} {name line : Text} {ls : List Text} {id : UInt32}

theorem names_iff {part rest : Text} (hname : ':' ∉ name) (hpart : ':' ∉ part) :
    Names name (part ++ ':' :: rest) ↔ part = name := by
  constructor
  · rintro (heq | ⟨rest', heq⟩)
    · exact absurd (heq ▸ by simp) hname
    · exact (List.append_cons_inj hpart hname heq).1
  · rintro rfl
    exact .inr ⟨rest, rfl⟩

theorem names_iff_of_notMem (hline : ':' ∉ line) : Names name line ↔ line = name := by
  constructor
  · rintro (heq | ⟨rest, rfl⟩)
    · exact heq
    · simp at hline
  · exact .inl

theorem splitn_names (hname : ':' ∉ name) (n : Nat) (line : Text) : ∃ first fields,
    splitn ':' (n + 2) line = first :: fields ∧ (first = name ↔ Names name line) := by
  rcases splitn_cases ':' n line with ⟨hno, hsplit⟩ | ⟨part, rest, hpart, rfl, hsplit⟩
  · exact ⟨line, [], hsplit, (names_iff_of_notMem hno).symm⟩
  · exact ⟨part, _, hsplit, (names_iff hname hpart).symm⟩

theorem parse_ok_iff {num : Text} : (match fromStrRadix 10 0xFFFFFFFF num with
      | .ok n => .ok (UInt32.ofNat n)
      | .error _ => .error s!"Parse {db.file} {db.field}") = Except.ok id ↔
    fromStrRadix 10 0xFFFFFFFF num = .ok id.toNat := by
  cases hnum : fromStrRadix 10 0xFFFFFFFF num with
  | error e => simp
  | ok n =>
    have hle := fromStrRadix_le hnum
    have hlt : n < UInt32.size := Nat.lt_of_le_of_lt hle (by decide)
    rw [Except.ok.injEq, Except.ok.injEq, ← UInt32.toNat_inj, UInt32.toNat_ofNat_of_lt' hlt]

/-- The line of the name gives the id that stands in it. -/
theorem entryId_ok_iff (hname : ':' ∉ name) {n : Nat} {fields : List Text}
    (hsplit : splitn ':' (n + 4) line = name :: fields) : entryId db fields = .ok id ↔ HasId name line id := by
  constructor
  · intro h
    rcases splitn_cases ':' (n + 2) line with ⟨-, hline⟩ | ⟨_, rest, -, rfl, hline⟩
    · rw [hsplit] at hline
      cases hline
      cases h
    rw [hsplit] at hline
    cases hline
    rcases splitn_cases ':' (n + 1) rest with ⟨-, hrest⟩ | ⟨pw, rest, hpw, rfl, hrest⟩
    · rw [hrest] at h
      cases h
    rw [hrest] at h
    rcases splitn_cases ':' n rest with ⟨hno, hnum⟩ | ⟨num, rest, hnum, rfl, htail⟩
    · rw [hnum] at h
      exact ⟨pw, rest, [], by rw [List.append_nil], hpw, hno, .inl rfl, parse_ok_iff.1 h⟩
    · rw [htail] at h
      exact ⟨pw, num, ':' :: rest, rfl, hpw, hnum, .inr ⟨rest, rfl⟩, parse_ok_iff.1 h⟩
  · rintro ⟨pw, num, tail, rfl, hpw, hnum, htail, hid⟩
    have hfields : ∃ more, fields = pw :: num :: more := by
      rw [splitn_append hname, splitn_append hpw] at hsplit
      cases hsplit
      rcases htail with rfl | ⟨rest, rfl⟩
      · exact ⟨[], by rw [List.append_nil, splitn_of_notMem hnum]⟩
      · exact ⟨_, by rw [splitn_append hnum]⟩
    obtain ⟨more, rfl⟩ := hfields
    exact parse_ok_iff.2 hid

theorem findId_cons (hdb : 4 ≤ db.numFields) (hname : ':' ∉ name) :
    findId db name (line :: ls) = .ok id ↔
      HasId name line id ∨ ¬ Names name line ∧ findId db name ls = .ok id := by
  obtain ⟨n, hn⟩ : ∃ n, db.numFields = n + 4 := ⟨db.numFields - 4, by omega⟩
  obtain ⟨first, fields, hsplit, hfirst⟩ := splitn_names hname (n + 2) line
  rw [findId, hn, hsplit]
  dsimp only
  split
  · rename_i heq
    subst heq
    rw [entryId_ok_iff hname hsplit]
    simp [hfirst.1 rfl]
  · rename_i hne
    have hno : ¬ Names name line := fun h => hne (hfirst.2 h)
    have hnoid : ¬ HasId name line id := by
      rintro ⟨pw, num, tail, rfl, -⟩
      exact hno (.inr ⟨_, rfl⟩)
    simp [hno, hnoid]

/-- A look-up succeeds exactly if the first line with the name has a number as its third field, and that is the id. -/
theorem findId_ok_iff (hdb : 4 ≤ db.numFields) (hname : ':' ∉ name) : findId db name ls = .ok id ↔
    ∃ pre line post, ls = pre ++ line :: post ∧ (∀ l ∈ pre, ¬ Names name l) ∧ HasId name line id := by
  induction ls with
  | nil => simp [findId]
  | cons line ls ih =>
    rw [findId_cons hdb hname, ih]
    constructor
    · rintro (hid | ⟨hno, pre, line', post, rfl, hpre, hid⟩)
      · exact ⟨[], line, ls, rfl, by simp, hid⟩
      · refine ⟨line :: pre, line', post, rfl, ?_, hid⟩
        intro l hl
        rcases List.mem_cons.1 hl with rfl | hl
        · exact hno
        · exact hpre l hl
    · rintro ⟨_ | ⟨l, pre⟩, line', post, heq, hpre, hid⟩
      · cases heq
        exact .inl hid
      · cases heq
        exact .inr ⟨hpre line List.mem_cons_self, pre, line', post, rfl,
          fun l hl => hpre l (List.mem_cons_of_mem _ hl), hid⟩

theorem getId_ok_iff (hdb : 4 ≤ db.numFields) {data : Text} :
    getId db (some data) "letmeind".toList = .ok id ↔ IdInFile data id :=
  findId_ok_iff hdb (by decide)

/-! ## The PID-file -/

theorem parseI32_decimal {n : Nat} (hn : n ≤ 0x7FFFFFFF) : parseI32 (Nat.toDigits 10 n) = .ok n := by
  obtain ⟨d, rest, hd, htext⟩ := decimal_cons n
  obtain ⟨-, hminus⟩ := digitChar_ne_sign d hd
  have hread := fromStrRadix_decimal hn
  rw [htext] at hread ⊢
  unfold parseI32
  split
  · rename_i h
    exact absurd (List.cons.inj h).1 hminus
  · rw [hread]
    rfl

/-- What letmeind writes is what letmeinfwd reads. -/
theorem getLetmeindPid_makePidfile {pid : UInt32} (hpid : pid.toNat ≤ 0x7FFFFFFF) :
    getLetmeindPid (.text (makePidfile pid)) = .ok pid.toNat := by
  have hnewline : ∀ c ∈ ['\n'], isWhitespace c = true := by simp [isWhitespace]
  rw [getLetmeindPid, makePidfile, trim_decimal _ _ hnewline, parseI32_decimal hpid]
  rfl

/-! ## Connections -/

theorem readEtcPasswd_ok_iff {numConnections : Nat} {passwd group : Text} {opts : FwdOpts} :
    readEtcPasswd numConnections false (some passwd) (some group) = .ok opts ↔
      ∃ uid gid, opts = ⟨numConnections, false, uid, gid⟩ ∧ IdInFile passwd uid ∧ IdInFile group gid := by
  constructor
  · intro h
    obtain ⟨uid, huid, h⟩ := Except.bind_ok h
    obtain ⟨gid, hgid, h⟩ := Except.bind_ok h
    cases h
    exact ⟨uid, gid, rfl, (getId_ok_iff (by decide)).1 huid, (getId_ok_iff (by decide)).1 hgid⟩
  · rintro ⟨uid, gid, rfl, huid, hgid⟩
    have huid : osGetUid (some passwd) "letmeind".toList = .ok uid := (getId_ok_iff (by decide)).2 huid
    have hgid : osGetGid (some group) "letmeind".toList = .ok gid := (getId_ok_iff (by decide)).2 hgid
    simp only [readEtcPasswd, huid, hgid, Bool.false_eq_true, if_false, bind, Except.bind]
    rfl

theorem IdInFile.unique {data : Text} {id id' : UInt32} (h : IdInFile data id) (h' : IdInFile data id') : id = id' := by
  have heq : getId passwdDb (some data) "letmeind".toList = .ok id := (getId_ok_iff (by decide)).2 h
  rw [(getId_ok_iff (by decide)).2 h'] at heq
  exact (Except.ok.inj heq).symm

/-- Whatever the files hold: the ids are found exactly if the first line for letmeind in each of them has one, and then
exactly the connections of the process that wrote the PID-file are accepted, if it runs under these ids. -/
theorem letmeind_recognised (numConnections : Nat) (passwd group : Text) :
    ((∃ opts, readEtcPasswd numConnections false (some passwd) (some group) = .ok opts) ↔
      (∃ uid, IdInFile passwd uid) ∧ ∃ gid, IdInFile group gid) ∧
    ∀ opts, readEtcPasswd numConnections false (some passwd) (some group) = .ok opts →
      ∀ (pid : UInt32) (peer : Peer), pid.toNat ≤ 0x7FFFFFFF → peer.pidFile = .text (makePidfile pid) →
        (FirewallServer.accept opts (.ok peer) = .ok peer ↔
          ∃ uid gid, peer.cred = .ok ⟨some pid.toNat, uid, gid⟩ ∧ IdInFile passwd uid ∧ IdInFile group gid) := by
  refine ⟨?_, ?_⟩
  · constructor
    · rintro ⟨opts, hopts⟩
      obtain ⟨uid, gid, -, huid, hgid⟩ := readEtcPasswd_ok_iff.1 hopts
      exact ⟨⟨uid, huid⟩, gid, hgid⟩
    · rintro ⟨⟨uid, huid⟩, gid, hgid⟩
      exact ⟨_, readEtcPasswd_ok_iff.2 ⟨uid, gid, rfl, huid, hgid⟩⟩
  · intro opts hopts pid peer hpid hfile
    obtain ⟨uid, gid, rfl, huid, hgid⟩ := readEtcPasswd_ok_iff.1 hopts
    have hread : getLetmeindPid peer.pidFile = .ok pid.toNat := by rw [hfile]; exact getLetmeindPid_makePidfile hpid
    rw [FirewallServer.accept_ok_iff]
    constructor
    · rintro ⟨-, ⟨p, u, g⟩, hcred, ⟨pid', hp, hpid'⟩, hids⟩
      obtain rfl : p = some pid' := hp
      obtain rfl : (pid.toNat : Int) = pid' := Except.ok.inj (hread.symm.trans hpid')
      rcases hids with htest | ⟨hu, hg⟩
      · cases htest
      · obtain rfl : u = uid := hu
        obtain rfl : g = gid := hg
        exact ⟨u, g, hcred, huid, hgid⟩
    · rintro ⟨u, g, hcred, hu, hg⟩
      exact ⟨rfl, ⟨some pid.toNat, u, g⟩, hcred, ⟨pid.toNat, rfl, hread⟩, .inr ⟨hu.unique huid, hg.unique hgid⟩⟩

def samplePasswd : Text :=
  "root:x:0:0:root:/root:/bin/bash\nletmeind:x:990:990::/var/lib/letmeind:/usr/sbin/nologin\n".toList

def sampleGroup : Text := "root:x:0:\nletmeind:x:990:\n".toList

/-- The process 100 runs as user and group 990. -/
theorem letmeind_recognised_sample : ∃ opts,
    readEtcPasswd 8 false (some samplePasswd) (some sampleGroup) = .ok opts ∧
      FirewallServer.accept opts (.ok (FwdTasks.samplePeer 100)) = .ok (FwdTasks.samplePeer 100) ∧
      ∃ uid gid, (FwdTasks.samplePeer 100).cred = .ok ⟨some 100, uid, gid⟩ ∧ IdInFile samplePasswd uid ∧
        IdInFile sampleGroup gid := by
  have hopts : readEtcPasswd 8 false (some samplePasswd) (some sampleGroup) = .ok ⟨8, false, 990, 990⟩ := rfl
  have hacc : FirewallServer.accept ⟨8, false, 990, 990⟩ (.ok (FwdTasks.samplePeer 100)) =
    .ok (FwdTasks.samplePeer 100) := rfl
  have hfile : (FwdTasks.samplePeer 100).pidFile = .text (makePidfile 100) := by decide
  exact ⟨_, hopts, hacc, ((letmeind_recognised 8 samplePasswd sampleGroup).2 _ hopts 100 _ (by decide) hfile).1 hacc⟩

end Letmein
