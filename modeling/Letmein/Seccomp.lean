import Letmein.Lib.RuleMap
import Letmein.Lib.Run
import Letmein.Panic

/-!
# System call filters (`letmein-seccomp/src/lib.rs`)

`compileForArch` collects the system calls of a list of features in a map of rules. A feature with an operand adds a
rule for it, the same feature without one adds the call alone, and the call alone has no effect next to a rule.
`compile_union_iff` says for which lists the filter permits what the features permit one by one.
-/

namespace Letmein.Filter

/-! ## The platform -/

inductive Arch where
  | x8664
  | aarch64
deriving DecidableEq

inductive Os where
  | linux
  | android
deriving DecidableEq

/-- What the code is compiled for. -/
structure Target where
  arch : Arch
  os : Os
  pointerWidth64 : Bool

/-- The system calls by their names in `libc`, and all others by their numbers. -/
inductive Sys where
  | brk | close | closeRange | exit | exitGroup | getpid | getrandom | gettid | madvise | munmap
  | schedGetaffinity | sigaltstack | nanosleep | clockGettime | clockGetres | clockNanosleep | gettimeofday
  | epollCreate1 | epollCtl | epollPwait | epollPwait2 | epollWait | lseek | poll | ppoll | pselect6
  | mmap | mremap | mprotect | getuid | geteuid | getgid | getegid | archPrctl | dup | dup2 | dup3 | pipe | pipe2
  | bind | listen | accept4 | socket | getsockopt | getpeername | connect | setsockopt
  | access | faccessat | faccessat2 | open | openat | pread64 | preadv2 | read | readv
  | fdatasync | fsync | pwrite64 | pwritev2 | write | writev | ioctl | fcntl | fstat | statx | newfstatat
  | recvfrom | recvmsg | recvmmsg | sendto | sendmsg | sendmmsg | rtSigreturn | rtSigprocmask | rtSigaction
  | futex | getRobustList | setRobustList | futexWaitv | setTidAddress | rseq | clone3 | clone | execve | wait4
  | prlimit64 | uname | pidfdOpen
  | other (number : Int)
deriving DecidableEq

/-! ## Conditions -/

inductive ArgLen where
  | dword
  | qword
deriving DecidableEq

/-- `SeccompCondition` with the operator `Eq`. -/
structure Condition where
  idx : Fin 6
  arglen : ArgLen
  value : UInt64
deriving DecidableEq

abbrev Rule := List Condition

def NULL : UInt64 := 0

def PTR : UInt8 := 0xFF

def seccompCond (t : Target) (idx : Fin 6) (value : UInt64) (bitWidth : UInt8) : Except Panic Condition := do
  let bitWidth := if bitWidth = PTR then (if t.pointerWidth64 then 64 else 32) else bitWidth
  let arglen ← if bitWidth = 32 then do
      check (value &&& 0xFFFFFFFF00000000 = 0) .condValue
      pure ArgLen.dword
    else if bitWidth = 64 then pure ArgLen.qword
    else throw Panic.bitWidth
  return ⟨idx, arglen, value⟩

/-- A double word compares the lower half of an argument. -/
def Condition.holds (cond : Condition) (args : Fin 6 → UInt64) : Bool :=
  match cond.arglen with
  | .dword => (args cond.idx).toUInt32 == cond.value.toUInt32
  | .qword => args cond.idx == cond.value

/-- All conditions of a rule hold. -/
def Rule.holds (rule : Rule) (args : Fin 6 → UInt64) : Bool := rule.all (·.holds args)

/-- `args!` -/
def rule (t : Target) (conds : List (Fin 6 × UInt8 × UInt64)) : Except Panic Rule :=
  conds.mapM fun cond => seccompCond t cond.1 cond.2.2 cond.2.1

/-! ## Features -/

/-- Allow-list features that map to one or more system calls each. -/
inductive Allow where
  | mmap | mprotect | getUidGid
  | archPrctl (op : Option UInt32)
  | dup | pipe | listen | unixAccept | unixConnect | tcpAccept | tcpConnect | netlink
  | setSockOpt (levelOptname : Option (Int32 × Int32))
  | access | open | read | write
  | ioctl (op : Option UInt32)
  | fcntl (op : Option UInt32)
  | stat | recv | send | signal | sigAction | futex | setTidAddress | rseq | clone | exec | wait | getRlimit
  | uname | pidfd
deriving DecidableEq

abbrev Additions := List (Addition Sys Rule)

def addSys (sys : Sys) : Additions := [.call sys]

def addSysArgsMatch (sys : Sys) (rule : Rule) : Additions := [.rule sys rule]

/-- `#[cfg(target_arch = "x86_64")]` -/
def Target.onX8664 (t : Target) (additions : Additions) : Additions := if t.arch = .x8664 then additions else []

/-- `#[cfg(target_arch = "aarch64")]` -/
def Target.onAarch64 (t : Target) (additions : Additions) : Additions := if t.arch = .aarch64 then additions else []

/-- `#[cfg(target_os = "linux")]` -/
def Target.onLinux (t : Target) (additions : Additions) : Additions := if t.os = .linux then additions else []

/-- The calls that every filter permits. -/
def baseCalls (t : Target) : Additions :=
  addSys .brk ++ addSys .close ++ t.onLinux (addSys .closeRange) ++ addSys .exit ++ addSys .exitGroup ++
  addSys .getpid ++ addSys .getrandom ++ addSys .gettid ++ addSys .madvise ++ addSys .munmap ++
  addSys .schedGetaffinity ++ addSys .sigaltstack ++ addSys .nanosleep ++ addSys .clockGettime ++
  addSys .clockGetres ++ addSys .clockNanosleep ++ addSys .gettimeofday

def addReadWriteRules (t : Target) : Additions :=
  addSys .epollCreate1 ++ addSys .epollCtl ++ addSys .epollPwait ++ t.onX8664 (t.onLinux (addSys .epollPwait2)) ++
  t.onX8664 (addSys .epollWait) ++ addSys .lseek ++ t.onX8664 (addSys .poll) ++ addSys .ppoll ++ addSys .pselect6

def AF_UNIX : UInt64 := 1
def AF_INET : UInt64 := 2
def AF_INET6 : UInt64 := 10
def AF_NETLINK : UInt64 := 16

/-- What a feature adds to the map, in the order of the calls of `add_sys` and `add_sys_args_match`. -/
def Allow.additions (t : Target) : Allow → Except Panic Additions
  | .mmap => .ok (addSys .mmap ++ addSys .mremap ++ addSys .munmap)
  | .mprotect => .ok (addSys .mprotect)
  | .getUidGid => .ok (addSys .getuid ++ addSys .geteuid ++ addSys .getgid ++ addSys .getegid)
  | .archPrctl _ => .ok (t.onX8664 (addSys .archPrctl))
  | .dup => .ok (addSys .dup ++ t.onX8664 (addSys .dup2) ++ addSys .dup3)
  | .pipe => .ok (t.onX8664 (addSys .pipe) ++ addSys .pipe2)
  | .listen => .ok (addSys .bind ++ addSys .listen)
  | .unixAccept => do
    let unix ← rule t [(0, 32, AF_UNIX)]
    return addSys .accept4 ++ addSysArgsMatch .socket unix ++ addSys .getsockopt ++ addSys .getpeername
  | .unixConnect => do
    let unix ← rule t [(0, 32, AF_UNIX)]
    return addSys .connect ++ addSysArgsMatch .socket unix ++ addSys .getsockopt ++ addSys .getpeername
  | .tcpAccept => do
    let inet ← rule t [(0, 32, AF_INET)]
    let inet6 ← rule t [(0, 32, AF_INET6)]
    return addSys .accept4 ++ addSysArgsMatch .socket inet ++ addSysArgsMatch .socket inet6 ++
      addSys .getsockopt ++ addSys .getpeername
  | .tcpConnect => do
    let inet ← rule t [(0, 32, AF_INET)]
    let inet6 ← rule t [(0, 32, AF_INET6)]
    return addSys .connect ++ addSysArgsMatch .socket inet ++ addSysArgsMatch .socket inet6 ++
      addSys .getsockopt ++ addSys .getpeername
  | .netlink => do
    let netlink ← rule t [(0, 32, AF_NETLINK)]
    return addSys .connect ++ addSysArgsMatch .socket netlink ++ addSys .getsockopt
  | .setSockOpt (some (level, optname)) => do
    -- `as u64` extends the sign.
    let opt ← rule t [(1, 32, level.toInt64.toUInt64), (2, 32, optname.toInt64.toUInt64)]
    return addSysArgsMatch .setsockopt opt
  | .setSockOpt none => .ok (addSys .setsockopt)
  | .access => .ok (t.onX8664 (addSys .access) ++ addSys .faccessat ++ t.onLinux (addSys .faccessat2))
  | .open => .ok (t.onX8664 (addSys .open) ++ addSys .openat)
  | .read => .ok (addSys .pread64 ++ addSys .preadv2 ++ addSys .read ++ addSys .readv ++ addReadWriteRules t)
  | .write => .ok (addSys .fdatasync ++ addSys .fsync ++ addSys .pwrite64 ++ addSys .pwritev2 ++ addSys .write ++
      addSys .writev ++ addReadWriteRules t)
  | .ioctl _ => .ok (addSys .ioctl)
  | .fcntl (some op) => do
    let cmd ← rule t [(1, 32, op.toUInt64)]
    return addSysArgsMatch .fcntl cmd
  | .fcntl none => .ok (addSys .fcntl)
  | .stat => .ok (addSys .fstat ++ addSys .statx ++ addSys .newfstatat)
  | .recv => .ok (addSys .recvfrom ++ addSys .recvmsg ++ addSys .recvmmsg)
  | .send => .ok (addSys .sendto ++ addSys .sendmsg ++ addSys .sendmmsg)
  | .signal => .ok (addSys .rtSigreturn ++ addSys .rtSigprocmask)
  | .sigAction => .ok (addSys .rtSigaction)
  | .futex => .ok (addSys .futex ++ addSys .getRobustList ++ addSys .setRobustList ++
      t.onX8664 (t.onLinux (addSys .futexWaitv)))
  | .setTidAddress => .ok (addSys .setTidAddress)
  | .rseq => .ok (t.onLinux (addSys .rseq))
  | .clone => .ok (t.onLinux (addSys .clone3) ++ t.onAarch64 (addSys .clone))
  | .exec => .ok (addSys .execve)
  | .wait => .ok (addSys .wait4)
  | .getRlimit => do
    let get ← rule t [(0, 32, 0), (2, PTR, NULL)]
    return addSysArgsMatch .prlimit64 get
  | .uname => .ok (addSys .uname)
  | .pidfd => .ok (addSys .pidfdOpen)

/-- The map of rules of `Filter::compile_for_arch`. -/
def compileForArch (t : Target) (allow : List Allow) : Except Panic (RuleMap Sys Rule) := do
  check (allow ≠ []) .noAllow
  let additions ← allow.mapM (Allow.additions t)
  return RuleMap.build (baseCalls t ++ additions.flatten)

/-- A system call with these arguments is permitted. -/
def permitted (map : RuleMap Sys Rule) (sys : Sys) (args : Fin 6 → UInt64) : Bool :=
  map.permits Rule.holds sys args

/-! ## What a feature adds -/

/-- The operands fit into the 32 bits that are compared. -/
def Allow.Fits : Allow → Prop
  | .setSockOpt (some (level, optname)) => 0 ≤ level ∧ 0 ≤ optname
  | _ => True

/-- An argument of 32 bits is this value. -/
def isDword (idx : Fin 6) (value : UInt64) : Condition := ⟨idx, .dword, value⟩

/-- The argument of `socket` that is the domain. -/
abbrev domainArg : Fin 6 := 0

variable {t : Target} {a : Allow} {additions : Additions} {s : Sys} {r : Rule}

theorem seccompCond_dword {idx : Fin 6} {value : UInt64} (h : value.toNat < 2 ^ 32) :
    seccompCond t idx value 32 = .ok (isDword idx value) := by
  have hmask : value &&& 0xFFFFFFFF00000000 = 0 := by
    refine UInt64.toNat.inj (Nat.eq_of_testBit_eq fun i => ?_)
    have hshift : (0xFFFFFFFF00000000 : UInt64).toNat = (2 ^ 32 - 1) <<< 32 := by decide
    rw [UInt64.toNat_and, hshift, Nat.testBit_and, Nat.testBit_shiftLeft]
    by_cases hi : 32 ≤ i
    · have hbit : value.toNat.testBit i = false :=
        Nat.testBit_lt_two_pow (Nat.lt_of_lt_of_le h (Nat.pow_le_pow_right (by decide) hi))
      simp [hbit]
    · simp [hi]
  have hwidth : ¬ (32 : UInt8) = PTR := by decide
  simp only [seccompCond, if_neg hwidth, check, if_pos hmask]
  rfl

/-- The calls that are added with rules. -/
def ruled : List Sys := [.socket, .setsockopt, .fcntl, .prlimit64]

/-- What a feature may add: a call that no feature has rules for, or what its operand says. -/
def Expected (t : Target) (a : Allow) : Addition Sys Rule → Prop
  | .call s => s ∉ ruled ∨ s = .setsockopt ∧ a = .setSockOpt none ∨ s = .fcntl ∧ a = .fcntl none
  | .rule s r => s = .socket ∨ s = .prlimit64 ∨
    (s = .setsockopt ∧ ∃ level optname, a = .setSockOpt (some (level, optname)) ∧
      rule t [(1, 32, level.toInt64.toUInt64), (2, 32, optname.toInt64.toUInt64)] = .ok r) ∨
    s = .fcntl ∧ ∃ op, a = .fcntl (some op) ∧ rule t [(1, 32, op.toUInt64)] = .ok r

section
variable {P : Addition Sys Rule → Prop}

@[simp] theorem forall_addSys : (∀ x ∈ addSys s, P x) ↔ P (.call s) := List.forall_mem_singleton

@[simp] theorem forall_addSysArgsMatch : (∀ x ∈ addSysArgsMatch s r, P x) ↔ P (.rule s r) := List.forall_mem_singleton

@[simp] theorem forall_onX8664 : (∀ x ∈ t.onX8664 additions, P x) ↔ (t.arch = .x8664 → ∀ x ∈ additions, P x) := by
  rw [Target.onX8664]
  split_ifs with h <;> simp [h]

@[simp] theorem forall_onAarch64 :
    (∀ x ∈ t.onAarch64 additions, P x) ↔ (t.arch = .aarch64 → ∀ x ∈ additions, P x) := by
  rw [Target.onAarch64]
  split_ifs with h <;> simp [h]

@[simp] theorem forall_onLinux : (∀ x ∈ t.onLinux additions, P x) ↔ (t.os = .linux → ∀ x ∈ additions, P x) := by
  rw [Target.onLinux]
  split_ifs with h <;> simp [h]

end

theorem additions_expected (h : a.additions t = .ok additions) : ∀ x ∈ additions, Expected t a x := by
  cases a
  case unixAccept | unixConnect | netlink | getRlimit =>
    obtain ⟨r, -, h⟩ := Except.bind_ok h
    cases h
    simp [List.forall_mem_append, -List.mem_append, Expected, ruled]
  case tcpAccept | tcpConnect =>
    obtain ⟨inet, -, h⟩ := Except.bind_ok h
    obtain ⟨inet6, -, h⟩ := Except.bind_ok h
    cases h
    simp [List.forall_mem_append, -List.mem_append, Expected, ruled]
  case setSockOpt levelOptname =>
    rcases levelOptname with _ | ⟨level, optname⟩
    · cases h
      simp [Expected]
    · obtain ⟨r, hr, h⟩ := Except.bind_ok h
      cases h
      rw [forall_addSysArgsMatch]
      exact .inr (.inr (.inl ⟨rfl, level, optname, rfl, hr⟩))
  case fcntl op =>
    rcases op with _ | op
    · cases h
      simp [Expected]
    · obtain ⟨r, hr, h⟩ := Except.bind_ok h
      cases h
      rw [forall_addSysArgsMatch]
      exact .inr (.inr (.inr ⟨rfl, op, rfl, hr⟩))
  all_goals
    cases h
    simp [addReadWriteRules, List.forall_mem_append, -List.mem_append, Expected, ruled]

theorem baseCalls_plain : ∀ x ∈ baseCalls t, ∃ s, x = .call s ∧ s ∉ ruled := by
  simp [baseCalls, List.forall_mem_append, -List.mem_append, ruled]

/-! ## Operands -/

theorem toUInt64_lt {x : Int32} (h : 0 ≤ x) : x.toInt64.toUInt64.toNat < 2 ^ 31 := by
  have hmsb : x.toBitVec.msb = false := by
    rw [BitVec.msb_eq_toInt]
    have hle : (0 : Int32).toInt ≤ x.toInt := Int32.le_iff_toInt_le.1 h
    exact decide_eq_false (not_lt.2 hle)
  have hext : x.toInt64.toUInt64.toNat = x.toBitVec.toNat := by
    show (x.toBitVec.signExtend 64).toNat = _
    rw [BitVec.signExtend_eq_setWidth_of_msb_false hmsb, BitVec.toNat_setWidth]
    exact Nat.mod_eq_of_lt (Nat.lt_trans x.toBitVec.isLt (by decide))
  rw [hext]
  exact BitVec.toNat_lt_of_msb_false hmsb

theorem rule_dword {idx : Fin 6} {value : UInt64} (h : value.toNat < 2 ^ 32) :
    rule t [(idx, 32, value)] = .ok [isDword idx value] := by
  simp only [rule, List.mapM_cons, List.mapM_nil, seccompCond_dword h]
  rfl

theorem rule_op (op : UInt32) : rule t [(1, 32, op.toUInt64)] = .ok [isDword 1 op.toUInt64] :=
  rule_dword (by rw [UInt32.toNat_toUInt64]; exact op.toNat_lt)

theorem rule_dwords {idx idx' : Fin 6} {value value' : UInt64} (h : value.toNat < 2 ^ 32)
    (h' : value'.toNat < 2 ^ 32) :
    rule t [(idx, 32, value), (idx', 32, value')] = .ok [isDword idx value, isDword idx' value'] := by
  simp only [rule, List.mapM_cons, List.mapM_nil, seccompCond_dword h, seccompCond_dword h']
  rfl

theorem rule_getRlimit : ∃ r, rule t [(0, 32, 0), (2, PTR, NULL)] = .ok r := by
  obtain ⟨arch, os, width⟩ := t
  cases width <;> exact ⟨_, rfl⟩

/-- Operands that fit do not fail the assertion. -/
theorem Allow.Fits.returns (h : a.Fits) : ∃ additions, a.additions t = .ok additions := by
  cases a
  case setSockOpt levelOptname =>
    rcases levelOptname with _ | ⟨level, optname⟩
    · exact ⟨_, rfl⟩
    · have hlevel := toUInt64_lt h.1
      have hoptname := toUInt64_lt h.2
      rw [Allow.additions, rule_dwords (by omega) (by omega)]
      exact ⟨_, rfl⟩
  case fcntl op =>
    rcases op with _ | op
    · exact ⟨_, rfl⟩
    · rw [Allow.additions, rule_op]
      exact ⟨_, rfl⟩
  case getRlimit =>
    obtain ⟨r, hr⟩ := rule_getRlimit (t := t)
    rw [Allow.additions, hr]
    exact ⟨_, rfl⟩
  all_goals exact ⟨_, rfl⟩

/-! ## What a filter permits -/

/-- The additions that the filter of a list is built from. -/
def Adds (t : Target) (l : List Allow) (x : Addition Sys Rule) : Prop :=
  x ∈ baseCalls t ∨ ∃ a ∈ l, ∃ additions, a.additions t = .ok additions ∧ x ∈ additions

/-- The filter of a list permits the call. -/
def Permits (t : Target) (l : List Allow) (s : Sys) (args : Fin 6 → UInt64) : Prop :=
  ∃ map, compileForArch t l = .ok map ∧ permitted map s args

variable {l l' : List Allow} {args : Fin 6 → UInt64}

theorem compile_permitted_iff {map : RuleMap Sys Rule} (h : compileForArch t l = .ok map) :
    permitted map s args ↔ (∃ r, Adds t l (.rule s r) ∧ r.holds args) ∨
      Adds t l (.call s) ∧ ∀ r, ¬ Adds t l (.rule s r) := by
  obtain ⟨_, -, h⟩ := Except.bind_ok h
  obtain ⟨bs, hbs, h⟩ := Except.bind_ok h
  have hmap : RuleMap.build (baseCalls t ++ bs.flatten) = map := Except.ok.inj h
  rw [Except.mapM_ok_iff] at hbs
  have hadds : ∀ x, x ∈ baseCalls t ++ bs.flatten ↔ Adds t l x := by
    intro x
    have hmem : ∀ additions, additions ∈ bs ↔ ∃ a ∈ l, a.additions t = .ok additions := by
      intro additions
      have hok : additions ∈ bs ↔ (.ok additions : Except Panic Additions) ∈ bs.map .ok := by simp
      rw [hok, ← hbs, List.mem_map]
    rw [List.mem_append, List.mem_flatten, Adds]
    refine or_congr_right ⟨?_, ?_⟩
    · rintro ⟨additions, hin, hx⟩
      obtain ⟨a, ha, hok⟩ := (hmem additions).1 hin
      exact ⟨a, ha, additions, hok, hx⟩
    · rintro ⟨a, ha, additions, hok, hx⟩
      exact ⟨additions, (hmem additions).2 ⟨a, ha, hok⟩, hx⟩
  rw [permitted, ← hmap, RuleMap.permits_build_iff]
  simp only [hadds]

theorem compile_returns (hne : l ≠ []) (hfit : ∀ a ∈ l, a.Fits) : ∃ map, compileForArch t l = .ok map := by
  obtain ⟨bs, hbs⟩ := Except.exists_map_ok (f := Allow.additions t) fun a ha => (hfit a ha).returns
  have hcheck : check (l ≠ []) .noAllow = .ok () := if_pos hne
  refine ⟨RuleMap.build (baseCalls t ++ bs.flatten), ?_⟩
  rw [compileForArch, hcheck, Except.mapM_ok_iff.2 hbs]
  rfl

/-- What a filter permits, by what its list adds. -/
theorem permits_iff (hne : l ≠ []) (hfit : ∀ a ∈ l, a.Fits) : Permits t l s args ↔
    (∃ r, Adds t l (.rule s r) ∧ r.holds args) ∨ Adds t l (.call s) ∧ ∀ r, ¬ Adds t l (.rule s r) := by
  obtain ⟨map, hmap⟩ := compile_returns (t := t) hne hfit
  rw [← compile_permitted_iff hmap, Permits, hmap]
  simp

/-! ## Calls alone and with rules -/

theorem base_no_rule : .rule s r ∉ baseCalls t := by
  intro h
  obtain ⟨s', hs', -⟩ := baseCalls_plain _ h
  cases hs'

theorem Adds.mono {x : Addition Sys Rule} (hsub : l ⊆ l') (h : Adds t l x) : Adds t l' x := by
  refine h.imp_right ?_
  rintro ⟨a, ha, hx⟩
  exact ⟨a, hsub ha, hx⟩

/-- What is added was added for one feature, as the filter of that feature alone has it. -/
theorem Adds.single {x : Addition Sys Rule} (h : Adds t l x) : x ∈ baseCalls t ∨ ∃ a ∈ l, Adds t [a] x := by
  refine h.imp_right ?_
  rintro ⟨a, ha, hx⟩
  exact ⟨a, ha, .inr ⟨a, List.mem_singleton_self a, hx⟩⟩

theorem Adds.expected {x : Addition Sys Rule} (h : Adds t l x) : x ∈ baseCalls t ∨ ∃ a ∈ l, Expected t a x := by
  refine h.imp_right ?_
  rintro ⟨a, ha, additions, hok, hx⟩
  exact ⟨a, ha, additions_expected hok x hx⟩

theorem Adds.rule_expected (h : Adds t l (.rule s r)) : ∃ a ∈ l, Expected t a (.rule s r) :=
  h.expected.resolve_left base_no_rule

theorem Adds.ruled (h : Adds t l (.rule s r)) : s ∈ ruled := by
  obtain ⟨a, -, hx⟩ := h.rule_expected
  rcases hx with rfl | rfl | ⟨rfl, -⟩ | ⟨rfl, -⟩ <;> simp [Filter.ruled]

theorem Adds.setsockopt_rule (h : Adds t l (.rule .setsockopt r)) : ∃ level optname,
    .setSockOpt (some (level, optname)) ∈ l ∧
      rule t [(1, 32, level.toInt64.toUInt64), (2, 32, optname.toInt64.toUInt64)] = .ok r := by
  obtain ⟨a, ha, hx⟩ := h.rule_expected
  obtain ⟨level, optname, rfl, hr⟩ : ∃ level optname, a = .setSockOpt (some (level, optname)) ∧
      rule t [(1, 32, level.toInt64.toUInt64), (2, 32, optname.toInt64.toUInt64)] = .ok r := by
    simpa [Expected] using hx
  exact ⟨level, optname, ha, hr⟩

theorem Adds.fcntl_rule (h : Adds t l (.rule .fcntl r)) :
    ∃ op, .fcntl (some op) ∈ l ∧ rule t [(1, 32, op.toUInt64)] = .ok r := by
  obtain ⟨a, ha, hx⟩ := h.rule_expected
  obtain ⟨op, rfl, hr⟩ : ∃ op, a = .fcntl (some op) ∧ rule t [(1, 32, op.toUInt64)] = .ok r := by
    simpa [Expected] using hx
  exact ⟨op, ha, hr⟩

theorem adds_setSockOpt {level optname : Int32} (hin : .setSockOpt (some (level, optname)) ∈ l)
    (hfit : (Allow.setSockOpt (some (level, optname))).Fits) : Adds t l (.rule .setsockopt
      [isDword 1 level.toInt64.toUInt64, isDword 2 optname.toInt64.toUInt64]) := by
  have hlevel := toUInt64_lt hfit.1
  have hoptname := toUInt64_lt hfit.2
  refine .inr ⟨_, hin, _, ?_, List.mem_singleton_self _⟩
  rw [Allow.additions, rule_dwords (by omega) (by omega)]
  rfl

theorem adds_fcntl {op : UInt32} (hin : .fcntl (some op) ∈ l) : Adds t l (.rule .fcntl [isDword 1 op.toUInt64]) := by
  refine .inr ⟨_, hin, _, ?_, List.mem_singleton_self _⟩
  rw [Allow.additions, rule_op]
  rfl

theorem holds_dword {idx : Fin 6} {value : UInt64} :
    (isDword idx value).holds args ↔ (args idx).toUInt32 = value.toUInt32 := by
  simp [isDword, Condition.holds]

theorem holds_op {op : UInt32} : Rule.holds [isDword 1 op.toUInt64] args ↔ (args 1).toUInt32 = op := by
  rw [Rule.holds, List.all_cons, List.all_nil, Bool.and_true, holds_dword, UInt32.toUInt32_toUInt64]

/-- A level of 31 bits is not compared equal to one of 32 bits. -/
theorem not_holds_level {level optname : Int32} (hlevel : 0 ≤ level) (hargs : args 1 = 0x80000000) :
    ¬ Rule.holds [isDword 1 level.toInt64.toUInt64, isDword 2 optname.toInt64.toUInt64] args := by
  intro h
  have hlt := toUInt64_lt hlevel
  have heq : (args 1).toUInt32 = level.toInt64.toUInt64.toUInt32 :=
    holds_dword.1 (List.all_eq_true.1 h _ List.mem_cons_self)
  have hnat := congrArg UInt32.toNat heq
  rw [hargs, UInt64.toNat_toUInt32, UInt64.toNat_toUInt32] at hnat
  have hpow : (0x80000000 : UInt64).toNat = 2 ^ 31 := by decide
  rw [hpow] at hnat
  omega

/-! ## Unions -/

/-- No feature comes both with and without an operand, unless all operands of `fcntl` are there. -/
def Unmixed (l : List Allow) : Prop :=
  (.setSockOpt none ∈ l → ∀ levelOptname, .setSockOpt (some levelOptname) ∉ l) ∧
  (.fcntl none ∈ l → (∀ op, .fcntl (some op) ∉ l) ∨ ∀ op, .fcntl (some op) ∈ l)

/-- The filter of a list is the union of the filters of its features: a call is permitted if it is always permitted
or if one of the features permits it alone, no feature takes back what others permit, and neither order nor
repetition matter. -/
structure Union (t : Target) (l : List Allow) : Prop where
  permits_iff : ∀ s args, Permits t l s args ↔ .call s ∈ baseCalls t ∨ ∃ a ∈ l, Permits t [a] s args
  keeps : ∀ l', l' ≠ [] → l' ⊆ l → ∀ s args, Permits t l' s args → Permits t l s args
  same : ∀ l', (∀ a, a ∈ l' ↔ a ∈ l) → ∀ s args, Permits t l' s args ↔ Permits t l s args

theorem fits_singleton (hfit : ∀ a ∈ l, a.Fits) (ha : a ∈ l) : ∀ a' ∈ [a], a'.Fits := by
  intro a' ha'
  rw [List.mem_singleton.1 ha']
  exact hfit a ha

/-- A call that some feature adds alone is permitted, if no rule is added for it. -/
theorem permits_of_call (hne : l ≠ []) (hfit : ∀ a ∈ l, a.Fits) (h : Adds t l (.call s)) (hs : s ∉ ruled) :
    Permits t l s args :=
  (permits_iff hne hfit).2 (.inr ⟨h, fun _ hr => hs hr.ruled⟩)

theorem permits_base (hne : l ≠ []) (hfit : ∀ a ∈ l, a.Fits) (h : .call s ∈ baseCalls t) : Permits t l s args := by
  refine permits_of_call hne hfit (.inl h) ?_
  obtain ⟨s', hs', hplain⟩ := baseCalls_plain _ h
  cases hs'
  exact hplain

/-- A filter permits nothing but what its features permit. -/
theorem Permits.single (hne : l ≠ []) (hfit : ∀ a ∈ l, a.Fits) (h : Permits t l s args) :
    .call s ∈ baseCalls t ∨ ∃ a ∈ l, Permits t [a] s args := by
  rcases (permits_iff hne hfit).1 h with ⟨r, hr, hholds⟩ | ⟨hcall, hnone⟩
  · obtain ⟨a, ha, hra⟩ := hr.single.resolve_left base_no_rule
    exact .inr ⟨a, ha, (permits_iff (List.cons_ne_nil _ _) (fits_singleton hfit ha)).2 (.inl ⟨r, hra, hholds⟩)⟩
  · refine hcall.single.imp_right ?_
    rintro ⟨a, ha, hca⟩
    have hsub : [a] ⊆ l := List.cons_subset.2 ⟨ha, List.nil_subset l⟩
    have hnone' : ∀ r, ¬ Adds t [a] (.rule s r) := fun r hr => hnone r (hr.mono hsub)
    exact ⟨a, ha, (permits_iff (List.cons_ne_nil _ _) (fits_singleton hfit ha)).2 (.inr ⟨hca, hnone'⟩)⟩

/-- What a feature permits stays permitted next to others, unless these have rules where it has none. -/
theorem Unmixed.permits (hmix : Unmixed l) (hfit : ∀ a ∈ l, a.Fits) (ha : a ∈ l) (h : Permits t [a] s args) :
    Permits t l s args := by
  have hne : l ≠ [] := List.ne_nil_of_mem ha
  have hsub : [a] ⊆ l := List.cons_subset.2 ⟨ha, List.nil_subset l⟩
  rcases (permits_iff (List.cons_ne_nil _ _) (fits_singleton hfit ha)).1 h with ⟨r, hr, hholds⟩ | ⟨hcall, -⟩
  · exact (permits_iff hne hfit).2 (.inl ⟨r, hr.mono hsub, hholds⟩)
  · rcases hcall.expected with hbase | ⟨a', ha', hx⟩
    · exact permits_base hne hfit hbase
    · obtain rfl := List.mem_singleton.1 ha'
      rcases hx with hs | ⟨rfl, rfl⟩ | ⟨rfl, rfl⟩
      · exact permits_of_call hne hfit (hcall.mono hsub) hs
      · refine (permits_iff hne hfit).2 (.inr ⟨hcall.mono hsub, fun r hr => ?_⟩)
        obtain ⟨level, optname, hin, -⟩ := hr.setsockopt_rule
        exact hmix.1 ha _ hin
      · rcases hmix.2 ha with hnone | hall
        · refine (permits_iff hne hfit).2 (.inr ⟨hcall.mono hsub, fun r hr => ?_⟩)
          obtain ⟨op, hin, -⟩ := hr.fcntl_rule
          exact hnone op hin
        -- Every command has a rule of its own.
        · exact (permits_iff hne hfit).2 (.inl ⟨_, adds_fcntl (hall (args 1).toUInt32), holds_op.2 rfl⟩)

theorem Unmixed.union (hmix : Unmixed l) (hne : l ≠ []) (hfit : ∀ a ∈ l, a.Fits) : Union t l where
  permits_iff s args := by
    constructor
    · exact Permits.single hne hfit
    · rintro (hbase | ⟨a, ha, h⟩)
      · exact permits_base hne hfit hbase
      · exact hmix.permits hfit ha h
  keeps l' hne' hsub s args h := by
    rcases h.single hne' (fun a ha => hfit a (hsub ha)) with hbase | ⟨a, ha, h⟩
    · exact permits_base hne hfit hbase
    · exact hmix.permits hfit (hsub ha) h
  same l' hsame s args := by
    have hne' : l' ≠ [] := by
      obtain ⟨a, ha⟩ := List.exists_mem_of_ne_nil l hne
      exact List.ne_nil_of_mem ((hsame a).2 ha)
    have hadds : ∀ x, Adds t l' x ↔ Adds t l x :=
      fun x => ⟨Adds.mono fun a => (hsame a).1, Adds.mono fun a => (hsame a).2⟩
    rw [Filter.permits_iff hne' (fun a ha => hfit a ((hsame a).1 ha)), Filter.permits_iff hne hfit]
    simp only [hadds]

/-- Without an operand a feature permits its call with all arguments. -/
theorem permits_setSockOpt : Permits t [.setSockOpt none] .setsockopt args := by
  have hfit : ∀ a ∈ [Allow.setSockOpt none], a.Fits := List.forall_mem_singleton.2 trivial
  refine (permits_iff (List.cons_ne_nil _ _) hfit).2 (.inr ⟨?_, fun r hr => ?_⟩)
  · exact .inr ⟨_, List.mem_singleton_self _, _, rfl, List.mem_singleton_self _⟩
  · obtain ⟨level, optname, hin, -⟩ := hr.setsockopt_rule
    simp at hin

theorem permits_fcntl : Permits t [.fcntl none] .fcntl args := by
  have hfit : ∀ a ∈ [Allow.fcntl none], a.Fits := List.forall_mem_singleton.2 trivial
  refine (permits_iff (List.cons_ne_nil _ _) hfit).2 (.inr ⟨?_, fun r hr => ?_⟩)
  · exact .inr ⟨_, List.mem_singleton_self _, _, rfl, List.mem_singleton_self _⟩
  · obtain ⟨op, hin, -⟩ := hr.fcntl_rule
    simp at hin

/-- A level that no rule can have is permitted without an operand only. -/
theorem Union.setSockOpt (h : Union t l) (hfit : ∀ a ∈ l, a.Fits) (hnone : .setSockOpt none ∈ l)
    (levelOptname : Int32 × Int32) : .setSockOpt (some levelOptname) ∉ l := by
  intro hsome
  have hperm : Permits t l .setsockopt fun _ => 0x80000000 :=
    (h.permits_iff _ _).2 (.inr ⟨_, hnone, permits_setSockOpt⟩)
  rcases (Filter.permits_iff (List.ne_nil_of_mem hnone) hfit).1 hperm with ⟨r, hr, hholds⟩ | ⟨-, hno⟩
  · obtain ⟨level, optname, hin, hrule⟩ := hr.setsockopt_rule
    obtain ⟨hlevel, hoptname⟩ : 0 ≤ level ∧ 0 ≤ optname := hfit _ hin
    have hlevel' := toUInt64_lt hlevel
    have hoptname' := toUInt64_lt hoptname
    rw [rule_dwords (by omega) (by omega)] at hrule
    rw [← Except.ok.inj hrule] at hholds
    exact not_holds_level hlevel rfl hholds
  · exact hno _ (adds_setSockOpt hsome (hfit _ hsome))

/-- A command without a rule is permitted without an operand only. -/
theorem Union.fcntl (h : Union t l) (hfit : ∀ a ∈ l, a.Fits) (hnone : .fcntl none ∈ l) {op op' : UInt32}
    (hsome : .fcntl (some op) ∈ l) : .fcntl (some op') ∈ l := by
  have hperm : Permits t l .fcntl fun _ => op'.toUInt64 := (h.permits_iff _ _).2 (.inr ⟨_, hnone, permits_fcntl⟩)
  rcases (Filter.permits_iff (List.ne_nil_of_mem hnone) hfit).1 hperm with ⟨r, hr, hholds⟩ | ⟨-, hno⟩
  · obtain ⟨op'', hin, hrule⟩ := hr.fcntl_rule
    rw [rule_op] at hrule
    rw [← Except.ok.inj hrule, holds_op, UInt32.toUInt32_toUInt64] at hholds
    rw [hholds]
    exact hin
  · exact absurd (adds_fcntl hsome) (hno _)

theorem Union.unmixed (h : Union t l) (hfit : ∀ a ∈ l, a.Fits) : Unmixed l := by
  refine ⟨h.setSockOpt hfit, fun hnone => ?_⟩
  by_cases hsome : ∃ op, .fcntl (some op) ∈ l
  · obtain ⟨op, hop⟩ := hsome
    exact .inr fun op' => h.fcntl hfit hnone hop
  · exact .inl fun op hop => hsome ⟨op, hop⟩

/-- A list of features whose operands fit is compiled, and its filter is their union if and only if no feature
without an operand meets the same feature with one. -/
theorem compile_union_iff (hne : l ≠ []) (hfit : ∀ a ∈ l, a.Fits) :
    (∃ map, compileForArch t l = .ok map) ∧ (Union t l ↔ Unmixed l) :=
  ⟨compile_returns hne hfit, fun h => h.unmixed hfit, fun h => h.union hne hfit⟩

/-- A command without an operand next to a socket option with one. -/
theorem compile_union_sample :
    let t : Target := ⟨.x8664, .linux, true⟩
    let l := [.fcntl none, .setSockOpt (some (1, 2)), .read]
    Unmixed l ∧ (∃ map, compileForArch t l = .ok map) ∧ Union t l := by
  intro t l
  have hmix : Unmixed l := by simp [Unmixed, l]
  have hfit : ∀ a ∈ l, a.Fits := by simp [l, Allow.Fits]
  obtain ⟨hmap, hunion⟩ := compile_union_iff (t := t) (l := l) (by simp [l]) hfit
  exact ⟨hmix, hmap, hunion.2 hmix⟩

/-- `F_GETFL` is permitted by `fcntl` without an operand, and no longer with `F_GETFD` next to it. -/
theorem fcntl_narrowed :
    let t : Target := ⟨.x8664, .linux, true⟩
    let l := [.fcntl none, .fcntl (some 1)]
    (∀ a ∈ l, a.Fits) ∧ Permits t [.fcntl none] .fcntl (fun _ => 3) ∧ ¬ Permits t l .fcntl (fun _ => 3) ∧
      ¬ Union t l := by
  intro t l
  have hfit : ∀ a ∈ l, a.Fits := by simp [l, Allow.Fits]
  have hdenied : ¬ Permits t l .fcntl (fun _ => 3) := by
    intro h
    rcases (permits_iff (by simp [l]) hfit).1 h with ⟨r, hr, hholds⟩ | ⟨-, hnone⟩
    · obtain ⟨op, hin, hrule⟩ := hr.fcntl_rule
      have hop : op = 1 := by simpa [l] using hin
      rw [rule_op] at hrule
      rw [← Except.ok.inj hrule, holds_op, hop] at hholds
      exact absurd hholds (by decide)
    · exact hnone _ (adds_fcntl (show .fcntl (some 1) ∈ l by simp [l]))
  refine ⟨hfit, permits_fcntl, hdenied, fun h => hdenied ?_⟩
  exact h.keeps [.fcntl none] (List.cons_ne_nil _ _) (by simp [l]) _ _ permits_fcntl

end Letmein.Filter
