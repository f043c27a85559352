import Mathlib.Data.List.TakeWhile
import Letmein.Conf
import Letmein.Seccomp

/-!
# The filters of the programs (`seccomp.rs` of `letmein`, `letmeind` and `letmeinfwd`)

Each program has a list of features and installs their filter if the configuration or the command line says so.
`sandboxes_separate`: whatever calls a process then makes, none starts programs and reaches the network, only
`letmeinfwd` talks to the firewall and `letmeind` opens no files. Which feature a call needs is said once for all
lists, `Named` for the calls without rules and `permits_socket_iff` for the domains of sockets.
-/

namespace Letmein.Filter

/-! ## Installation -/

/-- What happens to a call that is not in the list. -/
inductive Action where
  | kill
  | log
deriving DecidableEq

inductive SeccompAction where
  | killProcess
  | log
  | allow
deriving DecidableEq

/-- The compiled filter. -/
structure Compiled where
  map : RuleMap Sys Rule
  mismatch : SeccompAction

/-- `Filter::compile`, on the platform that it is compiled for. -/
def compile (t : Target) (allow : List Allow) (denyAction : Action) : Except Panic Compiled := do
  let map ← compileForArch t allow
  return ⟨map, match denyAction with
    | .kill => .killProcess
    | .log => .log⟩

/-- Whether `seccompiler` makes a program of the map, and whether the kernel takes it. -/
structure InstallEnv where
  compiles : Bool
  installs : Bool

/-- `install_seccomp_rules` of a program with this list. On other platforms there is no filter. -/
def installSeccompRules (supported : Option Target) (env : InstallEnv) (allowList : List Allow) (seccomp : Seccomp) :
    Except Panic (Except String (Option Compiled)) := do
  let action ← match seccomp with
    | .off => return .ok none
    | .log => pure Action.log
    | .kill => pure Action.kill
  match supported with
  | none => return .ok none
  | some t =>
    let filter ← compile t allowList action
    if !env.compiles then
      return .error "Compile seccomp filter"
    if !env.installs then
      return .error "Install seccomp filter"
    return .ok (some filter)

def F_GETFD : UInt32 := 1
def IPPROTO_TCP : Int32 := 6
def TCP_NODELAY : Int32 := 1

inductive Program where
  | letmein
  | letmeind
  | letmeinfwd
deriving DecidableEq

/-- `ALLOW_LIST` of each program. -/
def Program.allowList : Program → List Allow
  | .letmein => [.mmap, .mprotect, .open, .read, .write, .fcntl (some F_GETFD), .stat, .recv, .send, .listen,
      .tcpConnect, .setSockOpt (some (IPPROTO_TCP, TCP_NODELAY)), .futex, .uname]
  | .letmeind => [.mmap, .mprotect, .read, .write, .fcntl (some F_GETFD), .recv, .send, .listen, .tcpAccept,
      .unixConnect, .setSockOpt (some (IPPROTO_TCP, TCP_NODELAY)), .signal, .futex]
  | .letmeinfwd => [.mmap, .mprotect, .getUidGid, .archPrctl none, .dup, .pipe, .access, .open, .read, .write,
      .ioctl none, .fcntl none, .stat, .recv, .send, .listen, .unixAccept, .netlink, .setSockOpt none, .signal,
      .sigAction, .futex, .setTidAddress, .rseq, .clone, .exec, .wait, .getRlimit, .pidfd]

/-! ## Processes -/

/-- A system call with its arguments. -/
structure Call where
  sys : Sys
  args : Fin 6 → UInt64

/-- What the kernel does about a call of a process with this filter, or with none. -/
def verdict : Option Compiled → Call → SeccompAction
  | none, _ => .allow
  | some filter, c => if permitted filter.map c.sys c.args then .allow else filter.mismatch

/-- The calls of a process that are carried out: all of them, up to the one it is killed for. -/
def carriedOut (filter : Option Compiled) : List Call → List Call
  | [] => []
  | c :: calls => if verdict filter c = .killProcess then [] else c :: carriedOut filter calls

variable {t : Target} {a : Allow} {l : List Allow} {additions : Additions} {s : Sys} {r : Rule}
  {args : Fin 6 → UInt64} {filter : Option Compiled} {map : RuleMap Sys Rule} {calls : List Call} {c : Call}

theorem carriedOut_all (h : ∀ c, verdict filter c ≠ .killProcess) : carriedOut filter calls = calls := by
  induction calls with
  | nil => rfl
  | cons c calls ih => rw [carriedOut, if_neg (h c), ih]

theorem carriedOut_log : carriedOut (some ⟨map, .log⟩) calls = calls := by
  refine carriedOut_all fun c => ?_
  rw [verdict]
  split_ifs <;> simp

theorem carriedOut_kill :
    carriedOut (some ⟨map, .killProcess⟩) calls = calls.takeWhile fun c => permitted map c.sys c.args := by
  induction calls with
  | nil => rfl
  | cons c calls ih =>
    rw [List.takeWhile_cons, carriedOut, verdict]
    by_cases hc : permitted map c.sys c.args
    · rw [if_pos hc, if_neg (by simp), if_pos hc, ih]
    · rw [if_neg hc, if_pos rfl, if_neg hc]

/-! ## Which feature a call needs -/

/-- Calls that start another program. -/
def startCalls : List Sys := [.clone, .clone3, .execve]

/-- Calls that open a file by its name. -/
def openCalls : List Sys := [.open, .openat]

/-- The domains of the sockets that a feature permits. -/
def Allow.domains : Allow → List UInt64
  | .unixAccept => [AF_UNIX]
  | .unixConnect => [AF_UNIX]
  | .tcpAccept => [AF_INET, AF_INET6]
  | .tcpConnect => [AF_INET, AF_INET6]
  | .netlink => [AF_NETLINK]
  | _ => []

/-- What a feature has to be for something that it adds. -/
def Named (a : Allow) : Addition Sys Rule → Prop
  | .call s => (s ∈ startCalls → a = .clone ∨ a = .exec) ∧ (s ∈ openCalls → a = .open) ∧ ∀ number, s ≠ .other number
  | .rule s r => s = .socket → ∃ domain ∈ a.domains, r = [isDword domainArg domain]

theorem additions_named (h : a.additions t = .ok additions) : ∀ x ∈ additions, Named a x := by
  cases a
  case unixAccept | unixConnect | netlink =>
    rw [Allow.additions, rule_dword (by decide)] at h
    cases h
    simp [List.forall_mem_append, -List.mem_append, Named, startCalls, openCalls, Allow.domains]
  case tcpAccept | tcpConnect =>
    rw [Allow.additions, rule_dword (by decide), rule_dword (by decide)] at h
    cases h
    simp [List.forall_mem_append, -List.mem_append, Named, startCalls, openCalls, Allow.domains]
  case getRlimit =>
    obtain ⟨r, -, h⟩ := Except.bind_ok h
    cases h
    simp [Named]
  case setSockOpt levelOptname =>
    rcases levelOptname with _ | ⟨level, optname⟩
    · cases h
      simp [Named, startCalls, openCalls]
    · obtain ⟨r, -, h⟩ := Except.bind_ok h
      cases h
      simp [Named]
  case fcntl op =>
    rcases op with _ | op
    · cases h
      simp [Named, startCalls, openCalls]
    · obtain ⟨r, -, h⟩ := Except.bind_ok h
      cases h
      simp [Named]
  all_goals
    cases h
    simp [addReadWriteRules, List.forall_mem_append, -List.mem_append, Named, startCalls, openCalls]

theorem adds_socket {domain : UInt64} (ha : a ∈ l) (hd : domain ∈ a.domains) :
    Adds t l (.rule .socket [isDword domainArg domain]) := by
  refine .inr ⟨a, ha, ?_⟩
  cases a
  case unixAccept | unixConnect | netlink =>
    rw [Allow.additions, rule_dword (by decide)]
    refine ⟨_, rfl, ?_⟩
    rw [List.mem_singleton.1 hd]
    simp [addSys, addSysArgsMatch]
  case tcpAccept | tcpConnect =>
    rw [Allow.additions, rule_dword (by decide), rule_dword (by decide)]
    refine ⟨_, rfl, ?_⟩
    rcases List.mem_pair.1 hd with rfl | rfl <;> simp [addSys, addSysArgsMatch]
  all_goals cases hd

/-- The calls that are always permitted start nothing and open nothing. -/
theorem baseCalls_harmless (h : .call s ∈ baseCalls t) :
    s ∉ startCalls ∧ s ∉ openCalls ∧ ∀ number, s ≠ .other number := by
  have hall : ∀ x ∈ baseCalls t, ∀ s, x = .call s → s ∉ startCalls ∧ s ∉ openCalls ∧ ∀ number, s ≠ .other number := by
    simp [baseCalls, List.forall_mem_append, -List.mem_append, startCalls, openCalls]
  exact hall _ h s rfl

theorem Permits.named (h : Permits t l s args) (hs : s ∉ ruled) :
    .call s ∈ baseCalls t ∨ ∃ a ∈ l, Named a (.call s) := by
  obtain ⟨map, hmap, hperm⟩ := h
  rcases (compile_permitted_iff hmap).1 hperm with ⟨r, hr, -⟩ | ⟨hcall, -⟩
  · exact absurd hr.ruled hs
  · refine hcall.imp_right ?_
    rintro ⟨a, ha, additions, hok, hx⟩
    exact ⟨a, ha, additions_named hok _ hx⟩

/-- Only lists with `clone` or `exec` start programs. -/
theorem Permits.start (h : Permits t l s args) (hs : s ∈ startCalls) : .clone ∈ l ∨ .exec ∈ l := by
  have hplain : ∀ s ∈ startCalls, s ∉ ruled := by decide
  rcases h.named (hplain s hs) with hbase | ⟨a, ha, hname⟩
  · exact absurd hs (baseCalls_harmless hbase).1
  · rcases hname.1 hs with rfl | rfl
    · exact .inl ha
    · exact .inr ha

/-- Only lists with `open` open files. -/
theorem Permits.opens (h : Permits t l s args) (hs : s ∈ openCalls) : .open ∈ l := by
  have hplain : ∀ s ∈ openCalls, s ∉ ruled := by decide
  rcases h.named (hplain s hs) with hbase | ⟨a, ha, hname⟩
  · exact absurd hs (baseCalls_harmless hbase).2.1
  · rw [← hname.2.1 hs]
    exact ha

/-- No list permits a call that the source has no name for. -/
theorem Permits.ne_other (h : Permits t l s args) (number : Int) : s ≠ .other number := by
  rintro rfl
  rcases h.named (by simp [ruled]) with hbase | ⟨a, -, hname⟩
  · exact (baseCalls_harmless hbase).2.2 number rfl
  · exact hname.2.2 number rfl

/-- A call that has rules is added alone for a feature without an operand. -/
theorem Adds.ruled_call (h : Adds t l (.call s)) (hs : s ∈ Filter.ruled) :
    s = .setsockopt ∧ .setSockOpt none ∈ l ∨ s = .fcntl ∧ .fcntl none ∈ l := by
  rcases h.expected with hbase | ⟨a, ha, hplain | ⟨hset, rfl⟩ | ⟨hfcntl, rfl⟩⟩
  · obtain ⟨s', hs', hplain⟩ := baseCalls_plain _ hbase
    cases hs'
    exact absurd hs hplain
  · exact absurd hs hplain
  · exact .inl ⟨hset, ha⟩
  · exact .inr ⟨hfcntl, ha⟩

theorem holds_domain {domain : UInt64} :
    Rule.holds [isDword domainArg domain] args ↔ (args domainArg).toUInt32 = domain.toUInt32 := by
  rw [Rule.holds, List.all_cons, List.all_nil, Bool.and_true, holds_dword]

/-- Sockets are permitted for the domains of the features in the list, whatever else is in it. -/
theorem permits_socket_iff (hne : l ≠ []) (hfit : ∀ a ∈ l, a.Fits) :
    Permits t l .socket args ↔ ∃ a ∈ l, ∃ domain ∈ a.domains, (args domainArg).toUInt32 = domain.toUInt32 := by
  rw [permits_iff hne hfit]
  constructor
  · rintro (⟨r, hr, hholds⟩ | ⟨hcall, -⟩)
    · obtain ⟨a, ha, additions, hok, hx⟩ := hr.resolve_left base_no_rule
      obtain ⟨domain, hd, rfl⟩ := additions_named hok _ hx rfl
      exact ⟨a, ha, domain, hd, holds_domain.1 hholds⟩
    · rcases hcall.ruled_call (by simp [ruled]) with ⟨hs, -⟩ | ⟨hs, -⟩ <;> cases hs
  · rintro ⟨a, ha, domain, hd, heq⟩
    exact .inl ⟨_, adds_socket ha hd, holds_domain.2 heq⟩

/-- Without the feature for all socket options, an option is permitted by a feature for it. -/
theorem Permits.setsockopt (hfit : ∀ a ∈ l, a.Fits) (hnone : .setSockOpt none ∉ l)
    (h : Permits t l .setsockopt args) : ∃ level optname, .setSockOpt (some (level, optname)) ∈ l ∧
      (args 1).toUInt32 = level.toInt64.toUInt64.toUInt32 ∧ (args 2).toUInt32 = optname.toInt64.toUInt64.toUInt32 := by
  obtain ⟨map, hmap, hperm⟩ := h
  rcases (compile_permitted_iff hmap).1 hperm with ⟨r, hr, hholds⟩ | ⟨hcall, -⟩
  · obtain ⟨level, optname, hin, hrule⟩ := hr.setsockopt_rule
    obtain ⟨hlevel, hoptname⟩ : 0 ≤ level ∧ 0 ≤ optname := hfit _ hin
    have hlevel' := toUInt64_lt hlevel
    have hoptname' := toUInt64_lt hoptname
    rw [rule_dwords (by omega) (by omega)] at hrule
    rw [← Except.ok.inj hrule, Rule.holds, List.all_eq_true] at hholds
    exact ⟨level, optname, hin, holds_dword.1 (hholds _ (by simp)), holds_dword.1 (hholds _ (by simp))⟩
  · rcases hcall.ruled_call (by simp [ruled]) with ⟨-, hin⟩ | ⟨hs, -⟩
    · exact absurd hin hnone
    · cases hs

/-- Without the feature for all commands, a command is permitted by a feature for it. -/
theorem Permits.fcntl (hnone : .fcntl none ∉ l) (h : Permits t l .fcntl args) : .fcntl (some (args 1).toUInt32) ∈ l := by
  obtain ⟨map, hmap, hperm⟩ := h
  rcases (compile_permitted_iff hmap).1 hperm with ⟨r, hr, hholds⟩ | ⟨hcall, -⟩
  · obtain ⟨op, hin, hrule⟩ := hr.fcntl_rule
    rw [rule_op] at hrule
    rw [← Except.ok.inj hrule, holds_op] at hholds
    rw [hholds]
    exact hin
  · rcases hcall.ruled_call (by simp [ruled]) with ⟨hs, -⟩ | ⟨-, hin⟩
    · cases hs
    · exact absurd hin hnone

/-! ## The three programs -/

variable {p : Program}

/-- The domains of the sockets of each program. -/
def Program.domains : Program → List UInt64
  | .letmein => [AF_INET, AF_INET6]
  | .letmeind => [AF_INET, AF_INET6, AF_UNIX]
  | .letmeinfwd => [AF_UNIX, AF_NETLINK]

def Call.domain (c : Call) : UInt32 := (c.args domainArg).toUInt32

theorem Program.fits : ∀ a ∈ p.allowList, a.Fits := by
  cases p <;> simp [Program.allowList, Allow.Fits, IPPROTO_TCP, TCP_NODELAY]

theorem Program.allowList_ne_nil : p.allowList ≠ [] := by
  cases p <;> exact List.cons_ne_nil _ _

theorem Program.unmixed : Unmixed p.allowList := by
  cases p <;> simp [Program.allowList, Unmixed]

theorem Program.permits_socket :
    Permits t p.allowList .socket args ↔ (args domainArg).toUInt32 ∈ p.domains.map UInt64.toUInt32 := by
  rw [permits_socket_iff p.allowList_ne_nil p.fits]
  cases p <;> simp [Program.allowList, Program.domains, Allow.domains, or_assoc]

theorem Program.permits_setsockopt (h : Permits t p.allowList .setsockopt args) : p = .letmeinfwd ∨
    (args 1).toUInt32 = IPPROTO_TCP.toUInt32 ∧ (args 2).toUInt32 = TCP_NODELAY.toUInt32 := by
  cases p
  case letmeinfwd => exact .inl rfl
  all_goals
    obtain ⟨level, optname, hin, hlevel, hoptname⟩ := h.setsockopt Program.fits (by simp [Program.allowList])
    obtain ⟨rfl, rfl⟩ : level = IPPROTO_TCP ∧ optname = TCP_NODELAY := by simpa [Program.allowList] using hin
    exact .inr ⟨hlevel, hoptname⟩

theorem Program.permits_fcntl (h : Permits t p.allowList .fcntl args) :
    p = .letmeinfwd ∨ (args 1).toUInt32 = F_GETFD := by
  cases p
  case letmeinfwd => exact .inl rfl
  all_goals
    have hin := h.fcntl (by simp [Program.allowList])
    exact .inr (by simpa [Program.allowList] using hin)

/-- What a process is kept to whatever it calls: the calls that are carried out are permitted and end where one is
not, permitted is what some feature of the program permits, and what that is for programs, files and sockets. -/
structure Confined (p : Program) (t : Target) (calls carried : List Call) : Prop where
  stops : ∃ rest, calls = carried ++ rest ∧ ∀ c ∈ rest.head?, ¬ Permits t p.allowList c.sys c.args
  permits : ∀ c ∈ carried, Permits t p.allowList c.sys c.args
  union : Union t p.allowList
  starts : ∀ c ∈ carried, c.sys ∈ startCalls → p = .letmeinfwd
  opens : ∀ c ∈ carried, c.sys ∈ openCalls → p ≠ .letmeind
  sockets : ∀ c ∈ carried, c.sys = .socket → c.domain ∈ p.domains.map UInt64.toUInt32
  options : ∀ c ∈ carried, c.sys = .setsockopt → p = .letmeinfwd ∨ (c.args 1).toUInt32 = IPPROTO_TCP.toUInt32 ∧
    (c.args 2).toUInt32 = TCP_NODELAY.toUInt32
  commands : ∀ c ∈ carried, c.sys = .fcntl → p = .letmeinfwd ∨ (c.args 1).toUInt32 = F_GETFD
  known : ∀ c ∈ carried, ∀ number, c.sys ≠ .other number

/-- The other parts follow from what is permitted. -/
theorem Confined.of_permits {carried rest : List Call} (hcalls : calls = carried ++ rest)
    (hrest : ∀ c ∈ rest.head?, ¬ Permits t p.allowList c.sys c.args)
    (hall : ∀ c ∈ carried, Permits t p.allowList c.sys c.args) : Confined p t calls carried where
  stops := ⟨rest, hcalls, hrest⟩
  permits := hall
  union := p.unmixed.union p.allowList_ne_nil p.fits
  starts c hc hs := by
    have hlist := (hall c hc).start hs
    cases p <;> simp [Program.allowList] at hlist ⊢
  opens c hc hs := by
    rintro rfl
    have hlist := (hall c hc).opens hs
    simp [Program.allowList] at hlist
  sockets c hc hs := Program.permits_socket.1 (hs ▸ hall c hc)
  options c hc hs := Program.permits_setsockopt (hs ▸ hall c hc)
  commands c hc hs := Program.permits_fcntl (hs ▸ hall c hc)
  known c hc := (hall c hc).ne_other

theorem Confined.of_filter (h : compileForArch t p.allowList = .ok map) :
    Confined p t calls (carriedOut (some ⟨map, .killProcess⟩) calls) := by
  have hiff : ∀ c : Call, permitted map c.sys c.args ↔ Permits t p.allowList c.sys c.args := by
    intro c
    rw [Permits, h]
    simp
  rw [carriedOut_kill]
  refine .of_permits (List.takeWhile_append_dropWhile ..).symm ?_ ?_
  · intro c hc hperm
    have hnot := List.head?_dropWhile_not (fun c : Call => permitted map c.sys c.args) calls
    rw [Option.mem_def.1 hc] at hnot
    exact absurd ((hiff c).2 hperm) (by simpa using hnot)
  · intro c hc
    have hperm : permitted map c.sys c.args :=
      List.mem_takeWhile_imp (p := fun c : Call => permitted map c.sys c.args) hc
    exact (hiff c).1 hperm

/-- No call reaches the Internet if one starts a program, and the firewall is left to `letmeinfwd`. -/
structure Separated (p : Program) (carried : List Call) : Prop where
  internet : (∃ c ∈ carried, c.sys ∈ startCalls) → ∀ c ∈ carried, c.sys = .socket →
    c.domain ≠ AF_INET.toUInt32 ∧ c.domain ≠ AF_INET6.toUInt32
  firewall : ∀ c ∈ carried, c.sys = .socket → c.domain = AF_NETLINK.toUInt32 → p = .letmeinfwd

theorem Confined.separated {carried : List Call} (h : Confined p t calls carried) : Separated p carried := by
  constructor
  · rintro ⟨c, hc, hs⟩ c' hc' hs'
    have hdomain := h.sockets c' hc' hs'
    rw [h.starts c hc hs, Program.domains] at hdomain
    rcases List.mem_pair.1 hdomain with heq | heq <;> rw [heq] <;> decide
  · intro c hc hs heq
    have hdomain := h.sockets c hc hs
    rw [heq] at hdomain
    cases p
    case letmeinfwd => rfl
    all_goals exact absurd hdomain (by decide)

theorem installSeccompRules_ok (env : InstallEnv) (seccomp : Seccomp) (hmap : compileForArch t l = .ok map) :
    ∃ ret, installSeccompRules (some t) env l seccomp = .ok ret ∧
      (env.compiles → env.installs → ∃ filter, ret = .ok filter) ∧
      ∀ filter, ret = .ok filter → filter = match seccomp with
        | .off => none
        | .log => some ⟨map, .log⟩
        | .kill => some ⟨map, .killProcess⟩ := by
  have hcompile : ∀ action, compile t l action = .ok ⟨map, match action with
      | .kill => .killProcess
      | .log => .log⟩ := by
    intro action
    cases action <;> simp only [compile, hmap] <;> rfl
  cases seccomp
  case off => exact ⟨_, rfl, fun _ _ => ⟨_, rfl⟩, fun filter hf => (Except.ok.inj hf).symm⟩
  all_goals
    obtain ⟨compiles, installs⟩ := env
    simp only [installSeccompRules, pure_bind, hcompile]
    cases compiles
    · exact ⟨_, rfl, nofun, nofun⟩
    cases installs
    · exact ⟨_, rfl, nofun, nofun⟩
    · exact ⟨_, rfl, fun _ _ => ⟨_, rfl⟩, fun filter hf => (Except.ok.inj hf).symm⟩

/-- `opts.seccomp.unwrap_or(conf.seccomp())` -/
def seccompSetting (opt : Option Seccomp) (conf : Config) : Seccomp := opt.getD conf.seccomp

/-- Installing the filter does not panic. With `kill` a process is kept to its list whatever it calls, and the
programs are kept apart; with the other settings all calls are carried out. -/
theorem sandboxes_separate (p : Program) (t : Target) (env : InstallEnv) (opt : Option Seccomp) (conf : Config) :
    ∃ ret, installSeccompRules (some t) env p.allowList (seccompSetting opt conf) = .ok ret ∧
      (env.compiles → env.installs → ∃ filter, ret = .ok filter) ∧
      ∀ filter, ret = .ok filter → ∀ calls,
        (seccompSetting opt conf ≠ .kill → carriedOut filter calls = calls) ∧
        (seccompSetting opt conf = .kill → Confined p t calls (carriedOut filter calls) ∧
          Separated p (carriedOut filter calls)) := by
  obtain ⟨map, hmap⟩ := compile_returns (t := t) p.allowList_ne_nil p.fits
  obtain ⟨ret, hret, hok, hfilter⟩ := installSeccompRules_ok env (seccompSetting opt conf) hmap
  refine ⟨ret, hret, hok, fun filter hf calls => ?_⟩
  rw [hfilter filter hf]
  cases seccompSetting opt conf
  case off => exact ⟨fun _ => carriedOut_all nofun, nofun⟩
  case log => exact ⟨fun _ => carriedOut_log, nofun⟩
  case kill =>
    have hconf : Confined p t calls (carriedOut (some ⟨map, .killProcess⟩) calls) := .of_filter hmap
    exact ⟨fun h => absurd rfl h, fun _ => ⟨hconf, hconf.separated⟩⟩

end Letmein.Filter
