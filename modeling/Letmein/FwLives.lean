import Letmein.FwIds
import Letmein.NftFrame
import Letmein.Sockets

/-!
# The firewall daemon from its start to its end (`letmeinfwd/src/main.rs`)

letmeinfwd initialises the firewall before it has its socket and its PID-file, so a start that fails can leave the rules
of the control port behind. While it runs, the rules of the control port stay where they are, whatever is asked and
whatever fails. When it exits, the chain is emptied, if `nft` works. A crash leaves the chain as it is, and the next
start puts it right.
-/

namespace Letmein

variable {conf : Config} {names : NftNames} {opts : FwdOpts} {s s' : FwdTasks} {act : FwdAct} {k k' : Kernel}

/-! ## The rules of the control port -/

/-- The rules of the control port are in the chain. -/
def HasCtrl (conf : Config) (names : NftNames) (k : Kernel) : Prop :=
  (ctrlRules conf names : Multiset Rule) ≤ k.content names.chain

theorem HasCtrl.sub {R : List Rule} (h : HasCtrl conf names k) (hR : ∀ r ∈ R, ∃ id, r ∈ idRules names id)
    (hk : k'.content names.chain = k.content names.chain - R) : HasCtrl conf names k' := by
  rw [HasCtrl, hk, Multiset.le_iff_count]
  intro r
  rw [Multiset.count_sub, Multiset.coe_count, Multiset.coe_count]
  have hle := Multiset.le_iff_count.1 h r
  rw [Multiset.coe_count] at hle
  by_cases hr : r ∈ R
  · obtain ⟨id, hid⟩ := hR r hr
    rw [List.count_eq_zero.2 (notMem_ctrlRules hid)]
    exact Nat.zero_le _
  · rw [List.count_eq_zero.2 hr]
    exact hle

theorem HasCtrl.called {s : FwState} {env : NftEnv} {call : FwCall} {r : NftRet} (h : HasCtrl conf names s.kernel)
    (hr : s.Called conf names env call r) : HasCtrl conf names r.kernel := by
  cases call with
  | openPort addr port =>
    cases hr with
    | refreshed => exact h
    | added _ _ _ _ hk =>
      rw [HasCtrl, hk]
      exact h.trans (Multiset.le_add_left _ _)
    | refused => exact h
  | closePort addr port =>
    cases hr with
    | removed _ _ hk => exact h.sub (fun r hr => ⟨_, hr⟩) hk
    | ignored => exact h
    | failed => exact h
  | maintain =>
    cases hr with
    | removed _ hk =>
      refine h.sub (fun r hr => ?_) hk
      obtain ⟨lease, -, hr⟩ := List.mem_flatMap.1 hr
      exact ⟨lease.id, hr⟩
    | ignored => exact h
    | rebuilt _ _ hk =>
      rw [HasCtrl, hk]
      exact Multiset.le_add_right _ _
    | failed => exact h

/-- Every rule of the chain is one of the control port or one for an address. -/
def CtrlOrLease (conf : Config) (names : NftNames) (k : Kernel) : Prop :=
  ∀ x ∈ k.content names.chain, x ∈ ctrlRules conf names ∨ ∃ id, x ∈ idRules names id

theorem CtrlOrLease.called {s : FwState} {env : NftEnv} {call : FwCall} {r : NftRet}
    (h : CtrlOrLease conf names s.kernel) (hr : s.Called conf names env call r) : CtrlOrLease conf names r.kernel := by
  intro x hx
  rcases hr.rules hx with hx | hx | hx | ⟨addr, port, -, hx⟩
  · exact h x hx
  · exact .inl hx
  · obtain ⟨id, -, hx⟩ := mem_leasesRules.1 hx
    exact .inr ⟨id, hx⟩
  · exact .inr ⟨_, hx⟩

namespace FwdTasks

/-! ## Runs -/

/-- While the daemon is alive, its firewall is sane and the rules of the control port are in the chain, with only rules
for single addresses besides. -/
structure Serving (conf : Config) (names : NftNames) (opts : FwdOpts) (s : FwdTasks) : Prop where
  sound : s.Sound names opts
  ctrl : s.main.alive = true → HasCtrl conf names s.firewall.kernel
  rules : s.main.alive = true → CtrlOrLease conf names s.firewall.kernel

theorem Serving.step (hn : readConfiguration conf = .ok names) (hs : s.Serving conf names opts)
    (h : s.step conf opts act = .ok s') : s'.Serving conf names opts := by
  have hkeep : s'.main.alive = true →
      HasCtrl conf names s'.firewall.kernel ∧ CtrlOrLease conf names s'.firewall.kernel := by
    intro halive'
    obtain ⟨halive, h⟩ := step_ok h
    have hctrl := hs.ctrl halive
    have hrules := hs.rules halive
    rcases h.firewall with hsame | ⟨input, hinput⟩ | ⟨hexit, -⟩
    · rw [hsame]
      exact ⟨hctrl, hrules⟩
    · rcases FwdState.step_ok hinput with hsame | ⟨call, nr, -, hcall, hsame⟩
      · rw [hsame]
        exact ⟨hctrl, hrules⟩
      · have hcalled := FwState.call_ok hn (hs.sound.sane halive) hcall
        rw [hsame]
        exact ⟨HasCtrl.called hctrl hcalled, CtrlOrLease.called hrules hcalled⟩
    · rw [halive'] at hexit
      cases hexit
  exact ⟨hs.sound.step hn h, fun halive' => (hkeep halive').1, fun halive' => (hkeep halive').2⟩

theorem Serving.start {env : NftEnv} {fw : NftFirewall} (hn : readConfiguration conf = .ok names)
    (hnew : NftFirewall.new conf env k = .ok (fw, k')) : (start opts fw k').Serving conf names opts := by
  obtain ⟨-, -, hk⟩ := FwState.Sane.new hn hnew
  refine ⟨Sound.start hn hnew, fun _ => le_of_eq hk.symm, fun _ x hx => .inl ?_⟩
  have hx : x ∈ k'.content names.chain := hx
  rw [hk] at hx
  exact hx

theorem Serving.run {env : NftEnv} {fw : NftFirewall} (hn : readConfiguration conf = .ok names)
    (hnew : NftFirewall.new conf env k = .ok (fw, k')) {acts : List FwdAct}
    (hrun : runAll (FwdTasks.step conf opts) (FwdTasks.start opts fw k') acts = .ok s) : s.Serving conf names opts :=
  runAll_inv' (fun _ _ _ hs h => hs.step hn h) (Serving.start hn hnew) hrun

/-- No task of the daemon panics. -/
theorem Serving.ne_panicked (hs : s.Serving conf names opts) (act : FwdAct) (why : Panic) :
    s.step conf opts act ≠ .error (.panicked why) := by
  intro h
  unfold FwdTasks.step at h
  split_ifs at h with halive
  · cases h
  have hrunning : s.firewall.fw.shutdown = false := (hs.sound.sane (by simpa using halive)).running
  have hleave : ∀ {exitcode}, s.leave exitcode ≠ .error (.panicked why) := by
    intro exitcode h
    unfold leave at h
    split at h <;> cases h
  have hrecv : ∀ {message closed}, s.recvExit message closed ≠ .error (.panicked why) := by
    intro message closed h
    unfold recvExit at h
    split at h
    · exact hleave h
    · split at h
      · exact hleave h
      · cases h
  cases act with
  | accept incoming =>
    dsimp only [accept] at h
    split at h
    · split at h <;> cases h
    · cases h
  | acquire =>
    dsimp only [acquire] at h
    split at h <;> cases h
  | spawn =>
    dsimp only [spawn] at h
    split at h <;> cases h
  | drop =>
    dsimp only [drop] at h
    split at h <;> cases h
  | sendSock =>
    dsimp only [sendSock] at h
    split at h <;> cases h
  | serve n env =>
    dsimp only [serve] at h
    split at h
    · cases h
    · rename_i conn _
      obtain ⟨s', hs'⟩ : ∃ s', s.firewall.step conf (.message conn.reads conn.send conn.it, env) = .ok s' :=
        FwdState.step_returns hrunning _
      split at h
      · rename_i hpanic
        simp only [FwdState.step, hpanic, bind, Except.bind] at hs'
        cases hs'
      · cases h
      · cases h
  | maintain env =>
    dsimp only [maintain] at h
    split at h
    · obtain ⟨r, hr⟩ := NftFirewall.maintain_returns conf env s.firewall.kernel hrunning
      rw [hr] at h
      cases h
    · cases h
  | sendFw =>
    dsimp only [sendFw] at h
    split at h <;> cases h
  | sigterm => exact hleave h
  | sigint => exact hleave h
  | sighup =>
    dsimp only [sighup] at h
    split at h <;> cases h
  | recvSock => exact hrecv h
  | recvFw => exact hrecv h
  | shutdown env =>
    dsimp only [shutdown] at h
    split at h
    · have hreturns : ∃ r, s.firewall.fw.shutdownFw conf env s.firewall.kernel = .ok r := by
        rw [NftFirewall.shutdownFw, hrunning]
        dsimp only
        split <;> exact ⟨_, rfl⟩
      obtain ⟨r, hr⟩ := hreturns
      rw [hr] at h
      cases h
    · cases h

/-! ## The end -/

/-- What a step does to the main task: nothing, the main loop is left, for SIGTERM without an error, or the firewall is
shut down. -/
inductive MainStep (conf : Config) (s : FwdTasks) (act : FwdAct) (s' : FwdTasks) : Prop
  | same (h : s'.main = s.main)
  | left {exitcode : Except String Unit} (hmain : s'.main = .exiting exitcode) (hact : exitcode = .ok () → act = .sigterm)
  | shutdown {env : NftEnv} {exitcode : Except String Unit} {r : NftRet} (hact : act = .shutdown env)
      (hmain : s.main = .exiting exitcode) (hr : s.firewall.fw.shutdownFw conf env s.firewall.kernel = .ok r)
      (hfirewall : s'.firewall = ⟨r.fw, r.kernel⟩) (hmain' : s'.main = .exited (shutdownCode r.val exitcode))

theorem leave_main {exitcode : Except String Unit} (h : s.leave exitcode = .ok s') : s'.main = .exiting exitcode := by
  unfold leave at h
  split at h
  · cases h
    rfl
  · cases h

theorem recvExit_main {message : Option String} {closed : Bool} (h : s.recvExit message closed = .ok s') :
    ∃ e, s'.main = .exiting (.error e) := by
  unfold recvExit at h
  split at h
  · exact ⟨_, leave_main h⟩
  · split at h
    · exact ⟨_, leave_main h⟩
    · cases h

theorem step_main (h : s.step conf opts act = .ok s') : MainStep conf s act s' := by
  unfold FwdTasks.step at h
  split_ifs at h with halive
  cases act with
  | sigterm => exact .left (leave_main h) fun _ => rfl
  | sigint => exact .left (leave_main h) fun hcode => by cases hcode
  | recvSock =>
    obtain ⟨e, hmain⟩ := recvExit_main h
    exact .left hmain fun hcode => by cases hcode
  | recvFw =>
    obtain ⟨e, hmain⟩ := recvExit_main h
    exact .left hmain fun hcode => by cases hcode
  | shutdown env =>
    dsimp only [shutdown] at h
    split at h
    · rename_i exitcode hmain
      split at h
      · cases h
      · rename_i r hr
        cases h
        exact .shutdown rfl hmain hr rfl rfl
    · cases h
  | accept incoming =>
    dsimp only [accept] at h
    split at h
    · split at h <;> cases h <;> exact .same rfl
    · cases h
  | acquire =>
    dsimp only [acquire] at h
    split at h <;> cases h
    exact .same rfl
  | spawn =>
    dsimp only [spawn] at h
    split at h <;> cases h
    exact .same rfl
  | drop =>
    dsimp only [drop] at h
    split at h <;> cases h
    exact .same rfl
  | sendSock =>
    dsimp only [sendSock] at h
    split at h <;> cases h
    exact .same rfl
  | serve n env =>
    dsimp only [serve] at h
    split at h
    · cases h
    · split at h <;> cases h <;> exact .same rfl
  | maintain env =>
    dsimp only [maintain] at h
    split at h
    · split at h <;> cases h
      exact .same rfl
    · cases h
  | sendFw =>
    dsimp only [sendFw] at h
    split at h <;> cases h
    exact .same rfl
  | sighup =>
    dsimp only [sighup] at h
    split at h <;> cases h
    exact .same rfl

/-- The daemon exits, or has exited, without an error. -/
def Clean : MainTask → Prop
  | .exiting (.ok ()) => True
  | .exited (.ok ()) => True
  | _ => False

/-- Only SIGTERM makes the daemon exit without an error. -/
theorem step_clean (h : s.step conf opts act = .ok s') (hclean : Clean s'.main) : Clean s.main ∨ act = .sigterm := by
  cases step_main h with
  | same heq => exact .inl (heq ▸ hclean)
  | @left exitcode hmain hact =>
    rw [hmain] at hclean
    rcases exitcode with e | u
    · exact hclean.elim
    · exact .inr (hact rfl)
  | @shutdown env exitcode r hact hmain hr hfirewall hmain' =>
    rw [hmain'] at hclean
    rw [hmain]
    rcases exitcode with e | u
    · rcases hval : r.val with e' | u' <;> rw [hval] at hclean <;> exact hclean.elim
    · exact .inl trivial

theorem run_clean {acts : List FwdAct} (h : runAll (step conf opts) s acts = .ok s') (hstart : ¬ Clean s.main)
    (hclean : Clean s'.main) : .sigterm ∈ acts := by
  have hinv : Clean s'.main → .sigterm ∈ acts := by
    refine runAll_inv_mem (P := fun t => Clean t.main → .sigterm ∈ acts) ?_ (fun hc => absurd hc hstart) h
    intro t act t' hact ht hstep hc
    rcases step_clean hstep hc with hc | rfl
    · exact ht hc
    · exact hact
  exact hinv hclean

/-- A run ends with the shutdown of the firewall, if the daemon exits. -/
theorem run_exited {acts : List FwdAct} (halive : s.main.alive = true) (h : runAll (step conf opts) s acts = .ok s')
    (hexit : s'.main.alive = false) : ∃ acts' t env, acts = acts' ++ [.shutdown env] ∧
      runAll (step conf opts) s acts' = .ok t ∧ t.step conf opts (.shutdown env) = .ok s' := by
  induction acts generalizing s with
  | nil =>
    cases h
    rw [halive] at hexit
    cases hexit
  | cons act acts ih =>
    obtain ⟨s₁, hstep, h⟩ := Except.bind_ok h
    cases halive₁ : s₁.main.alive with
    | true =>
      obtain ⟨acts', t, env, rfl, hrun, hlast⟩ := ih halive₁ h
      exact ⟨act :: acts', t, env, rfl, by rw [runAll_cons_ok hstep]; exact hrun, hlast⟩
    | false =>
      -- No task is left.
      obtain rfl : acts = [] := by
        rcases acts with _ | ⟨act', acts⟩
        · rfl
        · obtain ⟨s₂, hstep', -⟩ := Except.bind_ok h
          rw [(step_ok hstep').1] at halive₁
          cases halive₁
      cases h
      cases step_main hstep with
      | same heq =>
        rw [heq, halive] at halive₁
        cases halive₁
      | left hmain =>
        rw [hmain] at halive₁
        cases halive₁
      | @shutdown env _ _ hact =>
        rw [hact] at hstep
        exact ⟨[], s, env, by rw [hact]; rfl, rfl, hstep⟩

/-- After the shutdown of the firewall there are no leases. The chain is empty if `nft` worked; otherwise it is as it was
and the daemon exits with an error. -/
theorem shutdown_closes {env : NftEnv} (hn : readConfiguration conf = .ok names)
    (h : s.step conf opts (.shutdown env) = .ok s') :
    s'.firewall.fw.leases = ∅ ∧ (env.nft 0 = true → s'.firewall.kernel.content names.chain = 0) ∧
      (env.nft 0 = false → s'.firewall.kernel = s.firewall.kernel ∧ s'.main ≠ .exited (.ok ())) := by
  have hmain : ∃ exitcode r, s.firewall.fw.shutdownFw conf env s.firewall.kernel = .ok r ∧
      s'.firewall = ⟨r.fw, r.kernel⟩ ∧ s'.main = .exited (shutdownCode r.val exitcode) := by
    obtain ⟨halive, -⟩ := step_ok h
    simp only [step, halive, Bool.true_eq_false, if_false, shutdown] at h
    split at h
    · rename_i exitcode hmain
      split at h
      · cases h
      · rename_i r hr
        cases h
        exact ⟨exitcode, r, hr, rfl, rfl⟩
    · cases h
  obtain ⟨exitcode, r, hr, hfirewall, hexited⟩ := hmain
  obtain ⟨hempty, hk⟩ := NftFirewall.shutdownFw_ok hn hr
  rw [hfirewall]
  rcases hk with ⟨-, hnft, hk⟩ | ⟨⟨e, hval⟩, hnft, hk⟩
  · exact ⟨hempty, fun _ => hk, fun hno => by rw [hnft] at hno; cases hno⟩
  · refine ⟨hempty, fun hyes => (by rw [hnft] at hyes; cases hyes), fun _ => ⟨hk, ?_⟩⟩
    rw [hexited, hval]
    rcases exitcode with e' | u <;> exact fun heq => by cases heq

/-- Whatever is asked and whatever fails: no task panics, and the rules of the control port stay in the chain until the
daemon exits. When it has exited, there are no leases, and the chain is empty unless the last `nft` failed. It exits
without an error only after SIGTERM and with an empty chain. -/
theorem daemon_ends_closed (hn : NftNames.get conf = .ok names) {env : NftEnv} {fw : NftFirewall}
    (hnew : NftFirewall.new conf env k = .ok (fw, k')) {acts : List FwdAct}
    (hrun : runAll (step conf opts) (start opts fw k') acts = .ok s) :
    (∀ act why, s.step conf opts act ≠ .error (.panicked why)) ∧
    (s.main.alive = true → HasCtrl conf names s.firewall.kernel) ∧
    (s.main.alive = false → ∃ acts' t env, acts = acts' ++ [.shutdown env] ∧
      runAll (step conf opts) (start opts fw k') acts' = .ok t ∧ s.firewall.fw.leases = ∅ ∧
      (env.nft 0 = true → s.firewall.kernel.content names.chain = 0) ∧
      (env.nft 0 = false → s.firewall.kernel = t.firewall.kernel)) ∧
    (s.main = .exited (.ok ()) → .sigterm ∈ acts ∧ s.firewall.kernel.content names.chain = 0) := by
  have hn := FwState.readConfiguration_eq hn
  have hserving := Serving.run hn hnew hrun
  refine ⟨hserving.ne_panicked, hserving.ctrl, fun hexit => ?_, fun hok => ?_⟩
  · obtain ⟨acts', t, env', hacts, hrun', hlast⟩ := run_exited rfl hrun hexit
    obtain ⟨hempty, hk, hkeep⟩ := shutdown_closes hn hlast
    exact ⟨acts', t, env', hacts, hrun', hempty, hk, fun hfail => (hkeep hfail).1⟩
  · have hclean : Clean s.main := by rw [hok]; trivial
    refine ⟨run_clean hrun (fun hc => hc) hclean, ?_⟩
    obtain ⟨acts', t, env', -, -, hlast⟩ := run_exited rfl hrun (by rw [hok]; rfl)
    obtain ⟨-, hk, hkeep⟩ := shutdown_closes hn hlast
    cases hnft : env'.nft 0 with
    | true => exact hk hnft
    | false => exact absurd hok (hkeep hnft).2

/-- A port is open when SIGTERM comes. -/
theorem daemon_ends_closed_sample : ∃ fw k' s,
    NftFirewall.new FwdState.fwConf (sampleEnv 0 []) .empty = .ok (fw, k') ∧
      runAll (step FwdState.fwConf sampleOpts) (start sampleOpts fw k')
        (sampleActs ++ [.sigterm, .shutdown (sampleEnv 2 [])]) = .ok s ∧ s.main = .exited (.ok ()) ∧
      s.firewall.kernel.content sampleNames.chain = 0 := by
  have hnew : NftFirewall.new FwdState.fwConf (sampleEnv 0 []) .empty = .ok (_, _) := rfl
  have hnames : NftNames.get FwdState.fwConf = .ok sampleNames := rfl
  have hclosed : ∀ s, runAll (step FwdState.fwConf sampleOpts) (start sampleOpts _ _)
      (sampleActs ++ [.sigterm, .shutdown (sampleEnv 2 [])]) = .ok s → s.main = .exited (.ok ()) →
      s.firewall.kernel.content sampleNames.chain = 0 := fun s hrun hmain =>
    ((daemon_ends_closed hnames hnew hrun).2.2.2 hmain).2
  exact ⟨_, _, _, hnew, rfl, rfl, hclosed _ rfl rfl⟩

theorem mem_ctrlRules_iff (names : NftNames) {port : SingleLeasePort} :
    ruleOf names none port ∈ ctrlRules conf names ↔
    port = .tcp conf.port.port ∧ conf.port.tcp = true ∨ port = .udp conf.port.port ∧ conf.port.udp = true := by
  have hinj : ∀ q, ruleOf names none port = ruleOf names none q ↔ port = q :=
    fun q => ⟨fun h => (ruleOf_injective h).2, fun h => by rw [h]⟩
  unfold ctrlRules
  cases conf.port.tcp <;> cases conf.port.udp <;> simp [hinj]

/-- The chain accepts packets for everyone to the control port only, on its protocols. -/
theorem Serving.accepts_iff (hs : s.Serving conf names opts) (halive : s.main.alive = true) {port : SingleLeasePort} :
    ruleOf names none port ∈ s.firewall.kernel.content names.chain ↔
      port = .tcp conf.port.port ∧ conf.port.tcp = true ∨ port = .udp conf.port.port ∧ conf.port.udp = true := by
  rw [← mem_ctrlRules_iff names]
  constructor
  · intro hmem
    rcases hs.rules halive _ hmem with hctrl | ⟨id, hid⟩
    · exact hctrl
    · obtain ⟨q, -, hq⟩ := mem_idRules.1 hid
      cases (ruleOf_injective hq).1
  · intro hctrl
    exact Multiset.mem_of_le (hs.ctrl halive) (Multiset.mem_coe.2 hctrl)

/-- As long as letmeinfwd lives, whatever is asked and whatever fails, its chain accepts packets from everyone exactly to
the protocols and the port of the control port. So letmeind can be reached on every socket it listens on, and except for
a protocol for which systemd did not hand over a socket, nothing is open to everyone that letmeind does not listen on. -/
theorem control_port_reachable (hn : NftNames.get conf = .ok names) {env : NftEnv} {fw : NftFirewall}
    (hnew : NftFirewall.new conf env k = .ok (fw, k')) {acts : List FwdAct}
    (hrun : runAll (step conf opts) (start opts fw k') acts = .ok s) (halive : s.main.alive = true)
    (hport : conf.port.tcp || conf.port.udp) {noSystemd bindTcp bindUdp : Bool} {features : Features}
    {systemd : SystemdEnv} {srv : Server}
    (hsrv : Server.new conf.port noSystemd features systemd bindTcp bindUdp = .ok srv) :
    srv.isEmpty = false ∧
    (srv.tcp.isSome = true → ruleOf names none (.tcp conf.port.port) ∈ s.firewall.kernel.content names.chain) ∧
    (srv.udp.isSome = true → ruleOf names none (.udp conf.port.port) ∈ s.firewall.kernel.content names.chain) ∧
    (¬ Server.OneOfTwo conf.port noSystemd features systemd →
      ∀ port, ruleOf names none port ∈ s.firewall.kernel.content names.chain →
        port = .tcp conf.port.port ∧ srv.tcp.isSome = true ∨ port = .udp conf.port.port ∧ srv.udp.isSome = true) := by
  have hserving := Serving.run (FwState.readConfiguration_eq hn) hnew hrun
  obtain ⟨htcp, hudp, hempty, hall⟩ := Server.listens_on_control_port hport hsrv
  refine ⟨hempty, fun hsome => ?_, fun hsome => ?_, fun hone port hmem => ?_⟩
  · exact (hserving.accepts_iff halive).2 (.inl ⟨rfl, htcp hsome⟩)
  · exact (hserving.accepts_iff halive).2 (.inr ⟨rfl, hudp hsome⟩)
  · obtain ⟨htcp', hudp'⟩ := hall.2 hone
    rw [htcp', hudp']
    exact (hserving.accepts_iff halive).1 hmem

/-- letmeind binds its own socket and can be reached while a port is open. -/
theorem control_port_reachable_sample : ∃ fw k' s srv,
    NftFirewall.new FwdState.fwConf (sampleEnv 0 []) .empty = .ok (fw, k') ∧
      runAll (step FwdState.fwConf sampleOpts) (start sampleOpts fw k') sampleActs = .ok s ∧
      Server.new FwdState.fwConf.port true ⟨true, true, false⟩ ⟨.ok true, .ok [], .ok ()⟩ true true = .ok srv ∧
      srv.tcp.isSome = true ∧
      ruleOf sampleNames none (.tcp FwdState.fwConf.port.port) ∈ s.firewall.kernel.content sampleNames.chain := by
  have hnew : NftFirewall.new FwdState.fwConf (sampleEnv 0 []) .empty = .ok (_, _) := rfl
  have hnames : NftNames.get FwdState.fwConf = .ok sampleNames := rfl
  have hsrv : Server.new FwdState.fwConf.port true ⟨true, true, false⟩ ⟨.ok true, .ok [], .ok ()⟩ true true =
    .ok ⟨some .bound, none⟩ := rfl
  have hreached : ∀ s, runAll (step FwdState.fwConf sampleOpts) (start sampleOpts _ _) sampleActs = .ok s →
      s.main.alive = true →
      ruleOf sampleNames none (.tcp FwdState.fwConf.port.port) ∈ s.firewall.kernel.content sampleNames.chain :=
    fun s hrun halive => (control_port_reachable hnames hnew hrun halive (by decide) hsrv).2.1 rfl
  exact ⟨_, _, _, _, hnew, rfl, hsrv, rfl, hreached _ rfl rfl⟩

end FwdTasks

/-! ## Starting -/

/-- The command line options that matter for the start. -/
structure FwdCli where
  numConnections : Nat
  noSystemd : Bool
  testMode : Bool
  features : Features

/-- What the environment decides in a start, with the results of what is not modelled further: making the directory,
loading the configuration file, writing the PID-file and installing the seccomp filter. -/
structure StartEnv where
  passwd : Option Text
  group : Option Text
  runSubdir : Except String Unit
  conf : Except String Config
  nft : NftEnv
  systemd : SystemdEnv
  unixEnv : UnixEnv
  pidfile : Except String Unit
  seccomp : Except String Unit

structure FwdDaemon where
  conf : Config
  opts : FwdOpts
  tasks : FwdTasks

/-- Before the firewall is initialised. -/
def prepareStart (cli : FwdCli) (env : StartEnv) : Except String (FwdOpts × Config) := do
  let opts ← readEtcPasswd cli.numConnections cli.testMode env.passwd env.group
  let _ ← env.runSubdir
  let conf ← env.conf.mapError fun _ => "Configuration file"
  return (opts, conf)

/-- After the firewall is initialised and before the tasks are spawned. -/
def finishStart (cli : FwdCli) (env : StartEnv) : Except String Unit := do
  let _ ← (FirewallServer.new cli.noSystemd cli.testMode cli.features env.systemd env.unixEnv).mapError
    fun _ => "Firewall server init"
  let _ ← env.pidfile
  env.seccomp

/-- `async_main` up to its tasks. The kernel is not put back when something fails after the firewall is
initialised. -/
def startDaemon (cli : FwdCli) (env : StartEnv) (k : Kernel) : Kernel × Except String FwdDaemon :=
  match prepareStart cli env with
  | .error e => (k, .error e)
  | .ok (opts, conf) =>
    match NftFirewall.new conf env.nft k with
    | .error e => (k, .error e)
    | .ok (fw, k') => (k', (fun _ => ⟨conf, opts, FwdTasks.start opts fw k'⟩) <$> finishStart cli env)

/-- A start gets as far as the firewall or not. -/
inductive Started (cli : FwdCli) (env : StartEnv) (k : Kernel) : Kernel × Except String FwdDaemon → Prop
  | stopped {e : String} : Started cli env k (k, .error e)
  | initialised {conf : Config} {opts : FwdOpts} {fw : NftFirewall} {k' : Kernel} (hconf : env.conf = .ok conf)
      (hnew : NftFirewall.new conf env.nft k = .ok (fw, k')) :
      Started cli env k (k', (fun _ => ⟨conf, opts, FwdTasks.start opts fw k'⟩) <$> finishStart cli env)

theorem startDaemon_started (cli : FwdCli) (env : StartEnv) (k : Kernel) :
    Started cli env k (startDaemon cli env k) := by
  unfold startDaemon
  cases hprep : prepareStart cli env with
  | error e => exact .stopped
  | ok p =>
    obtain ⟨opts, conf⟩ := p
    obtain ⟨opts', -, hprep⟩ := Except.bind_ok hprep
    obtain ⟨u, -, hprep⟩ := Except.bind_ok hprep
    obtain ⟨conf', hconf, hprep⟩ := Except.bind_ok hprep
    cases hprep
    dsimp only
    cases hnew : NftFirewall.new conf env.nft k with
    | error e => exact .stopped
    | ok res => exact .initialised (Except.mapError_ok_iff.1 hconf) hnew

/-! ## Lives -/

/-- Every configuration that is loaded is for this chain. -/
def StartEnv.ForNames (names : NftNames) (env : StartEnv) : Prop :=
  ∀ conf names', env.conf = .ok conf → readConfiguration conf = .ok names' → names' = names

/-- The daemon is started and perhaps fails to, or it runs until it exits, is killed or the power goes off. -/
inductive Life (names : NftNames) (k : Kernel) : Kernel → Prop
  | failed {cli : FwdCli} {env : StartEnv} (hconf : env.ForNames names) {e : String}
      (h : (startDaemon cli env k).2 = .error e) : Life names k (startDaemon cli env k).1
  | ran {cli : FwdCli} {env : StartEnv} (hconf : env.ForNames names) {d : FwdDaemon} {acts : List FwdAct} {s : FwdTasks}
      (h : (startDaemon cli env k).2 = .ok d) (hrun : runAll (FwdTasks.step d.conf d.opts) d.tasks acts = .ok s) :
      Life names k s.firewall.kernel

/-- One life after the other. -/
def Lives (names : NftNames) : Kernel → Kernel → Prop := Relation.ReflTransGen (Life names)

theorem Started.outside {cli : FwdCli} {env : StartEnv} {res : Kernel × Except String FwdDaemon}
    (hconf : env.ForNames names) (h : Started cli env k res) : res.1.outside names.chain = k.outside names.chain := by
  cases h with
  | stopped => rfl
  | @initialised conf opts fw k' hload hnew =>
    obtain ⟨names', hn, -⟩ := NftFirewall.new_ok hnew
    obtain rfl := hconf conf names' hload hn
    exact (Batched.new hn hnew).outside

theorem Life.outside (h : Life names k k') : k'.outside names.chain = k.outside names.chain := by
  cases h with
  | @failed cli env hconf e h => exact (startDaemon_started cli env k).outside hconf
  | @ran cli env hconf d acts s h hrun =>
    have hstarted := startDaemon_started cli env k
    generalize startDaemon cli env k = res at h hstarted
    cases hstarted with
    | stopped => cases h
    | @initialised conf opts fw k₁ hload hnew =>
      obtain ⟨u, -, rfl⟩ := Except.of_map_ok h
      obtain ⟨names', hn, -⟩ := NftFirewall.new_ok hnew
      obtain rfl := hconf conf names' hload hn
      -- The steps keep what the start has kept.
      refine runAll_inv' (P := fun t => t.firewall.kernel.outside names'.chain = k.outside names'.chain) ?_ ?_ hrun
      · intro t act t' ht hstep
        rw [(Batched.step hn hstep).outside, ht]
      · exact (Batched.new hn hnew).outside

theorem Lives.outside (h : Lives names k k') : k'.outside names.chain = k.outside names.chain := by
  induction h with
  | refl => rfl
  | tail _ hlife ih => rw [hlife.outside, ih]

/-- After any number of lives of the daemon, however they ended, the rules of all other chains are what they were, with
their handles and in their order. A further start keeps them too, and if it gets as far as the firewall, then the chain
holds the rules of the control port and nothing else, whatever the lives before have left there. -/
theorem lives_confined (h : Lives names k k') (cli : FwdCli) {env : StartEnv} (hconf : env.ForNames names) :
    k'.outside names.chain = k.outside names.chain ∧
    (startDaemon cli env k').1.outside names.chain = k.outside names.chain ∧
    ((startDaemon cli env k').1 = k' ∧ (∃ e, (startDaemon cli env k').2 = .error e) ∨
      ∃ conf, env.conf = .ok conf ∧ (startDaemon cli env k').1.content names.chain = ctrlRules conf names) := by
  have hstarted := startDaemon_started cli env k'
  refine ⟨h.outside, by rw [hstarted.outside hconf, h.outside], ?_⟩
  generalize startDaemon cli env k' = res at hstarted
  cases hstarted with
  | @stopped e => exact .inl ⟨rfl, e, rfl⟩
  | @initialised conf opts fw k₁ hload hnew =>
    obtain ⟨names', hn, -, hk⟩ := NftFirewall.new_ok hnew
    obtain rfl := hconf conf names' hload hn
    exact .inr ⟨conf, hload, hk⟩

/-- The environment of a start in which everything works. -/
noncomputable def sampleStartEnv : StartEnv where
  passwd := some samplePasswd
  group := some sampleGroup
  runSubdir := .ok ()
  conf := .ok FwdState.fwConf
  nft := sampleEnv 0 []
  systemd := ⟨.ok false, .ok [], .ok ()⟩
  unixEnv := ⟨none, true, true, true⟩
  pidfile := .ok ()
  seccomp := .ok ()

def sampleCli (noSystemd : Bool) : FwdCli := ⟨8, noSystemd, false, ⟨false, false, true⟩⟩

/-- A rule of another chain. -/
def sampleForeign : Rule := ⟨.inet, "filter", "INPUT", [.accept], none, none⟩

theorem sampleStartEnv_forNames : sampleStartEnv.ForNames sampleNames := by
  intro conf names' hload hn
  cases hload
  exact (Except.ok.inj hn).symm

/-- The daemon is killed while a port is open. Without a socket from systemd the next start fails, and the rules of the
control port are there all the same. -/
theorem lives_confined_sample : ∃ k', Lives sampleNames (Kernel.empty.add sampleForeign) k' ∧
    ruleOf sampleNames (some (.v4 ⟨192, 0, 2, 7⟩)) (.tcp 22) ∈ k'.content sampleNames.chain ∧
    (startDaemon (sampleCli false) sampleStartEnv k').2 = .error "Firewall server init" ∧
    (startDaemon (sampleCli false) sampleStartEnv k').1.outside sampleNames.chain =
      (Kernel.empty.add sampleForeign).outside sampleNames.chain := by
  have hlives : Lives sampleNames (Kernel.empty.add sampleForeign) _ :=
    .single (@Life.ran _ _ (sampleCli true) sampleStartEnv sampleStartEnv_forNames _ FwdTasks.sampleActs _ rfl rfl)
  exact ⟨_, hlives, by decide, rfl, (lives_confined hlives (sampleCli false) sampleStartEnv_forNames).2.1⟩

end Letmein
