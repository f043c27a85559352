import Letmein.ProtocolAuth

/-!
# The error policy

`control-error-policy` decides which errors are reported to the peer. `stage` reads the authentication state off
what a session has sent and received, and `policy_filters` compares two sessions in the same environment: the
policy takes away go-away messages that are sent too early, and nothing else.
-/

namespace Letmein
variable {Auth : Type}

/-! ## What a session puts out -/

inductive Output (Auth : Type) where
  | message (msg : Message Auth)
  | request (req : FirewallMessage)

def output? : NetEvent Auth → Option (Output Auth)
  | ⟨.send msg, _⟩ => some (.message msg)
  | ⟨.fwSend req, _⟩ => some (.request req)
  | _ => none

def received? : NetEvent Auth → Option (Message Auth)
  | ⟨.recv, .done (.ok (some msg))⟩ => some msg
  | _ => none

/-- The nonce of a challenge that was sent. -/
def challenged? : NetEvent Auth → Option Auth
  | ⟨.send msg, _⟩ => if msg.operation = .challenge then some msg.auth else none
  | _ => none

def Output.isGoAway : Output Auth → Bool
  | .message msg => msg.operation = .goAway
  | .request _ => false

/-! ## Authentication states -/

def AuthState.rank : AuthState → Nat
  | .notAuth => 0
  | .basicAuth => 1
  | .challengeResponseAuth => 2

/-- The state that a policy demands for an error to be reported. -/
def ErrorPolicy.demands : ErrorPolicy → AuthState
  | .always => .notAuth
  | .basicAuth => .basicAuth
  | .fullAuth => .challengeResponseAuth

variable [AuthToken Auth] [DecidableEq Auth]

/-- A `Knock` or `Close` with a token that is valid under the configured key of the user it names. -/
def validKnock (conf : Config) (knock : Message Auth) : Option Key :=
  match conf.key knock.user with
  | some key =>
    if (knock.operation = .knock ∨ knock.operation = .close) ∧ knock.auth = knock.authenticateNoChallenge key then
      some key
    else none
  | none => none

/-- A response to one of the challenges. -/
def validResponse (knock : Message Auth) (key : Key) (challenges : List Auth) (msg : Message Auth) : Bool :=
  msg.operation = .response ∧ msg.user = knock.user ∧ msg.resource = knock.resource ∧
    challenges.any fun c => msg.auth = msg.authenticate key c

/-- How far the peer is authenticated by what the session has sent and received. -/
def stage (conf : Config) (t : List (NetEvent Auth)) : AuthState :=
  match t.filterMap received? with
  | [] => .notAuth
  | knock :: responses =>
    match validKnock conf knock with
    | none => .notAuth
    | some key =>
      if responses.any (validResponse knock key (t.filterMap challenged?)) then .challengeResponseAuth
      else .basicAuth

/-- What an event puts out, with the authentication state in which it does. -/
def staged (conf : Config) (h : List (NetEvent Auth)) (e : NetEvent Auth) : Option (AuthState × Output Auth) :=
  (output? e).map fun o => (stage conf h, o)

/-- All messages and firewall requests of a session in the environment `env`. -/
def outputs (conf : Config) (peer : IpAddr) (env : List (NetEvent Auth) → (op : Op Auth) → op.Ret) :
    List (AuthState × Output Auth) :=
  Prog.emit (staged conf) [] (Prog.play env [] (Protocol.run conf peer : Endpoint Auth Unit))

/-- Not a go-away message below what the policy demands. -/
def ErrorPolicy.passes (policy : ErrorPolicy) (x : AuthState × Output Auth) : Bool :=
  !(x.2.isGoAway && x.1.rank < policy.demands.rank)

def Config.withPolicy (conf : Config) (policy : ErrorPolicy) : Config := { conf with controlErrorPolicy := policy }

def Protocol.withPolicy (self : Protocol) (policy : ErrorPolicy) : Protocol :=
  { self with conf := self.conf.withPolicy policy }

/-! ## Two sessions side by side -/

section
variable {conf : Config} {policy : ErrorPolicy} {self : Protocol} {h : List (NetEvent Auth)}

/-- A go-away message is only sent in the state that the policy demands. -/
def Reported (conf : Config) (policy : ErrorPolicy) (h : List (NetEvent Auth)) (op : Op Auth) : Prop :=
  ∀ msg, op = .send msg → msg.operation = .goAway → policy.demands.rank ≤ (stage conf h).rank

/-- A session goes away below the state that the policy demands. -/
def Unreported (conf : Config) (policy : ErrorPolicy) (h : List (NetEvent Auth)) (e : String)
    (q : Endpoint Auth Empty) : Prop :=
  (stage conf h).rank < policy.demands.rank ∧ ∃ self : Protocol, self.conf.controlErrorPolicy = .always ∧
    q = self.goAway e

theorem stage_append_silent {e : NetEvent Auth} (hr : received? e = none) (hc : challenged? e = none) :
    stage conf (h ++ [e]) = stage conf h := by
  simp [stage, List.filterMap_append, hr, hc]

theorem validKnock_eq_some {knock : Message Auth} {key : Key} : validKnock conf knock = some key ↔
    conf.key knock.user = some key ∧ (knock.operation = .knock ∨ knock.operation = .close) ∧
      knock.auth = knock.authenticateNoChallenge key := by
  unfold validKnock
  cases hkey : conf.key knock.user with
  | none => simp
  | some key' =>
    simp only [Option.ite_none_right_eq_some, Option.some.injEq]
    constructor
    · rintro ⟨⟨hop, hauth⟩, rfl⟩
      exact ⟨rfl, hop, hauth⟩
    · rintro ⟨rfl, hop, hauth⟩
      exact ⟨⟨hop, hauth⟩, rfl⟩

theorem stage_refused {knock : Message Auth} (hno : ∀ key, conf.key knock.user = some key →
    (knock.operation = .knock ∨ knock.operation = .close) → knock.auth ≠ knock.authenticateNoChallenge key) :
    stage conf [recvd knock] = .notAuth := by
  have hnone : validKnock conf knock = none := by
    rw [Option.eq_none_iff_forall_ne_some]
    intro key hkey
    obtain ⟨hkey, hop, hauth⟩ := validKnock_eq_some.1 hkey
    exact hno key hkey hop hauth
  simp [stage, recvd, received?, hnone]

theorem stage_knocked {knock : Message Auth} {key : Key} (hknock : validKnock conf knock = some key) :
    stage conf [recvd knock] = .basicAuth := by
  simp [stage, recvd, received?, hknock]

theorem stage_answered {knock msg : Message Auth} {key : Key} {s : Salt} {c : Auth}
    (hknock : validKnock conf knock = some key) :
    stage conf ([recvd knock] ++ [⟨.salt, s⟩] ++ [⟨.challenge, c⟩] ++
      [⟨.send (challengeMsg knock.user knock.resource s c), .done (.ok ())⟩] ++ [recvd msg]) =
      if validResponse knock key [c] msg then .challengeResponseAuth else .basicAuth := by
  have hr : List.filterMap received? ([recvd knock] ++ [⟨.salt, s⟩] ++ [⟨.challenge, c⟩] ++
      [⟨.send (challengeMsg knock.user knock.resource s c), .done (.ok ())⟩] ++ [recvd msg]) = [knock, msg] := rfl
  have hc : List.filterMap challenged? ([recvd knock] ++ [⟨.salt, s⟩] ++ [⟨.challenge, c⟩] ++
      [⟨.send (challengeMsg knock.user knock.resource s c), .done (.ok ())⟩] ++ [recvd msg]) = [c] := rfl
  rw [stage, hr, hc]
  simp [hknock]

theorem mayGoAway_withPolicy :
    (self.withPolicy policy).mayGoAway = decide (policy.demands.rank ≤ self.authState.rank) := by
  unfold Protocol.mayGoAway
  cases policy <;> rcases hst : self.authState with _ | _ | _ <;>
    simp [Protocol.withPolicy, Config.withPolicy, hst, ErrorPolicy.demands, AuthState.rank]

def Protocol.goAwayMsg (self : Protocol) (s : Salt) : Message Auth :=
  .new .goAway (self.userId.getD ⟨0xFFFFFFFF⟩) (self.resourceId.getD ⟨0xFFFFFFFF⟩) s

omit [DecidableEq Auth] in
theorem goAway_eq {α : Type} (hmay : self.mayGoAway = true) (e : String) : (self.goAway e : Endpoint Auth α) =
    .vis .salt fun s => .vis (.send (self.goAwayMsg s)) fun _ => .err e := by
  simp only [Protocol.goAway, Protocol.sendGoAway, hmay, if_true]
  refine congrArg (Prog.vis _) (funext fun s => congrArg (Prog.vis _) (funext fun r => ?_))
  rcases r with _ | _ | _ <;> rfl

/-- Both sessions go away, or only the one that always reports it does. -/
theorem goAway_cuts {α : Type} {Q : α → List (NetEvent Auth) → Prop} {e : String}
    (hst : stage conf h = self.authState) :
    Prog.Cuts (Reported conf policy) (Unreported conf policy) Q h ((self.withPolicy policy).goAway e)
      ((self.withPolicy .always).goAway e) := by
  have halways : (self.withPolicy .always).mayGoAway = true := rfl
  by_cases hmay : policy.demands.rank ≤ self.authState.rank
  · have hp : (self.withPolicy policy).mayGoAway = true := by rw [mayGoAway_withPolicy, decide_eq_true hmay]
    rw [goAway_eq hp, goAway_eq halways]
    refine .vis (fun msg hmsg => by cases hmsg) fun s => .vis (fun msg _ _ => ?_) fun r => .err e
    rw [stage_append_silent rfl rfl, hst]
    exact hmay
  · have hp : (self.withPolicy policy).mayGoAway = false := by rw [mayGoAway_withPolicy, decide_eq_false hmay]
    have hq : ((self.withPolicy .always).goAway e : Endpoint Auth α) =
        ((self.withPolicy .always).goAway e >>= Empty.elim) := by
      rw [goAway_eq halways, goAway_eq halways]
      rfl
    rw [hq]
    simp only [Protocol.goAway, Protocol.sendGoAway, hp]
    refine .cut ⟨?_, self.withPolicy .always, rfl, rfl⟩
    rw [hst]
    omega

variable {Q : Unit → List (NetEvent Auth) → Prop}

theorem recvInitial_cuts (self : Protocol) {Q : Message Auth → List (NetEvent Auth) → Prop}
    (hself : self.authState = .notAuth)
    (hok : ∀ msg, msg.operation = .knock ∨ msg.operation = .close → Q msg [recvd msg]) :
    Prog.Cuts (Reported conf policy) (Unreported conf policy) Q [] (self.withPolicy policy).recvInitial
      (self.withPolicy .always).recvInitial := by
  refine .vis (fun msg hmsg => by cases hmsg) ?_
  rintro (_ | e | _ | msg)
  · exact .err _
  · exact .err _
  · exact .err _
  · dsimp only [Prog.bind]
    split
    · rename_i hop
      refine goAway_cuts ?_
      rw [hself]
      exact stage_refused fun key _ hknock => by tauto
    · rename_i hop
      exact .ret (hok msg (by tauto))

theorem checkKnock_cuts (self : Protocol) {Q : Key → List (NetEvent Auth) → Prop} {knock : Message Auth}
    (hop : knock.operation = .knock ∨ knock.operation = .close) (hself : self.authState = .notAuth)
    (hok : ∀ key, validKnock self.conf knock = some key → Q key [recvd knock]) :
    Prog.Cuts (Reported self.conf policy) (Unreported self.conf policy) Q [recvd knock]
      ((self.withPolicy policy).checkKnock knock) ((self.withPolicy .always).checkKnock knock) := by
  have hkey : ∀ p, (self.withPolicy p).conf.key knock.user = self.conf.key knock.user := fun _ => rfl
  simp only [Protocol.checkKnock, hkey]
  cases hkey : self.conf.key knock.user with
  | none =>
    refine goAway_cuts ?_
    rw [hself]
    exact stage_refused fun key hkey' => by rw [hkey] at hkey'; cases hkey'
  | some key =>
    simp only [checkAuthOkNoChallenge_eq hop, Prog.ofExcept_ok_bind]
    split
    · rename_i hauth
      exact .ret (hok key (validKnock_eq_some.2 ⟨hkey, hop, of_decide_eq_true hauth⟩))
    · rename_i hauth
      refine goAway_cuts ?_
      rw [hself]
      refine stage_refused fun key' hkey' _ hauth' => ?_
      rw [hkey] at hkey'
      cases hkey'
      exact hauth (decide_eq_true hauth')

theorem checkResource_cuts (self : Protocol) {Q : Resource → List (NetEvent Auth) → Prop} {userId : UserId}
    {resourceId : ResourceId}
    (hst : stage conf h = self.authState) (hok : ∀ resource, Q resource h) :
    Prog.Cuts (Reported conf policy) (Unreported conf policy) Q h
      ((self.withPolicy policy).checkResource userId resourceId)
      ((self.withPolicy .always).checkResource userId resourceId) := by
  have hres : ∀ p, (self.withPolicy p).conf.resource resourceId = self.conf.resource resourceId := fun _ => rfl
  have hport : ∀ p, (self.withPolicy p).conf.port = self.conf.port := fun _ => rfl
  simp only [Protocol.checkResource, hres, hport]
  rcases self.conf.resource resourceId with _ | ⟨port, tcp, udp, users⟩
  · exact goAway_cuts hst
  · dsimp only
    split
    · exact goAway_cuts hst
    split
    · exact goAway_cuts hst
    exact .ret (hok _)

theorem sendMsg_cuts {msg : Message Auth} (hop : msg.operation ≠ .goAway)
    (hok : Q () (h ++ [⟨.send msg, .done (.ok ())⟩])) :
    Prog.Cuts (Reported conf policy) (Unreported conf policy) Q h (Endpoint.sendMsg msg) (Endpoint.sendMsg msg) := by
  refine .vis (fun msg' hmsg => ?_) ?_
  · cases hmsg
    exact fun hgo => absurd hgo hop
  rintro (_ | _ | _)
  · exact .err _
  · exact .err _
  · exact .ret hok

theorem recvMsg_cuts {Q : Message Auth → List (NetEvent Auth) → Prop} {expect : Operation} {user : UserId}
    {resource : ResourceId} (huser : self.userId = some user) (hres : self.resourceId = some resource)
    (hbad : ∀ msg, ¬ (msg.operation = expect ∧ msg.user = user ∧ msg.resource = resource) →
      stage conf (h ++ [recvd msg]) = self.authState)
    (hok : ∀ msg, msg.operation = expect → msg.user = user → msg.resource = resource → Q msg (h ++ [recvd msg])) :
    Prog.Cuts (Reported conf policy) (Unreported conf policy) Q h ((self.withPolicy policy).recvMsg expect)
      ((self.withPolicy .always).recvMsg expect) := by
  refine .vis (fun msg hmsg => by cases hmsg) ?_
  rintro (_ | e | _ | msg)
  · exact .err _
  · exact .err _
  · exact .err _
  · have huser' : ∀ p, (self.withPolicy p).userId = some user := fun _ => huser
    have hres' : ∀ p, (self.withPolicy p).resourceId = some resource := fun _ => hres
    simp only [Prog.bind, huser', hres', Option.any_some, decide_eq_true_eq]
    split
    · exact goAway_cuts (hbad msg (by tauto))
    split
    · exact goAway_cuts (hbad msg (by tauto))
    split
    · exact goAway_cuts (hbad msg (by tauto))
    rename_i hop hu hr
    exact .ret (hok msg (not_not.1 hop) (not_not.1 hu) (not_not.1 hr))

/-- The session that has received the initial message, and is in this state. -/
def Protocol.knockedAt (conf : Config) (peer : IpAddr) (knock : Message Auth) (st : AuthState) : Protocol where
  conf := conf
  peerAddr := peer
  userId := some knock.user
  resourceId := some knock.resource
  authState := st

theorem challengeResponse_cuts {peer : IpAddr} {knock : Message Auth} {key : Key}
    (hknock : validKnock conf knock = some key)
    (hok : ∀ h, stage conf h = .challengeResponseAuth → Q () h) :
    Prog.Cuts (Reported conf policy) (Unreported conf policy) Q [recvd knock]
      (((Protocol.knockedAt conf peer knock .basicAuth).withPolicy policy).challengeResponse knock.user
        knock.resource key)
      (((Protocol.knockedAt conf peer knock .basicAuth).withPolicy .always).challengeResponse knock.user
        knock.resource key) := by
  refine .vis (fun msg hmsg => by cases hmsg) fun s => .vis (fun msg hmsg => by cases hmsg) fun c => ?_
  refine Prog.Cuts.bind (p := Endpoint.sendMsg (challengeMsg knock.user knock.resource s c)) (sendMsg_cuts ?_ ?_)
  · simp [challengeMsg, Message.new]
  refine Prog.Cuts.bind (recvMsg_cuts rfl rfl ?_ ?_)
  · intro msg hbad
    rw [stage_answered hknock, if_neg]
    · rfl
    · simp only [validResponse, decide_eq_true_eq]
      tauto
  intro response hop huser hres
  rw [checkAuthOk_eq hop rfl, Prog.ofExcept_ok_bind, Prog.ofExcept_ok_bind]
  have hvalid : validResponse knock key [c] response = true ↔ response.auth = response.authenticate key c := by
    simp [validResponse, hop, huser, hres]
  split
  · rename_i hauth
    refine .ret (hok _ ?_)
    rw [stage_answered hknock, if_pos (hvalid.2 (of_decide_eq_true hauth))]
  · rename_i hauth
    refine goAway_cuts ?_
    rw [stage_answered hknock, if_neg fun hv => hauth (decide_eq_true (hvalid.1 hv))]
    rfl

theorem orGoAway_request_cuts {what : String} {f : String → String} {msg : FirewallMessage}
    (hst : stage conf h = self.authState) (hok : ∀ h, stage conf h = self.authState → Q () h) :
    Prog.Cuts (Reported conf policy) (Unreported conf policy) Q h
      ((self.withPolicy policy).orGoAway f (FirewallClient.request what msg))
      ((self.withPolicy .always).orGoAway f (FirewallClient.request what msg)) := by
  refine .vis (fun msg hmsg => by cases hmsg) fun sent => ?_
  have hst : stage conf (h ++ [⟨.fwSend msg, sent⟩]) = self.authState := by rw [stage_append_silent rfl rfl, hst]
  rcases sent with _ | _
  · exact goAway_cuts hst
  refine .vis (fun msg hmsg => by cases hmsg) fun reply => ?_
  have hst : stage conf (h ++ [⟨.fwSend msg, .ok ()⟩] ++ [⟨.fwRecv, reply⟩]) = self.authState := by
    rw [stage_append_silent rfl rfl, hst]
  rcases reply with _ | _ | reply
  · exact goAway_cuts hst
  · exact goAway_cuts hst
  obtain ⟨operation, _, _, _, _⟩ := reply
  cases operation with
  | ack => exact .ret (hok _ hst)
  | nack => exact goAway_cuts hst
  | openPort => exact goAway_cuts hst
  | closePort => exact goAway_cuts hst

theorem reconfigure_cuts (self : Protocol) {operation : Operation} {resource : Resource}
    (hst : stage conf h = self.authState)
    (hok : ∀ h, stage conf h = self.authState → Q () h) :
    Prog.Cuts (Reported conf policy) (Unreported conf policy) Q h
      ((self.withPolicy policy).reconfigure operation resource)
      ((self.withPolicy .always).reconfigure operation resource) := by
  obtain ⟨port, tcp, udp, users⟩ := resource
  unfold Protocol.reconfigure
  dsimp only
  cases PortType.ofFlags tcp udp with
  | error why => exact .panic why
  | ok portType =>
    rw [Prog.ofExcept_ok_bind, Prog.ofExcept_ok_bind]
    refine Prog.Cuts.bind (.vis (fun msg hmsg => by cases hmsg) fun connected => ?_)
    have hst : stage conf (h ++ [⟨.fwConnect, connected⟩]) = self.authState := by
      rw [stage_append_silent rfl rfl, hst]
    rcases connected with _ | _
    · exact goAway_cuts hst
    refine .ret ?_
    have hself : ∀ p, (self.withPolicy p).authState = self.authState := fun _ => rfl
    simp only [hself]
    cases check (self.authState = .challengeResponseAuth) .authState with
    | error why => exact .panic why
    | ok _ =>
      rw [Prog.ofExcept_ok_bind, Prog.ofExcept_ok_bind]
      split
      · exact orGoAway_request_cuts hst hok
      · exact orGoAway_request_cuts hst hok

/-- The sessions of the two policies. -/
theorem run_cuts (conf : Config) (policy : ErrorPolicy) (peer : IpAddr) :
    Prog.Cuts (Reported conf policy) (Unreported conf policy) (fun _ _ => True) []
      (Protocol.run (conf.withPolicy policy) peer : Endpoint Auth Unit)
      (Protocol.run (conf.withPolicy .always) peer) := by
  refine Prog.Cuts.bind (recvInitial_cuts { conf := conf, peerAddr := peer } rfl ?_)
  intro knock hop
  refine Prog.Cuts.bind (checkKnock_cuts (.knockedAt conf peer knock .notAuth) hop rfl ?_)
  intro key hknock
  refine Prog.Cuts.bind (checkResource_cuts (.knockedAt conf peer knock .basicAuth)
    (stage_knocked hknock) ?_)
  intro resource
  refine Prog.Cuts.bind (challengeResponse_cuts hknock ?_)
  intro h hst
  refine Prog.Cuts.bind (reconfigure_cuts (.knockedAt conf peer knock .challengeResponseAuth) hst ?_)
  intro h hst
  refine .vis (fun msg hmsg => by cases hmsg) fun s => ?_
  exact sendMsg_cuts (by simp [Message.new]) trivial

/-! ## Outputs -/

theorem Reported.passes {op : Op Auth} {a : op.Ret} {x : AuthState × Output Auth} (hop : Reported conf policy h op)
    (hx : staged conf h ⟨op, a⟩ = some x) : policy.passes x = true := by
  cases op with
  | send msg =>
    obtain rfl : (stage conf h, Output.message msg) = x := Option.some.inj hx
    have hrank : msg.operation = .goAway → policy.demands.rank ≤ (stage conf h).rank := hop msg rfl
    simpa [ErrorPolicy.passes, Output.isGoAway, ← imp_iff_not_or] using hrank
  | fwSend req =>
    obtain rfl : (stage conf h, Output.request req) = x := Option.some.inj hx
    rfl
  | _ => cases hx

theorem Unreported.filter_emit (env : List (NetEvent Auth) → (op : Op Auth) → op.Ret) {e : String}
    {q : Endpoint Auth Empty} (hq : Unreported conf policy h e q) :
    (Prog.emit (staged conf) h (Prog.play env h q)).filter policy.passes = [] := by
  obtain ⟨hrank, self, halways, rfl⟩ := hq
  have hmay : self.mayGoAway = true := by
    unfold Protocol.mayGoAway
    rw [halways]
  have hstage : (stage conf (h ++ [⟨.salt, env h .salt⟩])).rank < policy.demands.rank := by
    rwa [stage_append_silent rfl rfl]
  have hnot : policy.passes (stage conf (h ++ [⟨.salt, env h .salt⟩]),
      Output.message (self.goAwayMsg (env h .salt) : Message Auth)) ≠ true := by
    simp [ErrorPolicy.passes, Output.isGoAway, Protocol.goAwayMsg, Message.new, hstage]
  rw [goAway_eq hmay, Prog.play, Prog.play]
  exact List.filter_cons_of_neg hnot

omit [DecidableEq Auth] in
theorem goAway_unauthenticated {α : Type} {self : Protocol} (hpolicy : self.conf.controlErrorPolicy ≠ .always)
    (hst : self.authState = .notAuth) (e : String) : (self.goAway e : Endpoint Auth α) = .err e := by
  have hmay : self.mayGoAway = false := by
    unfold Protocol.mayGoAway
    rw [hst]
    cases hp : self.conf.controlErrorPolicy with
    | always => exact absurd hp hpolicy
    | basicAuth => rfl
    | fullAuth => rfl
  simp only [Protocol.goAway, Protocol.sendGoAway, hmay]
  rfl

theorem checkKnock_unauthenticated (self : Protocol) {knock : Message Auth}
    (hpolicy : self.conf.controlErrorPolicy ≠ .always) (hst : self.authState = .notAuth)
    (hop : knock.operation = .knock ∨ knock.operation = .close) (hno : validKnock self.conf knock = none) :
    ∃ e, self.checkKnock knock = .err e := by
  unfold Protocol.checkKnock
  split
  · exact ⟨_, goAway_unauthenticated hpolicy hst _⟩
  · rename_i key hkey
    rw [checkAuthOkNoChallenge_eq hop, Prog.ofExcept_ok_bind, if_neg]
    · exact ⟨_, goAway_unauthenticated hpolicy hst _⟩
    · intro hauth
      rw [validKnock_eq_some.2 ⟨hkey, hop, of_decide_eq_true hauth⟩] at hno
      cases hno

theorem run_unauthenticated (peer : IpAddr) (hpolicy : conf.controlErrorPolicy ≠ .always) :
    ∃ k, (Protocol.run conf peer : Endpoint Auth Unit) = .vis .recv k ∧ ∀ first : Timed (Option (Message Auth)),
      (∀ msg, first = .done (.ok (some msg)) → validKnock conf msg = none) → ∃ e, k first = .err e := by
  refine ⟨_, rfl, ?_⟩
  rintro (_ | e | _ | knock) hno
  · exact ⟨_, rfl⟩
  · exact ⟨_, rfl⟩
  · exact ⟨_, rfl⟩
  have hno := hno knock rfl
  dsimp only [Prog.bind]
  split
  · rw [goAway_unauthenticated hpolicy rfl]
    exact ⟨_, rfl⟩
  rename_i hop
  obtain ⟨e, he⟩ := checkKnock_unauthenticated (.knockedAt conf peer knock .notAuth) hpolicy rfl
    (by tauto) hno
  refine ⟨e, ?_⟩
  show (Protocol.checkKnock (.knockedAt conf peer knock .notAuth) knock >>= _) = _
  rw [he]
  rfl

theorem outputs_silent {peer : IpAddr} {env : List (NetEvent Auth) → (op : Op Auth) → op.Ret}
    (hpolicy : conf.controlErrorPolicy ≠ .always)
    (hno : ∀ msg, env [] .recv = .done (.ok (some msg)) → validKnock conf msg = none) :
    outputs conf peer env = [] := by
  obtain ⟨k, hrun, hk⟩ := @run_unauthenticated Auth _ _ conf peer hpolicy
  obtain ⟨e, he⟩ := hk _ hno
  rw [outputs, hrun, Prog.play, he]
  rfl

end

/-- In the same environment, the policy takes away the go-away messages that are sent below the state it demands,
and nothing else. If the first thing a session receives is not a valid initial message, then with any policy but
`always` it puts out nothing, whatever its configuration. -/
theorem policy_filters (conf : Config) (peer : IpAddr) (env : List (NetEvent Auth) → (op : Op Auth) → op.Ret) :
    (∀ policy : ErrorPolicy, outputs (conf.withPolicy policy) peer env =
      (outputs (conf.withPolicy .always) peer env).filter policy.passes) ∧
    ∀ (conf' : Config) (peer' : IpAddr), conf.controlErrorPolicy ≠ .always → conf'.controlErrorPolicy ≠ .always →
      (∀ msg, env [] .recv = .done (.ok (some msg)) → validKnock conf msg = none ∧ validKnock conf' msg = none) →
      outputs conf peer env = [] ∧ outputs conf' peer' env = [] := by
  refine ⟨fun policy => ?_, fun conf' peer' hp hp' hno => ⟨?_, ?_⟩⟩
  · exact (run_cuts conf policy peer).emit_play env (fun h op a x hop hx => hop.passes hx)
      fun h e q hq => hq.filter_emit env
  · exact outputs_silent hp fun msg hmsg => (hno msg hmsg).1
  · exact outputs_silent hp' fun msg hmsg => (hno msg hmsg).2

/-! ## A peer without a key -/

/-- The peer sends the message, and everything works. -/
def sampleAnswers {Auth : Type} (msg : Message Auth) (nonce : Auth) : List (NetEvent Auth) → (op : Op Auth) → op.Ret
  | _, .connect => .ok ()
  | _, .recv => .done (.ok (some msg))
  | _, .send _ => .done (.ok ())
  | _, .salt => sampleSalt
  | _, .challenge => nonce
  | _, .fwConnect => .ok ()
  | _, .fwSend _ => .ok ()
  | _, .fwRecv => .ok (some .newAck)

/-- A knock with the token of a challenge, which is not valid. -/
def sampleForgery : Message SymAuth := sampleMsg .knock (.raw [5])

theorem policy_filters_sampleForgery :
    outputs (sampleServer.withPolicy .always) (.v4 ⟨192, 0, 2, 7⟩) (sampleAnswers sampleForgery (.raw [5])) =
      [(.notAuth, .message (.new .goAway ⟨1⟩ ⟨2⟩ sampleSalt))] ∧
    outputs (sampleServer.withPolicy .basicAuth) (.v4 ⟨192, 0, 2, 7⟩) (sampleAnswers sampleForgery (.raw [5])) = [] ∧
    outputs (sampleServer.withPolicy .fullAuth) (.v4 ⟨192, 0, 2, 7⟩) (sampleAnswers sampleForgery (.raw [5])) = [] := by
  have hno : validKnock sampleServer sampleForgery = none := by decide
  refine ⟨rfl, (policy_filters (sampleServer.withPolicy .basicAuth) _ (sampleAnswers sampleForgery (.raw [5]))).2
    (sampleServer.withPolicy .fullAuth) _ nofun nofun fun msg hmsg => ?_⟩
  cases hmsg
  exact ⟨hno, hno⟩

end Letmein
