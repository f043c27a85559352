import Letmein.Protocol

/-!
# What a session does

`SessionTrace` lists everything that a session can have done at some point, whatever it receives and
whatever fails: it follows one path from the initial message to the come-in message, and leaves it
for good with at most a go-away message. What holds of all sessions is read off its cases.
-/

namespace Letmein

/-- An operation at one end of a connection, with its answer. -/
abbrev NetEvent (Auth : Type) := Event (@Op.Ret Auth)

def Resource.num : Resource → UInt16
  | .port p _ _ _ => p

def Resource.portType : Resource → Except Panic PortType
  | .port _ tcp udp _ => PortType.ofFlags tcp udp

variable {Auth : Type}

abbrev recvd (msg : Message Auth) : NetEvent Auth := ⟨.recv, .done (.ok (some msg))⟩

variable [AuthToken Auth]

/-- After an error: nothing, or a go-away message. -/
inductive GoingAway : Prog.Status → List (NetEvent Auth) → Prop
  | running : GoingAway .running []
  | silent : GoingAway .failed []
  | salted (s : Salt) : GoingAway .running [⟨.salt, s⟩]
  | sent (s : Salt) (user : UserId) (resource : ResourceId) (r : Timed Unit) :
      GoingAway .failed [⟨.salt, s⟩, ⟨.send (.new .goAway user resource s), r⟩]

/-- At the end: the come-in message. -/
inductive ComingIn (user : UserId) (resource : ResourceId) : Prog.Status → List (NetEvent Auth) → Prop
  | running : ComingIn user resource .running []
  | salted (s : Salt) : ComingIn user resource .running [⟨.salt, s⟩]
  | sent {st : Prog.Status} (s : Salt) (r : Timed Unit) (hst : st ≠ .running) :
      ComingIn user resource st [⟨.salt, s⟩, ⟨.send (.new .comeIn user resource s), r⟩]

/-- An initial message that passes all checks, and the challenge for it: a `Knock` or `Close` of a known
user with a valid token, for a resource that the user may have and that is not the control port. -/
structure Admission (Auth : Type) [AuthToken Auth] (conf : Config) where
  knock : Message Auth
  key : Key
  resource : Resource
  salt : Salt
  nonce : Auth
  operation_ok : knock.operation = .knock ∨ knock.operation = .close
  key_ok : conf.key knock.user = some key
  auth_ok : knock.auth = knock.authenticateNoChallenge key
  resource_ok : conf.resource knock.resource = some resource
  user_ok : resource.containsUser knock.user = true
  port_ok : resource.num ≠ conf.port.port

/-- A response to the challenge, for the same user and resource and with a valid token. -/
structure Authorisation (Auth : Type) [AuthToken Auth] (conf : Config) extends Admission Auth conf where
  response : Message Auth
  response_operation : response.operation = .response
  response_user : response.user = knock.user
  response_resource : response.resource = knock.resource
  response_auth : response.auth = response.authenticate key nonce

variable {conf : Config}

def challengeMsg (user : UserId) (resource : ResourceId) (s : Salt) (c : Auth) : Message Auth :=
  { (Message.new .challenge user resource s : Message Auth) with auth := c }

def Admission.challenge (d : Admission Auth conf) : Message Auth :=
  challengeMsg d.knock.user d.knock.resource d.salt d.nonce

def Admission.events (d : Admission Auth conf) (r : Timed Unit) : List (NetEvent Auth) :=
  [recvd d.knock, ⟨.salt, d.salt⟩, ⟨.challenge, d.nonce⟩, ⟨.send d.challenge, r⟩]

def Authorisation.events (d : Authorisation Auth conf) : List (NetEvent Auth) :=
  d.toAdmission.events (.done (.ok ())) ++ [recvd d.response]

/-- The request that the initial message asks for. -/
def Authorisation.request (d : Authorisation Auth conf) (peer : IpAddr) (portType : PortType) : FirewallMessage :=
  if d.knock.operation = .close then .newClose peer portType d.resource.num
  else .newOpen peer portType d.resource.num

theorem Authorisation.request_cases (d : Authorisation Auth conf) (peer : IpAddr) (portType : PortType) :
    d.knock.operation = .knock ∧ d.request peer portType = .newOpen peer portType d.resource.num ∨
      d.knock.operation = .close ∧ d.request peer portType = .newClose peer portType d.resource.num := by
  rcases d.operation_ok with hop | hop <;> simp [Authorisation.request, hop]

theorem Authorisation.addr_request (d : Authorisation Auth conf) (peer : IpAddr) (portType : PortType) :
    (d.request peer portType).addr? = some peer ∧
      (d.request peer portType).port? = some (portType, d.resource.num) := by
  rcases d.request_cases peer portType with ⟨-, h⟩ | ⟨-, h⟩ <;> simp [h]

inductive SessionTrace (conf : Config) (peer : IpAddr) : Prog.Status → List (NetEvent Auth) → Prop
  | start : SessionTrace conf peer .running []
  | rejected {st : Prog.Status} {t : List (NetEvent Auth)} (a : Timed (Option (Message Auth)))
      (ht : GoingAway st t) : SessionTrace conf peer st (⟨.recv, a⟩ :: t)
  | salted (d : Admission Auth conf) : SessionTrace conf peer .running [recvd d.knock, ⟨.salt, d.salt⟩]
  | drawn (d : Admission Auth conf) :
      SessionTrace conf peer .running [recvd d.knock, ⟨.salt, d.salt⟩, ⟨.challenge, d.nonce⟩]
  | challenged {st : Prog.Status} (d : Admission Auth conf) (r : Timed Unit) (hst : st ≠ .panicked) :
      SessionTrace conf peer st (d.events r)
  | unanswered {st : Prog.Status} {t : List (NetEvent Auth)} (d : Admission Auth conf)
      (a : Timed (Option (Message Auth))) (ht : GoingAway st t) :
      SessionTrace conf peer st (d.events (.done (.ok ())) ++ ⟨.recv, a⟩ :: t)
  | noPort (d : Authorisation Auth conf) (hport : d.resource.portType = .error .unreachable) :
      SessionTrace conf peer .panicked d.events
  | connected {st : Prog.Status} {t : List (NetEvent Auth)} (d : Authorisation Auth conf)
      (r : Except String Unit) (ht : GoingAway st t) :
      SessionTrace conf peer st (d.events ++ ⟨.fwConnect, r⟩ :: t)
  | requested {st : Prog.Status} {t : List (NetEvent Auth)} (d : Authorisation Auth conf) {portType : PortType}
      (hport : d.resource.portType = .ok portType) (r : Except String Unit) (ht : GoingAway st t) :
      SessionTrace conf peer st (d.events ++ ⟨.fwConnect, .ok ()⟩ :: ⟨.fwSend (d.request peer portType), r⟩ :: t)
  | refused {st : Prog.Status} {t : List (NetEvent Auth)} (d : Authorisation Auth conf) {portType : PortType}
      (hport : d.resource.portType = .ok portType) (reply : Except String (Option FirewallMessage))
      (hreply : ∀ msg, reply = .ok (some msg) → msg.operation ≠ .ack) (ht : GoingAway st t) :
      SessionTrace conf peer st (d.events ++ ⟨.fwConnect, .ok ()⟩ ::
        ⟨.fwSend (d.request peer portType), .ok ()⟩ :: ⟨.fwRecv, reply⟩ :: t)
  | acknowledged {st : Prog.Status} {t : List (NetEvent Auth)} (d : Authorisation Auth conf) {portType : PortType}
      (hport : d.resource.portType = .ok portType) (reply : FirewallMessage) (hreply : reply.operation = .ack)
      (ht : ComingIn d.knock.user d.knock.resource st t) :
      SessionTrace conf peer st (d.events ++ ⟨.fwConnect, .ok ()⟩ ::
        ⟨.fwSend (d.request peer portType), .ok ()⟩ :: ⟨.fwRecv, .ok (some reply)⟩ :: t)

/-! ### The parts of a session -/

section
variable {α : Type} {P : Prog.Status → List (NetEvent Auth) → Prop}

theorem newMessage_spec {operation : Operation} {user : UserId} {resource : ResourceId}
    {Q : Message Auth → List (NetEvent Auth) → Prop} (h0 : P .running [])
    (hok : ∀ s, Q (.new operation user resource s) [⟨.salt, s⟩]) :
    (Endpoint.newMessage operation user resource).Spec P Q := ⟨h0, hok⟩

omit [AuthToken Auth] in
theorem sendMsg_spec {msg : Message Auth} {Q : Unit → List (NetEvent Auth) → Prop} (h0 : P .running [])
    (herr : ∀ r, P .failed [⟨.send msg, r⟩]) (hok : Q () [⟨.send msg, .done (.ok ())⟩]) :
    (Endpoint.sendMsg msg).Spec P Q := by
  refine ⟨h0, ?_⟩
  rintro (_ | _ | _)
  · exact herr _
  · exact herr _
  · exact hok

theorem goAway_spec {self : Protocol} {e : String} {Q : α → List (NetEvent Auth) → Prop}
    (h : ∀ st t, GoingAway st t → P st t) : (self.goAway e).Spec P Q := by
  unfold Protocol.goAway Protocol.sendGoAway
  split
  · refine ⟨h _ _ .running, fun s => ⟨h _ _ (.salted s), ?_⟩⟩
    rintro (_ | _ | _) <;> exact h _ _ (.sent s _ _ _)
  · exact h _ _ .silent

theorem recvInitial_spec {self : Protocol} {Q : Message Auth → List (NetEvent Auth) → Prop}
    (h0 : P .running []) (hbad : ∀ a st t, GoingAway st t → P st (⟨.recv, a⟩ :: t))
    (hok : ∀ msg, msg.operation = .knock ∨ msg.operation = .close → Q msg [recvd msg]) :
    self.recvInitial.Spec P Q := by
  refine ⟨h0, ?_⟩
  rintro (_ | e | _ | msg)
  · exact hbad _ _ _ .silent
  · exact hbad _ _ _ .silent
  · exact hbad _ _ _ .silent
  · dsimp only [Prog.bind]
    split
    · exact goAway_spec (hbad _)
    · rename_i hop
      exact hok msg (by tauto)

theorem recvMsg_spec {self : Protocol} {expect : Operation} {Q : Message Auth → List (NetEvent Auth) → Prop}
    (h0 : P .running []) (hbad : ∀ a st t, GoingAway st t → P st (⟨.recv, a⟩ :: t))
    (hok : ∀ msg, msg.operation = expect → (∀ user, self.userId = some user → msg.user = user) →
      (∀ resource, self.resourceId = some resource → msg.resource = resource) → Q msg [recvd msg]) :
    (self.recvMsg expect).Spec P Q := by
  refine ⟨h0, ?_⟩
  rintro (_ | e | _ | msg)
  · exact hbad _ _ _ .silent
  · exact hbad _ _ _ .silent
  · exact hbad _ _ _ .silent
  · dsimp only [Prog.bind]
    split
    · exact goAway_spec (hbad _)
    split
    · exact goAway_spec (hbad _)
    split
    · exact goAway_spec (hbad _)
    rename_i hop huser hres
    refine hok msg (not_not.1 hop) (fun user hu => ?_) (fun resource hr => ?_)
    · simpa [hu] using huser
    · simpa [hr] using hres

theorem checkResource_spec {self : Protocol} {userId : UserId} {resourceId : ResourceId}
    {Q : Resource → List (NetEvent Auth) → Prop} (hbad : ∀ st t, GoingAway st t → P st t)
    (hok : ∀ resource, self.conf.resource resourceId = some resource → resource.containsUser userId = true →
      resource.num ≠ self.conf.port.port → Q resource []) :
    (self.checkResource userId resourceId).Spec P Q := by
  unfold Protocol.checkResource
  split
  · exact goAway_spec hbad
  · rename_i hres
    split
    · exact goAway_spec hbad
    split
    · exact goAway_spec hbad
    rename_i huser hport
    exact hok _ hres (by simpa using huser) hport

variable [DecidableEq Auth]

theorem checkAuthOkNoChallenge_eq {msg : Message Auth} (hop : msg.operation = .knock ∨ msg.operation = .close)
    (key : Key) :
    msg.checkAuthOkNoChallenge key = .ok (decide (msg.auth = msg.authenticateNoChallenge key)) := by
  rw [Message.checkAuthOkNoChallenge, check, if_pos hop]; rfl

theorem checkAuthOk_eq {msg challenge : Message Auth} (hop : msg.operation = .response)
    (hchal : challenge.operation = .challenge) (key : Key) :
    msg.checkAuthOk key challenge = .ok (decide (msg.auth = msg.authenticate key challenge.auth)) := by
  rw [Message.checkAuthOk, check, check, if_pos hchal, if_pos hop]; rfl

theorem checkKnock_spec {self : Protocol} {knock : Message Auth} {Q : Key → List (NetEvent Auth) → Prop}
    (hop : knock.operation = .knock ∨ knock.operation = .close) (hbad : ∀ st t, GoingAway st t → P st t)
    (hok : ∀ key, self.conf.key knock.user = some key → knock.auth = knock.authenticateNoChallenge key →
      Q key []) : (self.checkKnock knock).Spec P Q := by
  unfold Protocol.checkKnock
  split
  · exact goAway_spec hbad
  · rename_i key hkey
    rw [checkAuthOkNoChallenge_eq hop, Prog.ofExcept_ok_bind]
    split
    · rename_i hauth
      exact hok key hkey (of_decide_eq_true hauth)
    · exact goAway_spec hbad

theorem challengeResponse_spec {self : Protocol} {user : UserId} {resource : ResourceId} {key : Key}
    {Q : Unit → List (NetEvent Auth) → Prop} (huser : self.userId = some user)
    (hres : self.resourceId = some resource)
    (h0 : P .running []) (hsalt : ∀ s, P .running [⟨.salt, s⟩])
    (hdraw : ∀ s c, P .running [⟨.salt, s⟩, ⟨.challenge, c⟩])
    (hsend : ∀ s c r st, st ≠ .panicked →
      P st [⟨.salt, s⟩, ⟨.challenge, c⟩, ⟨.send (challengeMsg user resource s c), r⟩])
    (hbad : ∀ s c a st t, GoingAway st t → P st (⟨.salt, s⟩ :: ⟨.challenge, c⟩ ::
      ⟨.send (challengeMsg user resource s c), .done (.ok ())⟩ :: ⟨.recv, a⟩ :: t))
    (hok : ∀ s c response, response.operation = .response → response.user = user →
      response.resource = resource → response.auth = response.authenticate key c →
      Q () [⟨.salt, s⟩, ⟨.challenge, c⟩, ⟨.send (challengeMsg user resource s c), .done (.ok ())⟩,
        recvd response]) :
    (self.challengeResponse user resource key).Spec P Q := by
  refine ⟨h0, fun s => ⟨hsalt s, fun c => ?_⟩⟩
  refine Prog.Spec.bind (p := Endpoint.sendMsg (challengeMsg user resource s c)) (sendMsg_spec (hdraw s c) ?_ ?_)
  · exact fun r => hsend s c r _ (by decide)
  refine Prog.Spec.bind (recvMsg_spec (hsend s c _ _ (by decide)) (hbad s c) ?_)
  intro response hop hu hr
  rw [checkAuthOk_eq hop rfl, Prog.ofExcept_ok_bind]
  split
  · rename_i hauth
    exact hok s c response hop (hu user huser) (hr resource hres) (of_decide_eq_true hauth)
  · exact goAway_spec (hbad s c _)

omit [DecidableEq Auth] in
theorem request_spec {self : Protocol} {what : String} {f : String → String} {msg : FirewallMessage}
    {Q : Unit → List (NetEvent Auth) → Prop} (h0 : P .running [])
    (hsend : ∀ r st t, GoingAway st t → P st (⟨.fwSend msg, r⟩ :: t))
    (hbad : ∀ reply st t, (∀ m, reply = .ok (some m) → m.operation ≠ .ack) → GoingAway st t →
      P st (⟨.fwSend msg, .ok ()⟩ :: ⟨.fwRecv, reply⟩ :: t))
    (hok : ∀ reply : FirewallMessage, reply.operation = .ack →
      Q () [⟨.fwSend msg, .ok ()⟩, ⟨.fwRecv, .ok (some reply)⟩]) :
    (self.orGoAway f (FirewallClient.request what msg)).Spec P Q := by
  refine ⟨h0, ?_⟩
  rintro (_ | _)
  · exact goAway_spec (hsend _)
  refine ⟨hsend _ _ _ .running, ?_⟩
  rintro (_ | _ | reply)
  · exact goAway_spec fun st t => hbad _ st t fun m hm => by cases hm
  · exact goAway_spec fun st t => hbad _ st t fun m hm => by cases hm
  -- the last four replies only differ in their operation
  obtain ⟨operation, _, _, _, _⟩ := reply
  cases operation with
  | ack => exact hok _ rfl
  | nack => exact goAway_spec fun st t => hbad _ st t fun m hm => by cases hm; nofun
  | openPort => exact goAway_spec fun st t => hbad _ st t fun m hm => by cases hm; nofun
  | closePort => exact goAway_spec fun st t => hbad _ st t fun m hm => by cases hm; nofun

omit [DecidableEq Auth] in
theorem connect_spec {self : Protocol} {f : String → String} {Q : Unit → List (NetEvent Auth) → Prop}
    (h0 : P .running []) (hbad : ∀ r st t, GoingAway st t → P st (⟨.fwConnect, r⟩ :: t))
    (hok : Q () [⟨.fwConnect, .ok ()⟩]) : (self.orGoAway f FirewallClient.new).Spec P Q := by
  refine ⟨h0, ?_⟩
  rintro (_ | _)
  · exact goAway_spec (hbad _)
  · exact hok

omit [DecidableEq Auth] in
/-- A resource that has a protocol: connect to letmeinfwd and send it the request for the operation. -/
theorem reconfigure_eq {self : Protocol} {operation : Operation} {resource : Resource} {portType : PortType}
    (hstate : self.authState = .challengeResponseAuth) (hport : resource.portType = .ok portType) :
    ∃ what f, (self.reconfigure operation resource : Endpoint Auth Unit) =
      (self.orGoAway (fun e => s!"Failed to connect to letmeinfwd: {e}") FirewallClient.new >>= fun _ =>
        self.orGoAway f (FirewallClient.request what (if operation = .close then
          .newClose self.peerAddr portType resource.num else .newOpen self.peerAddr portType resource.num))) := by
  obtain ⟨port, tcp, udp, users⟩ := resource
  have hflags : PortType.ofFlags tcp udp = .ok portType := hport
  have hcheck : check (self.authState = .challengeResponseAuth) .authState = .ok () := by
    rw [check, if_pos hstate]
  unfold Protocol.reconfigure
  dsimp only
  rw [hflags, Prog.ofExcept_ok_bind, hcheck]
  by_cases hclose : operation = .close
  · rw [if_pos hclose, if_pos hclose]
    exact ⟨_, _, rfl⟩
  · rw [if_neg hclose, if_neg hclose]
    exact ⟨_, _, rfl⟩

omit [DecidableEq Auth] in
theorem reconfigure_spec {self : Protocol} {operation : Operation} {resource : Resource}
    {Q : Unit → List (NetEvent Auth) → Prop} (req : PortType → FirewallMessage)
    (hreq : ∀ portType, req portType = if operation = .close then .newClose self.peerAddr portType resource.num
      else .newOpen self.peerAddr portType resource.num)
    (hstate : self.authState = .challengeResponseAuth)
    (hpanic : resource.portType = .error .unreachable → P .panicked [])
    (hconnect : ∀ r st t, GoingAway st t → P st (⟨.fwConnect, r⟩ :: t))
    (h0 : P .running [])
    (hsend : ∀ portType, resource.portType = .ok portType → ∀ r st t, GoingAway st t →
      P st (⟨.fwConnect, .ok ()⟩ :: ⟨.fwSend (req portType), r⟩ :: t))
    (hbad : ∀ portType, resource.portType = .ok portType → ∀ reply st t,
      (∀ m, reply = .ok (some m) → m.operation ≠ .ack) → GoingAway st t →
      P st (⟨.fwConnect, .ok ()⟩ :: ⟨.fwSend (req portType), .ok ()⟩ :: ⟨.fwRecv, reply⟩ :: t))
    (hok : ∀ portType, resource.portType = .ok portType → ∀ reply : FirewallMessage, reply.operation = .ack →
      Q () [⟨.fwConnect, .ok ()⟩, ⟨.fwSend (req portType), .ok ()⟩, ⟨.fwRecv, .ok (some reply)⟩]) :
    (self.reconfigure operation resource).Spec P Q := by
  cases hport : resource.portType with
  | error why =>
    obtain ⟨port, tcp, udp, users⟩ := resource
    have hflags : PortType.ofFlags tcp udp = .error why := hport
    obtain rfl : why = .unreachable := by
      cases tcp <;> cases udp <;> cases hflags
      rfl
    unfold Protocol.reconfigure
    dsimp only
    rw [hflags]
    exact hpanic hport
  | ok portType =>
    obtain ⟨what, f, heq⟩ := @reconfigure_eq Auth _ self operation resource portType hstate hport
    rw [heq, ← hreq]
    refine Prog.Spec.bind (connect_spec h0 hconnect (request_spec ?_ ?_ ?_ ?_))
    · exact hconnect _ _ _ .running
    · exact hsend portType hport
    · exact hbad portType hport
    · exact hok portType hport

end

variable [DecidableEq Auth]

/-- Everything a session can do. -/
theorem run_spec (conf : Config) (peer : IpAddr) : (Protocol.run conf peer : Endpoint Auth Unit).Spec
    (SessionTrace conf peer) fun _ => SessionTrace conf peer .returned := by
  refine Prog.Spec.bind (recvInitial_spec .start (fun a st t => .rejected a) ?_)
  intro knock hop
  refine Prog.Spec.bind (checkKnock_spec hop (fun st t => .rejected _) ?_)
  intro key hkey hauth
  refine Prog.Spec.bind (checkResource_spec (fun st t => .rejected _) ?_)
  intro resource hres huser hport
  let d (s : Salt) (c : Auth) : Admission Auth conf :=
    ⟨knock, key, resource, s, c, hop, hkey, hauth, hres, huser, hport⟩
  refine Prog.Spec.bind (challengeResponse_spec rfl rfl ?_ ?_ ?_ ?_ ?_ ?_)
  · exact .rejected _ .running
  · exact fun s => .salted (d s zeroAuth)
  · exact fun s c => .drawn (d s c)
  · exact fun s c r st hst => .challenged (d s c) r hst
  · exact fun s c a st t ht => .unanswered (d s c) a ht
  intro s c response hresp hruser hrres hrauth
  let e : Authorisation Auth conf := ⟨d s c, response, hresp, hruser, hrres, hrauth⟩
  refine Prog.Spec.bind (reconfigure_spec (e.request peer) (fun _ => rfl) rfl ?_ ?_ ?_ ?_ ?_ ?_)
  · exact fun hnone => .noPort e hnone
  · exact fun r st t ht => .connected e r ht
  · exact .unanswered (d s c) _ .running
  · exact fun portType hp r st t ht => .requested e hp r ht
  · exact fun portType hp reply st t hreply ht => .refused e hp reply hreply ht
  intro portType hp reply hreply
  refine Prog.Spec.bind (newMessage_spec (.acknowledged e hp reply hreply .running) fun s' => ?_)
  refine sendMsg_spec ?_ ?_ ?_
  · exact .acknowledged e hp reply hreply (.salted s')
  · exact fun r => .acknowledged e hp reply hreply (.sent s' r (by decide))
  · exact .acknowledged e hp reply hreply (.sent s' _ (by decide))

end Letmein
