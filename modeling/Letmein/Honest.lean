import Letmein.Lib.Link
import Letmein.NoPanic

/-!
# Honest runs

A client and a server over a channel that delivers the bytes of every message. Whatever the order in which they take
their steps, their runs come to an end, with the request that the client wants (`honest_runs_succeed`).
-/

namespace Letmein

/-! ## The traces of an honest run -/

section
variable {Auth : Type} [AuthToken Auth]

omit [AuthToken Auth] in
theorem recvSpecificMsg_trace {expect : Operation} {msg : Message Auth} (hop : msg.operation = expect)
    (hexpect : expect ≠ .goAway) : (Client.recvSpecificMsg expect).Trace [recvd msg] (.ret msg) := by
  refine .cons ?_
  dsimp only [Prog.bind]
  rw [if_neg (hop ▸ hexpect), if_neg (not_not.2 hop)]
  exact .nil _

omit [AuthToken Auth] in
theorem recvSpecificMsg_trace_other {expect : Operation} {msg : Message Auth} (hop : msg.operation ≠ expect) :
    ∃ e, (Client.recvSpecificMsg expect).Trace [recvd msg] (.err e) := by
  by_cases haway : msg.operation = .goAway
  · refine ⟨"The server rejected the request", .cons ?_⟩
    dsimp only [Prog.bind]
    rw [if_pos haway]
    exact .nil _
  · refine ⟨s!"Invalid reply message operation. Expected {expect.text}, got {msg.operation.text}", .cons ?_⟩
    dsimp only [Prog.bind]
    rw [if_neg haway, if_pos hop]
    exact .nil _

/-- A client that has its challenge responds to it and then waits for the last message of the server. -/
theorem sequence_trace (seq : ClientSeq) {operation : Operation} (what : String)
    (hop : operation = .knock ∨ operation = .close) (s s' : Salt) {challenge : Message Auth}
    (hchal : challenge.operation = .challenge) (last : Message Auth) :
    ∃ q, (seq.sequence operation what).Trace (knocked seq operation s (.done (.ok ())) ++
        ([recvd challenge, ⟨.salt, s'⟩, ⟨.send (seq.responseMsg s' challenge.auth), .done (.ok ())⟩] ++
          [recvd last])) q ∧
      q.status ≠ .running ∧ (last.operation = .comeIn → q = .ret ()) := by
  have hend : ∃ q : Endpoint Auth Unit, (Client.recvSpecificMsg .comeIn >>= fun _ => pure ()).Trace [recvd last] q ∧
      q.status ≠ .running ∧ (last.operation = .comeIn → q = .ret ()) := by
    by_cases hlast : last.operation = .comeIn
    · exact ⟨_, (recvSpecificMsg_trace hlast (by decide)).bind _, nofun, fun _ => rfl⟩
    · obtain ⟨e, he⟩ := recvSpecificMsg_trace_other hlast
      exact ⟨_, he.bind _, nofun, fun h => absurd h hlast⟩
  obtain ⟨q, hq, hend⟩ := hend
  refine ⟨q, .cons (.cons ?_), hend⟩
  change (Prog.ofExcept (Message.generateAuthNoChallenge (.new operation _ _ s) seq.key) >>= _).Trace _ _
  rw [generateAuthNoChallenge_eq hop, Prog.ofExcept_ok_bind]
  refine .cons ?_
  change (Client.recvSpecificMsg .challenge >>= _).Trace ([recvd challenge] ++ _) _
  refine ((recvSpecificMsg_trace hchal (by decide)).bind _).append (.cons ?_)
  change (Prog.ofExcept (Message.generateAuth (.new .response _ _ s') seq.key challenge) >>= _).Trace _ _
  rw [generateAuth_eq rfl hchal, Prog.ofExcept_ok_bind]
  exact .cons hq

variable {conf : Config} [DecidableEq Auth]

omit [AuthToken Auth] [DecidableEq Auth] in
theorem checkResource_ok [AuthToken Auth] {self : Protocol} {userId : UserId} {resourceId : ResourceId}
    {resource : Resource} (hres : self.conf.resource resourceId = some resource)
    (huser : resource.containsUser userId = true) (hport : resource.num ≠ self.conf.port.port) :
    (self.checkResource userId resourceId : Endpoint Auth Resource) = .ret resource := by
  obtain ⟨port, tcp, udp, users⟩ := resource
  unfold Protocol.checkResource
  rw [hres]
  dsimp only
  rw [if_neg (by simp [huser]), if_neg (show port ≠ self.conf.port.port from hport)]
  rfl

theorem checkKnock_ok {self : Protocol} {knock : Message Auth} {key : Key}
    (hop : knock.operation = .knock ∨ knock.operation = .close) (hkey : self.conf.key knock.user = some key)
    (hauth : knock.auth = knock.authenticateNoChallenge key) : self.checkKnock knock = .ret key := by
  unfold Protocol.checkKnock
  rw [hkey]
  dsimp only
  rw [checkAuthOkNoChallenge_eq hop, Prog.ofExcept_ok_bind, if_pos (by simpa using hauth)]
  rfl

omit [DecidableEq Auth] in
theorem recvInitial_trace {self : Protocol} {knock : Message Auth}
    (hop : knock.operation = .knock ∨ knock.operation = .close) :
    self.recvInitial.Trace [recvd knock] (.ret knock) := by
  refine .cons ?_
  dsimp only [Prog.bind]
  rw [if_neg (by tauto)]
  exact .nil _

omit [DecidableEq Auth] in
theorem recvMsg_trace {self : Protocol} {msg : Message Auth} (huser : self.userId = some msg.user)
    (hres : self.resourceId = some msg.resource) : (self.recvMsg msg.operation).Trace [recvd msg] (.ret msg) := by
  refine .cons ?_
  dsimp only [Prog.bind]
  rw [if_neg (not_not.2 rfl), if_neg (by simp [huser]), if_neg (by simp [hres])]
  exact .nil _

theorem challengeResponse_trace {self : Protocol} (d : Authorisation Auth conf)
    (huser : self.userId = some d.knock.user) (hres : self.resourceId = some d.knock.resource) :
    (self.challengeResponse d.knock.user d.knock.resource d.key).Trace [⟨.salt, d.salt⟩, ⟨.challenge, d.nonce⟩,
      ⟨.send d.challenge, .done (.ok ())⟩, recvd d.response] (.ret ()) := by
  refine .cons (.cons (.cons ?_))
  change (self.recvMsg .response >>= _).Trace ([recvd d.response] ++ []) _
  rw [← d.response_operation]
  refine ((recvMsg_trace (huser.trans ?_) (hres.trans ?_)).bind _).append ?_
  · rw [d.response_user]
  · rw [d.response_resource]
  change (Prog.ofExcept (d.response.checkAuthOk d.key d.challenge) >>= _).Trace _ _
  rw [checkAuthOk_eq d.response_operation rfl, Prog.ofExcept_ok_bind]
  have hauth : d.response.auth = d.response.authenticate d.key d.challenge.auth := d.response_auth
  rw [if_pos (decide_eq_true hauth)]
  exact .nil _

/-- letmeinfwd has done what it was asked for. -/
def acknowledged : Except String (Option FirewallMessage) → Bool
  | .ok (some msg) => msg.operation = .ack
  | _ => false

omit [DecidableEq Auth] in
theorem goAway_trace {α : Type} {self : Protocol} (hmay : self.mayGoAway = true) (e : String) (s : Salt) :
    (self.goAway e : Endpoint Auth α).Trace
      [⟨.salt, s⟩, ⟨.send (self.goAwayMsg s), .done (.ok ())⟩] (.err e) := by
  rw [goAway_eq hmay]
  exact .cons (.cons (.nil _))

omit [DecidableEq Auth] in
/-- A request is sent, and the peer is told to go away unless it is acknowledged. -/
theorem request_trace {self : Protocol} (hmay : self.mayGoAway = true) (what : String) (f : String → String)
    (msg : FirewallMessage) (reply : Except String (Option FirewallMessage)) :
    acknowledged reply = true ∧ (self.orGoAway f (FirewallClient.request what msg) : Endpoint Auth Unit).Trace
        [⟨.fwSend msg, .ok ()⟩, ⟨.fwRecv, reply⟩] (.ret ()) ∨
      acknowledged reply = false ∧ ∃ e, ∀ s : Salt, (self.orGoAway f (FirewallClient.request what msg)).Trace
        [⟨.fwSend msg, .ok ()⟩, ⟨.fwRecv, reply⟩, ⟨.salt, s⟩, ⟨.send (self.goAwayMsg s), .done (.ok ())⟩]
        (.err e : Endpoint Auth Unit) := by
  rcases reply with e | _ | ⟨operation, _, _, _, _⟩
  · exact .inr ⟨rfl, _, fun s => .cons (.cons (goAway_trace hmay _ s))⟩
  · exact .inr ⟨rfl, _, fun s => .cons (.cons (goAway_trace hmay _ s))⟩
  cases operation with
  | ack => exact .inl ⟨rfl, .cons (.cons (.nil _))⟩
  | nack => exact .inr ⟨rfl, _, fun s => .cons (.cons (goAway_trace hmay _ s))⟩
  | openPort => exact .inr ⟨rfl, _, fun s => .cons (.cons (goAway_trace hmay _ s))⟩
  | closePort => exact .inr ⟨rfl, _, fun s => .cons (.cons (goAway_trace hmay _ s))⟩

theorem run_trace_authorised (d : Authorisation Auth conf) (peer : IpAddr) {t : List (NetEvent Auth)}
    {q : Endpoint Auth Unit}
    (h : ((Protocol.knockedAt conf peer d.knock .challengeResponseAuth).reconfigure d.knock.operation d.resource >>=
      fun _ => Endpoint.newMessage .comeIn d.knock.user d.knock.resource >>= Endpoint.sendMsg).Trace t q) :
    (Protocol.run conf peer).Trace (d.events ++ t) q := by
  change (Protocol.recvInitial _ >>= _).Trace ([recvd d.knock] ++ ([⟨.salt, d.salt⟩, ⟨.challenge, d.nonce⟩,
    ⟨.send d.challenge, .done (.ok ())⟩, recvd d.response] ++ t)) q
  refine ((recvInitial_trace d.operation_ok).bind _).append ?_
  change (Protocol.checkKnock _ d.knock >>= _).Trace _ _
  rw [checkKnock_ok d.operation_ok d.key_ok d.auth_ok]
  change (Protocol.checkResource _ _ _ >>= _).Trace _ _
  rw [checkResource_ok d.resource_ok d.user_ok d.port_ok]
  change (Protocol.challengeResponse _ _ _ _ >>= _).Trace _ _
  exact ((challengeResponse_trace d rfl rfl).bind _).append h

/-- A session with an authorised peer sends its request and ends with a message that depends on the reply. -/
theorem run_trace (d : Authorisation Auth conf) (peer : IpAddr) {portType : PortType}
    (hport : d.resource.portType = .ok portType) (reply : Except String (Option FirewallMessage)) (s : Salt) :
    ∃ (last : Message Auth) (q : Endpoint Auth Unit), (Protocol.run conf peer).Trace (d.events ++
        [⟨.fwConnect, .ok ()⟩, ⟨.fwSend (d.request peer portType), .ok ()⟩, ⟨.fwRecv, reply⟩,
          ⟨.salt, s⟩, ⟨.send last, .done (.ok ())⟩]) q ∧
      q.status ≠ .running ∧ last.magic = MAGIC ∧ (acknowledged reply = true → last.operation = .comeIn) := by
  let self := Protocol.knockedAt conf peer d.knock .challengeResponseAuth
  obtain ⟨what, f, hreconf⟩ := @reconfigure_eq Auth _ self d.knock.operation d.resource portType rfl hport
  -- every policy reports errors to a peer that has answered the challenge
  have hmay : self.mayGoAway = true := by
    unfold Protocol.mayGoAway
    cases self.conf.controlErrorPolicy <;> rfl
  rcases @request_trace Auth _ _ hmay what f (d.request peer portType) reply with ⟨hack, ht⟩ | ⟨hack, e, ht⟩
  · refine ⟨.new .comeIn d.knock.user d.knock.resource s, .ret (), run_trace_authorised d peer ?_, nofun, rfl,
      fun _ => rfl⟩
    rw [hreconf]
    exact .cons ((ht.bind _).append (.cons (.cons (.nil _))))
  · refine ⟨self.goAwayMsg s, .err e, run_trace_authorised d peer ?_, nofun, rfl, fun h => ?_⟩
    · rw [hreconf]
      exact .cons ((ht s).bind _)
    · rw [hack] at h
      cases h

/-! ## An exchange -/

/-- The user of the client may have the resource that it asks for. -/
structure Entitled (conf : Config) (seq : ClientSeq) (res : Resource) (portType : PortType) : Prop where
  key : conf.key seq.user = some seq.key
  resource : conf.resource seq.resource = some res
  user : res.containsUser seq.user = true
  control : res.num ≠ conf.port.port
  portType : res.portType = .ok portType

namespace Entitled
variable {seq : ClientSeq} {res : Resource} {portType : PortType} {operation : Operation}

/-- The initial message of the client, and a challenge for it. -/
def admission (h : Entitled conf seq res portType) (hop : operation = .knock ∨ operation = .close) (s c : Salt)
    (nonce : Auth) : Admission Auth conf where
  knock := seq.firstMsg operation s
  key := seq.key
  resource := res
  salt := c
  nonce := nonce
  operation_ok := hop
  key_ok := h.key
  auth_ok := rfl
  resource_ok := h.resource
  user_ok := h.user
  port_ok := h.control

/-- With the client's response to it. -/
def authorisation (h : Entitled conf seq res portType) (hop : operation = .knock ∨ operation = .close) (s c : Salt)
    (nonce : Auth) (s' : Salt) : Authorisation Auth conf where
  toAdmission := h.admission hop s c nonce
  response := seq.responseMsg s' nonce
  response_operation := rfl
  response_user := rfl
  response_resource := rfl
  response_auth := rfl

end Entitled

/-- A client and a session that talk about `e`, and where they stand between the messages. The session makes the request
and ends with the message `last`, which depends on the reply. -/
structure Exchange (client server : Endpoint Auth Unit) (e : Authorisation Auth conf) (s s' : Salt)
    (req : FirewallMessage) (reply : Except String (Option FirewallMessage)) (s'' : Salt) where
  last : Message Auth
  (knocked challenged responded requested replied returned : Endpoint Auth Unit)
  knocks : client.Trace [⟨.connect, .ok ()⟩, ⟨.salt, s⟩, ⟨.send e.knock, .done (.ok ())⟩] knocked
  challenges : server.Trace (e.toAdmission.events (.done (.ok ()))) challenged
  responds : knocked.Trace [recvd e.challenge, ⟨.salt, s'⟩, ⟨.send e.response, .done (.ok ())⟩] responded
  requests : challenged.Trace [recvd e.response, ⟨.fwConnect, .ok ()⟩, ⟨.fwSend req, .ok ()⟩] requested
  replies : requested.Trace [⟨.fwRecv, reply⟩, ⟨.salt, s''⟩, ⟨.send last, .done (.ok ())⟩] replied
  returns : responded.Trace [recvd last] returned
  replied_ended : replied.status ≠ .running
  returned_ended : returned.status ≠ .running
  last_magic : last.magic = MAGIC
  comeIn : acknowledged reply = true → last.operation = .comeIn ∧ returned = .ret ()

theorem Entitled.exchange {seq : ClientSeq} {res : Resource} {portType : PortType} {operation : Operation}
    (h : Entitled conf seq res portType) (hop : operation = .knock ∨ operation = .close) (what : String) (peer : IpAddr)
    (s c : Salt) (nonce : Auth) (s' : Salt) (reply : Except String (Option FirewallMessage)) (s'' : Salt) :
    Nonempty (Exchange (seq.sequence operation what) (Protocol.run conf peer) (h.authorisation hop s c nonce s') s s'
      ((h.authorisation hop s c nonce s').request peer portType) reply s'') := by
  obtain ⟨last, q, hq, hqend, hmagic, hack⟩ := run_trace (h.authorisation hop s c nonce s') peer h.portType reply s''
  have hchallenge : (h.admission hop s c nonce).challenge.operation = .challenge := rfl
  obtain ⟨q', hq', hqend', hret⟩ := sequence_trace seq what hop s s' hchallenge last
  -- both traces up to where their end waits for the other one
  obtain ⟨p₁, hp₁, hq'⟩ := hq'.split
  obtain ⟨p₂, hp₂, hp₃⟩ := hq'.split
  rw [Authorisation.events, List.append_assoc] at hq
  obtain ⟨q₁, hq₁, hq⟩ := hq.split
  have hq : q₁.Trace ([recvd (h.authorisation hop s c nonce s').response, ⟨.fwConnect, .ok ()⟩,
      ⟨.fwSend ((h.authorisation hop s c nonce s').request peer portType), .ok ()⟩] ++
    [⟨.fwRecv, reply⟩, ⟨.salt, s''⟩, ⟨.send last, .done (.ok ())⟩]) q := hq
  obtain ⟨q₂, hq₂, hq₃⟩ := hq.split
  exact ⟨⟨last, p₁, q₁, p₂, q₂, q, q', hp₁, hq₁, hp₂, hq₂, hq₃, hp₃, hqend, hqend', hmagic,
    fun hreply => ⟨hack hreply, hret (hack hreply)⟩⟩⟩

end

/-! ## The connection -/

/-- What an end gets from its surroundings, depending on what has happened to it: random numbers, and the replies of
letmeinfwd. -/
structure Surroundings where
  salt : List (NetEvent AuthBytes) → Salt
  challenge : List (NetEvent AuthBytes) → AuthBytes
  fwReply : List (NetEvent AuthBytes) → Except String (Option FirewallMessage)

/-- Everything that is sent is delivered, what is received is decoded, and letmeinfwd can be reached. -/
def Surroundings.react (env : Surroundings) (log : List (NetEvent AuthBytes)) :
    (op : Op AuthBytes) → Reaction (List UInt8) op.Ret
  | .connect => .now (.ok ()) []
  | .recv => .wait fun buf => Message.recv (.done (.ok (some buf)))
  | .send msg => .now (.done (.ok ())) [msg.msgSerialize]
  | .salt => .now (env.salt log) []
  | .challenge => .now (env.challenge log) []
  | .fwConnect => .now (.ok ()) []
  | .fwSend _ => .now (.ok ()) []
  | .fwRecv => .now (env.fwReply log) []

abbrev NetEnd := LinkEnd (@Op.Ret AuthBytes) Panic Unit (List UInt8)

/-- A client and a server session for it, before anything has happened. -/
def connection [HmacSha3] (client : Endpoint AuthBytes Unit) (conf : Config) (peer : IpAddr) : NetEnd × NetEnd :=
  (⟨client, [], []⟩, ⟨Protocol.run conf peer, [], []⟩)

def request? : NetEvent AuthBytes → Option FirewallMessage
  | ⟨.fwSend req, _⟩ => some req
  | _ => none

/-- The server has sent this request and no other, and then read letmeinfwd's reply to it. If that acknowledges the
request, then the client has received a come-in message and has returned. -/
structure Granted (server : Surroundings) (req : FirewallMessage) (ends : NetEnd × NetEnd) : Prop where
  requests : ends.2.log.filterMap request? = [req]
  replied : ∃ asked after, ends.2.log = asked ++ ⟨.fwRecv, server.fwReply asked⟩ :: after ∧
    asked.getLast? = some ⟨.fwSend req, .ok ()⟩ ∧
    (acknowledged (server.fwReply asked) = true → ends.1.prog = .ret () ∧
      ∃ msg : Message AuthBytes, msg.operation = .comeIn ∧ ends.1.log.getLast? = some (recvd msg))

namespace Surroundings
variable {env : Surroundings} {log : List (NetEvent AuthBytes)}

theorem react_salt {s : Salt} (h : s = env.salt log) : env.react log .salt = .now s [] := h ▸ rfl

theorem react_challenge {c : AuthBytes} (h : c = env.challenge log) : env.react log .challenge = .now c [] := h ▸ rfl

theorem react_fwRecv {reply : Except String (Option FirewallMessage)} (h : reply = env.fwReply log) :
    env.react log .fwRecv = .now reply [] := h ▸ rfl

end Surroundings

/-- If letmeinfwd acknowledges whatever it is asked, then the client gets through. -/
theorem Granted.returned {server : Surroundings} {req : FirewallMessage} {ends : NetEnd × NetEnd}
    (h : Granted server req ends) (hack : ∀ log, acknowledged (server.fwReply log) = true) : ends.1.prog = .ret () := by
  obtain ⟨asked, after, -, -, hcomeIn⟩ := h.replied
  exact (hcomeIn (hack asked)).1

section
variable [HmacSha3] {conf : Config} {operation : Operation}

/-- The salt of the client's response to the challenge. -/
def Admission.responseSalt (d : Admission AuthBytes conf) (client : Surroundings) (s : Salt) : Salt :=
  client.salt [⟨.connect, .ok ()⟩, ⟨.salt, s⟩, ⟨.send d.knock, .done (.ok ())⟩, recvd d.challenge]

/-- What has happened to the session when it waits for letmeinfwd. -/
def Authorisation.asked (e : Authorisation AuthBytes conf) (req : FirewallMessage) : List (NetEvent AuthBytes) :=
  e.events ++ [⟨.fwConnect, .ok ()⟩, ⟨.fwSend req, .ok ()⟩]

/-- The run in which each end goes on until it waits for the other one. -/
theorem Exchange.settles {client : Endpoint AuthBytes Unit} {peer : IpAddr} {e : Authorisation AuthBytes conf}
    {req : FirewallMessage} {s s' s'' : Salt} {atClient atServer : Surroundings}
    (x : Exchange client (Protocol.run conf peer) e s s' req (atServer.fwReply (e.asked req)) s'')
    (hknock : e.knock.magic = MAGIC) (hresponse : e.response.magic = MAGIC)
    (hs : s = atClient.salt [⟨.connect, .ok ()⟩]) (hsalt : e.salt = atServer.salt [recvd e.knock])
    (hnonce : e.nonce = atServer.challenge [recvd e.knock, ⟨.salt, e.salt⟩])
    (hs' : s' = e.toAdmission.responseSalt atClient s)
    (hs'' : s'' = atServer.salt (e.asked req ++ [⟨.fwRecv, atServer.fwReply (e.asked req)⟩])) :
    Settles (LinkStep atClient.react atServer.react) (Granted atServer req) (connection client conf peer) := by
  have h₁ : Sees atClient.react [] [] [⟨.connect, .ok ()⟩, ⟨.salt, s⟩, ⟨.send e.knock, .done (.ok ())⟩] []
      [e.knock.msgSerialize] :=
    .now rfl (.now (Surroundings.react_salt hs) (.now rfl .nil rfl) rfl) rfl
  have h₂ : Sees atServer.react [] [e.knock.msgSerialize] (e.toAdmission.events (.done (.ok ()))) []
      [e.challenge.msgSerialize] :=
    .wait rfl (Message.recv_msgSerialize hknock) (.now (Surroundings.react_salt hsalt)
      (.now (Surroundings.react_challenge hnonce) (.now rfl .nil rfl) rfl) rfl)
  have h₃ : Sees atClient.react [⟨.connect, .ok ()⟩, ⟨.salt, s⟩, ⟨.send e.knock, .done (.ok ())⟩]
      [e.challenge.msgSerialize] [recvd e.challenge, ⟨.salt, s'⟩, ⟨.send e.response, .done (.ok ())⟩] []
      [e.response.msgSerialize] :=
    .wait rfl (Message.recv_msgSerialize rfl) (.now (Surroundings.react_salt hs') (.now rfl .nil rfl) rfl)
  have h₄ : Sees atServer.react (e.toAdmission.events (.done (.ok ()))) [e.response.msgSerialize]
      [recvd e.response, ⟨.fwConnect, .ok ()⟩, ⟨.fwSend req, .ok ()⟩] [] [] :=
    .wait rfl (Message.recv_msgSerialize hresponse) (.now rfl (.now rfl .nil rfl) rfl)
  have h₅ : Sees atServer.react (e.asked req) [] [⟨.fwRecv, atServer.fwReply (e.asked req)⟩, ⟨.salt, s''⟩,
      ⟨.send x.last, .done (.ok ())⟩] [] [x.last.msgSerialize] :=
    .now (Surroundings.react_fwRecv rfl) (.now (Surroundings.react_salt hs'') (.now rfl .nil rfl) rfl) rfl
  have h₆ : ∀ log, Sees atClient.react log [x.last.msgSerialize] [recvd x.last] [] [] :=
    fun log => .wait rfl (Message.recv_msgSerialize x.last_magic) .nil
  have r₁ : Relation.ReflTransGen (LinkStep atClient.react atServer.react) _
    (_, ⟨Protocol.run conf peer, [], [e.knock.msgSerialize]⟩) :=
    h₁.run_left x.knocks ⟨Protocol.run conf peer, [], []⟩
  have r₂ := r₁.trans (h₂.run_right x.challenges _)
  have r₃ := r₂.trans (h₃.run_left x.responds _)
  have r₄ := r₃.trans (h₄.run_right x.requests _)
  have r₅ := r₄.trans (h₅.run_right x.replies _)
  have r₆ := r₅.trans ((h₆ _).run_left x.returns _)
  refine .of_run LinkStep.diamond r₆ (LinkStep.not_of_ended x.returned_ended x.replied_ended) ⟨rfl, ?_⟩
  refine ⟨e.asked req, [⟨.salt, s''⟩, ⟨.send x.last, .done (.ok ())⟩], ?_, ?_, fun hack => ?_⟩
  · simp [Authorisation.asked, Authorisation.events, LinkEnd.deliver]
  · simp [Authorisation.asked]
  · exact ⟨(x.comeIn hack).2, x.last, (x.comeIn hack).1, by simp⟩

/-- The initial message and its challenge, with what both ends draw. -/
def Entitled.admissionIn {seq : ClientSeq} {res : Resource} {portType : PortType} (h : Entitled conf seq res portType)
    (hop : operation = .knock ∨ operation = .close) (client server : Surroundings) : Admission AuthBytes conf :=
  let s := client.salt [⟨.connect, .ok ()⟩]
  let c := server.salt [recvd (seq.firstMsg operation s)]
  h.admission hop s c (server.challenge [recvd (seq.firstMsg operation s), ⟨.salt, c⟩])

theorem connection_settles {seq : ClientSeq} {res : Resource} {portType : PortType}
    (h : Entitled conf seq res portType) (hop : operation = .knock ∨ operation = .close) (what : String) (peer : IpAddr)
    (client server : Surroundings) :
    Settles (LinkStep client.react server.react)
      (Granted server (if operation = .close then .newClose peer portType res.num else .newOpen peer portType res.num))
      (connection (seq.sequence operation what) conf peer) :=
  (h.exchange hop what peer _ (h.admissionIn hop client server).salt (h.admissionIn hop client server).nonce
    ((h.admissionIn hop client server).responseSalt client _) _ _).elim fun x => x.settles rfl rfl rfl rfl rfl rfl rfl

end

/-- The server's configuration has the user's key and the resource for the port, which the user may have and
which is not the control port, and the client's configuration has the same key and the same resource for the port.
Then every run of the client's sequence with a session of the server comes to an end, with exactly one request for the
peer, the flags of the resource and the port, to which the session then reads letmeinfwd's reply. If that acknowledges
the request, then the client receives a come-in message and returns. Loaded configurations have protocols
(`loadIni_hasProtocols`). -/
theorem honest_runs_succeed [HmacSha3] {server client : Config} (hserver : server.HasProtocols)
    (hclient : client.HasProtocols)
    {user : Option UserId} {userId : UserId} (hdefault : user.getD client.defaultUser = userId) {key : Key}
    {resourceId : ResourceId} {port : UInt16} {tcp udp : Bool} {users : List UserId}
    (hkey : server.key userId = some key) (hres : server.resource resourceId = some (.port port tcp udp users))
    (huser : (Resource.port port tcp udp users).containsUser userId = true) (hport : port ≠ server.port.port)
    {it : IterOrder ResourceId} (hkey' : client.key userId = some key)
    (hres' : client.resourceIdByPort it port (some userId) = some resourceId)
    {lookup : Text → ResMode → Except String (List IpAddr)} {mode : ResMode} {command : CommandServer} {addr : IpAddr}
    (haddr : resolve lookup command.addr mode = .ok addr) (peer : IpAddr) (atClient atServer : Surroundings) :
    ∃ seq portType, command.seq client it port user = .ok seq ∧ PortType.ofFlags tcp udp = .ok portType ∧
      Settles (LinkStep atClient.react atServer.react) (Granted atServer (.newOpen peer portType port))
        (connection (seq.knockSequence lookup mode) server peer) ∧
      Settles (LinkStep atClient.react atServer.react) (Granted atServer (.newClose peer portType port))
        (connection (seq.closeSequence lookup mode) server peer) := by
  obtain ⟨portType, hflags⟩ := hserver.portType hres
  let seq : CommandSeq :=
    ⟨⟨userId, resourceId, key⟩, command.addr, command.toControlPort client, client.controlTimeout⟩
  have hseq : command.seq client it port user = .ok seq := by
    unfold CommandServer.seq
    dsimp only
    rw [hdefault, hkey']
    dsimp only
    rw [hres']
  have hinit : ∀ p : Endpoint AuthBytes Unit,
      ((seq.initClient (resolve lookup seq.addr mode)).context "Client init" >>= fun _ => p) = p := by
    intro p
    rw [haddr, initClient_ok (toControlPort_protocol hclient command)]
    rfl
  have hentitled : Entitled server seq.toClientSeq (.port port tcp udp users) portType :=
    ⟨hkey, hres, huser, hport, hflags⟩
  refine ⟨seq, portType, hseq, hflags, ?_, ?_⟩
  · rw [CommandSeq.knockSequence, hinit]
    exact connection_settles hentitled (.inl rfl) "knock" peer atClient atServer
  · rw [CommandSeq.closeSequence, hinit]
    exact connection_settles hentitled (.inr rfl) "close" peer atClient atServer

/-- HMAC-SHA3-256 of the initial messages and of the response below. -/
@[reducible] def sampleMac : HmacSha3 where
  mac _ input :=
    match (input.getD 3 0).toNat with
    | 0 => ⟨[177, 101, 236, 196, 230, 101, 57, 167, 134, 249, 102, 33, 61, 178, 24, 57, 134, 39, 84, 124, 77, 51,
        61, 133, 154, 116, 32, 164, 129, 61, 35, 135], rfl⟩
    | 2 => ⟨[117, 243, 254, 91, 234, 4, 158, 141, 144, 83, 168, 208, 81, 219, 161, 214, 40, 233, 203, 47, 214, 95,
        225, 101, 215, 1, 124, 62, 103, 192, 215, 81], rfl⟩
    | _ => ⟨[17, 241, 23, 60, 6, 170, 20, 228, 170, 209, 182, 69, 66, 5, 82, 54, 220, 65, 13, 60, 122, 65, 30, 93,
        118, 104, 142, 40, 39, 1, 113, 10], rfl⟩

def sampleSurroundings : Surroundings where
  salt _ := sampleSalt
  challenge _ := .replicate 32 5
  fwReply _ := .ok (some .newAck)

theorem sampleServer_hasProtocols : sampleServer.HasProtocols := by
  refine ⟨rfl, fun id port tcp udp users h => ?_⟩
  by_cases hid : id = ⟨2⟩
  · subst hid
    cases h
    rfl
  · rw [Config.resource, sampleServer, Finmap.lookup_insert_of_ne _ hid] at h
    cases h

/-- User 1 opens and closes port 22 of a server with its own configuration, and letmeinfwd acknowledges it. -/
theorem honest_runs_succeed_sample : ∃ seq portType,
    CommandServer.seq ⟨"192.0.2.1".toList, .tryBoth, none, false, false⟩ sampleServer (.ofKeys [⟨2⟩] (by decide)) 22
      (some ⟨1⟩) = .ok seq ∧ PortType.ofFlags true false = .ok portType ∧
    Settles (LinkStep sampleSurroundings.react sampleSurroundings.react)
      (fun ends => Granted sampleSurroundings (.newOpen (.v4 ⟨192, 0, 2, 7⟩) portType 22) ends ∧ ends.1.prog = .ret ())
      (@connection sampleMac (@CommandSeq.knockSequence _ (@authTokenBytes sampleMac) seq (fun _ _ => .error "") .ipv4)
        sampleServer (.v4 ⟨192, 0, 2, 7⟩)) ∧
    Settles (LinkStep sampleSurroundings.react sampleSurroundings.react)
      (fun ends => Granted sampleSurroundings (.newClose (.v4 ⟨192, 0, 2, 7⟩) portType 22) ends ∧ ends.1.prog = .ret ())
      (@connection sampleMac (@CommandSeq.closeSequence _ (@authTokenBytes sampleMac) seq (fun _ _ => .error "") .ipv4)
        sampleServer (.v4 ⟨192, 0, 2, 7⟩)) := by
  have haddr : resolve (fun _ _ => .error "") "192.0.2.1".toList .ipv4 = .ok (.v4 ⟨192, 0, 2, 1⟩) := by
    rw [resolve, show IpAddr.fromStr "192.0.2.1".toList = some (.v4 ⟨192, 0, 2, 1⟩) by decide +kernel]
  obtain ⟨seq, portType, hseq, hflags, hopen, hclose⟩ := @honest_runs_succeed sampleMac _ _ sampleServer_hasProtocols
    sampleServer_hasProtocols (some ⟨1⟩) ⟨1⟩ rfl sampleKey ⟨2⟩ 22 true false [⟨1⟩] rfl rfl rfl (by decide)
    (.ofKeys [⟨2⟩] (by decide)) rfl rfl (fun _ _ => .error "") .ipv4
    ⟨"192.0.2.1".toList, .tryBoth, none, false, false⟩ _ haddr (.v4 ⟨192, 0, 2, 7⟩) sampleSurroundings sampleSurroundings
  have hack : ∀ log, acknowledged (sampleSurroundings.fwReply log) = true := fun _ => rfl
  exact ⟨seq, portType, hseq, hflags, hopen.mono fun _ h => ⟨h, h.returned hack⟩,
    hclose.mono fun _ h => ⟨h, h.returned hack⟩⟩

end Letmein
