import Letmein.Lib.List
import Letmein.ProtocolTrace

/-!
# Sessions are authorised

A session makes at most one request to letmeinfwd, after an authorisation, and it lets the peer in
exactly when letmeinfwd has acknowledged the request.
-/

namespace Letmein

variable {Auth : Type}

def IsRequest (e : NetEvent Auth) : Prop := ∃ req r, e = ⟨.fwSend req, r⟩

def IsAck (e : NetEvent Auth) : Prop := ∃ reply, e = ⟨.fwRecv, .ok (some reply)⟩ ∧ reply.operation = .ack

def IsComeIn (e : NetEvent Auth) : Prop := ∃ msg r, e = ⟨.send msg, r⟩ ∧ msg.operation = .comeIn

/-- Neither a request nor its acknowledgement nor a come-in message. -/
def Plain : NetEvent Auth → Prop
  | ⟨.fwSend _, _⟩ => False
  | ⟨.fwRecv, reply⟩ => ∀ msg, reply = .ok (some msg) → msg.operation ≠ .ack
  | ⟨.send msg, _⟩ => msg.operation ≠ .comeIn
  | _ => True

@[simp] theorem plain_recv (a : Timed (Option (Message Auth))) : Plain ⟨.recv, a⟩ := trivial

@[simp] theorem plain_salt (s : Salt) : Plain (⟨.salt, s⟩ : NetEvent Auth) := trivial

@[simp] theorem plain_challenge (c : Auth) : Plain ⟨.challenge, c⟩ := trivial

@[simp] theorem plain_fwConnect (r : Except String Unit) : Plain (⟨.fwConnect, r⟩ : NetEvent Auth) := trivial

@[simp] theorem plain_send (msg : Message Auth) (r : Timed Unit) : Plain ⟨.send msg, r⟩ ↔ msg.operation ≠ .comeIn :=
  .rfl

@[simp] theorem plain_fwSend (req : FirewallMessage) (r : Except String Unit) :
    ¬ Plain (⟨.fwSend req, r⟩ : NetEvent Auth) := fun h => h

@[simp] theorem plain_fwRecv (reply : Except String (Option FirewallMessage)) :
    Plain (⟨.fwRecv, reply⟩ : NetEvent Auth) ↔ ∀ msg, reply = .ok (some msg) → msg.operation ≠ .ack :=
  .rfl

theorem Plain.not_request {e : NetEvent Auth} (h : Plain e) : ¬ IsRequest e := by
  rintro ⟨req, r, rfl⟩
  exact h

theorem Plain.not_ack {e : NetEvent Auth} (h : Plain e) : ¬ IsAck e := by
  rintro ⟨reply, rfl, hop⟩
  exact h reply rfl hop

theorem Plain.not_comeIn {e : NetEvent Auth} (h : Plain e) : ¬ IsComeIn e := by
  rintro ⟨msg, r, rfl, hop⟩
  exact h hop

variable [AuthToken Auth] {conf : Config} {peer : IpAddr} {st : Prog.Status} {t t₁ t₂ : List (NetEvent Auth)}

theorem GoingAway.plain (h : GoingAway st t) : ∀ e ∈ t, Plain e := by
  cases h <;> simp [Message.new]

theorem Admission.plain (d : Admission Auth conf) (r : Timed Unit) : ∀ e ∈ d.events r, Plain e := by
  simp [Admission.events, Admission.challenge, challengeMsg, Message.new]

theorem Authorisation.plain (d : Authorisation Auth conf) : ∀ e ∈ d.events, Plain e := by
  simpa [Authorisation.events, or_imp, forall_and] using d.toAdmission.plain (.done (.ok ()))

theorem SessionTrace.request_cases (h : SessionTrace conf peer st t) : (∀ e ∈ t, Plain e) ∨
    ∃ (d : Authorisation Auth conf) (portType : PortType) (r : Except String Unit) (t' : List (NetEvent Auth)),
      d.resource.portType = .ok portType ∧
      t = (d.events ++ [⟨.fwConnect, .ok ()⟩]) ++ ⟨.fwSend (d.request peer portType), r⟩ :: t' ∧
      ((∀ e ∈ t', Plain e) ∨ ∃ reply t'', r = .ok () ∧ t' = ⟨.fwRecv, .ok (some reply)⟩ :: t'' ∧
        reply.operation = .ack ∧ ComingIn d.knock.user d.knock.resource st t'') := by
  cases h with
  | start => simp
  | rejected a ht =>
    left
    simpa using ht.plain
  | salted d => simp
  | drawn d => simp
  | challenged d r => exact .inl (d.plain r)
  | unanswered d a ht =>
    left
    simpa [or_imp, forall_and] using And.intro (d.plain (.done (.ok ()))) ht.plain
  | noPort d => exact .inl d.plain
  | connected d r ht =>
    left
    simpa [or_imp, forall_and] using And.intro d.plain ht.plain
  | requested d hport r ht => exact .inr ⟨d, _, r, _, hport, by simp, .inl ht.plain⟩
  | @refused _ t d _ hport reply hreply ht =>
    refine .inr ⟨d, _, .ok (), ⟨.fwRecv, reply⟩ :: t, hport, by simp, .inl ?_⟩
    simpa using And.intro hreply ht.plain
  | @acknowledged _ t d _ hport reply hreply ht =>
    exact .inr ⟨d, _, .ok (), ⟨.fwRecv, .ok (some reply)⟩ :: t, hport, by simp, .inr ⟨reply, t, rfl, rfl, hreply, ht⟩⟩

theorem SessionTrace.request {req : FirewallMessage} {r : Except String Unit}
    (h : SessionTrace conf peer st (t₁ ++ ⟨.fwSend req, r⟩ :: t₂)) :
    ∃ (d : Authorisation Auth conf) (portType : PortType), d.resource.portType = .ok portType ∧
      req = d.request peer portType ∧ t₁ = d.events ++ [⟨.fwConnect, .ok ()⟩] ∧ ∀ e ∈ t₂, ¬ IsRequest e := by
  rcases h.request_cases with hno | ⟨d, portType, r', t', hport, ht, htail⟩
  · exact absurd ⟨req, r, rfl⟩ (hno _ (List.mem_append_right t₁ List.mem_cons_self)).not_request
  · have hbefore : ∀ e ∈ d.events ++ [⟨.fwConnect, .ok ()⟩], Plain e := by
      simpa [or_imp, forall_and] using d.plain
    have hafter : ∀ e ∈ t', ¬ IsRequest e := by
      rcases htail with hno | ⟨reply, t'', -, rfl, -, hin⟩
      · exact fun e he => (hno e he).not_request
      · cases hin <;> simp [IsRequest]
    obtain ⟨rfl, he, rfl⟩ :=
      List.append_cons_eq_of_only (fun e he => (hbefore e he).not_request) hafter ⟨req, r, rfl⟩ ht
    cases he
    exact ⟨d, portType, hport, rfl, rfl, hafter⟩

theorem SessionTrace.comeIn {e : NetEvent Auth} (he : IsComeIn e) (h : SessionTrace conf peer st (t₁ ++ e :: t₂)) :
    ∃ (d : Authorisation Auth conf) (portType : PortType) (reply : FirewallMessage) (s : Salt),
      d.resource.portType = .ok portType ∧ reply.operation = .ack ∧
      t₁ = d.events ++ [⟨.fwConnect, .ok ()⟩, ⟨.fwSend (d.request peer portType), .ok ()⟩,
        ⟨.fwRecv, .ok (some reply)⟩, ⟨.salt, s⟩] ∧ t₂ = [] := by
  have hmem : e ∈ t₁ ++ e :: t₂ := List.mem_append_right t₁ List.mem_cons_self
  rcases h.request_cases with hno | ⟨d, portType, r', t', hport, ht, hno | ⟨reply, t'', rfl, rfl, hreply, hin⟩⟩
  · exact absurd he (hno _ hmem).not_comeIn
  · have hall : ∀ x ∈ t₁ ++ e :: t₂, ¬ IsComeIn x := by
      rw [ht]
      simpa [or_imp, forall_and, IsComeIn] using
        And.intro (fun x hx => (d.plain x hx).not_comeIn) fun x hx => (hno x hx).not_comeIn
    exact absurd he (hall e hmem)
  · have hbefore : ∀ l : List (NetEvent Auth), (∀ x ∈ l, ¬ IsComeIn x) →
        ∀ x ∈ d.events ++ [⟨.fwConnect, .ok ()⟩, ⟨.fwSend (d.request peer portType), .ok ()⟩,
          ⟨.fwRecv, .ok (some reply)⟩] ++ l, ¬ IsComeIn x := fun l hl => by
      simpa [or_imp, forall_and, IsComeIn] using And.intro (fun x hx => (d.plain x hx).not_comeIn) hl
    rw [List.append_assoc] at ht
    rcases hin with _ | s | ⟨s, r, hst⟩
    · exact absurd he (hbefore [] (by simp) e (by rw [ht] at hmem; simpa using hmem))
    · exact absurd he (hbefore [⟨.salt, s⟩] (by simp [IsComeIn]) e (by rw [ht] at hmem; simpa using hmem))
    · have ht' : t₁ ++ e :: t₂ = (d.events ++ [⟨.fwConnect, .ok ()⟩, ⟨.fwSend (d.request peer portType), .ok ()⟩,
          ⟨.fwRecv, .ok (some reply)⟩] ++ [⟨.salt, s⟩]) ++
          [⟨.send (.new .comeIn d.knock.user d.knock.resource s), r⟩] := by rw [ht]; simp
      obtain ⟨rfl, -, rfl⟩ := List.append_cons_eq_of_only (hbefore [⟨.salt, s⟩] (by simp [IsComeIn])) (by simp) he ht'
      exact ⟨d, portType, reply, s, hport, hreply, by simp, rfl⟩

theorem SessionTrace.comeIn_of_ack {e : NetEvent Auth} (he : IsAck e) (hmem : e ∈ t)
    (h : SessionTrace conf peer st t) (hst : st ≠ .running) : ∃ e ∈ t, IsComeIn e := by
  rcases h.request_cases with hno | ⟨d, portType, r', t', hport, rfl, hno | ⟨reply, t'', rfl, rfl, hreply, hin⟩⟩
  · exact absurd he (hno _ hmem).not_ack
  · have hall : ∀ x ∈ (d.events ++ [⟨.fwConnect, .ok ()⟩]) ++ ⟨.fwSend (d.request peer portType), r'⟩ :: t', ¬ IsAck x := by
      simpa [or_imp, forall_and, IsAck] using
        And.intro (fun x hx => (d.plain x hx).not_ack) fun x hx => (hno x hx).not_ack
    exact absurd he (hall e hmem)
  · rcases hin with _ | s | ⟨s, r, -⟩
    · exact absurd rfl hst
    · exact absurd rfl hst
    · exact ⟨⟨.send (.new .comeIn d.knock.user d.knock.resource s), r⟩, by simp, _, _, rfl, rfl⟩

variable [DecidableEq Auth]

/-- Whatever a session receives and whatever fails: it makes at most one request, and only after the
initial message passed all checks and the response to its challenge is valid; the request is for the
peer's address and the resource's port and protocols. A come-in message is sent exactly when
letmeinfwd has acknowledged the request, and then nothing follows. -/
theorem session_authorised (conf : Config) (peer : IpAddr) {t : List (NetEvent Auth)} {q : Endpoint Auth Unit}
    (h : (Protocol.run conf peer : Endpoint Auth Unit).Trace t q) :
    (∀ t₁ req r t₂, t = t₁ ++ ⟨.fwSend req, r⟩ :: t₂ → (∀ e ∈ t₁, ¬ IsRequest e) ∧ (∀ e ∈ t₂, ¬ IsRequest e) ∧
      ∃ (knock response : Message Auth) (key : Key) (port : UInt16) (tcp udp : Bool) (users : List UserId)
        (portType : PortType) (s : Salt) (c : Auth),
        (knock.operation = .knock ∧ req = .newOpen peer portType port ∨
          knock.operation = .close ∧ req = .newClose peer portType port) ∧
        conf.key knock.user = some key ∧ knock.auth = knock.authenticateNoChallenge key ∧
        conf.resource knock.resource = some (.port port tcp udp users) ∧
        (Resource.port port tcp udp users).containsUser knock.user = true ∧ port ≠ conf.port.port ∧
        PortType.ofFlags tcp udp = .ok portType ∧ req.addr? = some peer ∧ req.port? = some (portType, port) ∧
        response.operation = .response ∧ response.user = knock.user ∧ response.resource = knock.resource ∧
        response.auth = response.authenticate key c ∧
        t₁ = [recvd knock, ⟨.salt, s⟩, ⟨.challenge, c⟩,
          ⟨.send (challengeMsg knock.user knock.resource s c), .done (.ok ())⟩, recvd response,
          ⟨.fwConnect, .ok ()⟩]) ∧
    (∀ t₁ e t₂, t = t₁ ++ e :: t₂ → IsComeIn e → t₂ = [] ∧ ∃ t₀ req reply s, reply.operation = .ack ∧
      t₁ = t₀ ++ [⟨.fwSend req, .ok ()⟩, ⟨.fwRecv, .ok (some reply)⟩, ⟨.salt, s⟩]) ∧
    (q.status ≠ .running → (∃ e ∈ t, IsAck e) → ∃ e ∈ t, IsComeIn e) := by
  have htrace := (run_spec conf peer).trace h
  refine ⟨?_, ?_, ?_⟩
  · rintro t₁ req r t₂ rfl
    obtain ⟨d, portType, hport, rfl, rfl, hafter⟩ := htrace.request
    have hbefore : ∀ e ∈ d.events ++ [⟨.fwConnect, .ok ()⟩], ¬ IsRequest e := by
      simp [Authorisation.events, Admission.events, IsRequest]
    have hreq := d.request_cases peer portType
    have haddr := d.addr_request peer portType
    have hres := d.resource_ok
    have huser := d.user_ok
    have hctl := d.port_ok
    rcases hd : d.resource with ⟨port, tcp, udp, users⟩
    rw [hd] at hreq haddr hres huser hctl hport
    exact ⟨hbefore, hafter, d.knock, d.response, d.key, port, tcp, udp, users, portType, d.salt, d.nonce, hreq,
      d.key_ok, d.auth_ok, hres, huser, hctl, hport, haddr.1, haddr.2, d.response_operation, d.response_user,
      d.response_resource, d.response_auth, rfl⟩
  · rintro t₁ e t₂ rfl he
    obtain ⟨d, portType, reply, s, -, hreply, rfl, rfl⟩ := htrace.comeIn he
    exact ⟨rfl, d.events ++ [⟨.fwConnect, .ok ()⟩], d.request peer portType, reply, s, hreply, by simp⟩
  · rintro hst ⟨e, hmem, he⟩
    exact htrace.comeIn_of_ack he hmem hst

/-! ### A session -/

def sampleKey : Key := .replicate 32 7

def sampleSalt : Salt := .replicate 8 1

def sampleServer : Config where
  keys := Finmap.insert ⟨1⟩ sampleKey ∅
  resources := Finmap.insert ⟨2⟩ (.port 22 true false [⟨1⟩]) ∅

/-- A message of that user for that resource, with a token for the challenge. -/
def sampleMsg (operation : Operation) (challenge : SymAuth) : Message SymAuth :=
  let msg : Message SymAuth := .new operation ⟨1⟩ ⟨2⟩ sampleSalt
  { msg with auth := msg.authenticate sampleKey challenge }

def sampleTrace (peer : IpAddr) : List (NetEvent SymAuth) :=
  [recvd (sampleMsg .knock zeroAuth), ⟨.salt, sampleSalt⟩, ⟨.challenge, .raw [5]⟩,
    ⟨.send (challengeMsg ⟨1⟩ ⟨2⟩ sampleSalt (.raw [5])), .done (.ok ())⟩,
    recvd (sampleMsg .response (.raw [5])), ⟨.fwConnect, .ok ()⟩,
    ⟨.fwSend (.newOpen peer .tcp 22), .ok ()⟩, ⟨.fwRecv, .ok (some .newAck)⟩, ⟨.salt, sampleSalt⟩,
    ⟨.send (.new .comeIn ⟨1⟩ ⟨2⟩ sampleSalt), .done (.ok ())⟩]

theorem session_authorised_sample : ∃ q : Endpoint SymAuth Unit,
    (Protocol.run sampleServer (.v4 ⟨192, 0, 2, 7⟩)).Trace (sampleTrace (.v4 ⟨192, 0, 2, 7⟩)) q ∧
    q.status = .returned ∧ ∃ e ∈ sampleTrace (.v4 ⟨192, 0, 2, 7⟩), IsComeIn e := by
  have h : (Protocol.run sampleServer (.v4 ⟨192, 0, 2, 7⟩)).Trace (sampleTrace (.v4 ⟨192, 0, 2, 7⟩)) (.ret ()) :=
    .cons (.cons (.cons (.cons (.cons (.cons (.cons (.cons (.cons (.cons (.nil _))))))))))
  refine ⟨_, h, rfl, (session_authorised sampleServer _ h).2.2 (by decide) ?_⟩
  exact ⟨⟨.fwRecv, .ok (some .newAck)⟩, by simp [sampleTrace], .newAck, rfl, rfl⟩

end Letmein
