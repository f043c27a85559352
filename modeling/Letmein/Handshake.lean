import Letmein.Client
import Letmein.ProtocolAuth

/-!
# Handshakes over an attacker's network

Any number of server sessions and client runs take turns, and the attacker delivers the messages: any
message whose token was sent before, or that can be made without a key that is not held
(`Network`). Challenges are fresh. The log of all events is kept latest first.
-/

namespace Letmein

inductive Party where
  | server (i : Nat)
  | client (j : Nat)
deriving DecidableEq, Repr

inductive ClientKind where
  | knock
  | close
deriving DecidableEq, Repr

def ClientKind.operation : ClientKind → Operation
  | .knock => .knock
  | .close => .close

/-- The sessions of a server, the client runs, and the keys that the attacker holds. -/
structure Handshake where
  conf : Config
  peer : Nat → IpAddr
  kind : Nat → ClientKind
  seq : Nat → ClientSeq
  held : Key → Prop

variable {Auth : Type} [AuthToken Auth]

def Handshake.client (kind : ClientKind) (seq : ClientSeq) : Endpoint Auth Unit :=
  match kind with
  | .knock => seq.knockSequence
  | .close => seq.closeSequence

def Handshake.init [DecidableEq Auth] (hs : Handshake) : Party → Endpoint Auth Unit
  | .server i => Protocol.run hs.conf (hs.peer i)
  | .client j => Handshake.client (hs.kind j) (hs.seq j)

abbrev NetLog (Auth : Type) := List (Party × NetEvent Auth)

section
omit [AuthToken Auth]

def Sent (log : NetLog Auth) (a : Auth) : Prop := ∃ p msg r, (p, ⟨.send msg, r⟩) ∈ log ∧ msg.auth = a

def Received (log : NetLog Auth) (a : Auth) : Prop := ∃ p msg, (p, recvd msg) ∈ log ∧ msg.auth = a

def Drawn (log : NetLog Auth) (a : Auth) : Prop := ∃ p, (p, ⟨.challenge, a⟩) ∈ log

end

/-- The attacker has seen the token, or can make it: it needs no key that is not held, and it is not a
challenge that has not been sent. -/
def Known (held : Key → Prop) (log : NetLog Auth) (a : Auth) : Prop :=
  Sent log a ∨ (∀ k x, a = hmac k x → held k) ∧ ¬ Drawn log a

/-- The token is different from all that occurred, and random. -/
structure Fresh (log : NetLog Auth) (a : Auth) : Prop where
  sent : ¬ Sent log a
  received : ¬ Received log a
  drawn : ¬ Drawn log a
  ne_zeroAuth : a ≠ zeroAuth
  ne_hmac : ∀ k x, a ≠ hmac k x

def Network (held : Key → Prop) (log : NetLog Auth) : (op : Op Auth) → Op.Ret op → Prop
  | .recv, .done (.ok (some msg)) => Known held log msg.auth
  | .challenge, a => Fresh log a
  | _, _ => True

section
variable [DecidableEq Auth]

def Handshake.Log (hs : Handshake) (log : NetLog Auth) : Prop :=
  ∃ cur, Runs hs.init (Network hs.held) log cur

end

/-- The session has received an initial message of the user for the resource and made the request. -/
def Requests (log : NetLog Auth) (i : Nat) (user : UserId) (resource : ResourceId) (req : FirewallMessage) : Prop :=
  ∃ knock t a, proj (.server i) log = recvd knock :: t ∧ ⟨.fwSend req, a⟩ ∈ t ∧
    knock.user = user ∧ knock.resource = resource

/-- The client run has sent a response to the challenge of the session, after the session sent it. -/
def Handshake.Answers (hs : Handshake) (log : NetLog Auth) (j i : Nat) (c : Auth) : Prop :=
  ∃ chal s r r', chal.operation = .challenge ∧ chal.auth = c ∧
    List.Sublist [(.client j, ⟨.send ((hs.seq j).responseMsg s c), r'⟩), (.server i, ⟨.send chal, r⟩),
      (.server i, ⟨.challenge, c⟩)] log

/-- The client run has answered the challenge of the session, which has then received the response as it was sent. The
magic number is not authenticated. -/
def Handshake.Answered (hs : Handshake) (log : NetLog Auth) (j i : Nat) (c : Auth) : Prop :=
  ∃ chal response s r r', chal.operation = .challenge ∧ chal.auth = c ∧
    { response with magic := MAGIC } = (hs.seq j).responseMsg s c ∧
    List.Sublist [(.server i, recvd response), (.client j, ⟨.send ((hs.seq j).responseMsg s c), r'⟩),
      (.server i, ⟨.send chal, r⟩), (.server i, ⟨.challenge, c⟩)] log

/-- The client run has sent the token of the initial message that the session then received. -/
def Handshake.Initiates (hs : Handshake) (log : NetLog Auth) (j i : Nat) : Prop :=
  ∃ knock t s r, proj (.server i) log = recvd knock :: t ∧
    ((hs.seq j).firstMsg (hs.kind j).operation s).auth = knock.auth ∧
    List.Sublist [(.server i, recvd knock),
      (.client j, ⟨.send ((hs.seq j).firstMsg (hs.kind j).operation s), r⟩)] log

/-! ### What the parties send -/

variable {st : Prog.Status} {t : List (NetEvent Auth)} {msg : Message Auth} {r : Timed Unit}

theorem GoingAway.auth_of_send (h : GoingAway st t) (hmem : ⟨.send msg, r⟩ ∈ t) : msg.auth = zeroAuth := by
  rcases h with _ | _ | s | ⟨s, user, resource, r⟩ <;> simp at hmem
  rw [hmem.1]; rfl

theorem ComingIn.auth_of_send {user : UserId} {resource : ResourceId} (h : ComingIn user resource st t)
    (hmem : ⟨.send msg, r⟩ ∈ t) : msg.auth = zeroAuth := by
  rcases h with _ | s | ⟨s, r, hst⟩ <;> simp at hmem
  rw [hmem.1]; rfl

theorem Admission.eq_of_send {conf : Config} {d : Admission Auth conf} {r' : Timed Unit}
    (hmem : ⟨.send msg, r⟩ ∈ d.events r') : msg = d.challenge := by
  simp only [Admission.events, List.mem_cons, List.not_mem_nil, Sigma.mk.injEq, reduceCtorEq, false_and,
    or_false, false_or, Op.send.injEq] at hmem
  exact hmem.1

theorem Admission.sent_append {conf : Config} {d : Admission Auth conf} {r' : Timed Unit}
    {t' : List (NetEvent Auth)} (ht' : ⟨.send msg, r⟩ ∈ t' → msg.auth = zeroAuth)
    (hmem : ⟨.send msg, r⟩ ∈ d.events r' ++ t') :
    msg.auth = zeroAuth ∨ ⟨.challenge, msg.auth⟩ ∈ d.events r' ++ t' := by
  rcases List.mem_append.1 hmem with hmem | hmem
  · rw [Admission.eq_of_send hmem]
    exact .inr (by simp [Admission.events, Admission.challenge, challengeMsg])
  · exact .inl (ht' hmem)

theorem SessionTrace.sent {conf : Config} {peer : IpAddr} (h : SessionTrace conf peer st t)
    (hmem : ⟨.send msg, r⟩ ∈ t) : msg.auth = zeroAuth ∨ ⟨.challenge, msg.auth⟩ ∈ t := by
  cases h with
  | start => cases hmem
  | rejected a ht => exact .inl (ht.auth_of_send (by simpa using hmem))
  | salted d => simp at hmem
  | drawn d => simp at hmem
  | challenged d r =>
    rw [Admission.eq_of_send hmem]
    exact .inr (by simp [Admission.events, Admission.challenge, challengeMsg])
  | unanswered d a ht =>
    exact Admission.sent_append (fun hm => ht.auth_of_send (by simpa using hm)) hmem
  | noPort d => exact Admission.sent_append (fun hm => by simp at hm) hmem
  | connected d r ht =>
    rw [Authorisation.events, List.append_assoc] at hmem ⊢
    exact Admission.sent_append (fun hm => ht.auth_of_send (by simpa using hm)) hmem
  | requested d hport r ht =>
    rw [Authorisation.events, List.append_assoc] at hmem ⊢
    exact Admission.sent_append (fun hm => ht.auth_of_send (by simpa using hm)) hmem
  | refused d hport reply hreply ht =>
    rw [Authorisation.events, List.append_assoc] at hmem ⊢
    exact Admission.sent_append (fun hm => ht.auth_of_send (by simpa using hm)) hmem
  | acknowledged d hport reply hreply ht =>
    rw [Authorisation.events, List.append_assoc] at hmem ⊢
    exact Admission.sent_append (fun hm => ht.auth_of_send (by simpa using hm)) hmem

theorem ClientTrace.sent {seq : ClientSeq} {operation : Operation} (h : ClientTrace seq operation st t)
    (hmem : ⟨.send msg, r⟩ ∈ t) : (∃ s, msg = seq.firstMsg operation s) ∨
      ∃ s chal, msg = seq.responseMsg s chal.auth ∧ recvd chal ∈ t := by
  cases h <;> simp [Letmein.knocked] at hmem
  case knocked s r hst => exact .inl ⟨s, hmem.1⟩
  case answered s a hst => exact .inl ⟨s, hmem.1⟩
  case salted' s chal s' hop => exact .inl ⟨s, hmem.1⟩
  case responded s chal s' r hop hst =>
    rcases hmem with hmem | hmem
    · exact .inl ⟨s, hmem.1⟩
    · exact .inr ⟨s', chal, hmem.1, by simp⟩
  case finished s chal s' a hop hst =>
    rcases hmem with hmem | hmem
    · exact .inl ⟨s, hmem.1⟩
    · exact .inr ⟨s', chal, hmem.1, by simp⟩

theorem ClientTrace.response_unique {seq : ClientSeq} {operation : Operation}
    (h : ClientTrace seq operation st t) (hop : operation ≠ .response) {s s' : Salt} {c c' : Auth} {r r' : Timed Unit}
    (hmem : ⟨.send (seq.responseMsg s c), r⟩ ∈ t) (hmem' : ⟨.send (seq.responseMsg s' c'), r'⟩ ∈ t) :
    (seq.responseMsg s c : Message Auth) = seq.responseMsg s' c' := by
  have hne : ∀ s c s', (seq.responseMsg s c : Message Auth) ≠ seq.firstMsg operation s' := fun s c s' he =>
    hop (congrArg Message.operation he).symm
  cases h <;> simp [Letmein.knocked, hne] at hmem hmem'
  case responded => rw [hmem.1, hmem'.1]
  case finished => rw [hmem.1, hmem'.1]

/-! ### What the log says -/

theorem client_spec (kind : ClientKind) (seq : ClientSeq) : (Handshake.client kind seq : Endpoint Auth Unit).Spec
    (ClientTrace seq kind.operation) fun _ => ClientTrace seq kind.operation .returned := by
  cases kind with
  | knock => exact sequence_spec seq "knock" (.inl rfl)
  | close => exact sequence_spec seq "close" (.inr rfl)

namespace Handshake.Log
variable [DecidableEq Auth] {hs : Handshake} {log l l' : NetLog Auth} {p p' : Party} {i j : Nat} {c : Auth}

theorem earlier (h : hs.Log (l' ++ l)) : hs.Log l := by
  obtain ⟨cur, h⟩ := h
  exact h.earlier

theorem tail {e : Party × NetEvent Auth} (h : hs.Log (e :: l)) : hs.Log l :=
  earlier (show hs.Log ([e] ++ l) from h)

theorem known (h : hs.Log (l' ++ (p, recvd msg) :: l)) : Known hs.held l msg.auth := by
  obtain ⟨cur, h⟩ := h
  exact h.answer

theorem fresh (h : hs.Log (l' ++ (p, ⟨.challenge, c⟩) :: l)) : Fresh l c := by
  obtain ⟨cur, h⟩ := h
  exact h.answer

theorem session (h : hs.Log log) (i : Nat) : ∃ st, SessionTrace hs.conf (hs.peer i) st (proj (.server i) log) := by
  obtain ⟨cur, h⟩ := h
  exact ⟨_, (run_spec hs.conf (hs.peer i)).trace (h.trace (.server i))⟩

theorem run (h : hs.Log log) (j : Nat) :
    ∃ st, ClientTrace (hs.seq j) (hs.kind j).operation st (proj (.client j) log) := by
  obtain ⟨cur, h⟩ := h
  exact ⟨_, (client_spec (hs.kind j) (hs.seq j)).trace (h.trace (.client j))⟩

theorem drawn_random (h : hs.Log log) (hc : Drawn log c) : c ≠ zeroAuth ∧ ∀ k x, c ≠ hmac k x := by
  obtain ⟨p, hmem⟩ := hc
  obtain ⟨l', l, rfl⟩ := List.append_of_mem hmem
  exact ⟨h.fresh.ne_zeroAuth, h.fresh.ne_hmac⟩

/-- No challenge is drawn twice. -/
theorem drawn_unique (h : hs.Log log) (hp : (p, ⟨.challenge, c⟩) ∈ log) (hp' : (p', ⟨.challenge, c⟩) ∈ log) :
    p = p' := by
  obtain ⟨l', l, rfl⟩ := List.append_of_mem hp
  rcases List.mem_append.1 hp' with hmem | hmem
  · obtain ⟨l₂, l₁, rfl⟩ := List.append_of_mem hmem
    rw [List.append_assoc] at h
    refine absurd ⟨p, ?_⟩ h.fresh.drawn
    exact List.mem_append_right l₁ List.mem_cons_self
  · rcases List.mem_cons.1 hmem with he | hmem
    · exact (Prod.ext_iff.1 he).1.symm
    · exact absurd ⟨p', hmem⟩ h.fresh.drawn

theorem challenge_before (h : hs.Log ((.server i, ⟨.send msg, r⟩) :: l)) (hne : msg.auth ≠ zeroAuth) :
    (.server i, ⟨.challenge, msg.auth⟩) ∈ l := by
  obtain ⟨st, ht⟩ := h.session i
  have hmem : ⟨.send msg, r⟩ ∈ proj (.server i) ((.server i, ⟨.send msg, r⟩) :: l) := mem_proj.2 List.mem_cons_self
  rcases ht.sent hmem with hz | hc
  · exact absurd hz hne
  · simpa using mem_proj.1 hc

theorem client_auth (h : hs.Log log) (hmem : (.client j, ⟨.send msg, r⟩) ∈ log) : ∃ k x, msg.auth = hmac k x := by
  obtain ⟨st, ht⟩ := h.run j
  rcases ht.sent (mem_proj.2 hmem) with ⟨s, rfl⟩ | ⟨s, chal, rfl, -⟩
  · exact ⟨_, _, rfl⟩
  · exact ⟨_, _, rfl⟩

/-- The challenge that a client received had been sent by the session that drew it. -/
theorem challenge_sent {d : Admission Auth hs.conf} {chal : Message Auth}
    (h : hs.Log (l' ++ (.client j, recvd chal) :: l))
    (hproj : proj (.server i) (l' ++ (.client j, recvd chal) :: l) = d.events (.done (.ok ())))
    (hchal : chal.auth = d.nonce) : (.server i, ⟨.send d.challenge, .done (.ok ())⟩) ∈ l := by
  have hdrawn : (.server i, ⟨.challenge, d.nonce⟩) ∈ l' ++ (.client j, recvd chal) :: l :=
    mem_proj.1 (by rw [hproj]; simp [Admission.events])
  have hl : ∀ {e}, e ∈ l → e ∈ l' ++ (.client j, recvd chal) :: l := fun he =>
    List.mem_append_right l' (List.mem_cons_of_mem _ he)
  obtain ⟨hzero, hhmac⟩ := h.drawn_random ⟨_, hdrawn⟩
  rcases h.known with ⟨p, msg, r, hmem, hauth⟩ | ⟨-, hnot⟩
  · rw [hchal] at hauth
    cases p with
    | client j' =>
      obtain ⟨k, x, hx⟩ := h.client_auth (hl hmem)
      exact absurd (hauth.symm.trans hx) (hhmac k x)
    | server i' =>
      obtain ⟨l₂, l₁, rfl⟩ := List.append_of_mem hmem
      have hc := challenge_before h.earlier.tail.earlier (hauth ▸ hzero)
      rw [hauth] at hc
      cases h.drawn_unique hdrawn (hl (List.mem_append_right l₂ (List.mem_cons_of_mem _ hc)))
      have hsent := mem_proj.2 (hl hmem)
      rw [hproj] at hsent
      have he : (⟨.send msg, r⟩ : NetEvent Auth) = ⟨.send d.challenge, .done (.ok ())⟩ := by
        simpa [Admission.events] using hsent
      rwa [← he]
  · -- received before it was drawn
    rw [hchal] at hnot
    have hmem : (.server i, ⟨.challenge, d.nonce⟩) ∈ l' := by
      rcases List.mem_append.1 hdrawn with hmem | hmem
      · exact hmem
      · rcases List.mem_cons.1 hmem with he | hmem
        · cases he
        · exact absurd ⟨_, hmem⟩ hnot
    obtain ⟨l₂, l₁, rfl⟩ := List.append_of_mem hmem
    rw [List.append_assoc] at h
    refine absurd ⟨.client j, chal, ?_, hchal⟩ h.fresh.received
    exact List.mem_append_right l₁ List.mem_cons_self

theorem request_shape {user : UserId} {resource : ResourceId} {req : FirewallMessage} (h : hs.Log log)
    (hreq : Requests log i user resource req) :
    ∃ (d : Authorisation Auth hs.conf) (portType : PortType) (a : Except String Unit) (l₁ l₂ : NetLog Auth),
      (∃ t, proj (.server i) log = recvd d.knock :: t) ∧ d.knock.user = user ∧ d.knock.resource = resource ∧
      req = d.request (hs.peer i) portType ∧ log = l₂ ++ (.server i, ⟨.fwSend req, a⟩) :: l₁ ∧
      proj (.server i) l₁ = d.events ++ [⟨.fwConnect, .ok ()⟩] := by
  obtain ⟨knock, t, a, hproj, hmem, rfl, rfl⟩ := hreq
  obtain ⟨t₁, t₂, rfl⟩ := List.append_of_mem hmem
  obtain ⟨st, ht⟩ := h.session i
  rw [← List.cons_append] at hproj
  obtain ⟨l₁, l₂, hlog, hl₁⟩ := proj_split hproj
  rw [hproj] at ht
  obtain ⟨d, portType, -, hreq, hd, -⟩ := ht.request
  have hknock : knock = d.knock := by
    simp only [Authorisation.events, Admission.events, List.cons_append, List.cons.injEq] at hd
    have he := hd.1
    simp at he
    exact he
  subst hknock
  exact ⟨d, portType, a, l₁, l₂, ⟨_, hproj⟩, rfl, rfl, hreq, hlog, hl₁.trans hd⟩

variable [FreeHmac Auth] {m : Message Auth} {key : Key}

theorem sent_by_client {k : Key} {x : List UInt8} (h : hs.Log log) (hsent : Sent log (hmac k x)) :
    ∃ j msg r, (.client j, ⟨.send msg, r⟩) ∈ log ∧ msg.auth = hmac k x := by
  obtain ⟨p, msg, r, hmem, hauth⟩ := hsent
  cases p with
  | client j => exact ⟨j, msg, r, hmem, hauth⟩
  | server i =>
    obtain ⟨l', l, rfl⟩ := List.append_of_mem hmem
    have hne : msg.auth ≠ zeroAuth := hauth ▸ FreeHmac.hmac_ne_zeroAuth k x
    have hdrawn : Drawn l msg.auth := ⟨.server i, challenge_before h.earlier hne⟩
    exact absurd hauth ((h.earlier.tail.drawn_random hdrawn).2 k x)

/-- A client that sent the token of a response made that response, to a challenge it had received. -/
theorem response_of_token (h : hs.Log ((.client j, ⟨.send msg, r⟩) :: l)) (hop : m.operation = .response)
    (hauth : msg.auth = m.authenticate key c) : (hs.seq j).user = m.user ∧ (hs.seq j).resource = m.resource ∧
      msg = (hs.seq j).responseMsg m.salt c ∧ ∃ chal, (.client j, recvd chal) ∈ l ∧ chal.auth = c := by
  obtain ⟨st, ht⟩ := h.run j
  have hmem : ⟨.send msg, r⟩ ∈ proj (.client j) ((.client j, ⟨.send msg, r⟩) :: l) := mem_proj.2 List.mem_cons_self
  rcases ht.sent hmem with ⟨s, rfl⟩ | ⟨s, chal, rfl, hchal⟩
  · -- the initial message authenticates another operation
    obtain ⟨hkind, -⟩ := Message.header_append_inj (FreeHmac.hmac_inj hauth).2
    rw [hop] at hkind
    cases hk : hs.kind j <;> rw [hk] at hkind <;> cases hkind
  · obtain ⟨-, huser, hres, hsalt, hc⟩ := Message.header_append_inj (FreeHmac.hmac_inj hauth).2
    obtain rfl := FreeHmac.bytes_inj hc
    obtain rfl : s = m.salt := hsalt
    exact ⟨huser, hres, rfl, chal, by simpa using mem_proj.1 hchal, rfl⟩

theorem first_of_token (h : hs.Log log) (hmem : (.client j, ⟨.send msg, r⟩) ∈ log)
    (hop : m.operation = .knock ∨ m.operation = .close) (hauth : msg.auth = m.authenticateNoChallenge key) :
    (hs.seq j).user = m.user ∧ (hs.seq j).resource = m.resource ∧ (hs.kind j).operation = m.operation ∧
      msg = (hs.seq j).firstMsg m.operation m.salt := by
  obtain ⟨st, ht⟩ := h.run j
  rcases ht.sent (mem_proj.2 hmem) with ⟨s, rfl⟩ | ⟨s, chal, rfl, -⟩
  · obtain ⟨hkind, huser, hres, hsalt, -⟩ := Message.header_append_inj (FreeHmac.hmac_inj hauth).2
    have hkind : (hs.kind j).operation = m.operation := hkind
    have hsalt : s = m.salt := hsalt
    exact ⟨huser, hres, hkind, by rw [hkind, hsalt]⟩
  · obtain ⟨hkind, -⟩ := Message.header_append_inj (FreeHmac.hmac_inj hauth).2
    have hkind : Operation.response = m.operation := hkind
    rcases hop with hop | hop <;> rw [hop] at hkind <;> cases hkind

end Handshake.Log

end Letmein
