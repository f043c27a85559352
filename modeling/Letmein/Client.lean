import Letmein.ProtocolTrace

/-!
# The client's side of the protocol (`letmein/src/client.rs`, `letmein/src/command/{knock,close}.rs`)

`knockSequence` and `closeSequence` are one run of the client. A reply for another user or resource is
only warned about. `ClientTrace` lists what a client can have done at some point.
-/

namespace Letmein

namespace Client
variable {Auth : Type}

def new : Endpoint Auth Unit := do
  let connected : Except String Unit ← Prog.call Op.connect
  match connected with
  | .error e => .err e
  | .ok () => return ()

def recvSpecificMsg (expect : Operation) : Endpoint Auth (Message Auth) := do
  let received : Timed (Option (Message Auth)) ← Prog.call Op.recv
  match received with
  | .timeout => .err "Receive knock reply"
  | .done (.error _) => .err "Receive knock reply"
  | .done (.ok none) => .err "Connection terminated"
  | .done (.ok (some reply)) =>
    if reply.operation = .goAway then .err "The server rejected the request"
    else if reply.operation ≠ expect then
      .err s!"Invalid reply message operation. Expected {expect.text}, got {reply.operation.text}"
    else return reply

end Client

structure ClientSeq where
  user : UserId
  resource : ResourceId
  key : Key

namespace ClientSeq
variable {Auth : Type} [AuthToken Auth]

/-- The message sequence that starts with a message of this operation. -/
def sequence (operation : Operation) (what : String) (self : ClientSeq) : Endpoint Auth Unit := do
  Client.new.context "Client init"
  let first ← Endpoint.newMessage operation self.user self.resource
  let first ← Prog.ofExcept (first.generateAuthNoChallenge self.key)
  (Endpoint.sendMsg first).context s!"Send {what}"
  let challenge ← Client.recvSpecificMsg .challenge
  let response ← Endpoint.newMessage .response self.user self.resource
  let response ← Prog.ofExcept (response.generateAuth self.key challenge)
  (Endpoint.sendMsg response).context "Send response"
  let _ ← Client.recvSpecificMsg .comeIn
  return ()

def knockSequence (self : ClientSeq) : Endpoint Auth Unit := self.sequence .knock "knock"

def closeSequence (self : ClientSeq) : Endpoint Auth Unit := self.sequence .close "close"

/-! ### What a client does -/

def firstMsg (self : ClientSeq) (operation : Operation) (s : Salt) : Message Auth :=
  let msg : Message Auth := .new operation self.user self.resource s
  { msg with auth := msg.authenticateNoChallenge self.key }

def responseMsg (self : ClientSeq) (s : Salt) (c : Auth) : Message Auth :=
  let msg : Message Auth := .new .response self.user self.resource s
  { msg with auth := msg.authenticate self.key c }

end ClientSeq

variable {Auth : Type} [AuthToken Auth]

def knocked (seq : ClientSeq) (operation : Operation) (s : Salt) (r : Timed Unit) : List (NetEvent Auth) :=
  [⟨.connect, .ok ()⟩, ⟨.salt, s⟩, ⟨.send (seq.firstMsg operation s), r⟩]

inductive ClientTrace (seq : ClientSeq) (operation : Operation) : Prog.Status → List (NetEvent Auth) → Prop
  | start : ClientTrace seq operation .running []
  | connected {st : Prog.Status} (r : Except String Unit) (hst : st ≠ .panicked) :
      ClientTrace seq operation st [⟨.connect, r⟩]
  | salted (s : Salt) : ClientTrace seq operation .running [⟨.connect, .ok ()⟩, ⟨.salt, s⟩]
  | knocked {st : Prog.Status} (s : Salt) (r : Timed Unit) (hst : st ≠ .panicked) :
      ClientTrace seq operation st (knocked seq operation s r)
  | answered {st : Prog.Status} (s : Salt) (a : Timed (Option (Message Auth))) (hst : st ≠ .panicked) :
      ClientTrace seq operation st (Letmein.knocked seq operation s (.done (.ok ())) ++ [⟨.recv, a⟩])
  | salted' (s : Salt) (challenge : Message Auth) (s' : Salt) (hop : challenge.operation = .challenge) :
      ClientTrace seq operation .running
        (Letmein.knocked seq operation s (.done (.ok ())) ++ [recvd challenge, ⟨.salt, s'⟩])
  | responded {st : Prog.Status} (s : Salt) (challenge : Message Auth) (s' : Salt) (r : Timed Unit)
      (hop : challenge.operation = .challenge) (hst : st ≠ .panicked) :
      ClientTrace seq operation st (Letmein.knocked seq operation s (.done (.ok ())) ++
        [recvd challenge, ⟨.salt, s'⟩, ⟨.send (seq.responseMsg s' challenge.auth), r⟩])
  | finished {st : Prog.Status} (s : Salt) (challenge : Message Auth) (s' : Salt)
      (a : Timed (Option (Message Auth))) (hop : challenge.operation = .challenge) (hst : st ≠ .panicked) :
      ClientTrace seq operation st (Letmein.knocked seq operation s (.done (.ok ())) ++
        [recvd challenge, ⟨.salt, s'⟩, ⟨.send (seq.responseMsg s' challenge.auth), .done (.ok ())⟩, ⟨.recv, a⟩])

section
variable {P : Prog.Status → List (NetEvent Auth) → Prop}

omit [AuthToken Auth] in
theorem sendMsg_context_spec {msg : Message Auth} {e : String} {Q : Unit → List (NetEvent Auth) → Prop}
    (h0 : P .running []) (herr : ∀ r, P .failed [⟨.send msg, r⟩]) (hok : Q () [⟨.send msg, .done (.ok ())⟩]) :
    ((Endpoint.sendMsg msg).context e).Spec P Q := by
  refine ⟨h0, ?_⟩
  rintro (_ | _ | _)
  · exact herr _
  · exact herr _
  · exact hok

omit [AuthToken Auth] in
theorem recvSpecificMsg_spec {expect : Operation} {Q : Message Auth → List (NetEvent Auth) → Prop}
    (h0 : P .running []) (hbad : ∀ a, P .failed [⟨.recv, a⟩])
    (hok : ∀ msg, msg.operation = expect → Q msg [recvd msg]) : (Client.recvSpecificMsg expect).Spec P Q := by
  refine ⟨h0, ?_⟩
  rintro (_ | e | _ | msg)
  · exact hbad _
  · exact hbad _
  · exact hbad _
  · dsimp only [Prog.bind]
    split
    · exact hbad _
    split
    · exact hbad _
    rename_i hop
    exact hok msg (not_not.1 hop)

end

omit [AuthToken Auth] in
theorem new_context_spec {P : Prog.Status → List (NetEvent Auth) → Prop} {e : String}
    {Q : Unit → List (NetEvent Auth) → Prop} (h0 : P .running []) (hbad : ∀ r, P .failed [⟨.connect, r⟩])
    (hok : Q () [⟨.connect, .ok ()⟩]) : (Client.new.context e : Endpoint Auth Unit).Spec P Q := by
  refine ⟨h0, ?_⟩
  rintro (_ | _)
  · exact hbad _
  · exact hok

theorem generateAuthNoChallenge_eq {msg : Message Auth} (hop : msg.operation = .knock ∨ msg.operation = .close)
    (key : Key) :
    msg.generateAuthNoChallenge key = .ok { msg with auth := msg.authenticateNoChallenge key } := by
  rw [Message.generateAuthNoChallenge, check, if_pos hop]; rfl

theorem generateAuth_eq {msg challenge : Message Auth} (hop : msg.operation = .response)
    (hchal : challenge.operation = .challenge) (key : Key) :
    msg.generateAuth key challenge = .ok { msg with auth := msg.authenticate key challenge.auth } := by
  rw [Message.generateAuth, check, check, if_pos hchal, if_pos hop]; rfl

/-- Everything a client can do. -/
theorem sequence_spec (seq : ClientSeq) {operation : Operation} (what : String)
    (hop : operation = .knock ∨ operation = .close) : (seq.sequence operation what : Endpoint Auth Unit).Spec
      (ClientTrace seq operation) fun _ => ClientTrace seq operation .returned := by
  refine Prog.Spec.bind (new_context_spec .start (fun r => .connected r (by decide)) ?_)
  refine Prog.Spec.bind (newMessage_spec (.connected _ (by decide)) fun s => ?_)
  rw [generateAuthNoChallenge_eq hop, Prog.ofExcept_ok_bind]
  refine Prog.Spec.bind (sendMsg_context_spec (.salted s) (fun r => .knocked s r (by decide)) ?_)
  refine Prog.Spec.bind (recvSpecificMsg_spec (.knocked s _ (by decide)) (fun a => .answered s a (by decide)) ?_)
  intro challenge hchal
  refine Prog.Spec.bind (newMessage_spec (.answered s _ (by decide)) fun s' => ?_)
  rw [generateAuth_eq rfl hchal, Prog.ofExcept_ok_bind]
  refine Prog.Spec.bind (sendMsg_context_spec (.salted' s challenge s' hchal) (fun r => ?_) ?_)
  · exact .responded s challenge s' r hchal (by decide)
  refine Prog.Spec.bind (recvSpecificMsg_spec ?_ (fun a => ?_) fun msg _ => ?_)
  · exact .responded s challenge s' _ hchal (by decide)
  · exact .finished s challenge s' a hchal (by decide)
  · exact .finished s challenge s' _ hchal (by decide)

end Letmein
