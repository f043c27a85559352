import Letmein.Agreement
import Letmein.Lib.Ledger
import Letmein.Lib.List

/-!
# What a session costs

Anyone can make letmeind start a session. A session sends at most one message for each message that it has received, so
letmeind is no amplifier for packets with a forged source address, and it ends after a bounded number of operations,
at most four of which wait for the peer, each of them under the control timeout.
-/

namespace Letmein

/-- What a session has done: messages received and sent, requests to letmeinfwd, operations on the connection to the
peer, and operations at all. -/
structure Traffic where
  received : Nat
  sent : Nat
  requests : Nat
  waits : Nat
  ops : Nat
deriving DecidableEq, Repr

variable {Auth : Type}

/-- A message has come in. -/
def isReceived : NetEvent Auth → Bool
  | ⟨.recv, .done (.ok (some _))⟩ => true
  | _ => false

def isSent : NetEvent Auth → Bool
  | ⟨.send _, _⟩ => true
  | _ => false

def isRequest : NetEvent Auth → Bool
  | ⟨.fwSend _, _⟩ => true
  | _ => false

def isWait : NetEvent Auth → Bool
  | ⟨.recv, _⟩ => true
  | ⟨.send _, _⟩ => true
  | _ => false

namespace Traffic

def zero : Traffic := ⟨0, 0, 0, 0, 0⟩

def enter (s : Traffic) (e : NetEvent Auth) : Traffic where
  received := s.received + (isReceived e).toNat
  sent := s.sent + (isSent e).toNat
  requests := s.requests + (isRequest e).toNat
  waits := s.waits + (isWait e).toNat
  ops := s.ops + 1

/-- Not more is sent than was received, a request comes after two messages, and all of it is bounded. -/
def Within (s : Traffic) : Prop :=
  s.sent ≤ s.received ∧ 2 * s.requests ≤ s.received ∧ s.received ≤ 2 ∧ s.waits ≤ 4 ∧ s.ops ≤ 10

instance (s : Traffic) : Decidable s.Within := inferInstanceAs (Decidable (_ ∧ _))

theorem foldl_enter (t : List (NetEvent Auth)) (s : Traffic) : t.foldl enter s =
    ⟨s.received + t.countP isReceived, s.sent + t.countP isSent, s.requests + t.countP isRequest,
      s.waits + t.countP isWait, s.ops + t.length⟩ := by
  induction t generalizing s with
  | nil => rfl
  | cons e t ih =>
    have hcount : ∀ (f : NetEvent Auth → Bool) (n : Nat), n + (f e).toNat + t.countP f = n + (e :: t).countP f := by
      intro f n
      rw [List.countP_cons]
      cases f e <;> simp [Nat.add_assoc, Nat.add_comm]
    rw [List.foldl_cons, ih, enter]
    simp only [hcount, List.length_cons, Traffic.mk.injEq, true_and]
    omega

end Traffic

/-! ## Sessions -/

section
variable [AuthToken Auth] {α : Type} {self : Protocol} {s : Traffic}

/-- The program keeps the bounds from `s` on, however it fails. -/
abbrev InBounds (Q : α → Traffic → Prop) (s : Traffic) (p : Endpoint Auth α) : Prop :=
  p.Keeps Traffic.enter Traffic.Within (fun _ => True) Q s

/-- There is room for one message that is not paid for yet. -/
def Traffic.Affords (s : Traffic) : Prop :=
  ({ s with ops := s.ops + 1 } : Traffic).Within ∧
    ({ s with sent := s.sent + 1, waits := s.waits + 1, ops := s.ops + 2 } : Traffic).Within

instance (s : Traffic) : Decidable s.Affords := inferInstanceAs (Decidable (_ ∧ _))

theorem newMessage_inBounds {operation : Operation} {user : UserId} {resource : ResourceId}
    {Q : Message Auth → Traffic → Prop} (h : ({ s with ops := s.ops + 1 } : Traffic).Within)
    (hQ : ∀ msg, Q msg { s with ops := s.ops + 1 }) : InBounds Q s (Endpoint.newMessage operation user resource) :=
  fun _ => ⟨h, hQ _⟩

omit [AuthToken Auth] in
theorem sendMsg_inBounds {E : Traffic → Prop} {msg : Message Auth} {Q : Unit → Traffic → Prop}
    (h : ({ s with sent := s.sent + 1, waits := s.waits + 1, ops := s.ops + 1 } : Traffic).Within)
    (hE : E { s with sent := s.sent + 1, waits := s.waits + 1, ops := s.ops + 1 })
    (hQ : Q () { s with sent := s.sent + 1, waits := s.waits + 1, ops := s.ops + 1 }) :
    (Endpoint.sendMsg msg).Keeps Traffic.enter Traffic.Within E Q s := by
  rintro (_ | e | _)
  · exact ⟨h, hE⟩
  · exact ⟨h, hE⟩
  · exact ⟨h, hQ⟩

theorem goAway_inBounds {e : String} {Q : α → Traffic → Prop} (h : s.Affords) :
    InBounds Q s (self.goAway e : Endpoint Auth α) := by
  have hsend : (self.sendGoAway : Endpoint Auth Unit).Keeps Traffic.enter Traffic.Within (fun _ => True)
      (fun _ _ => True) s := by
    unfold Protocol.sendGoAway
    split
    · exact Prog.Keeps.bind (newMessage_inBounds h.1 fun msg => sendMsg_inBounds h.2 trivial trivial)
    · trivial
  exact Prog.Keeps.bind (Prog.Keeps.ignore hsend)

/-- A message has been received. -/
def Traffic.paid (s : Traffic) : Traffic :=
  { s with received := s.received + 1, waits := s.waits + 1, ops := s.ops + 1 }

/-- Receiving: what is no message ends the session, and a message pays for a go-away message. -/
theorem recvInitial_inBounds {Q : Message Auth → Traffic → Prop}
    (hfail : ({ s with waits := s.waits + 1, ops := s.ops + 1 } : Traffic).Within) (hpaid : s.paid.Within)
    (haffords : s.paid.Affords) (hQ : ∀ msg, Q msg s.paid) : InBounds Q s (self.recvInitial : Endpoint Auth (Message Auth)) := by
  rintro (_ | e | _ | msg)
  · exact ⟨hfail, trivial⟩
  · exact ⟨hfail, trivial⟩
  · exact ⟨hfail, trivial⟩
  · refine ⟨hpaid, ?_⟩
    dsimp only [Prog.bind]
    split
    · exact goAway_inBounds haffords
    · exact hQ msg

theorem recvMsg_inBounds {expect : Operation} {Q : Message Auth → Traffic → Prop}
    (hfail : ({ s with waits := s.waits + 1, ops := s.ops + 1 } : Traffic).Within) (hpaid : s.paid.Within)
    (haffords : s.paid.Affords) (hQ : ∀ msg, Q msg s.paid) : InBounds Q s (self.recvMsg expect : Endpoint Auth (Message Auth)) := by
  rintro (_ | e | _ | msg)
  · exact ⟨hfail, trivial⟩
  · exact ⟨hfail, trivial⟩
  · exact ⟨hfail, trivial⟩
  · refine ⟨hpaid, ?_⟩
    dsimp only [Prog.bind]
    split
    · exact goAway_inBounds haffords
    split
    · exact goAway_inBounds haffords
    split
    · exact goAway_inBounds haffords
    · exact hQ msg

variable [DecidableEq Auth]

theorem checkKnock_inBounds {knock : Message Auth} {Q : Key → Traffic → Prop} (h : s.Affords) (hQ : ∀ key, Q key s) :
    InBounds Q s (self.checkKnock knock) := by
  unfold Protocol.checkKnock
  split
  · exact goAway_inBounds h
  · refine Prog.Keeps.bind (Prog.Keeps.ofExcept fun ok _ => ?_)
    split
    · exact hQ _
    · exact goAway_inBounds h

omit [DecidableEq Auth] in
theorem checkResource_inBounds {userId : UserId} {resourceId : ResourceId} {Q : Resource → Traffic → Prop}
    (h : s.Affords) (hQ : ∀ resource, Q resource s) :
    InBounds Q s (self.checkResource userId resourceId : Endpoint Auth Resource) := by
  unfold Protocol.checkResource
  split
  · exact goAway_inBounds h
  · split
    · exact goAway_inBounds h
    · split
      · exact goAway_inBounds h
      · exact hQ _

/-- From the initial message on: the challenge and the response to it. -/
theorem challengeResponse_inBounds {userId : UserId} {resourceId : ResourceId} {key : Key}
    {Q : Unit → Traffic → Prop} (hQ : Q () ⟨2, 1, 0, 3, 5⟩) :
    InBounds Q ⟨1, 0, 0, 1, 1⟩ (self.challengeResponse userId resourceId key : Endpoint Auth Unit) := by
  refine Prog.Keeps.bind (newMessage_inBounds (by decide) fun challenge => ?_)
  refine Prog.Keeps.bind fun nonce => ⟨(by decide : Traffic.Within ⟨1, 0, 0, 1, 3⟩), ?_⟩
  refine Prog.Keeps.bind (Prog.Keeps.ofExcept fun challenge _ => ?_)
  refine Prog.Keeps.bind (sendMsg_inBounds (by decide : Traffic.Within ⟨1, 1, 0, 2, 4⟩) trivial ?_)
  refine Prog.Keeps.bind (recvMsg_inBounds (by decide : Traffic.Within ⟨1, 1, 0, 3, 5⟩)
    (by decide : Traffic.Within ⟨2, 1, 0, 3, 5⟩) (by decide : Traffic.Affords ⟨2, 1, 0, 3, 5⟩) fun response => ?_)
  refine Prog.Keeps.bind (Prog.Keeps.ofExcept fun ok _ => ?_)
  split
  · exact hQ
  · exact goAway_inBounds (by decide : Traffic.Affords ⟨2, 1, 0, 3, 5⟩)

omit [DecidableEq Auth] in
theorem orGoAway_inBounds {f : String → String} {p : Endpoint Auth Unit} {Q : Unit → Traffic → Prop}
    (h : p.Keeps Traffic.enter Traffic.Within Traffic.Affords Q s) : InBounds Q s (self.orGoAway f p) := by
  induction p generalizing s with
  | ret a => exact h
  | err e => exact goAway_inBounds h
  | panic why => trivial
  | vis op k ih => exact fun a => ⟨(h a).1, ih a (h a).2⟩

omit [AuthToken Auth] [DecidableEq Auth] in
theorem request_keeps {what : String} {msg : FirewallMessage} {Q : Unit → Traffic → Prop} (hQ : Q () ⟨2, 1, 1, 3, 8⟩) :
    (FirewallClient.request what msg : Endpoint Auth Unit).Keeps Traffic.enter Traffic.Within Traffic.Affords Q
      ⟨2, 1, 0, 3, 6⟩ := by
  have hsent : Traffic.Within ⟨2, 1, 1, 3, 7⟩ := by decide
  have hreplied : Traffic.Within ⟨2, 1, 1, 3, 8⟩ := by decide
  have haffords : Traffic.Affords ⟨2, 1, 1, 3, 8⟩ := by decide
  rintro (e | _)
  · exact ⟨hsent, (by decide : Traffic.Affords ⟨2, 1, 1, 3, 7⟩)⟩
  · refine ⟨hsent, ?_⟩
    rintro (e | _ | reply)
    · exact ⟨hreplied, haffords⟩
    · exact ⟨hreplied, haffords⟩
    · refine ⟨hreplied, ?_⟩
      dsimp only [Prog.bind]
      cases reply.operation with
      | ack => exact hQ
      | _ => exact haffords

omit [DecidableEq Auth] in
theorem reconfigure_inBounds {operation : Operation} {resource : Resource} {Q : Unit → Traffic → Prop}
    (hQ : Q () ⟨2, 1, 1, 3, 8⟩) :
    InBounds Q ⟨2, 1, 0, 3, 5⟩ (self.reconfigure operation resource : Endpoint Auth Unit) := by
  obtain ⟨port, tcp, udp, users⟩ := resource
  refine Prog.Keeps.bind (Prog.Keeps.ofExcept fun portType _ => ?_)
  have hconnect : (FirewallClient.new : Endpoint Auth Unit).Keeps Traffic.enter Traffic.Within Traffic.Affords
      (fun _ s => s = ⟨2, 1, 0, 3, 6⟩) ⟨2, 1, 0, 3, 5⟩ := by
    rintro (e | _)
    · exact ⟨(by decide : Traffic.Within ⟨2, 1, 0, 3, 6⟩), (by decide : Traffic.Affords ⟨2, 1, 0, 3, 6⟩)⟩
    · exact ⟨(by decide : Traffic.Within ⟨2, 1, 0, 3, 6⟩), rfl⟩
  refine Prog.Keeps.bind ((orGoAway_inBounds hconnect).mono (fun _ _ => trivial) fun _ s hs => ?_)
  subst hs
  refine Prog.Keeps.bind (Prog.Keeps.ofExcept fun _ _ => ?_)
  split
  · exact orGoAway_inBounds (request_keeps hQ)
  · exact orGoAway_inBounds (request_keeps hQ)

/-- A session keeps the bounds, whatever it receives and whatever fails. -/
theorem run_inBounds (conf : Config) (peer : IpAddr) :
    InBounds (fun _ _ => True) .zero (Protocol.run conf peer : Endpoint Auth Unit) := by
  refine Prog.Keeps.bind (recvInitial_inBounds (by decide) (by decide) (by decide) fun knock => ?_)
  refine Prog.Keeps.bind (checkKnock_inBounds (by decide) fun key => ?_)
  refine Prog.Keeps.bind (checkResource_inBounds (by decide) fun resource => ?_)
  refine Prog.Keeps.bind (challengeResponse_inBounds ?_)
  refine Prog.Keeps.bind (reconfigure_inBounds ?_)
  refine Prog.Keeps.bind (newMessage_inBounds (by decide) fun comein => ?_)
  exact sendMsg_inBounds (by decide) trivial trivial

/-! ## All sessions -/

theorem Traffic.within_run {conf : Config} {peer : IpAddr} {t : List (NetEvent Auth)} {q : Endpoint Auth Unit}
    (ht : (Protocol.run conf peer).Trace t q) : (t.foldl Traffic.enter .zero).Within :=
  (run_inBounds conf peer).trace (by decide) ht

def Party.isServer : Party → Bool
  | .server _ => true
  | .client _ => false

/-- In every run of any number of sessions and client runs, whatever the network does: each session has sent at most as
many messages as it has received, and it makes a request to letmeinfwd only after two messages; it does at most ten
operations, of which at most four wait for the peer. So all sessions together have never sent more messages than they have
received. -/
theorem sessions_bounded (hs : Handshake) {allowed : NetLog Auth → (op : Op Auth) → Op.Ret op → Prop}
    {log : NetLog Auth} {cur : Party → Endpoint Auth Unit} (h : Runs hs.init allowed log cur) :
    (∀ i, (proj (.server i) log).countP isSent ≤ (proj (.server i) log).countP isReceived ∧
      2 * (proj (.server i) log).countP isRequest ≤ (proj (.server i) log).countP isReceived ∧
      (proj (.server i) log).countP isWait ≤ 4 ∧ (proj (.server i) log).length ≤ 10) ∧
    log.countP (fun x => x.1.isServer && isSent x.2) ≤ log.countP fun x => x.1.isServer && isReceived x.2 := by
  have hsession : ∀ i, (proj (.server i) log).countP isSent ≤ (proj (.server i) log).countP isReceived ∧
      2 * (proj (.server i) log).countP isRequest ≤ (proj (.server i) log).countP isReceived ∧
      (proj (.server i) log).countP isWait ≤ 4 ∧ (proj (.server i) log).length ≤ 10 := by
    intro i
    have hwithin := Traffic.within_run (h.trace (.server i))
    rw [Traffic.foldl_enter] at hwithin
    obtain ⟨hsent, hrequests, -, hwaits, hops⟩ := hwithin
    simp only [Traffic.zero, Nat.zero_add] at hsent hrequests hwaits hops
    exact ⟨hsent, hrequests, hwaits, hops⟩
  refine ⟨hsession, List.countP_le_of_groups Prod.fst fun party => ?_⟩
  have hgroup : ∀ f : NetEvent Auth → Bool, (log.filter (·.1 = party)).countP (fun x => x.1.isServer && f x.2) =
      if party.isServer then (proj party log).countP f else 0 := by
    intro f
    have hcongr : (log.filter (·.1 = party)).countP (fun x => x.1.isServer && f x.2) =
        (log.filter (·.1 = party)).countP fun x => party.isServer && f x.2 := by
      refine List.countP_congr fun x hx => ?_
      have hparty : x.1 = party := by simpa using List.of_mem_filter hx
      rw [hparty]
    rw [hcongr]
    split_ifs with hserver
    · simp [proj, hserver, List.countP_map, Function.comp_def]
    · simp [hserver]
  rw [hgroup, hgroup]
  cases party with
  | server i => exact (hsession i).1
  | client j => exact Nat.le_refl _

end

/-- A session has been knocked at and has made its request. -/
theorem sessions_bounded_sample : ∃ cur,
    Runs sampleHandshake.init (Network sampleHandshake.held) (sampleLog 0) cur ∧
      (sampleLog 0).countP (fun x => x.1.isServer && isSent x.2) ≤
        (sampleLog 0).countP fun x => x.1.isServer && isReceived x.2 := by
  obtain ⟨cur, hrun⟩ := sampleLog_ok (.inl rfl)
  exact ⟨cur, hrun, (sessions_bounded sampleHandshake hrun).2⟩

end Letmein
