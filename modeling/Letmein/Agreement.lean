import Letmein.Handshake

/-!
# Agreement of sessions and clients

A session that makes a request for a user whose key the attacker does not hold has been answered by a
client run for that user and resource, and no client run answers two sessions. The operation is that
of the client run which made the initial message; the response does not authenticate it.
-/

namespace Letmein

variable {Auth : Type} [AuthToken Auth] [DecidableEq Auth] [FreeHmac Auth] {hs : Handshake} {log : NetLog Auth}
  {i : Nat} {user : UserId} {resource : ResourceId} {req : FirewallMessage}

theorem Handshake.Log.answered (h : hs.Log log) (hreq : Requests log i user resource req)
    (hkey : ∀ k, hs.conf.key user = some k → ¬ hs.held k) : ∃ l₁ l₂ a j c,
      log = l₂ ++ (.server i, ⟨.fwSend req, a⟩) :: l₁ ∧ (hs.seq j).user = user ∧
      (hs.seq j).resource = resource ∧ hs.Answered l₁ j i c := by
  obtain ⟨d, portType, a, l₁, l₂, -, rfl, rfl, -, hlog, hproj⟩ := h.request_shape hreq
  have h₁ : hs.Log l₁ := (hlog ▸ h).earlier.tail
  rw [Authorisation.events, List.append_assoc] at hproj
  obtain ⟨l₃, l₄, rfl, hl₃⟩ := proj_split hproj
  -- the response was sent before, since the attacker cannot make its token
  have hsent : Sent l₃ d.response.auth := by
    rcases h₁.known with hsent | ⟨hheld, -⟩
    · exact hsent
    · exact absurd (hheld _ _ d.response_auth) (hkey d.key d.key_ok)
  rw [d.response_auth] at hsent
  have h₃ : hs.Log l₃ := h₁.earlier.tail
  obtain ⟨j, msg, r, hmem, hauth⟩ := h₃.sent_by_client hsent
  obtain ⟨l₆, l₅, rfl⟩ := List.append_of_mem hmem
  obtain ⟨huser, hres, rfl, chal, hchal, hc⟩ := h₃.earlier.response_of_token d.response_operation hauth
  have hsame : { d.response with magic := MAGIC } = (hs.seq j).responseMsg d.response.salt d.nonce := by
    have hsent := d.response_auth.trans hauth.symm
    exact (Message.mk.injEq ..).mpr ⟨rfl, d.response_operation, huser.symm, hres.symm, rfl, hsent⟩
  -- to a challenge that was received after the session had sent it
  obtain ⟨l₈, l₇, rfl⟩ := List.append_of_mem hchal
  have hassoc : ∀ {x y : Party × NetEvent Auth}, l₆ ++ x :: (l₈ ++ y :: l₇) = (l₆ ++ x :: l₈) ++ y :: l₇ := by simp
  have hchallenge : (.server i, ⟨.send d.challenge, .done (.ok ())⟩) ∈ l₇ := by
    rw [hassoc] at h₃ hl₃
    exact h₃.challenge_sent hl₃ hc
  have hdrawn : Drawn _ d.nonce := ⟨.server i, mem_proj.1 (by rw [hl₃]; simp [Admission.events])⟩
  have hne : d.challenge.auth ≠ zeroAuth := (h₃.drawn_random hdrawn).1
  obtain ⟨l₁₀, l₉, rfl⟩ := List.append_of_mem hchallenge
  have hdraw := Handshake.Log.challenge_before h₃.earlier.tail.earlier.tail.earlier hne
  obtain ⟨l₁₂, l₁₁, rfl⟩ := List.append_of_mem hdraw
  refine ⟨_, l₂, a, j, d.nonce, hlog, huser.trans d.response_user, hres.trans d.response_resource,
    d.challenge, d.response, d.response.salt, .done (.ok ()), r, rfl, rfl, hsame, ?_⟩
  exact ((((List.nil_sublist l₁₁).append_cons l₁₂ _).append_cons l₁₀ _ |>.skip l₈ _).append_cons l₆ _).append_cons l₄ _

theorem Handshake.Log.answers_unique (h : hs.Log log) {j i i' : Nat} {c c' : Auth} (ha : hs.Answers log j i c)
    (ha' : hs.Answers log j i' c') : i = i' := by
  obtain ⟨_, s, _, _, -, -, hsub⟩ := ha
  obtain ⟨_, s', _, _, -, -, hsub'⟩ := ha'
  have hop : (hs.kind j).operation ≠ .response := by
    cases hs.kind j <;> nofun
  obtain ⟨st, ht⟩ := h.run j
  have hresp := ht.response_unique hop (mem_proj.2 (hsub.subset List.mem_cons_self))
    (mem_proj.2 (hsub'.subset List.mem_cons_self))
  have hc : c = c' := by
    have hauth : (hmac _ _ : Auth) = hmac _ _ := congrArg Message.auth hresp
    exact FreeHmac.bytes_inj (Message.header_append_inj (FreeHmac.hmac_inj hauth).2).2.2.2.2
  subst hc
  have hdrawn : (.server i, ⟨.challenge, c⟩) ∈ log := hsub.subset (by simp)
  have hdrawn' : (.server i', ⟨.challenge, c⟩) ∈ log := hsub'.subset (by simp)
  exact Party.server.inj (h.drawn_unique hdrawn hdrawn')

theorem Handshake.Log.initiated (h : hs.Log log) (hreq : Requests log i user resource req)
    (hkey : ∀ k, hs.conf.key user = some k → ¬ hs.held k) :
    ∃ j, (hs.seq j).user = user ∧ (hs.seq j).resource = resource ∧ hs.Initiates log j i := by
  obtain ⟨d, portType, a, l₁, l₂, ⟨t, hfirst⟩, rfl, rfl, -, rfl, hproj⟩ := h.request_shape hreq
  obtain ⟨l₃, l₄, rfl, -⟩ := proj_split (show proj (.server i) l₁ = [] ++ recvd d.knock :: _ from hproj)
  have h₁ := h.earlier.tail
  have hsent : Sent l₃ d.knock.auth := by
    rcases h₁.known with hsent | ⟨hheld, -⟩
    · exact hsent
    · exact absurd (hheld _ _ d.auth_ok) (hkey d.key d.key_ok)
  rw [d.auth_ok] at hsent
  have h₃ : hs.Log l₃ := h₁.earlier.tail
  obtain ⟨j, msg, r, hmem, hauth⟩ := h₃.sent_by_client hsent
  obtain ⟨huser, hres, hkind, hmsg⟩ := h₃.first_of_token hmem d.operation_ok hauth
  rw [← hkind] at hmsg
  subst hmsg
  refine ⟨j, huser, hres, d.knock, t, d.knock.salt, r, hfirst, hauth.trans d.auth_ok.symm, ?_⟩
  obtain ⟨l₆, l₅, rfl⟩ := List.append_of_mem hmem
  exact (((List.nil_sublist l₅).append_cons l₆ _).append_cons l₄ _).skip l₂ _

theorem Handshake.Log.kind_of_initiates (h : hs.Log log) (hreq : Requests log i user resource req) {j : Nat}
    (hj : hs.Initiates log j i) : hs.kind j = .knock ∧ req.operation = .openPort ∨
      hs.kind j = .close ∧ req.operation = .closePort := by
  obtain ⟨d, portType, a, l₁, l₂, ⟨t, hfirst⟩, -, -, rfl, -, -⟩ := h.request_shape hreq
  obtain ⟨knock, t', s, r, hfirst', hauth, -⟩ := hj
  obtain ⟨he, -⟩ := List.cons.inj (hfirst.symm.trans hfirst')
  obtain rfl : d.knock = knock := by simpa using he
  rw [d.auth_ok] at hauth
  obtain ⟨hkind, -⟩ := Message.header_append_inj (FreeHmac.hmac_inj hauth).2
  have hkind : (hs.kind j).operation = d.knock.operation := hkind
  unfold Authorisation.request
  rw [← hkind]
  cases hs.kind j with
  | knock => exact .inl ⟨rfl, rfl⟩
  | close => exact .inr ⟨rfl, rfl⟩

/-! ### The theorems, and a run of two clients and a session -/

def sampleHandshake : Handshake where
  conf := sampleServer
  peer _ := .v4 ⟨192, 0, 2, 7⟩
  kind j := if j = 1 then .close else .knock
  seq _ := ⟨⟨1⟩, ⟨2⟩, sampleKey⟩
  held _ := False

/-- Client runs 0 and 1 have sent their initial messages, and a session has received that of run 0. -/
def sampleStart : NetLog SymAuth :=
  [(.server 0, ⟨.salt, sampleSalt⟩),
    (.server 0, recvd (sampleMsg .knock zeroAuth)),
    (.client 1, ⟨.send (sampleMsg .close zeroAuth), .done (.ok ())⟩),
    (.client 1, ⟨.salt, sampleSalt⟩),
    (.client 1, ⟨.connect, .ok ()⟩),
    (.client 0, ⟨.send (sampleMsg .knock zeroAuth), .done (.ok ())⟩),
    (.client 0, ⟨.salt, sampleSalt⟩),
    (.client 0, ⟨.connect, .ok ()⟩)]

def sampleLog (j : Nat) : NetLog SymAuth :=
  [(.server 0, ⟨.fwSend (.newOpen (.v4 ⟨192, 0, 2, 7⟩) .tcp 22), .ok ()⟩),
    (.server 0, ⟨.fwConnect, .ok ()⟩),
    (.server 0, recvd (sampleMsg .response (.raw [5]))),
    (.client j, ⟨.send (sampleMsg .response (.raw [5])), .done (.ok ())⟩),
    (.client j, ⟨.salt, sampleSalt⟩),
    (.client j, recvd (challengeMsg ⟨1⟩ ⟨2⟩ sampleSalt (.raw [5]))),
    (.server 0, ⟨.send (challengeMsg ⟨1⟩ ⟨2⟩ sampleSalt (.raw [5])), .done (.ok ())⟩),
    (.server 0, ⟨.challenge, .raw [5]⟩)] ++ sampleStart

theorem fresh_sampleStart : Fresh sampleStart (.raw [5]) where
  sent := by
    rintro ⟨p, msg, r, hmem, hauth⟩
    simp [sampleStart] at hmem
    rcases hmem with ⟨-, rfl, -⟩ | ⟨-, rfl, -⟩ <;> cases hauth
  received := by
    rintro ⟨p, msg, hmem, hauth⟩
    simp [sampleStart] at hmem
    obtain ⟨-, rfl⟩ := hmem
    cases hauth
  drawn := by
    rintro ⟨p, hmem⟩
    simp [sampleStart] at hmem
  ne_zeroAuth := by decide
  ne_hmac k x h := by cases h

theorem requests_sampleLog (j : Nat) :
    Requests (sampleLog j) 0 ⟨1⟩ ⟨2⟩ (.newOpen (.v4 ⟨192, 0, 2, 7⟩) .tcp 22) := by
  refine ⟨sampleMsg .knock zeroAuth, _, .ok (), rfl, ?_, rfl, rfl⟩
  simp

theorem sampleLog_ok {j : Nat} (hj : j = 0 ∨ j = 1) : sampleHandshake.Log (sampleLog j) := by
  rcases hj with rfl | rfl
  all_goals
    refine ⟨_, .step _ _ (.step _ _ (.step _ _ (.step _ _ (.step _ _ (.step _ _ (.step _ _ (.step _ _
      (.step _ _ (.step _ _ (.step _ _ (.step _ _ (.step _ _ (.step _ _ (.step _ _ (.step _ _ .start
      rfl trivial) rfl trivial) rfl trivial) rfl trivial) rfl trivial) rfl trivial)
      rfl ?_) rfl trivial) rfl fresh_sampleStart) rfl trivial) rfl ?_) rfl trivial) rfl trivial) rfl ?_) rfl trivial) rfl trivial⟩
    · exact .inl ⟨.client 0, _, .done (.ok ()), by simp, rfl⟩
    · exact .inl ⟨.server 0, _, _, List.mem_cons_self, rfl⟩
    · exact .inl ⟨_, _, _, List.mem_cons_self, rfl⟩

/-- Injective agreement. In every run, however messages are read, dropped, reordered, replayed and
injected: when a session makes a request for a user whose key is not held, some client run for the
same user and resource has sent the response to the session's challenge that the session received,
after the challenge was sent and before the request; and no client run has answered the challenges
of two sessions. -/
theorem injective_agreement (hs : Handshake) {log : NetLog Auth} (h : hs.Log log) :
    (∀ i user resource req, Requests log i user resource req →
      (∀ k, hs.conf.key user = some k → ¬ hs.held k) → ∃ l₁ l₂ a j c,
        log = l₂ ++ (.server i, ⟨.fwSend req, a⟩) :: l₁ ∧ (hs.seq j).user = user ∧
        (hs.seq j).resource = resource ∧ hs.Answered l₁ j i c) ∧
    (∀ j i i' c c', hs.Answers log j i c → hs.Answers log j i' c' → i = i') :=
  ⟨fun _ _ _ _ hreq hkey => h.answered hreq hkey, fun _ _ _ _ _ ha ha' => h.answers_unique ha ha'⟩

theorem injective_agreement_sample :
    Requests (sampleLog 0) 0 ⟨1⟩ ⟨2⟩ (.newOpen (.v4 ⟨192, 0, 2, 7⟩) .tcp 22) ∧
    ∃ l₁ l₂ a j c, sampleLog 0 = l₂ ++ (.server 0, ⟨.fwSend (.newOpen (.v4 ⟨192, 0, 2, 7⟩) .tcp 22), a⟩) :: l₁ ∧
      (sampleHandshake.seq j).user = ⟨1⟩ ∧ (sampleHandshake.seq j).resource = ⟨2⟩ ∧
      sampleHandshake.Answered l₁ j 0 c := by
  have hreq := requests_sampleLog 0
  exact ⟨hreq, (injective_agreement sampleHandshake (sampleLog_ok (.inl rfl))).1 0 _ _ _ hreq fun _ _ h => h⟩

/-- Agreement on the operation, as far as it goes: when a session makes a request for a user whose key
is not held, its initial message was made by a client run for the same user and resource, and the
request is for the operation of that run; the session's challenge was answered by a client run for
the same user and resource, which need not be the same run. -/
theorem operation_of_initiator (hs : Handshake) {log : NetLog Auth} (h : hs.Log log) {i : Nat} {user : UserId}
    {resource : ResourceId} {req : FirewallMessage} (hreq : Requests log i user resource req)
    (hkey : ∀ k, hs.conf.key user = some k → ¬ hs.held k) :
    (∃ j, (hs.seq j).user = user ∧ (hs.seq j).resource = resource ∧ hs.Initiates log j i) ∧
    (∀ j, hs.Initiates log j i → hs.kind j = .knock ∧ req.operation = .openPort ∨
      hs.kind j = .close ∧ req.operation = .closePort) ∧
    (∃ l₁ l₂ a j c, log = l₂ ++ (.server i, ⟨.fwSend req, a⟩) :: l₁ ∧ (hs.seq j).user = user ∧
      (hs.seq j).resource = resource ∧ hs.Answered l₁ j i c) :=
  ⟨h.initiated hreq hkey, fun _ hj => h.kind_of_initiates hreq hj, h.answered hreq hkey⟩

theorem operation_of_initiator_sample :
    ∃ j, (sampleHandshake.seq j).user = ⟨1⟩ ∧ (sampleHandshake.seq j).resource = ⟨2⟩ ∧
      sampleHandshake.Initiates (sampleLog 0) j 0 :=
  (operation_of_initiator sampleHandshake (sampleLog_ok (.inl rfl)) (requests_sampleLog 0) fun _ _ h => h).1

/-- The attacker replays the `Knock` of one client run and passes the challenge on to another one that
wants to close the port. The port is opened. -/
theorem close_run_opens : sampleHandshake.Log (sampleLog 1) ∧
    Requests (sampleLog 1) 0 ⟨1⟩ ⟨2⟩ (.newOpen (.v4 ⟨192, 0, 2, 7⟩) .tcp 22) ∧
    sampleHandshake.Answers (sampleLog 1) 1 0 (.raw [5]) ∧
    (.server 0, recvd ((sampleHandshake.seq 1).responseMsg sampleSalt (.raw [5]))) ∈ sampleLog 1 ∧
    sampleHandshake.kind 1 = .close ∧ ∀ k, ¬ sampleHandshake.held k := by
  refine ⟨sampleLog_ok (.inr rfl), requests_sampleLog 1, ?_, ?_, rfl, fun _ h => h⟩
  · refine ⟨challengeMsg ⟨1⟩ ⟨2⟩ sampleSalt (.raw [5]), sampleSalt, .done (.ok ()), .done (.ok ()), rfl, rfl, ?_⟩
    exact (((((List.nil_sublist sampleStart).cons_cons _).cons_cons _).cons _).cons _).cons_cons _ |>.skip
      [_, _] _
  · exact List.mem_cons_of_mem _ (List.mem_cons_of_mem _ List.mem_cons_self)

end Letmein
