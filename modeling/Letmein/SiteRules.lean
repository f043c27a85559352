import Letmein.SiteKnock

/-!
# What the chain of a site holds

Every rule of the chain goes back to a session with an authorised user (`rules_authorised`), and a session that lets its
peer in has had its request carried out (`comeIn_carried_out`).
-/

namespace Letmein

variable {Auth : Type} [AuthToken Auth] {names : NftNames}

/-! ## Rules -/

/-- Why a rule is there: session `i` has asked for it on behalf of a user who has a key, for a resource that the user
may have and that is not the control port, after it had received a `Knock` and a response to its challenge, both with a
valid token. Unless an attacker holds the key, a client of the user has knocked, and one has sent that response before
the session asked for the rule. -/
structure Authorises (hs : Handshake) (names : NftNames) (log : NetLog Auth) (i : Nat) (user : UserId)
    (resource : ResourceId) (res : Resource) (portType : PortType) (rule : Rule) : Prop where
  key_ok : ∃ key, hs.conf.key user = some key
  resource_ok : hs.conf.resource resource = some res
  user_ok : res.containsUser user = true
  port_ok : res.num ≠ hs.conf.port.port
  portType_ok : res.portType = .ok portType
  rule_ok : rule ∈ idRules names (hs.peer i, leasePort portType res.num)
  requests : Requests log i user resource (.newOpen (hs.peer i) portType res.num)
  authenticated : ∃ (d : Authorisation Auth hs.conf) (r : Except String Unit) (t : List (NetEvent Auth)),
    d.knock.operation = .knock ∧ d.knock.user = user ∧ d.knock.resource = resource ∧ d.resource = res ∧
    proj (.server i) log = (d.events ++ [⟨.fwConnect, .ok ()⟩]) ++
      ⟨.fwSend (.newOpen (hs.peer i) portType res.num), r⟩ :: t
  answered : (∀ k, hs.conf.key user = some k → ¬ hs.held k) → ∃ j l₁ l₂ a c,
    log = l₂ ++ (.server i, ⟨.fwSend (.newOpen (hs.peer i) portType res.num), a⟩) :: l₁ ∧
    (hs.seq j).user = user ∧ (hs.seq j).resource = resource ∧ hs.Answered l₁ j i c
  knocked : (∀ k, hs.conf.key user = some k → ¬ hs.held k) → ∃ j, hs.kind j = .knock ∧ (hs.seq j).user = user ∧
    (hs.seq j).resource = resource ∧ hs.Initiates log j i

variable [DecidableEq Auth] {site : Site} {s s' : SiteState Auth}

theorem Asked.authorises [FreeHmac Auth] {hs : Handshake} {log : NetLog Auth} (h : hs.Log log) {id : LeaseId}
    (hid : Asked hs log id) {rule : Rule} (hrule : rule ∈ idRules names id) :
    ∃ i user resource res portType, Authorises hs names log i user resource res portType rule := by
  obtain ⟨i, portType, num, r, hmem, rfl⟩ := hid
  obtain ⟨d, portType', t, hport, hreq, hproj, -⟩ := h.fwSend hmem
  -- the request is that of a `Knock`, with the resource's port
  have hknock : d.knock.operation = .knock ∧ portType' = portType ∧ d.resource.num = num := by
    rcases d.request_cases (hs.peer i) portType' with ⟨hop, heq⟩ | ⟨-, heq⟩
    · rw [heq] at hreq
      injection hreq with _ hp hnum
      exact ⟨hop, hp.symm, hnum.symm⟩
    · rw [heq] at hreq
      cases hreq
  obtain ⟨hop, rfl, rfl⟩ := hknock
  have hrequests : Requests log i d.knock.user d.knock.resource (.newOpen (hs.peer i) portType' d.resource.num) := by
    refine ⟨d.knock, _, r, hproj, ?_, rfl, rfl⟩
    simp
  refine ⟨i, d.knock.user, d.knock.resource, d.resource, portType', ⟨d.key, d.key_ok⟩, d.resource_ok, d.user_ok,
    d.port_ok, hport, hrule, hrequests, ⟨d, r, t, hop, rfl, rfl, rfl, hproj⟩, fun hkey => ?_, fun hkey => ?_⟩
  · obtain ⟨l₁, l₂, a, j, c, hlog, huser, hres, hanswers⟩ := h.answered hrequests hkey
    exact ⟨j, l₁, l₂, a, c, hlog, huser, hres, hanswers⟩
  · obtain ⟨j, huser, hres, hinit⟩ := h.initiated hrequests hkey
    rcases h.kind_of_initiates hrequests hinit with ⟨hkind, -⟩ | ⟨-, hreqop⟩
    · exact ⟨j, hkind, huser, hres, hinit⟩
    · cases hreqop

/-- In every state that a site can reach, whatever the attackers on the network and the other processes of the host do
and whichever `nft` programs fail: a rule of the chain is one of the control port, or a session has asked for it on
behalf of an authorised user. -/
theorem rules_authorised [FreeHmac Auth] (hn : NftNames.get site.conf = .ok names) (h : site.Reaches s) {r : Rule}
    (hr : r ∈ s.daemon.firewall.kernel.rules) (hchain : r.chainId = names.chain) :
    r.erase ∈ ctrlRules site.conf names ∨
      ∃ i user resource res portType, Authorises site.toHandshake names s.log i user resource res portType r.erase := by
  have hinv := h.inv (FwState.readConfiguration_eq hn)
  rcases hinv.held.rules r.erase (Kernel.mem_content.2 ⟨r, hr, hchain, rfl⟩) with hctrl | ⟨id, hid, hrule⟩
  · exact .inl hctrl
  · exact .inr (hid.authorises hinv.handshakes hrule)

theorem rules_authorised_sample : ∃ (s : SiteState SymAuth) (r : Rule), sampleSite.Reaches s ∧
    r ∈ s.daemon.firewall.kernel.rules ∧ r.erase = ruleOf sampleNames (some (.v4 ⟨192, 0, 2, 7⟩)) (.tcp 22) ∧
    ∃ i user resource res portType,
      Authorises sampleSite.toHandshake sampleNames s.log i user resource res portType r.erase := by
  obtain ⟨s, last, h, hready, hlease, -, -⟩ := sampleSite_knocked
  have hn : readConfiguration sampleSite.conf = .ok sampleNames := rfl
  obtain ⟨variant, hvar⟩ := sampleSite_portsAgree.variant
  have halive := hready.alive
  have hrule := ((h.replies hn hvar).installed halive).rules _ hlease
    (ruleOf sampleNames (some (.v4 ⟨192, 0, 2, 7⟩)) (.tcp 22)) List.mem_cons_self
  obtain ⟨r, hr, hchain, herase⟩ := Kernel.mem_content.1 hrule
  refine ⟨s, r, h, hr, herase, ?_⟩
  rcases rules_authorised rfl h hr hchain with hctrl | hauth
  · rw [herase] at hctrl
    exact absurd hctrl (by decide)
  · exact hauth

/-! ## Come-in messages -/

/-- A session that lets its peer in: letmeinfwd has carried out its request and acknowledged it. When it had served
the request of a `Knock`, the chain accepted packets from the peer to the port of the resource, for each of its
protocols; when it had served that of a `Close`, there was no lease for the peer and the port. -/
theorem comeIn_carried_out (hn : NftNames.get site.conf = .ok names) (hports : PortsAgree site.conf)
    (h : site.Reaches s) {i : Nat} {msg : Message Auth} {r : Timed Unit}
    (hmem : (.server i, ⟨.send msg, r⟩) ∈ s.log) (hop : msg.operation = .comeIn) :
    ∃ knock t res portType answer, proj (.server i) s.log = recvd knock :: t ∧
      site.conf.resource knock.resource = some res ∧ res.portType = .ok portType ∧
      answer ∈ s.answers ∧ answer.session = i ∧
      (knock.operation = .knock ∧ (∀ port ∈ (leasePort portType res.num).singles,
          Accepts names answer.firewall.kernel (site.peer i) port) ∨
        knock.operation = .close ∧ (site.peer i, leasePort portType res.num) ∉ answer.firewall.fw.leases) := by
  have hn := FwState.readConfiguration_eq hn
  obtain ⟨variant, hvar⟩ := hports.variant
  have hinv := h.inv hn
  have hreplies := h.replies hn hvar
  obtain ⟨t₁, t₂, ht⟩ := List.append_of_mem (mem_proj.2 hmem)
  obtain ⟨st, hst⟩ := hinv.handshakes.session i
  rw [ht] at hst
  obtain ⟨d, portType, reply, salt, hport, hack, rfl, rfl⟩ := hst.comeIn ⟨msg, r, rfl, hop⟩
  have hlog : ∀ e ∈ proj (.server i) s.log, (.server i, e) ∈ s.log := fun e he => mem_proj.1 he
  rw [ht] at hlog
  have hsend : (.server i, ⟨.fwSend (d.request (site.peer i) portType), .ok ()⟩) ∈ s.log := hlog _ (by simp)
  have hrecv : (.server i, ⟨.fwRecv, .ok (some reply)⟩) ∈ s.log := hlog _ (by simp)
  obtain ⟨answer, hans, hsession, hreply⟩ := hreplies.replied i reply hrecv
  obtain ⟨req, r', call, hreq, hcall, hdone⟩ := hreplies.kept answer hans reply hreply hack
  rw [hsession] at hreq
  rw [← hinv.handshakes.fwSend_unique hsend hreq, d.call_request] at hcall
  refine ⟨d.knock, _, d.resource, portType, answer, ht, d.resource_ok, hport, hans, hsession, ?_⟩
  rcases d.operation_ok with hknock | hclose
  · rw [hknock, if_neg (by decide)] at hcall
    cases hcall
    exact .inl ⟨hknock, hdone⟩
  · rw [hclose, if_pos rfl] at hcall
    cases hcall
    exact .inr ⟨hclose, hdone⟩

theorem comeIn_carried_out_sample : ∃ (s : SiteState SymAuth) (last : Message SymAuth), sampleSite.Reaches s ∧
    (.server 0, ⟨.send last, .done (.ok ())⟩) ∈ s.log ∧ last.operation = .comeIn ∧
    ∃ answer ∈ s.answers, answer.session = 0 := by
  obtain ⟨s, last, h, -, -, hsent, hop⟩ := sampleSite_knocked
  obtain ⟨knock, t, res, portType, answer, -, -, -, hans, hsession, -⟩ :=
    comeIn_carried_out rfl sampleSite_portsAgree h hsent hop
  exact ⟨s, last, h, hsent, hop, answer, hans, hsession⟩

end Letmein
