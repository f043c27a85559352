import Letmein.Honest
import Letmein.Site
import Mathlib.Data.Fintype.EquivFin

/-!
# A knock that gets through

Whatever has happened at a site before: while letmeinfwd accepts connections, a client that knocks can still get in, and
then the chain accepts its packets (`knock_gets_through`).
-/

namespace Letmein

variable {Auth : Type} [AuthToken Auth] {site : Site} {names : NftNames} {s s' : SiteState Auth}

/-! ## Runs of one party -/

/-- The log after a party has made these steps. -/
def said (p : Party) (t : List (NetEvent Auth)) (log : NetLog Auth) : NetLog Auth := (t.map (Prod.mk p)).reverse ++ log

/-- The answers in the trace can be given one after the other. -/
def Allowed (site : Site) (answers : List Answer) (p : Party) : NetLog Auth → List (NetEvent Auth) → Prop
  | _, [] => True
  | log, e :: t => Network site.held log e.1 e.2 ∧ Replied answers p e.1 e.2 ∧ Allowed site answers p ((p, e) :: log) t

/-- Another state of the site, in which only the party has gone on. -/
structure Advanced (p : Party) (t : List (NetEvent Auth)) (q : Endpoint Auth Unit) (s s' : SiteState Auth) : Prop where
  log : s'.log = said p t s.log
  self : s'.cur p = q
  others : ∀ p' ≠ p, s'.cur p' = s.cur p'
  daemon : s'.daemon = s.daemon
  answers : s'.answers = s.answers

theorem Site.Step.advance (site : Site) {p : Party} {p₀ q : Endpoint Auth Unit} {t : List (NetEvent Auth)}
    (h : p₀.Trace t q) (hcur : s.cur p = p₀) (hallowed : Allowed site s.answers p s.log t) :
    ∃ s', Relation.ReflTransGen site.Step s s' ∧ Advanced p t q s s' := by
  induction h generalizing s with
  | nil p₀ => exact ⟨s, .refl, rfl, hcur, fun _ _ => rfl, rfl, rfl⟩
  | @cons op k a t q h ih =>
    obtain ⟨hnet, hreply, hrest⟩ := hallowed
    let s₁ : SiteState Auth := { s with log := (p, ⟨op, a⟩) :: s.log, cur := Function.update s.cur p (k a) }
    have hstep : site.Step s s₁ := .party a hcur hnet hreply
    obtain ⟨s', hsteps, hadv⟩ := ih (s := s₁) (Function.update_self p (k a) s.cur) hrest
    refine ⟨s', .head hstep hsteps, ?_, hadv.self, fun p' hp' => ?_, hadv.daemon, hadv.answers⟩
    · rw [hadv.log, said, said, List.map_cons, List.reverse_cons, List.append_assoc]
      rfl
    · rw [hadv.others p' hp']
      exact Function.update_of_ne hp' _ _

omit [AuthToken Auth] in
theorem mem_said {p : Party} {t : List (NetEvent Auth)} {log : NetLog Auth} {e : NetEvent Auth} (he : e ∈ t) :
    (p, e) ∈ said p t log := by
  refine List.mem_append_left _ (List.mem_reverse.2 ?_)
  exact List.mem_map.2 ⟨e, he, rfl⟩

theorem known_of_sent {held : Key → Prop} {log : NetLog Auth} {p : Party} {msg : Message Auth} {r : Timed Unit}
    (h : (p, ⟨.send msg, r⟩) ∈ log) : Known held log msg.auth := .inl ⟨p, msg, r, h, rfl⟩

/-! ## letmeinfwd serves a session -/

theorem FirewallMessage.recv_msgSerialize (msg : FirewallMessage) :
    FirewallMessage.recv [.data msg.msgSerialize] = .ok (some (.ok (some msg))) := by
  have hlen : msg.msgSerialize.length = 24 := msg.length_msgSerialize
  have htake : msg.msgSerialize.take 24 = msg.msgSerialize := List.take_of_length_le hlen.le
  have hne : msg.msgSerialize.isEmpty = false := by
    cases hm : msg.msgSerialize with
    | nil => rw [hm] at hlen; cases hlen
    | cons b l => rfl
  simp only [recv, recvFrom, List.length_nil, Nat.sub_zero, FWMSG_SIZE, htake, hne, List.nil_append, hlen, check,
    tryMsgDeserialize_msgSerialize]
  rfl

/-- letmeinfwd waits for a connection and for a reason to exit. -/
structure FwdTasks.Ready (daemon : FwdTasks) : Prop where
  main : daemon.main = .selecting
  sock : daemon.sock = .looping .accepting

theorem FwdTasks.Ready.alive {daemon : FwdTasks} (h : daemon.Ready) : daemon.main.alive = true := by
  rw [h.main]
  rfl

/-- With a working `nft`, a permitted open request for a supported address is acknowledged. -/
theorem handleConnection_opens {conf : Config} {firewall : FwdState} (hn : readConfiguration conf = .ok names)
    (hsane : firewall.toFwState.Sane names) {env : NftEnv} (hnft : ∀ n, env.nft n = true) {req : FirewallMessage}
    {addr : IpAddr} {port : LeasePort} (hcall : req.call? = some (.openPort addr port)) (hp : Permitted conf req)
    (hs : Supported names.family addr) (it : IterOrder ResourceId) :
    ∃ r, handleConnection conf env it [.data req.msgSerialize] (.ok ()) firewall.fw firewall.kernel = .ok (some r) ∧
      r.reply = some .newAck ∧ (addr, port) ∈ r.fw.leases := by
  have hrecv := FirewallMessage.recv_msgSerialize req
  obtain ⟨r, hr⟩ : ∃ r, handleMessage conf env it (.ok (some req)) (.ok ()) firewall.fw firewall.kernel = .ok r :=
    handleMessage_returns hsane.running
  have hreq : RequestFor conf (.ok (some req)) (.openPort addr port) := ⟨req, rfl, hcall, hp⟩
  refine ⟨r, by simp only [handleConnection, hrecv, hr, bind, Except.bind]; rfl, ?_⟩
  cases handleMessage_ok hr with
  | refused hno => exact absurd hreq (hno _)
  | @acked call nr hreq' hnr hok hval hreply hfw hk =>
    cases hreq'.call_inj hreq
    refine ⟨hreply, ?_⟩
    rw [hfw]
    exact FwState.mem_of_opened (FwState.call_ok hn hsane hnr) hok
  | @nacked call nr e hreq' hnr herr =>
    cases hreq'.call_inj hreq
    have hopened : NftFirewall.Opened conf names env firewall.fw firewall.kernel addr port nr :=
      FwState.call_ok hn hsane hnr
    cases hopened with
    | refreshed => cases herr
    | added => cases herr
    | refused hnew hwhy =>
      rcases hwhy with hwhy | hwhy
      · exact absurd hs hwhy
      · rw [hnft 0] at hwhy
        cases hwhy

/-- The accept loop goes round once and spawns a handler. -/
theorem Site.Step.spawn (hready : s.daemon.Ready) {permits : Nat} (hcount : s.daemon.permits = permits + 1) {conn : Peer}
    (hacc : FirewallServer.accept site.opts (.ok conn) = .ok conn) :
    Relation.ReflTransGen site.Step s { s with daemon := { s.daemon with handlers := s.daemon.handlers ++ [conn] } } := by
  have halive := hready.alive
  refine .head (.daemon (FwdTasks.step_accepted site.conf halive hready.sock hacc) rfl) ?_
  refine .head (.daemon (FwdTasks.step_acquired site.conf site.opts halive rfl hcount) rfl) ?_
  refine .head (.daemon (FwdTasks.step_spawned site.conf site.opts halive rfl) rfl) ?_
  refine .head (.daemon (FwdTasks.step_dropped site.conf site.opts halive rfl) rfl) ?_
  rw [← hready.sock, ← hcount]

/-- letmeinfwd can accept the connection of a session and serve it. -/
theorem Site.Step.serve [DecidableEq Auth] (hn : readConfiguration site.conf = .ok names) (hinv : site.Inv names s)
    (hready : s.daemon.Ready) (hpos : 0 < site.opts.numConnections) {env : NftEnv} (hnft : ∀ n, env.nft n = true)
    {conn : Peer} {cred : UCred} {i : Nat} {req : FirewallMessage} (hcred : IsLetmeind site.opts conn cred)
    (hreads : conn.reads = [.data req.msgSerialize]) (hsend : conn.send = .ok ()) {r : Except String Unit}
    (hsent : (.server i, ⟨.fwSend req, r⟩) ∈ s.log) {addr : IpAddr} {port : LeasePort}
    (hcall : req.call? = some (.openPort addr port)) (hp : Permitted site.conf req) (hs : Supported names.family addr) :
    ∃ s', Relation.ReflTransGen site.Step s s' ∧ s'.log = s.log ∧ s'.cur = s.cur ∧ s'.daemon.Ready ∧
      (∃ answer ∈ s'.answers, answer.session = i ∧ answer.reply = some .newAck) ∧
      (addr, port) ∈ s'.daemon.firewall.fw.leases := by
  have halive := hready.alive
  have hpermits : s.daemon.permits = site.opts.numConnections := by
    have hall := hinv.sound.permits
    rw [hready.sock] at hall
    exact hall
  obtain ⟨permits, hcount⟩ : ∃ permits, s.daemon.permits = permits + 1 := ⟨s.daemon.permits - 1, by omega⟩
  obtain ⟨ret, hret, hreply, hlease⟩ := handleConnection_opens hn (hinv.sound.sane halive) hnft hcall hp hs conn.it
  rw [← hreads, ← hsend] at hret
  have hspawn := Site.Step.spawn hready hcount (FirewallServer.accept_ok_iff.2 ⟨rfl, cred, hcred⟩)
  have hserved := FwdTasks.step_served site.opts halive hret
  have hcarries : Carries s.log i conn := .inr ⟨req, r, hsent, by simp [hreads, SocketRead.bytes]⟩
  exact ⟨_, hspawn.tail (.served hserved (by simp) rfl fun _ _ => hcarries), rfl, rfl, ⟨hready.main, hready.sock⟩,
    ⟨_, List.mem_cons_self, rfl, hreply⟩, hlease⟩

/-! ## The exchange -/

/-- Client run `j` knocks with a user's key for a resource that the user may have, and letmeinfwd can open its port for
the address of the peer of session `i`. -/
structure Site.Admits (site : Site) (names : NftNames) (i j : Nat) (res : Resource) (portType : PortType) : Prop where
  kind : site.kind j = .knock
  key : site.conf.key (site.seq j).user = some (site.seq j).key
  resource : site.conf.resource (site.seq j).resource = some res
  user : res.containsUser (site.seq j).user = true
  control : res.num ≠ site.conf.port.port
  portType : res.portType = .ok portType
  addr : addrCheck (site.peer i) = true
  supported : Supported names.family (site.peer i)

theorem Site.Admits.entitled {i j : Nat} {res : Resource} {portType : PortType}
    (h : site.Admits names i j res portType) : Entitled site.conf (site.seq j) res portType :=
  ⟨h.key, h.resource, h.user, h.control, h.portType⟩

theorem Resource.portNumber_eq (res : Resource) : res.portNumber = res.num := by cases res; rfl

theorem Site.Admits.permitted {i j : Nat} {res : Resource} {portType : PortType}
    (h : site.Admits names i j res portType) : Permitted site.conf (.newOpen (site.peer i) portType res.num) where
  addr := by
    show addrCheck (octetsToAddr (addrToOctets (site.peer i)).1 (addrToOctets (site.peer i)).2) = true
    rw [octetsToAddr_addrToOctets]
    exact h.addr
  configured := ⟨_, res, h.resource, res.portNumber_eq⟩
  notControl := h.control

theorem Runs.init_of_proj [DecidableEq Auth] (h : Runs site.init (Network site.held) s.log s.cur) {p : Party}
    (hp : proj p s.log = []) : s.cur p = site.init p := by
  have htrace := h.trace p
  rw [hp] at htrace
  generalize s.cur p = q at htrace ⊢
  generalize (site.init p : Endpoint Auth Unit) = p₀ at htrace ⊢
  cases htrace
  rfl

theorem Site.Reaches.steps [DecidableEq Auth] (h : site.Reaches s) (hsteps : Relation.ReflTransGen site.Step s s') :
    site.Reaches s' := by
  obtain ⟨s₀, hstart, hsteps₀⟩ := h
  exact ⟨s₀, hstart, hsteps₀.trans hsteps⟩

/-- Client run `j` and session `i` stand at these programs, and the event has happened. -/
structure Paused (i j : Nat) (client server : Endpoint Auth Unit) (last : Party × NetEvent Auth) (s : SiteState Auth) :
    Prop where
  client : s.cur (.client j) = client
  server : s.cur (.server i) = server
  last : last ∈ s.log

namespace Exchange
variable {client server : Endpoint Auth Unit} {e : Authorisation Auth site.conf} {salt salt' salt'' : Salt}
  {req : FirewallMessage} {reply : FirewallMessage} {i j : Nat}

/-- The client knocks, and the session sends its challenge, which nobody has seen before. -/
theorem begins (x : Exchange client server e salt salt' req (.ok (some reply)) salt'')
    (hclient : s.cur (.client j) = client) (hserver : s.cur (.server i) = server)
    (hfresh : Fresh (said (.server i) [recvd e.knock, ⟨.salt, e.salt⟩] (said (.client j)
      [⟨.connect, .ok ()⟩, ⟨.salt, salt⟩, ⟨.send e.knock, .done (.ok ())⟩] s.log)) e.nonce) :
    ∃ s', Relation.ReflTransGen site.Step s s' ∧ s'.daemon = s.daemon ∧
      Paused i j x.knocked x.challenged (.server i, ⟨.send e.challenge, .done (.ok ())⟩) s' := by
  obtain ⟨s₁, hs₁, ha₁⟩ := Site.Step.advance site x.knocks hclient (by simp [Allowed, Network, Replied])
  have hknock : (.client j, ⟨.send e.knock, .done (.ok ())⟩) ∈ s₁.log := by
    rw [ha₁.log]
    exact mem_said (List.mem_of_getLast? rfl)
  have hserver₁ : s₁.cur (.server i) = server := (ha₁.others _ (by simp)).trans hserver
  have hfresh₁ : Fresh (said (.server i) [recvd e.knock, ⟨.salt, e.salt⟩] s₁.log) e.nonce := by
    rw [ha₁.log]
    exact hfresh
  obtain ⟨s₂, hs₂, ha₂⟩ := Site.Step.advance site x.challenges hserver₁
    ⟨known_of_sent hknock, trivial, trivial, trivial, hfresh₁, trivial, trivial, trivial, trivial⟩
  refine ⟨s₂, hs₁.trans hs₂, ha₂.daemon.trans ha₁.daemon, (ha₂.others _ (by simp)).trans ha₁.self, ha₂.self, ?_⟩
  rw [ha₂.log]
  exact mem_said (List.mem_of_getLast? rfl)

/-- The client responds to it, and the session makes its request. -/
theorem goesOn (x : Exchange client server e salt salt' req (.ok (some reply)) salt'')
    (h : Paused i j x.knocked x.challenged (.server i, ⟨.send e.challenge, .done (.ok ())⟩) s) :
    ∃ s', Relation.ReflTransGen site.Step s s' ∧ s'.daemon = s.daemon ∧
      Paused i j x.responded x.requested (.server i, ⟨.fwSend req, .ok ()⟩) s' := by
  obtain ⟨s₁, hs₁, ha₁⟩ := Site.Step.advance site x.responds h.client
    ⟨known_of_sent h.last, trivial, trivial, trivial, trivial, trivial, trivial⟩
  have hresponse : (.client j, ⟨.send e.response, .done (.ok ())⟩) ∈ s₁.log := by
    rw [ha₁.log]
    exact mem_said (List.mem_of_getLast? rfl)
  have hserver₁ : s₁.cur (.server i) = x.challenged := (ha₁.others _ (by simp)).trans h.server
  obtain ⟨s₂, hs₂, ha₂⟩ := Site.Step.advance site x.requests hserver₁
    ⟨known_of_sent hresponse, trivial, trivial, trivial, trivial, trivial, trivial⟩
  refine ⟨s₂, hs₁.trans hs₂, ha₂.daemon.trans ha₁.daemon, (ha₂.others _ (by simp)).trans ha₁.self, ha₂.self, ?_⟩
  rw [ha₂.log]
  exact mem_said (List.mem_of_getLast? rfl)

/-- The session reads the reply that was made for it, and tells the client. -/
theorem ends (x : Exchange client server e salt salt' req (.ok (some reply)) salt'')
    (h : Paused i j x.responded x.requested (.server i, ⟨.fwSend req, .ok ()⟩) s)
    (hanswer : ∃ answer ∈ s.answers, answer.session = i ∧ answer.reply = some reply) :
    ∃ s', Relation.ReflTransGen site.Step s s' ∧ s'.daemon = s.daemon ∧
      Paused i j x.returned x.replied (.server i, ⟨.send x.last, .done (.ok ())⟩) s' := by
  obtain ⟨s₁, hs₁, ha₁⟩ := Site.Step.advance site x.replies h.server
    ⟨trivial, hanswer, trivial, trivial, trivial, trivial, trivial⟩
  have hlast : (.server i, ⟨.send x.last, .done (.ok ())⟩) ∈ s₁.log := by
    rw [ha₁.log]
    exact mem_said (List.mem_of_getLast? rfl)
  have hclient₁ : s₁.cur (.client j) = x.responded := (ha₁.others _ (by simp)).trans h.client
  obtain ⟨s₂, hs₂, ha₂⟩ := Site.Step.advance site x.returns hclient₁
    ⟨known_of_sent hlast, trivial, trivial⟩
  refine ⟨s₂, hs₁.trans hs₂, ha₂.daemon.trans ha₁.daemon, ha₂.self, (ha₂.others _ (by simp)).trans ha₁.self, ?_⟩
  rw [ha₂.log]
  exact List.mem_append_right _ hlast

end Exchange

/-- The steps of a knock, one party after the other. -/
theorem Site.Reaches.knock [DecidableEq Auth] (hn : readConfiguration site.conf = .ok names)
    (hfresh : ∀ log : NetLog Auth, ∃ c, Fresh log c) (h : site.Reaches s) (hready : s.daemon.Ready)
    (hpos : 0 < site.opts.numConnections) {i j : Nat} (hi : proj (.server i) s.log = [])
    (hj : proj (.client j) s.log = []) {res : Resource} {portType : PortType}
    (hadmits : site.Admits names i j res portType) {env : NftEnv} (hnft : ∀ n, env.nft n = true) {cred : UCred}
    {pidFile : PidFile} {it : IterOrder ResourceId}
    (hcred : ∀ reads, IsLetmeind site.opts ⟨.ok cred, pidFile, reads, .ok (), it⟩ cred) :
    ∃ s' last, Relation.ReflTransGen site.Step s s' ∧ s'.cur (.client j) = .ret () ∧ s'.daemon.Ready ∧
      (site.peer i, leasePort portType res.num) ∈ s'.daemon.firewall.fw.leases ∧
      (.server i, ⟨.send last, .done (.ok ())⟩) ∈ s'.log ∧ last.operation = .comeIn := by
  have hinv := h.inv hn
  have hclient : s.cur (.client j) = (site.seq j).sequence .knock "knock" := by
    rw [Runs.init_of_proj hinv.runs hj]
    show Handshake.client (site.kind j) (site.seq j) = _
    rw [hadmits.kind]
    rfl
  have hserver : s.cur (.server i) = Protocol.run site.conf (site.peer i) := Runs.init_of_proj hinv.runs hi
  -- all salts are the same; the challenge is drawn after the initial message was received
  obtain ⟨salt⟩ : Nonempty Salt := ⟨.replicate 8 0⟩
  obtain ⟨c, hc⟩ := hfresh (said (.server i) [recvd ((site.seq j).firstMsg .knock salt), ⟨.salt, salt⟩]
    (said (.client j) (knocked (site.seq j) .knock salt (.done (.ok ()))) s.log))
  obtain ⟨x⟩ := hadmits.entitled.exchange (.inl rfl) "knock" (site.peer i) salt salt c salt (.ok (some .newAck)) salt
  obtain ⟨s₁, hs₁, hd₁, hpause₁⟩ := x.begins hclient hserver hc
  obtain ⟨s₂, hs₂, hd₂, hpause₂⟩ := x.goesOn hpause₁
  have hreach₂ : site.Reaches s₂ := h.steps (hs₁.trans hs₂)
  obtain ⟨s₃, hs₃, hlog₃, hcur₃, hready₃, hanswer, hlease⟩ := Site.Step.serve hn (hreach₂.inv hn)
    ((hd₂.trans hd₁) ▸ hready) hpos hnft (hcred _) rfl rfl hpause₂.last (Authorisation.call_request _ _ _)
    hadmits.permitted hadmits.supported
  have hpause₃ : Paused i j x.responded x.requested _ s₃ :=
    ⟨hcur₃ ▸ hpause₂.client, hcur₃ ▸ hpause₂.server, hlog₃ ▸ hpause₂.last⟩
  obtain ⟨s₄, hs₄, hd₄, hpause₄⟩ := x.ends hpause₃ hanswer
  obtain ⟨hcome, hret⟩ := x.comeIn rfl
  exact ⟨s₄, x.last, hs₁.trans (hs₂.trans (hs₃.trans hs₄)), hpause₄.client.trans hret, hd₄ ▸ hready₃, hd₄ ▸ hlease,
    hpause₄.last, hcome⟩

/-- While letmeinfwd accepts connections, a lease has its rules. -/
theorem Site.Reaches.accepts [DecidableEq Auth] (hn : readConfiguration site.conf = .ok names)
    (hports : PortsAgree site.conf) (h : site.Reaches s) (hready : s.daemon.Ready) {id : LeaseId}
    (hlease : id ∈ s.daemon.firewall.fw.leases) {port : SingleLeasePort} (hport : port ∈ id.2.singles) :
    Accepts names s.daemon.firewall.kernel id.1 port := by
  obtain ⟨variant, hvar⟩ := hports.variant
  have halive := hready.alive
  exact ((h.replies hn hvar).installed halive).accepts ((h.inv hn).sound.sane halive) hlease hport

/-- Whatever has happened before, while letmeinfwd accepts connections: a client run and a session that have not begun
can complete a knock, after which letmeinfwd accepts connections again and the chain accepts the packets of the peer. -/
theorem knock_gets_through [DecidableEq Auth] (hn : NftNames.get site.conf = .ok names) (hports : PortsAgree site.conf)
    (hfresh : ∀ log : NetLog Auth, ∃ c, Fresh log c) (h : site.Reaches s) (hready : s.daemon.Ready)
    (hpos : 0 < site.opts.numConnections) {i j : Nat} (hi : proj (.server i) s.log = [])
    (hj : proj (.client j) s.log = []) {res : Resource} {portType : PortType}
    (hadmits : site.Admits names i j res portType) {env : NftEnv} (hnft : ∀ n, env.nft n = true) {cred : UCred}
    {pidFile : PidFile} {it : IterOrder ResourceId}
    (hcred : ∀ reads, IsLetmeind site.opts ⟨.ok cred, pidFile, reads, .ok (), it⟩ cred) :
    ∃ s', Relation.ReflTransGen site.Step s s' ∧ s'.cur (.client j) = .ret () ∧ s'.daemon.Ready ∧
      ∀ port ∈ (leasePort portType res.num).singles, Accepts names s'.daemon.firewall.kernel (site.peer i) port := by
  have hn := FwState.readConfiguration_eq hn
  obtain ⟨s', last, hsteps, hret, hready', hlease, -, -⟩ := h.knock hn hfresh hready hpos hi hj hadmits hnft hcred
  exact ⟨s', hsteps, hret, hready', fun port hport => (h.steps hsteps).accepts hn hports hready' hlease hport⟩

/-! ### A site -/

def SymAuth.raw? : SymAuth → Option (List UInt8)
  | .raw bytes => some bytes
  | .mac _ _ => none

/-- The random bytes that an event is about. -/
def NetEvent.raw? : NetEvent SymAuth → Option (List UInt8)
  | ⟨.send msg, _⟩ => msg.auth.raw?
  | ⟨.recv, .done (.ok (some msg))⟩ => msg.auth.raw?
  | ⟨.challenge, a⟩ => a.raw?
  | _ => none

/-- There is always another random token. -/
theorem SymAuth.exists_fresh (log : NetLog SymAuth) : ∃ c, Fresh log c := by
  obtain ⟨l, hl⟩ := Infinite.exists_notMem_finset
    (List.replicate 32 0 :: log.filterMap fun e => NetEvent.raw? e.2).toFinset
  rw [List.mem_toFinset, List.mem_cons, not_or] at hl
  have hnot : ∀ p e, (p, e) ∈ log → NetEvent.raw? e ≠ some l := fun p e hmem he =>
    hl.2 (List.mem_filterMap.2 ⟨(p, e), hmem, he⟩)
  refine ⟨.raw l, ?_, ?_, ?_, fun h => hl.1 (by injection h), fun k x h => by cases h⟩
  · rintro ⟨p, msg, r, hmem, hauth⟩
    exact hnot p _ hmem (congrArg SymAuth.raw? hauth)
  · rintro ⟨p, msg, hmem, hauth⟩
    exact hnot p _ hmem (congrArg SymAuth.raw? hauth)
  · rintro ⟨p, hmem⟩
    exact hnot p _ hmem rfl

/-- User 1 may have port 22 for TCP. The clients knock, and nobody else has the key. -/
def sampleSite : Site where
  conf := { sampleServer with nftFamily := "inet", nftTable := "filter", nftChainInput := "LETMEIN-INPUT" }
  peer _ := .v4 ⟨192, 0, 2, 7⟩
  kind _ := .knock
  seq _ := ⟨⟨1⟩, ⟨2⟩, sampleKey⟩
  held _ := False
  opts := FwdTasks.sampleOpts

theorem sampleSite_portsAgree : PortsAgree sampleSite.conf := by
  have hres : ∀ id res, sampleSite.conf.resource id = some res → res = .port 22 true false [⟨1⟩] := by
    intro id res h
    by_cases hid : id = ⟨2⟩
    · subst hid
      cases h
      rfl
    · rw [Config.resource, sampleSite, sampleServer, Finmap.lookup_insert_of_ne _ hid] at h
      cases h
  intro id id' res res' h h' _
  rw [hres id res h, hres id' res' h']

theorem sampleSite_admits (i j : Nat) : sampleSite.Admits sampleNames i j (.port 22 true false [⟨1⟩]) .tcp where
  kind := rfl
  key := rfl
  resource := rfl
  user := rfl
  control := by decide
  portType := rfl
  addr := rfl
  supported := ⟨_, rfl⟩

theorem sampleSite_isLetmeind (reads : List SocketRead) : IsLetmeind sampleSite.opts
    ⟨.ok ⟨some 100, 990, 990⟩, .text "100\n".toList, reads, .ok (), FwdState.fwResources⟩ ⟨some 100, 990, 990⟩ where
  known := rfl
  pid := ⟨100, rfl, rfl⟩
  ids := .inr ⟨rfl, rfl⟩

theorem sampleSite_starts : ∃ fw k', sampleSite.Starts
    (⟨[], sampleSite.init, .start sampleSite.opts fw k', []⟩ : SiteState SymAuth) := by
  have hnew : NftFirewall.new sampleSite.conf (sampleEnv 0 []) .empty = .ok (_, _) := rfl
  exact ⟨_, _, ⟨hnew⟩⟩

theorem sampleEnv_works (now n : Nat) : (sampleEnv now []).nft n = true := rfl

theorem knock_gets_through_sample : ∃ s : SiteState SymAuth, sampleSite.Reaches s ∧ s.cur (.client 0) = .ret () ∧
    Accepts sampleNames s.daemon.firewall.kernel (.v4 ⟨192, 0, 2, 7⟩) (.tcp 22) := by
  obtain ⟨fw, k', hstart⟩ := sampleSite_starts
  have h : sampleSite.Reaches _ := ⟨_, hstart, .refl⟩
  obtain ⟨s', hsteps, hret, -, haccepts⟩ := knock_gets_through rfl sampleSite_portsAgree SymAuth.exists_fresh h ⟨rfl, rfl⟩
    (by decide) rfl rfl (sampleSite_admits 0 0) (sampleEnv_works 1) sampleSite_isLetmeind
  exact ⟨s', h.steps hsteps, hret, haccepts (.tcp 22) List.mem_cons_self⟩

/-- The client has been let in. -/
theorem sampleSite_knocked : ∃ (s : SiteState SymAuth) (last : Message SymAuth), sampleSite.Reaches s ∧
    s.daemon.Ready ∧ (.v4 ⟨192, 0, 2, 7⟩, .tcp 22) ∈ s.daemon.firewall.fw.leases ∧
    (.server 0, ⟨.send last, .done (.ok ())⟩) ∈ s.log ∧ last.operation = .comeIn := by
  obtain ⟨fw, k', hstart⟩ := sampleSite_starts
  have h : sampleSite.Reaches _ := ⟨_, hstart, .refl⟩
  have hn : readConfiguration sampleSite.conf = .ok sampleNames := rfl
  obtain ⟨s', last, hsteps, -, hready, hlease, hsent, hop⟩ := h.knock hn SymAuth.exists_fresh ⟨rfl, rfl⟩
    (by decide) rfl rfl (sampleSite_admits 0 0) (sampleEnv_works 1) sampleSite_isLetmeind
  exact ⟨s', last, h.steps hsteps, hready, hlease, hsent, hop⟩

end Letmein
