import Letmein.Agreement
import Letmein.NftFrame

/-!
# Both daemons of a site

letmeind and letmeinfwd on one host, with the clients, the attackers on the network and the other processes of the
host. All of them take turns in any order. What the sessions of letmeind write to the Unix socket is what comes in on
their connections to letmeinfwd, in pieces and perhaps not all of it; a connection of another process can carry
anything, but it does not get past `FirewallServer::accept`. What a session reads back is a reply that was made for it.
-/

namespace Letmein

/-! ## What arrives is what was sent -/

/-- The bytes that a read yields. -/
def SocketRead.bytes : SocketRead → List UInt8
  | .data bytes => bytes
  | _ => []

namespace FirewallMessage

theorem recvFrom_prefix_bytes {rxbuf : List UInt8} {reads : List SocketRead} {msg : FirewallMessage}
    (hlen : rxbuf.length ≤ FWMSG_SIZE) (h : recvFrom rxbuf reads = .ok (some (.ok (some msg)))) :
    msg.msgSerialize <+: rxbuf ++ reads.flatMap SocketRead.bytes := by
  induction reads generalizing rxbuf with
  | nil => cases h
  | cons read reads ih =>
    rcases read with _ | bytes | _ | e
    · cases h
    · simp only [recvFrom] at h
      split at h
      · cases h
      obtain ⟨u, -, h⟩ := Except.bind_ok h
      rw [List.flatMap_cons, SocketRead.bytes, ← List.append_assoc]
      split at h
      · obtain ⟨m, hm, h⟩ := Except.of_map_ok (Option.some.inj (Except.ok.inj h))
        cases h
        rw [msgSerialize_of_tryMsgDeserialize hm]
        refine List.IsPrefix.trans ?_ (List.prefix_append _ _)
        exact (List.prefix_append_right_inj rxbuf).2 (List.take_prefix _ _)
      · -- the buffer is not full, so the piece went in as a whole
        rename_i hne
        have hall : bytes.take (FWMSG_SIZE - rxbuf.length) = bytes := by
          refine List.take_of_length_le ?_
          rw [List.length_append, List.length_take] at hne
          omega
        rw [hall] at h hne
        refine ih ?_ h
        rw [← hall, List.length_append, List.length_take]
        omega
    · exact ih hlen h
    · cases h

/-- A message that is received is the one that was sent, however it is cut up on its way. -/
theorem eq_of_recv {reads : List SocketRead} {msg req : FirewallMessage}
    (h : recv reads = .ok (some (.ok (some msg)))) (hpre : reads.flatMap SocketRead.bytes <+: req.msgSerialize) :
    msg = req := by
  have hmsg : msg.msgSerialize <+: req.msgSerialize := (recvFrom_prefix_bytes (Nat.zero_le _) h).trans hpre
  have heq : msg.msgSerialize = req.msgSerialize :=
    hmsg.eq_of_length ((length_msgSerialize msg).trans (length_msgSerialize req).symm)
  have hdec := tryMsgDeserialize_msgSerialize msg
  rw [heq, tryMsgDeserialize_msgSerialize] at hdec
  exact (Except.ok.inj hdec).symm

end FirewallMessage

/-! ## The connections of the daemon -/

/-- The connection that the accept loop has and no handler yet. -/
def SockTask.conn : SockTask → List Peer
  | .looping (.acquiring conn) => [conn]
  | .looping (.permitted conn) => [conn]
  | _ => []

namespace FwdTasks
variable {conf : Config} {opts : FwdOpts} {s s' : FwdTasks} {act : FwdAct} {c : Peer}

/-- The connections that were accepted and are not done. -/
def conns (s : FwdTasks) : List Peer := s.sock.conn ++ s.handlers

theorem accept_conns {incoming : Except String Peer} (h : s.accept opts incoming = .ok s') (hc : c ∈ s'.conns) :
    c ∈ s.conns ∨ ∃ cred, IsLetmeind opts c cred := by
  unfold accept at h
  split at h
  · rcases incoming with e | peer
    · have herr : FirewallServer.accept opts (.error e) = .error e := rfl
      rw [herr] at h
      cases h
      exact .inl (List.mem_append_right _ hc)
    · split at h
      · rename_i conn hacc
        cases h
        obtain ⟨rfl, hpeer⟩ := FirewallServer.accept_ok_iff.1 hacc
        rcases List.mem_append.1 hc with hc | hc
        · rw [List.mem_singleton.1 hc]
          exact .inr hpeer
        · exact .inl (List.mem_append_right _ hc)
      · cases h
        exact .inl (List.mem_append_right _ hc)
  · cases h

theorem leave_conns {exitcode : Except String Unit} (h : s.leave exitcode = .ok s') : s'.conns = s.conns := by
  unfold leave at h
  split at h
  · cases h
    rfl
  · cases h

theorem recvExit_conns {message : Option String} {closed : Bool} (h : s.recvExit message closed = .ok s') :
    s'.conns = s.conns := by
  unfold recvExit at h
  split at h
  · exact leave_conns h
  · split at h
    · exact leave_conns h
    · cases h

/-- Every connection that has a handler, or will have one, is one of letmeind. -/
theorem step_conns (h : s.step conf opts act = .ok s') (hc : c ∈ s'.conns) :
    c ∈ s.conns ∨ ∃ cred, IsLetmeind opts c cred := by
  unfold step at h
  split_ifs at h with halive
  cases act with
  | accept incoming => exact accept_conns h hc
  | acquire =>
    dsimp only [acquire] at h
    split at h
    · rename_i hsock hpermits
      cases h
      refine .inl ?_
      rw [conns, hsock]
      exact hc
    · cases h
  | spawn =>
    dsimp only [spawn] at h
    split at h
    · rename_i conn hsock
      cases h
      refine .inl ?_
      rw [conns, hsock]
      rcases List.mem_append.1 hc with hc | hc
      · cases hc
      · exact List.mem_append.2 (List.mem_append.1 hc).symm
    · cases h
  | drop =>
    dsimp only [drop] at h
    split at h
    · cases h
      exact .inl (List.mem_append_right _ hc)
    · cases h
  | sendSock =>
    dsimp only [sendSock] at h
    split at h
    · cases h
      exact .inl (List.mem_append_right _ hc)
    · cases h
  | serve n env =>
    dsimp only [serve] at h
    split at h
    · cases h
    · split at h
      · cases h
      · cases h
        exact .inl hc
      · cases h
        refine .inl ?_
        rcases List.mem_append.1 hc with hc | hc
        · exact List.mem_append_left _ hc
        · exact List.mem_append_right _ ((List.eraseIdx_sublist _ _).subset hc)
  | maintain env =>
    dsimp only [maintain] at h
    split at h
    · split at h
      · cases h
      · cases h
        exact .inl hc
    · cases h
  | sendFw =>
    dsimp only [sendFw] at h
    split at h
    · cases h
      exact .inl hc
    · cases h
  | sigterm => exact .inl (leave_conns h ▸ hc)
  | sigint => exact .inl (leave_conns h ▸ hc)
  | sighup =>
    dsimp only [sighup] at h
    split at h
    · cases h
      exact .inl hc
    · cases h
  | recvSock => exact .inl (recvExit_conns h ▸ hc)
  | recvFw => exact .inl (recvExit_conns h ▸ hc)
  | shutdown env =>
    dsimp only [shutdown] at h
    split at h
    · split at h
      · cases h
      · cases h
        exact .inl hc
    · cases h

/-- What a step that ends no handler does to the firewall. -/
theorem Stepped.unserved (h : Stepped conf opts s s') (hserved : s'.served = s.served) :
    s'.firewall = s.firewall ∨ (∃ env, s.firewall.step conf (.maintain, env) = .ok s'.firewall) ∨
      ∃ env r, s.firewall.fw.shutdownFw conf env s.firewall.kernel = .ok r ∧ s'.firewall = ⟨r.fw, r.kernel⟩ := by
  cases h with
  | served hr =>
    have hlen := congrArg List.length hserved
    simp at hlen
  | @maintained env r hr =>
    refine .inr (.inl ⟨env, ?_⟩)
    simp only [FwdState.step, hr, bind, Except.bind]; rfl
  | @shutdown env r exitcode hmain hr => exact .inr (.inr ⟨env, r, hr, rfl⟩)
  | _ => exact .inl rfl

/-- The handler of a connection ends. -/
theorem serve_ended {n : Nat} {env : NftEnv} (h : s.step conf opts (.serve n env) = .ok s')
    (hconn : s.handlers[n]? = some c) {val : Except String Unit} {reply : Option FirewallMessage}
    (hserved : s'.served = (val, reply) :: s.served) : ∃ r, handleConnection conf env c.it c.reads c.send
      s.firewall.fw s.firewall.kernel = .ok (some r) ∧ reply = r.reply ∧ s'.firewall = ⟨r.fw, r.kernel⟩ := by
  unfold step at h
  split_ifs at h with halive
  simp only [serve, hconn] at h
  split at h
  · cases h
  · cases h
    have hlen := congrArg List.length hserved
    simp at hlen
  · rename_i r hr
    cases h
    exact ⟨r, hr, (Prod.mk.inj (List.cons.inj hserved).1).2.symm, rfl⟩

end FwdTasks

theorem handleConnection_ok {conf : Config} {env : NftEnv} {it : IterOrder ResourceId} {reads : List SocketRead}
    {send : Except String Unit} {fw : NftFirewall} {k : Kernel} {r : HandleRet}
    (h : handleConnection conf env it reads send fw k = .ok (some r)) :
    ∃ recv, FirewallMessage.recv reads = .ok (some recv) ∧ Handled conf env recv send fw k r := by
  obtain ⟨o, hrecv, h⟩ := Except.bind_ok h
  rcases o with _ | recv
  · cases h
  · obtain ⟨r', hr, hsome⟩ := Except.of_map_ok h
    cases hsome
    exact ⟨recv, hrecv, handleMessage_ok hr⟩

/-! ## Steps of a site -/

/-- The options of letmeinfwd, besides the parties of the handshakes. Both daemons load the same configuration. -/
structure Site extends Handshake where
  opts : FwdOpts

/-- A connection of a session that letmeinfwd is done with: its reply, and the firewall at that moment. -/
structure Answer where
  session : Nat
  reply : Option FirewallMessage
  firewall : FwdState

structure SiteState (Auth : Type) where
  log : NetLog Auth
  cur : Party → Endpoint Auth Unit
  daemon : FwdTasks
  answers : List Answer

variable {Auth : Type}

/-- What has come in on the connection is the beginning of what the session has written to it. -/
def Carries (log : NetLog Auth) (i : Nat) (conn : Peer) : Prop :=
  conn.reads.flatMap SocketRead.bytes = [] ∨ ∃ req r, (.server i, ⟨.fwSend req, r⟩) ∈ log ∧
    conn.reads.flatMap SocketRead.bytes <+: req.msgSerialize

/-- The message of a connection that carries what a session has written is the request of the session. -/
theorem Carries.request {log : NetLog Auth} {i : Nat} {conn : Peer} (hc : Carries log i conn) {msg : FirewallMessage}
    (hrecv : FirewallMessage.recv conn.reads = .ok (some (.ok (some msg)))) :
    ∃ r, (.server i, ⟨.fwSend msg, r⟩) ∈ log := by
  rcases hc with hnil | ⟨req, r, hmem, hpre⟩
  · have hpre := FirewallMessage.recvFrom_prefix_bytes (Nat.zero_le _) hrecv
    rw [hnil, List.append_nil, List.prefix_nil] at hpre
    have hlen := FirewallMessage.length_msgSerialize msg
    rw [hpre] at hlen
    cases hlen
  · rw [FirewallMessage.eq_of_recv hrecv hpre]
    exact ⟨r, hmem⟩

/-- A session has asked letmeinfwd to open the port for its peer. -/
def Asked (hs : Handshake) (log : NetLog Auth) (id : LeaseId) : Prop :=
  ∃ i portType num r, (.server i, ⟨.fwSend (.newOpen (hs.peer i) portType num), r⟩) ∈ log ∧
    id = (hs.peer i, leasePort portType num)

theorem Asked.mono {hs : Handshake} {log : NetLog Auth} {id : LeaseId} (h : Asked hs log id)
    (e : Party × NetEvent Auth) : Asked hs (e :: log) id := by
  obtain ⟨i, portType, num, r, hmem, hid⟩ := h
  exact ⟨i, portType, num, r, List.mem_cons_of_mem _ hmem, hid⟩

section
variable {hs : Handshake} {log : NetLog Auth} {names : NftNames}

/-- The firewall holds what sessions have asked for and the rules of the control port. -/
structure Site.Held (hs : Handshake) (names : NftNames) (log : NetLog Auth) (firewall : FwdState) : Prop where
  leases : ∀ id ∈ firewall.fw.leases, Asked hs log id
  rules : ∀ x ∈ firewall.kernel.content names.chain, x ∈ ctrlRules hs.conf names ∨
    ∃ id, Asked hs log id ∧ x ∈ idRules names id

theorem Site.Held.mono {firewall : FwdState} (h : Site.Held hs names log firewall) (e : Party × NetEvent Auth) :
    Site.Held hs names (e :: log) firewall := by
  refine ⟨fun id hid => (h.leases id hid).mono e, fun x hx => ?_⟩
  rcases h.rules x hx with hx | ⟨id, hid, hx⟩
  · exact .inl hx
  · exact .inr ⟨id, hid.mono e, hx⟩

/-- A call keeps it, if what it opens was asked for. -/
theorem Site.Held.called {firewall : FwdState} (h : Site.Held hs names log firewall) {env : NftEnv} {call : FwCall}
    {nr : NftRet} (hcalled : firewall.toFwState.Called hs.conf names env call nr)
    (hopen : ∀ id : LeaseId, call = .openPort id.1 id.2 → Asked hs log id) :
    Site.Held hs names log ⟨nr.fw, nr.kernel⟩ := by
  refine ⟨fun id hid => ?_, fun x hx => ?_⟩
  · rcases hcalled.leases hid with hid | hcall
    · exact h.leases id hid
    · exact hopen id hcall
  · rcases hcalled.rules hx with hx | hx | hx | ⟨addr, port, hcall, hx⟩
    · exact h.rules x hx
    · exact .inl hx
    · obtain ⟨id, hid, hx⟩ := mem_leasesRules.1 hx
      exact .inr ⟨id, h.leases id hid, hx⟩
    · exact .inr ⟨(addr, port), hopen (addr, port) hcall, hx⟩

theorem Site.Held.step {firewall firewall' : FwdState} (h : Site.Held hs names log firewall)
    (hn : readConfiguration hs.conf = .ok names) (hsane : firewall.toFwState.Sane names) {input : FwdEvent × NftEnv}
    (hstep : firewall.step hs.conf input = .ok firewall')
    (hopen : ∀ id : LeaseId, FwdState.Caused hs.conf (.openPort id.1 id.2) input.1 → Asked hs log id) :
    Site.Held hs names log firewall' := by
  rcases FwdState.step_ok hstep with rfl | ⟨call, nr, hcause, hcall, rfl⟩
  · exact h
  · refine h.called (FwState.call_ok hn hsane hcall) fun id hid => hopen id ?_
    rw [← hid]
    exact hcause

end

/-- A reply that a session receives was written to its connection. -/
def Replied (answers : List Answer) : Party → (op : Op Auth) → op.Ret → Prop
  | .server i, .fwRecv, .ok (some reply) => ∃ answer ∈ answers, answer.session = i ∧ answer.reply = some reply
  | _, _, _ => True

variable [AuthToken Auth]

namespace Site

/-- A party of a handshake makes a step, letmeinfwd makes one that ends no handler, or a handler of it ends. -/
inductive Step (site : Site) (s : SiteState Auth) : SiteState Auth → Prop
  | party {p : Party} {op : Op Auth} {k : op.Ret → Endpoint Auth Unit} (a : op.Ret) (hcur : s.cur p = .vis op k)
      (hnet : Network site.held s.log op a) (hreply : Replied s.answers p op a) :
      Step site s { s with log := (p, ⟨op, a⟩) :: s.log, cur := Function.update s.cur p (k a) }
  | daemon {act : FwdAct} {daemon : FwdTasks} (hstep : s.daemon.step site.conf site.opts act = .ok daemon)
      (hserved : daemon.served = s.daemon.served) : Step site s { s with daemon := daemon }
  | served {n i : Nat} {env : NftEnv} {conn : Peer} {daemon : FwdTasks} {val : Except String Unit}
      {reply : Option FirewallMessage} (hstep : s.daemon.step site.conf site.opts (.serve n env) = .ok daemon)
      (hconn : s.daemon.handlers[n]? = some conn) (hserved : daemon.served = (val, reply) :: s.daemon.served)
      (hpeer : ∀ cred, IsLetmeind site.opts conn cred → Carries s.log i conn) :
      Step site s { s with daemon := daemon, answers := ⟨i, reply, daemon.firewall⟩ :: s.answers }

variable [DecidableEq Auth]

/-- Both daemons have started. -/
inductive Starts (site : Site) : SiteState Auth → Prop
  | intro {env : NftEnv} {k k' : Kernel} {fw : NftFirewall} (hnew : NftFirewall.new site.conf env k = .ok (fw, k')) :
      Starts site ⟨[], site.init, .start site.opts fw k', []⟩

def Reaches (site : Site) (s : SiteState Auth) : Prop := ∃ s₀, site.Starts s₀ ∧ Relation.ReflTransGen site.Step s₀ s

end Site

/-! ## Where requests come from -/

variable [DecidableEq Auth] {hs : Handshake} {log : NetLog Auth} {i : Nat} {req : FirewallMessage}

/-- A request of a session follows from what it has received. It is the only one of the session. -/
theorem Handshake.Log.fwSend (h : hs.Log log) {r : Except String Unit} (hmem : (.server i, ⟨.fwSend req, r⟩) ∈ log) :
    ∃ (d : Authorisation Auth hs.conf) (portType : PortType) (t : List (NetEvent Auth)),
      d.resource.portType = .ok portType ∧ req = d.request (hs.peer i) portType ∧
      proj (.server i) log = (d.events ++ [⟨.fwConnect, .ok ()⟩]) ++ ⟨.fwSend req, r⟩ :: t ∧
      ∀ e ∈ t, ¬ IsRequest e := by
  obtain ⟨t₁, t₂, ht⟩ := List.append_of_mem (mem_proj.2 hmem)
  obtain ⟨st, hst⟩ := h.session i
  rw [ht] at hst
  obtain ⟨d, portType, hport, hreq, rfl, hafter⟩ := hst.request
  exact ⟨d, portType, t₂, hport, hreq, ht, hafter⟩

omit [DecidableEq Auth] in
theorem Authorisation.call_request {conf : Config} (d : Authorisation Auth conf) (peer : IpAddr) (portType : PortType) :
    (d.request peer portType).call? = some (if d.knock.operation = .close
      then .closePort peer (leasePort portType d.resource.num) else .openPort peer (leasePort portType d.resource.num)) := by
  have haddr := octetsToAddr_addrToOctets peer
  rcases d.request_cases peer portType with ⟨hop, h⟩ | ⟨hop, h⟩
  · rw [h, hop, if_neg (by decide)]
    simp only [FirewallMessage.call?, FirewallMessage.newOpen, haddr]
  · rw [h, hop, if_pos rfl]
    simp only [FirewallMessage.call?, FirewallMessage.newClose, haddr]

theorem Carries.asked {conn : Peer} (h : hs.Log log) (hc : Carries log i conn) {conf : Config}
    {recv : Except String (Option FirewallMessage)} (hrecv : FirewallMessage.recv conn.reads = .ok (some recv))
    {id : LeaseId} (hreq : RequestFor conf recv (.openPort id.1 id.2)) : Asked hs log id := by
  obtain ⟨addr, port⟩ := id
  obtain ⟨msg, rfl, hcall, -⟩ := hreq
  obtain ⟨r, hmem⟩ := hc.request hrecv
  obtain ⟨d, portType, t, -, rfl, -, -⟩ := h.fwSend hmem
  rw [d.call_request] at hcall
  rcases d.request_cases (hs.peer i) portType with ⟨hop, hopen⟩ | ⟨hop, -⟩
  · rw [hop, if_neg (by decide)] at hcall
    rw [hopen] at hmem
    cases hcall
    exact ⟨i, portType, d.resource.num, r, hmem, rfl⟩
  · rw [hop, if_pos rfl] at hcall
    cases hcall

/-! ## Every rule was asked for -/

namespace Site
variable {site : Site} {names : NftNames} {s s' : SiteState Auth}

/-- What holds in every state of a site. -/
structure Inv (site : Site) (names : NftNames) (s : SiteState Auth) : Prop where
  runs : Runs site.init (Network site.held) s.log s.cur
  sound : s.daemon.Sound names site.opts
  conns : ∀ c ∈ s.daemon.conns, ∃ cred, IsLetmeind site.opts c cred
  held : Held site.toHandshake names s.log s.daemon.firewall

theorem Inv.handshakes (h : Inv site names s) : site.toHandshake.Log s.log := ⟨s.cur, h.runs⟩

theorem conns_step {act : FwdAct} {daemon daemon' : FwdTasks} (h : ∀ c ∈ daemon.conns, ∃ cred, IsLetmeind site.opts c cred)
    (hstep : daemon.step site.conf site.opts act = .ok daemon') : ∀ c ∈ daemon'.conns, ∃ cred, IsLetmeind site.opts c cred := by
  intro c hc
  rcases FwdTasks.step_conns hstep hc with hc | hc
  · exact h c hc
  · exact hc

theorem Inv.carries (h : Inv site names s) {n i : Nat} {conn : Peer} (hconn : s.daemon.handlers[n]? = some conn)
    (hpeer : ∀ cred, IsLetmeind site.opts conn cred → Carries s.log i conn) : Carries s.log i conn := by
  obtain ⟨cred, hcred⟩ := h.conns conn (List.mem_append_right _ (List.mem_of_getElem? hconn))
  exact hpeer cred hcred

theorem Inv.step (hn : readConfiguration site.conf = .ok names) (h : Inv site names s) (hstep : site.Step s s') :
    Inv site names s' := by
  cases hstep with
  | party a hcur hnet hreply => exact ⟨.step _ a h.runs hcur hnet, h.sound, h.conns, h.held.mono _⟩
  | @daemon act daemon hstep hserved =>
    refine ⟨h.runs, h.sound.step hn hstep, conns_step h.conns hstep, ?_⟩
    obtain ⟨halive, hstepped⟩ := FwdTasks.step_ok hstep
    rcases hstepped.unserved hserved with hsame | ⟨env, hmaintain⟩ | ⟨env, r, hr, hfirewall⟩
    · dsimp only
      rw [hsame]
      exact h.held
    · exact h.held.step hn (h.sound.sane halive) hmaintain fun id hid => by cases hid
    · dsimp only
      rw [hfirewall]
      obtain ⟨hempty, hk⟩ := NftFirewall.shutdownFw_ok hn hr
      refine ⟨fun id hid => ?_, fun x hx => ?_⟩
      · rw [show r.fw.leases = ∅ from hempty] at hid
        exact absurd hid Finmap.notMem_empty
      · rcases hk with ⟨-, -, hk⟩ | ⟨-, -, hk⟩
        · rw [show r.kernel.content names.chain = 0 from hk] at hx
          exact absurd hx (Multiset.notMem_zero x)
        · rw [show r.kernel = s.daemon.firewall.kernel from hk] at hx
          exact h.held.rules x hx
  | @served n i env conn daemon val reply hstep hconn hserved hpeer =>
    refine ⟨h.runs, h.sound.step hn hstep, conns_step h.conns hstep, ?_⟩
    obtain ⟨halive, -⟩ := FwdTasks.step_ok hstep
    obtain ⟨r, hr, -, hfirewall⟩ := FwdTasks.serve_ended hstep hconn hserved
    have hcarries := h.carries hconn hpeer
    have hmessage : s.daemon.firewall.step site.conf (.message conn.reads conn.send conn.it, env) =
        .ok daemon.firewall := by
      simp only [FwdState.step, hr, hfirewall, bind, Except.bind]; rfl
    refine h.held.step hn (h.sound.sane halive) hmessage fun id hid => ?_
    obtain ⟨recv, hrecv, hreq⟩ := hid
    exact hcarries.asked h.handshakes hrecv hreq

theorem Inv.start (hn : readConfiguration site.conf = .ok names) (h : site.Starts s) : Inv site names s := by
  obtain ⟨hnew⟩ := h
  obtain ⟨-, hempty, hctrl⟩ := FwState.Sane.new hn hnew
  refine ⟨.start, FwdTasks.Sound.start hn hnew, fun c hc => (by cases hc), fun id hid => ?_, fun x hx => .inl ?_⟩
  · dsimp only [FwdTasks.start] at hid
    rw [hempty] at hid
    exact absurd hid Finmap.notMem_empty
  · dsimp only [FwdTasks.start] at hx
    rw [hctrl] at hx
    exact hx

theorem Reaches.inv (hn : readConfiguration site.conf = .ok names) (h : site.Reaches s) : Inv site names s := by
  obtain ⟨s₀, hstart, hsteps⟩ := h
  induction hsteps with
  | refl => exact Inv.start hn hstart
  | tail _ hstep ih => exact ih.step hn hstep

end Site

/-! ## Replies -/

/-- Resources for the same port number are for the same protocols. -/
def PortsAgree (conf : Config) : Prop := ∀ id id' res res', conf.resource id = some res →
  conf.resource id' = some res' → res.num = res'.num → res.portType = res'.portType

theorem PortsAgree.variant {conf : Config} (h : PortsAgree conf) : ∃ variant : UInt16 → LeasePort, ∀ id res portType,
    conf.resource id = some res → res.portType = .ok portType → leasePort portType res.num = variant res.num := by
  classical
  refine ⟨fun num => if hnum : ∃ portType id res, conf.resource id = some res ∧ res.num = num ∧
    res.portType = .ok portType then leasePort hnum.choose num else .tcp num, fun id res portType hres hport => ?_⟩
  have hnum : ∃ portType' id' res', conf.resource id' = some res' ∧ res'.num = res.num ∧
    res'.portType = .ok portType' := ⟨portType, id, res, hres, rfl, hport⟩
  dsimp only
  rw [dif_pos hnum]
  obtain ⟨id', res', hres', hnum', hport'⟩ := hnum.choose_spec
  rw [h id' id res' res hres' hres hnum', hport] at hport'
  rw [← Except.ok.inj hport']

namespace Site
variable {site : Site} {names : NftNames} {s s' : SiteState Auth} {variant : UInt16 → LeasePort}

/-- A call that was acknowledged has been carried out. -/
def CarriedOut (names : NftNames) (firewall : FwdState) : FwCall → Prop
  | .openPort addr port => ∀ p ∈ port.singles, Accepts names firewall.kernel addr p
  | .closePort addr port => (addr, port) ∉ firewall.fw.leases
  | .maintain => True

/-- The request of a session that was acknowledged has been carried out. -/
def Kept (names : NftNames) (log : NetLog Auth) (answer : Answer) : Prop :=
  ∀ reply, answer.reply = some reply → reply.operation = .ack → ∃ req r call,
    (.server answer.session, ⟨.fwSend req, r⟩) ∈ log ∧ req.call? = some call ∧ CarriedOut names answer.firewall call

structure Replies (names : NftNames) (variant : UInt16 → LeasePort) (s : SiteState Auth) : Prop where
  installed : s.daemon.main.alive = true → s.daemon.firewall.toFwState.Installed names variant
  kept : ∀ answer ∈ s.answers, Kept names s.log answer
  replied : ∀ i reply, (.server i, ⟨.fwRecv, .ok (some reply)⟩) ∈ s.log →
    ∃ answer ∈ s.answers, answer.session = i ∧ answer.reply = some reply

theorem installed_call {conf : Config} {firewall : FwdState} (hn : readConfiguration conf = .ok names)
    (hsane : firewall.toFwState.Sane names) (h : firewall.toFwState.Installed names variant) {env : NftEnv}
    {call : FwCall} {nr : NftRet} (hcall : firewall.toFwState.call conf env call = .ok nr)
    (hask : FwState.Asks variant call) : (⟨nr.fw, nr.kernel⟩ : FwdState).toFwState.Installed names variant := by
  have hstep : FwState.Installed names variant _ := h.step hn hsane hask (FwState.step_of_call hcall)
  exact ⟨hstep.uniform, hstep.rules⟩

theorem carriedOut_call {conf : Config} {firewall : FwdState} (hn : readConfiguration conf = .ok names)
    (hsane : firewall.toFwState.Sane names) (h : firewall.toFwState.Installed names variant) {env : NftEnv}
    {call : FwCall} {nr : NftRet} (hcall : firewall.toFwState.call conf env call = .ok nr)
    (hask : FwState.Asks variant call) (hval : nr.val = .ok ()) : CarriedOut names ⟨nr.fw, nr.kernel⟩ call := by
  have hcalled := FwState.call_ok hn hsane hcall
  have hinst := installed_call hn hsane h hcall hask
  cases call with
  | openPort addr port =>
    intro p hp
    exact hinst.accepts (hsane.called hcalled) (FwState.mem_of_opened hcalled hval) hp
  | closePort addr port =>
    intro hmem
    cases hcalled with
    | removed => exact (Finmap.mem_erase.1 hmem).1 rfl
    | ignored => exact (Finmap.mem_erase.1 hmem).1 rfl
    | failed => cases hval
  | maintain => trivial

/-- A connection that is served keeps the rules of the leases there, and its request is carried out before it is
acknowledged. -/
theorem carriedOut_handled {conf : Config} {firewall : FwdState} (hn : readConfiguration conf = .ok names)
    (hsane : firewall.toFwState.Sane names) (h : firewall.toFwState.Installed names variant) {env : NftEnv}
    {recv : Except String (Option FirewallMessage)} {send : Except String Unit} {r : HandleRet}
    (hr : Handled conf env recv send firewall.fw firewall.kernel r)
    (hask : ∀ call, RequestFor conf recv call → FwState.Asks variant call) :
    (⟨r.fw, r.kernel⟩ : FwdState).toFwState.Installed names variant ∧
      ∀ reply, r.reply = some reply → reply.operation = .ack →
        ∃ call, RequestFor conf recv call ∧ CarriedOut names ⟨r.fw, r.kernel⟩ call := by
  cases hr with
  | refused hno hval hreply hfw hk =>
    refine ⟨by rw [hfw, hk]; exact h, fun reply hsome hack => ?_⟩
    rcases hreply with hreply | hreply
    · rw [hreply] at hsome
      cases hsome
    · rw [hreply] at hsome
      cases hsome
      cases hack
  | @acked call nr hreq hcall hok hval hreply hfw hk =>
    rw [hfw, hk]
    exact ⟨installed_call hn hsane h hcall (hask call hreq), fun _ _ _ =>
      ⟨call, hreq, carriedOut_call hn hsane h hcall (hask call hreq) hok⟩⟩
  | @nacked call nr e hreq hcall herr hval hreply hfw hk =>
    rw [hfw, hk]
    refine ⟨installed_call hn hsane h hcall (hask call hreq), fun reply hsome hack => ?_⟩
    rw [hreply] at hsome
    cases hsome
    cases hack

/-- A connection of a session asks for a call with the protocols of its resource. -/
theorem asks_of_carries {hs : Handshake} (h : hs.Log log) {i : Nat} {conn : Peer} (hc : Carries log i conn)
    (hvar : ∀ id res portType, hs.conf.resource id = some res → res.portType = .ok portType →
      leasePort portType res.num = variant res.num) {recv : Except String (Option FirewallMessage)}
    (hrecv : FirewallMessage.recv conn.reads = .ok (some recv)) (call : FwCall) (hreq : RequestFor hs.conf recv call) :
    FwState.Asks variant call ∧ ∃ req r, (.server i, ⟨.fwSend req, r⟩) ∈ log ∧ req.call? = some call := by
  obtain ⟨msg, rfl, hcall, -⟩ := hreq
  obtain ⟨r, hmem⟩ := hc.request hrecv
  refine ⟨fun port hport => ?_, msg, r, hmem, hcall⟩
  obtain ⟨d, portType, t, hportType, rfl, -, -⟩ := h.fwSend hmem
  have hlease : port = leasePort portType d.resource.num := by
    rw [d.call_request] at hcall
    split_ifs at hcall
    · cases hcall
      exact (Option.some.inj hport).symm
    · cases hcall
      exact (Option.some.inj hport).symm
  rw [hlease, leasePort_num]
  exact hvar d.knock.resource d.resource portType d.resource_ok hportType

omit [AuthToken Auth] [DecidableEq Auth] in
theorem Kept.mono {answer : Answer} (h : Kept names log answer) (e : Party × NetEvent Auth) :
    Kept names (e :: log) answer := by
  intro reply hreply hack
  obtain ⟨req, r, call, hmem, hcall, hdone⟩ := h reply hreply hack
  exact ⟨req, r, call, List.mem_cons_of_mem _ hmem, hcall, hdone⟩

theorem Replies.step (hn : readConfiguration site.conf = .ok names)
    (hvar : ∀ id res portType, site.conf.resource id = some res → res.portType = .ok portType →
      leasePort portType res.num = variant res.num) (hinv : Inv site names s) (h : Replies names variant s)
    (hstep : site.Step s s') : Replies names variant s' := by
  cases hstep with
  | @party p op k a hcur hnet hreply =>
    refine ⟨h.installed, fun answer hans => (h.kept answer hans).mono _, fun i reply hmem => ?_⟩
    rcases List.mem_cons.1 hmem with he | hmem
    · cases he
      exact hreply
    · exact h.replied i reply hmem
  | @daemon act daemon hstep hserved =>
    refine ⟨fun halive' => ?_, h.kept, h.replied⟩
    obtain ⟨halive, hstepped⟩ := FwdTasks.step_ok hstep
    rcases hstepped.unserved hserved with hsame | ⟨env, hmaintain⟩ | ⟨env, r, hr, hfirewall⟩
    · dsimp only
      rw [hsame]
      exact h.installed halive
    · rcases FwdState.step_ok hmaintain with hsame | ⟨call, nr, hcause, hcall, hfirewall⟩
      · dsimp only
        rw [hsame]
        exact h.installed halive
      · cases hcause
        dsimp only
        rw [hfirewall]
        exact installed_call hn (hinv.sound.sane halive) (h.installed halive) hcall fun port hport => by cases hport
    · dsimp only
      rw [hfirewall]
      have hempty : ∀ id, id ∉ r.fw.leases := fun id hid => by
        rw [FwdTasks.shutdownFw_leases hr] at hid
        exact Finmap.notMem_empty hid
      exact ⟨fun id hid => (hempty id hid).elim, fun id hid => (hempty id hid).elim⟩
  | @served n i env conn daemon val reply hstep hconn hserved hpeer =>
    obtain ⟨halive, -⟩ := FwdTasks.step_ok hstep
    obtain ⟨r, hr, hreply, hfirewall⟩ := FwdTasks.serve_ended hstep hconn hserved
    obtain ⟨recv, hrecv, hhandled⟩ := handleConnection_ok hr
    have hcarries := hinv.carries hconn hpeer
    have hask := fun call hreq => asks_of_carries hinv.handshakes hcarries hvar hrecv call hreq
    obtain ⟨hinst, hdone⟩ := carriedOut_handled hn (hinv.sound.sane halive) (h.installed halive) hhandled
      fun call hreq => (hask call hreq).1
    rw [← hfirewall] at hinst hdone
    refine ⟨fun _ => hinst, fun answer hans => ?_, fun i reply hmem => ?_⟩
    · rcases List.mem_cons.1 hans with rfl | hans
      · intro reply' hreply' hack
        obtain ⟨call, hreq, hcarried⟩ := hdone reply' (hreply ▸ hreply') hack
        obtain ⟨req, r', hmem, hcall⟩ := (hask call hreq).2
        exact ⟨req, r', call, hmem, hcall, hcarried⟩
      · exact h.kept answer hans
    · obtain ⟨answer, hans, hfor⟩ := h.replied i reply hmem
      exact ⟨answer, List.mem_cons_of_mem _ hans, hfor⟩

theorem Replies.start (hn : readConfiguration site.conf = .ok names) (h : site.Starts s) :
    Replies names variant s := by
  obtain ⟨hnew⟩ := h
  obtain ⟨-, hempty, -⟩ := FwState.Sane.new hn hnew
  refine ⟨fun _ => ⟨fun id hid => ?_, fun id hid => ?_⟩, fun answer hans => (by cases hans),
    fun i reply hmem => (by cases hmem)⟩
  · dsimp only [FwdTasks.start, FwdState.toFwState] at hid
    rw [hempty] at hid
    exact absurd hid Finmap.notMem_empty
  · dsimp only [FwdTasks.start, FwdState.toFwState] at hid
    rw [hempty] at hid
    exact absurd hid Finmap.notMem_empty

theorem Reaches.replies (hn : readConfiguration site.conf = .ok names)
    (hvar : ∀ id res portType, site.conf.resource id = some res → res.portType = .ok portType →
      leasePort portType res.num = variant res.num) (h : site.Reaches s) : Replies names variant s := by
  obtain ⟨s₀, hstart, hsteps⟩ := h
  induction hsteps with
  | refl => exact Replies.start hn hstart
  | tail hsteps hstep ih => exact ih.step hn hvar (Reaches.inv hn ⟨s₀, hstart, hsteps⟩) hstep

end Site

/-- A session makes no other request. -/
theorem Handshake.Log.fwSend_unique {hs : Handshake} {log : NetLog Auth} (h : hs.Log log) {i : Nat}
    {req req' : FirewallMessage} {r r' : Except String Unit} (hmem : (.server i, ⟨.fwSend req, r⟩) ∈ log)
    (hmem' : (.server i, ⟨.fwSend req', r'⟩) ∈ log) : req = req' := by
  obtain ⟨d, portType, t, -, -, hproj, hafter⟩ := h.fwSend hmem
  have hin := mem_proj.2 hmem'
  rw [hproj] at hin
  rcases List.mem_append.1 hin with hin | hin
  · rcases List.mem_append.1 hin with hin | hin
    · exact absurd ⟨req', r', rfl⟩ (d.plain _ hin).not_request
    · simp at hin
  · rcases List.mem_cons.1 hin with he | hin
    · cases he
      rfl
    · exact absurd ⟨req', r', rfl⟩ (hafter _ hin)

end Letmein
