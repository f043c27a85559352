import Letmein.Honest
import Letmein.SrvTasks
import Letmein.UdpWakeups

/-!
# The life of the server daemon

How a run of letmeind ends. The accept loop is left only for an error of the TCP listener or of a TCP connection:
nothing that comes in by UDP ends it. The dispatcher panics only after an overflow of a queue. A signal or an error
ends the daemon with an abort if a session is open at that time. Until then no connection is lost: an accepted
entry of the dispatcher always belongs to a socket that will be closed and will remove it.
-/

namespace Letmein

/-! ## Connections and their entries -/

theorem Connection.handle_running {conn : Connection} {p q : Endpoint AuthBytes Unit}
    (h : conn.handle p = .running q) : q = p := by
  cases p with
  | vis op k => cases h; rfl
  | _ =>
    simp only [Connection.handle, Connection.close] at h
    split at h <;> cases h

/-- The peer of a UDP connection. -/
def Connection.udpPeer? (conn : Connection) : Option SocketAddr :=
  match conn.l4proto with
  | .tcp => none
  | .udp => some conn.peerAddr

/-- The peer whose entry the handler will remove. -/
def ConnTask.udpPeer? (conn : Connection) : ConnTask → Option SocketAddr
  | .closed => none
  | _ => conn.udpPeer?

theorem Connection.handle_closing {conn : Connection} {p : Endpoint AuthBytes Unit} (h : conn.handle p = .closing) :
    conn.udpPeer? = some conn.peerAddr := by
  have hclose : conn.close = .closing → conn.udpPeer? = some conn.peerAddr := by
    obtain ⟨l4proto, peerAddr⟩ := conn
    cases l4proto with
    | tcp => exact nofun
    | udp => exact fun _ => rfl
  cases p with
  | vis op k => cases h
  | _ => exact hclose h

@[simp] theorem ConnTask.udpPeer?_handle (conn : Connection) (p : Endpoint AuthBytes Unit) :
    (conn.handle p).udpPeer? conn = conn.udpPeer? := by
  have hclose : conn.close.udpPeer? conn = conn.udpPeer? := by
    obtain ⟨l4proto, peerAddr⟩ := conn
    cases l4proto <;> rfl
  cases p with
  | vis op k => rfl
  | _ => exact hclose

namespace UdpDispatcherRx
variable {msgSize qSize : Nat} {s : UdpDispatcherRx msgSize qSize} {socket : SockRecv msgSize} {k peer : SocketAddr}

theorem accepted_iff : s.Accepted k ↔ (s.entry k).accepted = true := by
  refine ⟨?_, accepted_of_entry⟩
  rintro ⟨c, hc, hacc⟩
  rwa [entry_of_lookup hc]

/-- Only `try_accept` accepts. -/
theorem Received.of_accepted {r : UdpRet msgSize qSize (Except String Unit)} (hr : Received s socket r)
    (h : r.rx.Accepted k) : s.Accepted k := by
  have hmem : k ∈ r.rx.conn := by
    obtain ⟨c, hc, -⟩ := h
    exact Finmap.mem_of_lookup_eq_some hc
  have hsame := (hr.queue hmem).2
  rw [accepted_iff] at h ⊢
  rw [← hsame, h]

theorem tryAccept_of_accepted (hwf : s.Wf) {it : IterOrder SocketAddr} {r : UdpRet msgSize qSize (Option SocketAddr)}
    (hr : s.tryAccept socket it = .ok r) (h : r.rx.Accepted k) : r.val = some k ∨ s.Accepted k := by
  obtain ⟨r₀, h₀, ⟨-, hrx⟩ | ⟨j, c, -, hj, -, hval, hrx⟩⟩ := tryAccept_ok hr
  · rw [hrx] at h
    exact .inr (h₀.of_accepted h)
  · by_cases hk : k = j
    · have hpeer := (h₀.wf hwf).peer j c hj
      rw [hval, hpeer, hk]
      exact .inl rfl
    · rw [hrx, accepted_iff, entry_put_of_ne hk] at h
      exact .inr (h₀.of_accepted (accepted_iff.2 h))

theorem tryRecvFrom_of_accepted {r : UdpRet msgSize qSize (Except String (Option (Datagram msgSize)))}
    (hr : s.tryRecvFrom socket peer = .ok r) (h : r.rx.Accepted k) : s.Accepted k := by
  obtain ⟨r₀, h₀, ⟨hrx, -⟩ | ⟨c, buf, rest, hc, -, -, -, hrx⟩⟩ := tryRecvFrom_ok hr
  · rw [hrx] at h
    exact h₀.of_accepted h
  · refine h₀.of_accepted (accepted_iff.2 ?_)
    rw [hrx, accepted_iff] at h
    by_cases hk : k = peer
    · subst hk
      rw [entry_put_self] at h
      rw [entry_of_lookup hc, ← h]
    · rwa [entry_put_of_ne hk] at h

theorem forget_of_accepted (h : (s.forget peer).Accepted k) : k ≠ peer ∧ s.Accepted k := by
  obtain ⟨c, hc, hacc⟩ := h
  have hne : k ≠ peer := by
    rintro rfl
    exact notMem_drop s k (Finmap.mem_of_lookup_eq_some hc)
  exact ⟨hne, c, (lookup_drop_of_ne hne).symm.trans hc, hacc⟩

end UdpDispatcherRx

namespace SrvTasks

variable {conf : Config} {s s' : SrvTasks} {act : SrvAct}

/-! ## Causes -/

/-- The accept loop has failed with `e`: the listener has, or the socket option of a connection. -/
def AcceptFailed (acts : List SrvAct) (e : String) : Prop :=
  .tcpAccept (.error e) ∈ acts ∨ e = "Set TCP_NODELAY" ∧ ∃ e', .acceptTcp (.error e') ∈ acts

/-- Why the daemon has ended. -/
inductive ExitCause (acts : List SrvAct) : Except String Unit → Prop
  | sigterm (h : .sigterm ∈ acts) : ExitCause acts (.ok ())
  | sigint (h : .sigint ∈ acts) : ExitCause acts (.error "Interrupted by SIGINT.")
  | sock {e : String} (h : AcceptFailed acts e) : ExitCause acts (.error e)

/-- The errors in the tasks come from acts of the run, and a daemon that has ended had all its connections closed. -/
structure Caused (acts : List SrvAct) (s : SrvTasks) : Prop where
  tcpJoin : ∀ e, s.tcpJoin = some (.error e) → .tcpAccept (.error e) ∈ acts
  sending : ∀ e, s.sock = .sending e → AcceptFailed acts e
  exitSock : ∀ e, s.exitSock = some e → AcceptFailed acts e
  stopped : s.sock.stopped = true → s.exitSock.isSome = true
  main : s.main = .selecting ∨ ∃ exitcode, s.main = .exited exitcode ∧ ExitCause acts exitcode ∧ s.Closed

namespace Caused
variable {acts : List SrvAct}

theorem start (srv : Server) (numConnections : Nat) (acts : List SrvAct) : (SrvTasks.start srv numConnections).Caused acts where
  tcpJoin := nofun
  sending := nofun
  exitSock := nofun
  stopped := nofun
  main := .inl rfl

theorem exitCause (h : s.Caused acts) (hact : act ∈ acts) {exitcode : Except String Unit}
    (hcode : s.exitcode? act = some exitcode) : ExitCause acts exitcode := by
  cases act with
  | sigterm =>
    cases hcode
    exact .sigterm hact
  | sigint =>
    cases hcode
    exact .sigint hact
  | recvSock =>
    simp only [exitcode?] at hcode
    split at hcode
    · rename_i e he
      cases hcode
      exact .sock (h.exitSock e he)
    · rename_i hnone
      split_ifs at hcode with hstopped
      have hsome := h.stopped hstopped
      rw [hnone] at hsome
      cases hsome
  | _ => cases hcode

/-- As long as the daemon runs, what a step leaves of the accept loop is accounted for. -/
theorem of_selecting (h : s.Caused acts) (hmain : s'.main = s.main) (halive : s.main.alive = true)
    (htcp : ∀ e, s'.tcpJoin = some (.error e) → .tcpAccept (.error e) ∈ acts)
    (hsending : ∀ e, s'.sock = .sending e → AcceptFailed acts e)
    (hexit : ∀ e, s'.exitSock = some e → AcceptFailed acts e)
    (hstopped : s'.sock.stopped = true → s'.exitSock.isSome = true) : s'.Caused acts := by
  refine ⟨htcp, hsending, hexit, hstopped, .inl ?_⟩
  rw [hmain]
  rcases h.main with hsel | ⟨exitcode, hexited, -⟩
  · exact hsel
  · rw [hexited] at halive
    cases halive

theorem step [HmacSha3] (h : s.Caused acts) (hact : act ∈ acts) (hstep : s.step conf act = .ok s') :
    s'.Caused acts := by
  obtain ⟨halive, hstep⟩ := step_ok hstep
  cases hstep with
  | connected =>
    refine h.of_selecting rfl halive (fun e he => ?_) h.sending h.exitSock h.stopped
    cases he
    exact hact
  | acceptedTcp => exact h.of_selecting rfl halive nofun nofun h.exitSock nofun
  | failedNodelay =>
    refine h.of_selecting rfl halive nofun (fun e he => ?_) h.exitSock nofun
    cases he
    exact .inr ⟨rfl, _, hact⟩
  | failedTcp hsock hjoin =>
    refine h.of_selecting rfl halive nofun (fun e he => ?_) h.exitSock nofun
    cases he
    exact .inl (h.tcpJoin _ hjoin)
  | acceptedUdp => exact h.of_selecting rfl halive h.tcpJoin nofun h.exitSock nofun
  | acquired => exact h.of_selecting rfl halive h.tcpJoin nofun h.exitSock nofun
  | spawned => exact h.of_selecting rfl halive h.tcpJoin nofun h.exitSock nofun
  | dropped => exact h.of_selecting rfl halive h.tcpJoin nofun h.exitSock nofun
  | sent hsock =>
    refine h.of_selecting rfl halive h.tcpJoin nofun (fun e he => ?_) fun _ => rfl
    cases he
    exact h.sending _ hsock
  | exited hcode hclosed =>
    exact ⟨h.tcpJoin, h.sending, h.exitSock, h.stopped, .inr ⟨_, rfl, h.exitCause hact hcode, hclosed⟩⟩
  | _ => exact h.of_selecting rfl halive h.tcpJoin h.sending h.exitSock h.stopped

theorem run [HmacSha3] {srv : Server} {numConnections : Nat}
    (hrun : runAll (SrvTasks.step conf) (SrvTasks.start srv numConnections) acts = .ok s) : s.Caused acts :=
  runAll_inv_mem (fun _ _ _ hact h hstep => h.step hact hstep) (start srv numConnections acts) hrun

end Caused

/-! ## Sessions -/

theorem Harmless.All.step [HmacSha3] (hconf : conf.HasProtocols) (h : Harmless.All s)
    (hstep : s.step conf act = .ok s') : Harmless.All s' := by
  have hset : ∀ {n : Nat} {conn : Connection} {task : ConnTask}, (∀ p, task = .running p → Harmless p) →
      ∀ conn' p, (conn', .running p) ∈ s.handlers.set n (conn, task) → Harmless p := by
    intro n conn task htask conn' p hp
    rcases List.mem_or_eq_of_mem_set hp with hp | hp
    · exact h conn' p hp
    · cases hp
      exact htask p rfl
  cases (step_ok hstep).2 with
  | @spawned conn =>
    intro conn' p hp
    rcases List.mem_append.1 hp with hp | hp
    · exact h conn' p hp
    · obtain ⟨-, hp⟩ := Prod.mk.inj (List.mem_singleton.1 hp)
      rw [Connection.handle_running hp.symm]
      exact run_ne_panicked hconf _
  | received hn =>
    refine hset fun p hp => ?_
    rw [Connection.handle_running hp]
    exact (h _ _ (List.mem_of_getElem? hn)).2 _
  | resumed _ hn =>
    refine hset fun p hp => ?_
    rw [Connection.handle_running hp]
    exact (h _ _ (List.mem_of_getElem? hn)).2 _
  | disconnected => exact hset nofun
  | _ => exact h

/-! ## The dispatcher -/

/-- The act overflows a queue. -/
def Overflows (s : SrvTasks) (act : SrvAct) : Prop :=
  match s.udpCall act with
  | some call => s.rx.Overflows call
  | none => False

instance (s : SrvTasks) (act : SrvAct) : Decidable (s.Overflows act) :=
  match h : s.udpCall act with
  | some call => decidable_of_iff (s.rx.Overflows call) (by rw [Overflows, h])
  | none => .isFalse (by rw [Overflows, h]; exact id)

theorem drift_step [HmacSha3] {maxNrConn n : Nat} (h : s.rx.Drift maxNrConn n) (hstep : s.step conf act = .ok s') :
    s'.rx.Drift maxNrConn (n + if s.Overflows act then 1 else 0) := by
  rcases (step_ok hstep).2.dispatched with ⟨call, hcall, hexec⟩ | ⟨hcall, hrx⟩
  · have hiff : s.Overflows act ↔ s.rx.Overflows call := by rw [Overflows, hcall]
    simp only [hiff]
    exact h.step (by decide) hexec
  · have hno : ¬ s.Overflows act := by rw [Overflows, hcall]; exact id
    rw [if_neg hno, hrx]
    exact h

/-! ## Owners -/

/-- The peers of the UDP connections that have not been disconnected. -/
def udpPeers (s : SrvTasks) : List SocketAddr :=
  s.udpJoin.toList ++ ((s.sock.conn?.bind Connection.udpPeer?).toList ++
    s.handlers.filterMap fun h => h.2.udpPeer? h.1)

/-- Only UDP sockets are waiting to be disconnected. -/
def ClosingUdp (s : SrvTasks) : Prop := ∀ conn, (conn, .closing) ∈ s.handlers → conn.udpPeer? = some conn.peerAddr

theorem ClosingUdp.step [HmacSha3] (h : s.ClosingUdp) (hstep : s.step conf act = .ok s') : s'.ClosingUdp := by
  have hset : ∀ {n : Nat} {conn : Connection} {task : ConnTask},
      (task = .closing → conn.udpPeer? = some conn.peerAddr) →
      ∀ conn', (conn', .closing) ∈ s.handlers.set n (conn, task) → conn'.udpPeer? = some conn'.peerAddr := by
    intro n conn task htask conn' hmem
    rcases List.mem_or_eq_of_mem_set hmem with hmem | heq
    · exact h conn' hmem
    · cases heq
      exact htask rfl
  cases (step_ok hstep).2 with
  | spawned =>
    intro conn' hmem
    rcases List.mem_append.1 hmem with hmem | hmem
    · exact h conn' hmem
    · obtain ⟨rfl, heq⟩ := Prod.mk.inj (List.mem_singleton.1 hmem)
      exact Connection.handle_closing heq.symm
  | received => exact hset Connection.handle_closing
  | resumed => exact hset Connection.handle_closing
  | disconnected => exact hset nofun
  | _ => exact h

/-- What a step does to the dispatcher and to the connections that own its entries. -/
inductive Owners (s : SrvTasks) (act : SrvAct) (s' : SrvTasks) : Prop
  | accepted {socket : SockRecv MSG_SIZE} {it : IterOrder SocketAddr} {r : UdpRet MSG_SIZE 4 (Option SocketAddr)}
      (hcall : s.udpCall act = some (.tryAccept socket it)) (hr : s.rx.tryAccept socket it = .ok r)
      (hrx : s'.rx = r.rx) (hpeers : s'.udpPeers = r.val.toList ++ s.udpPeers)
  | received {socket : SockRecv MSG_SIZE} {peer : SocketAddr}
      {r : UdpRet MSG_SIZE 4 (Except String (Option (Datagram MSG_SIZE)))}
      (hcall : s.udpCall act = some (.tryRecvFrom socket peer)) (hr : s.rx.tryRecvFrom socket peer = .ok r)
      (hrx : s'.rx = r.rx) (hpeers : s'.udpPeers = s.udpPeers)
  | disconnected {peer : SocketAddr} (hrx : s'.rx = s.rx.forget peer) (hpeers : s.udpPeers.Perm (peer :: s'.udpPeers))
  | kept (hrx : s'.rx = s.rx) (hpeers : s'.udpPeers.Perm s.udpPeers)

theorem Stepped.owners [HmacSha3] (hclosing : s.ClosingUdp) (h : Stepped conf s act s') : Owners s act s' := by
  have hset : ∀ {n : Nat} {conn : Connection} {p q : Endpoint AuthBytes Unit},
      s.handlers[n]? = some (conn, .running p) →
      (s.handlers.set n (conn, conn.handle q)).filterMap (fun h => h.2.udpPeer? h.1) =
        s.handlers.filterMap fun h => h.2.udpPeer? h.1 := by
    intro n conn p q hn
    refine List.filterMap_set_of_eq hn ?_
    rw [ConnTask.udpPeer?_handle]
    rfl
  -- The accept loop has no connection in hand.
  have hidle : ∀ {state : LoopState Connection}, s.sock = .looping state → state.conn? = none →
      s.udpPeers = s.udpJoin.toList ++ s.handlers.filterMap fun h => h.2.udpPeer? h.1 := by
    intro state hsock hnone
    rw [udpPeers, hsock, AcceptTask.conn?, hnone]
    rfl
  cases h with
  | polled hjoin hr =>
    refine .accepted (if_pos hjoin) hr rfl ?_
    rw [udpPeers, udpPeers, hjoin.2]
    rfl
  | waited hn hr => exact .received (by rw [udpCall, hn]) hr rfl rfl
  | received hn hr =>
    refine .received (by rw [udpCall, hn]) hr rfl ?_
    rw [udpPeers, udpPeers, hset hn]
  | resumed _ hn =>
    refine .kept rfl ?_
    rw [udpPeers, udpPeers, hset hn]
  | @disconnected n conn rx hn hr =>
    refine .disconnected (UdpDispatcherRx.disconnect_ok hr) ?_
    have hpeer : ConnTask.closing.udpPeer? conn = some conn.peerAddr := hclosing conn (List.mem_of_getElem? hn)
    have hperm := List.filterMap_set_perm (f := fun h : Connection × ConnTask => h.2.udpPeer? h.1)
      (b := (conn, ConnTask.closed)) hn hpeer rfl
    rw [udpPeers, udpPeers, ← List.append_assoc, ← List.append_assoc]
    exact (hperm.append_left _).trans List.perm_middle
  | acceptedUdp hsock hjoin =>
    refine .kept rfl ?_
    rw [hidle hsock rfl, hjoin]
    rfl
  | acceptedTcp hsock =>
    refine .kept rfl ?_
    rw [hidle hsock rfl]
    rfl
  | failedNodelay hsock =>
    refine .kept rfl ?_
    rw [hidle hsock rfl]
    rfl
  | failedTcp hsock =>
    refine .kept rfl ?_
    rw [hidle hsock rfl]
    rfl
  | dropped hsock =>
    refine .kept rfl ?_
    rw [hidle hsock rfl]
    rfl
  | sent hsock =>
    refine .kept rfl ?_
    rw [udpPeers, udpPeers, hsock]
    rfl
  | acquired hsock =>
    refine .kept rfl ?_
    rw [udpPeers, udpPeers, hsock]
    rfl
  | @spawned conn hsock =>
    refine .kept rfl ?_
    have hone : [(conn, conn.handle (Protocol.run conf conn.peerAddr.ip))].filterMap
        (fun h : Connection × ConnTask => h.2.udpPeer? h.1) = conn.udpPeer?.toList := by
      rw [List.filterMap_cons, ConnTask.udpPeer?_handle]
      cases conn.udpPeer? <;> rfl
    have hcomm : (s.handlers.filterMap (fun h => h.2.udpPeer? h.1) ++ conn.udpPeer?.toList).Perm
        (conn.udpPeer?.toList ++ s.handlers.filterMap fun h => h.2.udpPeer? h.1) := List.perm_append_comm
    rw [udpPeers, udpPeers, hsock, List.filterMap_append, hone]
    exact hcomm.append_left s.udpJoin.toList
  | _ => exact .kept rfl (.refl _)

/-- Every accepted entry has a connection that will remove it, and until a queue overflows, every UDP connection has
an entry of its own. -/
structure Owned (lost : Nat) (s : SrvTasks) : Prop where
  wf : s.rx.Wf
  closing : s.ClosingUdp
  owner : ∀ k, s.rx.Accepted k → k ∈ s.udpPeers
  exact : lost = 0 → s.udpPeers.Nodup ∧ ∀ k ∈ s.udpPeers, s.rx.Accepted k

theorem Owned.start (srv : Server) (numConnections : Nat) : (SrvTasks.start srv numConnections).Owned 0 where
  wf := .new numConnections
  closing conn h := absurd h List.not_mem_nil
  owner k h := by
    obtain ⟨c, hc, -⟩ := h
    exact absurd (Finmap.mem_of_lookup_eq_some hc) Finmap.notMem_empty
  exact _ := ⟨List.nodup_nil, fun k h => absurd h List.not_mem_nil⟩

theorem not_sockDrops {socket : SockRecv MSG_SIZE} (h : ¬ s.rx.SockOverflows socket) : ¬ s.rx.SockDrops socket := by
  cases socket with
  | datagram n peer buf => exact fun hdrops => h ⟨hdrops.1, hdrops.2.2⟩
  | _ => exact id

theorem Owned.step [HmacSha3] {lost : Nat} (h : s.Owned lost) (hstep : s.step conf act = .ok s') :
    s'.Owned (lost + if s.Overflows act then 1 else 0) := by
  have hwf : s'.rx.Wf := by
    rcases (step_ok hstep).2.dispatched with ⟨call, -, hexec⟩ | ⟨-, hrx⟩
    · exact UdpDispatcherRx.exec_wf h.wf hexec
    · exact hrx ▸ h.wf
  have hlost : lost + (if s.Overflows act then 1 else 0) = 0 → lost = 0 ∧ ¬ s.Overflows act := by
    split_ifs with hover
    · exact nofun
    · exact fun hzero => ⟨hzero, hover⟩
  refine ⟨hwf, h.closing.step hstep, fun k hk => ?_, fun hzero => ?_⟩
  · cases (step_ok hstep).2.owners h.closing with
    | accepted hcall hr hrx hpeers =>
      rw [hrx] at hk
      rw [hpeers, List.mem_append, Option.mem_toList]
      exact (UdpDispatcherRx.tryAccept_of_accepted h.wf hr hk).imp_right (h.owner k)
    | received hcall hr hrx hpeers =>
      rw [hrx] at hk
      rw [hpeers]
      exact h.owner k (UdpDispatcherRx.tryRecvFrom_of_accepted hr hk)
    | disconnected hrx hpeers =>
      rw [hrx] at hk
      obtain ⟨hne, hk⟩ := UdpDispatcherRx.forget_of_accepted hk
      exact (List.mem_cons.1 (hpeers.mem_iff.1 (h.owner k hk))).resolve_left hne
    | kept hrx hpeers =>
      rw [hrx] at hk
      exact hpeers.mem_iff.2 (h.owner k hk)
  · obtain ⟨hzero, hover⟩ := hlost hzero
    obtain ⟨hnodup, hacc⟩ := h.exact hzero
    cases (step_ok hstep).2.owners h.closing with
    | @accepted socket it r hcall hr hrx hpeers =>
      have hno : ¬ s.rx.SockDrops socket := by
        rw [Overflows, hcall] at hover
        exact not_sockDrops hover
      rw [hrx, hpeers]
      cases hval : r.val with
      | none => exact ⟨hnodup, fun k hk => UdpDispatcherRx.tryAccept_accepted hr hno (hacc k hk)⟩
      | some peer =>
        obtain ⟨hfresh, hpeer⟩ := UdpDispatcherRx.tryAccept_fresh h.wf hr hval
        refine ⟨List.nodup_cons.2 ⟨fun hmem => hfresh (hacc peer hmem), hnodup⟩, fun k hk => ?_⟩
        rcases List.mem_cons.1 hk with rfl | hk
        · exact hpeer
        · exact UdpDispatcherRx.tryAccept_accepted hr hno (hacc k hk)
    | received hcall hr hrx hpeers =>
      rw [Overflows, hcall] at hover
      rw [hrx, hpeers]
      exact ⟨hnodup, fun k hk => UdpDispatcherRx.tryRecvFrom_accepted hr (not_sockDrops hover) (hacc k hk)⟩
    | disconnected hrx hpeers =>
      obtain ⟨hnot, hnodup⟩ := List.nodup_cons.1 (hpeers.nodup_iff.1 hnodup)
      refine ⟨hnodup, fun k hk => ?_⟩
      rw [hrx]
      refine (hacc k (hpeers.mem_iff.2 (List.mem_cons_of_mem _ hk))).drop ?_
      rintro rfl
      exact hnot hk
    | kept hrx hpeers =>
      rw [hrx]
      exact ⟨hpeers.nodup_iff.2 hnodup, fun k hk => hacc k (hpeers.mem_iff.1 hk)⟩

/-! ## The life of the daemon -/

/-- For every run of the daemon: it has ended only after SIGTERM (and then without an error), after SIGINT or after an
error of the TCP side of the accept loop, and only with all connections closed. A signal or error that ends it aborts
it if a connection is not closed; apart from that a step aborts it only in a call of the dispatcher, after an overflow
of a queue. Every accepted entry of the dispatcher belongs to a connection that has not been disconnected, and without
an overflow these connections have an entry each. -/
theorem letmeind_life [HmacSha3] (hconf : conf.HasProtocols) (srv : Server) {numConnections : Nat}
    (husize : numConnections * 4 + 1 < 2 ^ 64) (acts : List SrvAct)
    (hrun : runAll (step conf) (start srv numConnections) acts = .ok s) :
    let lost := countSteps (step conf) Overflows (start srv numConnections) acts
    (s.main = .selecting ∨ ∃ exitcode, s.main = .exited exitcode ∧ ExitCause acts exitcode ∧ s.Closed) ∧
    (∀ act, s.step conf act = .error .notClosed ↔
      s.main = .selecting ∧ (s.exitcode? act).isSome = true ∧ ¬ s.Closed) ∧
    (∀ act why, s.step conf act = .error (.panicked why) ↔ s.main = .selecting ∧ 0 < lost ∧
      ∃ call, s.udpCall act = some call ∧
        (why = .totalLen ∧ s.rx.Queues call ∧ s.rx.nrQueuedDgrams = numConnections * 4 ∨
          why = .notDrained ∧ s.rx.Empties call)) ∧
    (∀ k, s.rx.Accepted k → k ∈ s.udpPeers) ∧
    (lost = 0 → s.udpPeers.Nodup ∧ ∀ k ∈ s.udpPeers, s.rx.Accepted k) := by
  intro lost
  have hcaused : s.Caused acts := .run hrun
  have hharmless : Harmless.All s := runAll_inv' (fun _ _ _ h hstep => h.step hconf hstep) (fun _ _ h => absurd h List.not_mem_nil) hrun
  have howned : s.Owned lost := by
    have h := runAll_count (P := Owned) (fun _ _ _ _ h hstep => h.step hstep) (.start srv numConnections) hrun
    rwa [Nat.zero_add] at h
  have hdrift : s.rx.Drift numConnections lost := by
    have h := runAll_count (P := fun n s => s.rx.Drift numConnections n) (n := 0)
      (fun _ _ _ _ h hstep => drift_step h hstep) (.new numConnections) hrun
    rwa [Nat.zero_add] at h
  have halive : s.main.alive = true ↔ s.main = .selecting := by
    rcases hcaused.main with hmain | ⟨exitcode, hmain, -⟩
    · simp [hmain, MainTask.alive]
    · simp [hmain, MainTask.alive]
  refine ⟨hcaused.main, fun act => step_notClosed_iff hharmless, fun act why => ?_, howned.owner, howned.exact⟩
  rw [step_panicked_iff hharmless, halive]
  refine and_congr_right fun _ => ?_
  simp only [hdrift.exec_error_iff (by decide) husize]
  constructor
  · rintro ⟨call, hcall, hlost, h⟩
    exact ⟨hlost, call, hcall, h⟩
  · rintro ⟨hlost, call, hcall, h⟩
    exact ⟨call, hcall, hlost, h⟩

/-- A peer has sent a datagram and got a session. -/
noncomputable def oneSession : List SrvAct :=
  [.udpAccept (.zeros MSG_SIZE (.v4 ⟨192, 0, 2, 7⟩ 4242)) (.ofKeys [.v4 ⟨192, 0, 2, 7⟩ 4242] (by decide)), .acceptUdp,
    .acquire, .spawn, .drop]

/-- SIGTERM aborts the daemon then, and the datagram itself does not end it. -/
theorem letmeind_life_sample : ∃ s, runAll (@step constantMac sampleServer) (start ⟨none, some .bound⟩ 8) oneSession = .ok s ∧
    s.main = .selecting ∧ @step constantMac sampleServer s .sigterm = .error .notClosed := by
  let := constantMac
  refine ⟨_, rfl, rfl, ?_⟩
  have husize : 8 * 4 + 1 < 2 ^ 64 := by decide
  have hlife := letmeind_life sampleServer_hasProtocols ⟨none, some .bound⟩ husize oneSession rfl
  refine (hlife.2.1 .sigterm).2 ⟨rfl, rfl, ?_⟩
  rintro ⟨-, hclosed⟩
  exact absurd (hclosed _ List.mem_cons_self) (by decide)

end SrvTasks
end Letmein
