import Letmein.FwServer
import Letmein.FwWire
import Letmein.NftRuns

/-!
# The firewall daemon under arbitrary requests

letmeinfwd serves whatever bytes arrive on its socket. A step of the daemon is one connection with the bytes that
came in on it, or the maintenance of the leases; the firewall is locked in each of them. `Handled` says what a
message can do: a request that passes the checks is one call of the firewall, everything else does nothing.
-/

namespace Letmein

/-! ## Requests -/

/-- The call that a message asks for. -/
def FirewallMessage.call? (msg : FirewallMessage) : Option FwCall :=
  match msg.operation with
  | .openPort => some (.openPort (octetsToAddr msg.addrType msg.addr) (leasePort msg.portType msg.port))
  | .closePort => some (.closePort (octetsToAddr msg.addrType msg.addr) (leasePort msg.portType msg.port))
  | .ack | .nack => none

/-- The address is neither all zeros nor all ones, and the port is that of a resource and not the control port. -/
structure Permitted (conf : Config) (msg : FirewallMessage) : Prop where
  addr : addrCheck (octetsToAddr msg.addrType msg.addr) = true
  configured : ∃ id res, conf.resource id = some res ∧ res.portNumber = msg.port
  notControl : msg.port ≠ conf.port.port

/-- What was received is a permitted request for the call. -/
def RequestFor (conf : Config) (recv : Except String (Option FirewallMessage)) (call : FwCall) : Prop :=
  ∃ msg, recv = .ok (some msg) ∧ msg.call? = some call ∧ Permitted conf msg

theorem RequestFor.call_inj {conf : Config} {recv : Except String (Option FirewallMessage)} {call call' : FwCall}
    (h : RequestFor conf recv call) (h' : RequestFor conf recv call') : call = call' := by
  obtain ⟨msg, hmsg, hcall, -⟩ := h
  obtain ⟨msg', hmsg', hcall', -⟩ := h'
  rw [hmsg] at hmsg'
  cases hmsg'
  exact Option.some.inj (hcall.symm.trans hcall')

/-- A message is either no permitted request, which is an error and at most answered with Nack, or one call whose
outcome is the answer. -/
inductive Handled (conf : Config) (env : NftEnv) (recv : Except String (Option FirewallMessage))
    (send : Except String Unit) (fw : NftFirewall) (k : Kernel) (r : HandleRet) : Prop
  | refused (hno : ∀ call, ¬ RequestFor conf recv call) (hval : ∃ e, r.val = .error e)
      (hreply : r.reply = none ∨ r.reply = some .newNack) (hfw : r.fw = fw) (hk : r.kernel = k)
  | acked {call : FwCall} {nr : NftRet} (hreq : RequestFor conf recv call)
      (hcall : FwState.call conf env ⟨fw, k, []⟩ call = .ok nr) (hok : nr.val = .ok ()) (hval : r.val = send)
      (hreply : r.reply = some .newAck) (hfw : r.fw = nr.fw) (hk : r.kernel = nr.kernel)
  | nacked {call : FwCall} {nr : NftRet} {e : String} (hreq : RequestFor conf recv call)
      (hcall : FwState.call conf env ⟨fw, k, []⟩ call = .ok nr) (herr : nr.val = .error e) (hval : r.val = send)
      (hreply : r.reply = some .newNack) (hfw : r.fw = nr.fw) (hk : r.kernel = nr.kernel)

variable {conf : Config} {env : NftEnv} {it : IterOrder ResourceId} {fw : NftFirewall} {k : Kernel}
  {recv : Except String (Option FirewallMessage)} {msg : FirewallMessage} {send : Except String Unit}
  {r : HandleRet} {controlPortError : UInt16 → String}

theorem leasePort_num (portType : PortType) (port : UInt16) : (leasePort portType port).num = port := by
  cases portType <;> rfl

/-- The checks pass exactly the permitted messages. -/
theorem checkRequest_cases (conf : Config) (it : IterOrder ResourceId) (controlPortError : UInt16 → String)
    (hcall : msg.call?.isSome) :
    (Permitted conf msg ∧ checkRequest conf it msg controlPortError =
      .ok (octetsToAddr msg.addrType msg.addr, leasePort msg.portType msg.port)) ∨
    (¬ Permitted conf msg ∧ ∃ e, checkRequest conf it msg controlPortError = .error e) := by
  have haddr : msg.addr? = some (octetsToAddr msg.addrType msg.addr) := by
    unfold FirewallMessage.call? at hcall
    unfold FirewallMessage.addr?
    cases hop : msg.operation <;> simp [hop] at hcall ⊢
  have hport : msg.port? = some (msg.portType, msg.port) := by
    unfold FirewallMessage.call? at hcall
    unfold FirewallMessage.port?
    cases hop : msg.operation <;> simp [hop] at hcall ⊢
  simp only [checkRequest, haddr, hport]
  by_cases hcheck : addrCheck (octetsToAddr msg.addrType msg.addr) = false
  · rw [if_pos hcheck]
    exact .inr ⟨fun hp => (by rw [hp.addr] at hcheck; cases hcheck), _, rfl⟩
  · rw [if_neg hcheck]
    by_cases hconf : (conf.resourceIdByPort it msg.port none).isSome
    · rw [if_neg (by rw [Option.isNone_iff_eq_none, ← Option.not_isSome_iff_eq_none]; exact not_not.2 hconf)]
      by_cases hctl : msg.port = conf.port.port
      · rw [if_pos hctl]
        exact .inr ⟨fun hp => hp.notControl hctl, _, rfl⟩
      · rw [if_neg hctl]
        exact .inl ⟨⟨by simpa using hcheck, Config.resourceIdByPort_isSome_iff.1 hconf, hctl⟩, rfl⟩
    · rw [if_pos (by rw [Option.isNone_iff_eq_none, ← Option.not_isSome_iff_eq_none]; exact hconf)]
      exact .inr ⟨fun hp => hconf (Config.resourceIdByPort_isSome_iff.2 hp.configured), _, rfl⟩

/-- A request that was served: by the checks or by the call. -/
theorem serveRequest_ok {call : IpAddr → LeasePort → Except Panic NftRet} {fwCall : FwCall}
    (hcall : msg.call? = some fwCall)
    (hfw : call (octetsToAddr msg.addrType msg.addr) (leasePort msg.portType msg.port) =
      FwState.call conf env ⟨fw, k, []⟩ fwCall)
    (h : serveRequest send fw k (checkRequest conf it msg controlPortError) call = .ok r) :
    Handled conf env (.ok (some msg)) send fw k r := by
  rcases checkRequest_cases conf it controlPortError (Option.isSome_iff_exists.2 ⟨_, hcall⟩) with
    ⟨hp, hreq⟩ | ⟨hp, e, hreq⟩
  · simp only [hreq, serveRequest] at h
    obtain ⟨nr, hnr, h⟩ := Except.bind_ok h
    rw [hfw] at hnr
    have hr : RequestFor conf (.ok (some msg)) fwCall := ⟨msg, rfl, hcall, hp⟩
    rcases hval : nr.val with e | u
    · simp only [hval] at h
      cases h
      rcases send with e' | u
      · exact .nacked hr hnr hval rfl rfl rfl rfl
      · exact .nacked hr hnr hval rfl rfl rfl rfl
    · simp only [hval] at h
      cases h
      rcases send with e' | u
      · exact .acked hr hnr hval rfl rfl rfl rfl
      · exact .acked hr hnr hval rfl rfl rfl rfl
  · simp only [hreq, serveRequest] at h
    cases h
    refine .refused ?_ ?_ (.inr rfl) rfl rfl
    · rintro call ⟨msg', hmsg, -, hp'⟩
      cases hmsg
      exact hp hp'
    · rcases send with e' | u
      · exact ⟨e', rfl⟩
      · exact ⟨e, rfl⟩

theorem handleMessage_ok (h : handleMessage conf env it recv send fw k = .ok r) :
    Handled conf env recv send fw k r := by
  have hno : ∀ msg, msg.call? = none → ∀ call, ¬ RequestFor conf (.ok (some msg)) call := by
    rintro msg hnone call ⟨msg', hmsg, hcall, -⟩
    cases hmsg
    rw [hnone] at hcall
    cases hcall
  rcases recv with e | _ | msg
  · cases h
    exact .refused (by rintro call ⟨msg, hmsg, -⟩; cases hmsg) ⟨e, rfl⟩ (.inl rfl) rfl rfl
  · cases h
    exact .refused (by rintro call ⟨msg, hmsg, -⟩; cases hmsg) ⟨_, rfl⟩ (.inl rfl) rfl rfl
  · rcases hop : msg.operation with _ | _ | _ | _
    · simp only [handleMessage, hop] at h
      cases h
      exact .refused (hno msg (by simp [FirewallMessage.call?, hop])) ⟨_, rfl⟩ (.inl rfl) rfl rfl
    · simp only [handleMessage, hop] at h
      cases h
      exact .refused (hno msg (by simp [FirewallMessage.call?, hop])) ⟨_, rfl⟩ (.inl rfl) rfl rfl
    · simp only [handleMessage, hop] at h
      have hcall : msg.call? = some (.openPort (octetsToAddr msg.addrType msg.addr)
          (leasePort msg.portType msg.port)) := by simp only [FirewallMessage.call?, hop]
      exact serveRequest_ok hcall rfl h
    · simp only [handleMessage, hop] at h
      have hcall : msg.call? = some (.closePort (octetsToAddr msg.addrType msg.addr)
          (leasePort msg.portType msg.port)) := by simp only [FirewallMessage.call?, hop]
      exact serveRequest_ok hcall rfl h

/-- No assertion fails: a request that passes the checks is not for the control port. -/
theorem handleMessage_returns (hs : fw.shutdown = false) : ∃ r, handleMessage conf env it recv send fw k = .ok r := by
  have hserve : ∀ {msg : FirewallMessage} {e : UInt16 → String} {call : IpAddr → LeasePort → Except Panic NftRet},
      (∀ addr port, conf.port.port ≠ port.num → ∃ nr, call addr port = .ok nr) →
      ∃ r, serveRequest send fw k (checkRequest conf it msg e) call = .ok r := by
    intro msg e call hcall
    rcases hreq : checkRequest conf it msg e with e' | ⟨addr, port⟩
    · exact ⟨_, rfl⟩
    · obtain ⟨-, -, portType, num, -, rfl, -, hctl⟩ := checkRequest_ok hreq
      obtain ⟨nr, hnr⟩ := hcall addr (leasePort portType num) (by rw [leasePort_num]; exact hctl.symm)
      simp only [serveRequest, hnr, bind, Except.bind]
      split <;> exact ⟨_, rfl⟩
  rcases recv with e | _ | msg
  · exact ⟨_, rfl⟩
  · exact ⟨_, rfl⟩
  · rcases hop : msg.operation with _ | _ | _ | _ <;> simp only [handleMessage, hop]
    · exact ⟨_, rfl⟩
    · exact ⟨_, rfl⟩
    · exact hserve fun addr port hctl => NftFirewall.openPort_returns hs hctl
    · exact hserve fun addr port hctl => NftFirewall.closePort_returns hs hctl

/-! ## Runs of the daemon -/

/-- Bytes came in on a connection, or it was time for maintenance. `send` is the outcome of writing a reply. -/
inductive FwdEvent where
  | message (reads : List SocketRead) (send : Except String Unit) (it : IterOrder ResourceId)
  | maintain

structure FwdState where
  fw : NftFirewall
  kernel : Kernel

/-- Serve a connection. As long as the message is not complete, nothing has happened. -/
def handleConnection (conf : Config) (env : NftEnv) (it : IterOrder ResourceId) (reads : List SocketRead)
    (send : Except String Unit) (fw : NftFirewall) (k : Kernel) : Except Panic (Option HandleRet) := do
  match ← FirewallMessage.recv reads with
  | none => return none
  | some recv => some <$> handleMessage conf env it recv send fw k

namespace FwdState

def step (conf : Config) (s : FwdState) (input : FwdEvent × NftEnv) : Except Panic FwdState :=
  match input.1 with
  | .message reads send it => do
    match ← handleConnection conf input.2 it reads send s.fw s.kernel with
    | none => return s
    | some r => return ⟨r.fw, r.kernel⟩
  | .maintain => do
    let r ← s.fw.maintain conf input.2 s.kernel
    return ⟨r.fw, r.kernel⟩

/-- The firewall of the daemon. -/
def toFwState (s : FwdState) : FwState := ⟨s.fw, s.kernel, []⟩

/-- The call that a step makes is maintenance or a permitted request. -/
def Caused (conf : Config) (call : FwCall) : FwdEvent → Prop
  | .message reads _ _ => ∃ recv, FirewallMessage.recv reads = .ok (some recv) ∧ RequestFor conf recv call
  | .maintain => call = .maintain

variable {s s' : FwdState} {input : FwdEvent × NftEnv}

/-- A step does nothing or makes one call of the firewall. -/
theorem step_ok (h : s.step conf input = .ok s') : s' = s ∨ ∃ call nr, Caused conf call input.1 ∧
    s.toFwState.call conf input.2 call = .ok nr ∧ s' = ⟨nr.fw, nr.kernel⟩ := by
  obtain ⟨⟨reads, send, it⟩ | _, env⟩ := input
  · obtain ⟨o, ho, h⟩ := Except.bind_ok h
    obtain ⟨o', hrecv, ho⟩ := Except.bind_ok ho
    rcases o' with _ | recv
    · cases ho
      cases h
      exact .inl rfl
    · obtain ⟨r, hr, rfl⟩ := Except.of_map_ok ho
      cases h
      cases handleMessage_ok hr with
      | refused hno hval hreply hfw hk => exact .inl (by rw [hfw, hk])
      | acked hreq hcall hok hval hreply hfw hk =>
        exact .inr ⟨_, _, ⟨recv, hrecv, hreq⟩, hcall, by rw [hfw, hk]⟩
      | nacked hreq hcall herr hval hreply hfw hk =>
        exact .inr ⟨_, _, ⟨recv, hrecv, hreq⟩, hcall, by rw [hfw, hk]⟩
  · obtain ⟨nr, hnr, h⟩ := Except.bind_ok h
    cases h
    exact .inr ⟨.maintain, nr, rfl, hnr, rfl⟩

theorem step_returns (hs : s.fw.shutdown = false) (input : FwdEvent × NftEnv) :
    ∃ s', s.step conf input = .ok s' := by
  obtain ⟨⟨reads, send, it⟩ | _, env⟩ := input
  · obtain ⟨o, ho⟩ := FirewallMessage.recv_returns reads
    rcases o with _ | recv
    · exact ⟨s, by simp only [step, handleConnection, ho, bind, Except.bind]; rfl⟩
    · obtain ⟨r, hr⟩ : ∃ r, handleMessage conf env it recv send s.fw s.kernel = .ok r := handleMessage_returns hs
      exact ⟨⟨r.fw, r.kernel⟩, by simp only [step, handleConnection, ho, hr, bind, Except.bind]; rfl⟩
  · obtain ⟨r, hr⟩ := NftFirewall.maintain_returns conf env s.kernel hs
    exact ⟨⟨r.fw, r.kernel⟩, by simp only [step, hr, bind, Except.bind]; rfl⟩

/-- Nothing but control port rules and rules of the leases, for ports that are configured. -/
structure Contained (conf : Config) (names : NftNames) (s : FwdState) : Prop where
  sane : s.toFwState.Sane names
  notControl : ∀ id ∈ s.fw.leases, id.2.num ≠ conf.port.port
  configured : ∀ id ∈ s.fw.leases, ∃ rid res, conf.resource rid = some res ∧ res.portNumber = id.2.num

variable {names : NftNames}

theorem permitted_of_caused {addr : IpAddr} {port : LeasePort} {ev : FwdEvent}
    (h : Caused conf (.openPort addr port) ev) :
    port.num ≠ conf.port.port ∧ ∃ rid res, conf.resource rid = some res ∧ res.portNumber = port.num := by
  rcases ev with ⟨reads, send, it⟩ | _
  · obtain ⟨recv, -, msg, -, hcall, hp⟩ := h
    unfold FirewallMessage.call? at hcall
    split at hcall <;> cases hcall
    rw [leasePort_num]
    exact ⟨hp.notControl, hp.configured⟩
  · cases h

theorem Contained.step (hn : readConfiguration conf = .ok names) (hc : s.Contained conf names)
    (h : s.step conf input = .ok s') : s'.Contained conf names := by
  rcases step_ok h with rfl | ⟨call, nr, hcause, hcall, rfl⟩
  · exact hc
  have hcalled := FwState.call_ok hn hc.sane hcall
  refine ⟨hc.sane.called hcalled, fun id hid => ?_, fun id hid => ?_⟩
  · rcases hcalled.leases hid with hid | rfl
    · exact hc.notControl id hid
    · exact (permitted_of_caused hcause).1
  · rcases hcalled.leases hid with hid | rfl
    · exact hc.configured id hid
    · exact (permitted_of_caused hcause).2

theorem Contained.new {k' : Kernel} (h : NftFirewall.new conf env k = .ok (fw, k')) :
    ∃ names, readConfiguration conf = .ok names ∧ (⟨fw, k'⟩ : FwdState).Contained conf names := by
  obtain ⟨names, hn, -⟩ := NftFirewall.new_ok h
  obtain ⟨hsane, hempty, -⟩ := FwState.Sane.new hn h
  have hno : ∀ id, id ∉ fw.leases := fun id hid => by
    rw [show fw.leases = ∅ from hempty] at hid
    exact Finmap.notMem_empty hid
  exact ⟨names, hn, hsane, fun id hid => (hno id hid).elim, fun id hid => (hno id hid).elim⟩

theorem Contained.run (hn : readConfiguration conf = .ok names) (hc : s.Contained conf names)
    (inputs : List (FwdEvent × NftEnv)) :
    ∃ s', runAll (FwdState.step conf) s inputs = .ok s' ∧ s'.Contained conf names := by
  refine runAll_returns (fun s input _ hs => ?_) hc
  obtain ⟨s', hs'⟩ := step_returns (s := s) hs.sane.running input
  exact ⟨s', hs', hs.step hn hs'⟩

/-- Whatever arrives on the socket: no assertion fails, leases are for configured ports other than the control
port, a message that is no permitted request changes nothing and is not acknowledged, and a request is
acknowledged exactly if its call succeeded. -/
theorem requests_contained {k' : Kernel} (hnew : NftFirewall.new conf env k = .ok (fw, k'))
    (inputs : List (FwdEvent × NftEnv)) :
    ∃ s, runAll (FwdState.step conf) ⟨fw, k'⟩ inputs = .ok s ∧
      (∀ id lease, s.fw.leases.lookup id = some lease → lease.port.num ≠ conf.port.port ∧
        ∃ rid res, conf.resource rid = some res ∧ res.portNumber = lease.port.num) ∧
      ∀ env it reads send recv, FirewallMessage.recv reads = .ok (some recv) →
        ∃ r, handleConnection conf env it reads send s.fw s.kernel = .ok (some r) ∧
          ((∀ call, ¬ RequestFor conf recv call) → r.fw = s.fw ∧ r.kernel = s.kernel ∧
            (∃ e, r.val = .error e) ∧ (r.reply = none ∨ r.reply = some .newNack)) ∧
          (∀ e, send = .ok () → r.val = .error e → r.fw = s.fw ∧ r.kernel = s.kernel) ∧
          (r.reply = some .newAck ↔ ∃ call nr, RequestFor conf recv call ∧
            s.toFwState.call conf env call = .ok nr ∧ nr.val = .ok ()) := by
  obtain ⟨names, hn, hc⟩ := Contained.new hnew
  obtain ⟨s, hrun, hs⟩ := hc.run hn inputs
  refine ⟨s, hrun, fun id lease hl => ?_, fun env it reads send recv hrecv => ?_⟩
  · obtain rfl : lease.id = id := hs.sane.coherent.id id lease hl
    have hmem := Finmap.mem_of_lookup_eq_some hl
    exact ⟨hs.notControl _ hmem, hs.configured _ hmem⟩
  · obtain ⟨r, hr⟩ : ∃ r, handleMessage conf env it recv send s.fw s.kernel = .ok r :=
      handleMessage_returns hs.sane.running
    refine ⟨r, by simp only [handleConnection, hrecv, hr, bind, Except.bind]; rfl, ?_⟩
    cases handleMessage_ok hr with
    | refused hno hval hreply hfw hk =>
      refine ⟨fun _ => ⟨hfw, hk, hval, hreply⟩, fun _ _ _ => ⟨hfw, hk⟩, fun hack => ?_, ?_⟩
      · rcases hreply with hreply | hreply <;> rw [hreply] at hack <;> cases hack
      · rintro ⟨call, nr, hreq, -⟩
        exact (hno call hreq).elim
    | acked hreq hcall hok hval hreply hfw hk =>
      refine ⟨fun hno => (hno _ hreq).elim, fun e hsend he => ?_, fun _ => ⟨_, _, hreq, hcall, hok⟩, fun _ => hreply⟩
      rw [hval, hsend] at he
      cases he
    | nacked hreq hcall herr hval hreply hfw hk =>
      refine ⟨fun hno => (hno _ hreq).elim, fun e hsend he => ?_, fun hack => ?_, ?_⟩
      · rw [hval, hsend] at he
        cases he
      · rw [hreply] at hack
        cases hack
      · rintro ⟨call', nr', hreq', hcall', hok'⟩
        have hcall_eq : call' = _ := RequestFor.call_inj hreq' hreq
        subst hcall_eq
        have hnr := hcall.symm.trans hcall'
        cases hnr
        rw [herr] at hok'
        cases hok'

/-- Port 22 is a resource for TCP. -/
def fwConf : Config where
  resources := Finmap.singleton ⟨1⟩ (.port 22 true false [])
  nftExe := "nft"
  nftFamily := "inet"
  nftTable := "filter"
  nftChainInput := "LETMEIN-INPUT"

/-- The connection on which the message arrives. -/
noncomputable def fwRequest (portType : PortType) : FwdEvent :=
  .message [.data (FirewallMessage.newOpen (.v4 ⟨192, 0, 2, 7⟩) portType 22).msgSerialize] (.ok ())
    (.ofKeys [⟨1⟩] (by decide))

/-- The order in which the resources of `fwConf` are visited. -/
noncomputable def fwResources : IterOrder ResourceId := .ofKeys [⟨1⟩] (by decide)

theorem requests_contained_sample : ∃ fw k',
    NftFirewall.new fwConf (sampleEnv 0 []) .empty = .ok (fw, k') ∧
    ∃ s, runAll (FwdState.step fwConf) ⟨fw, k'⟩ [(fwRequest .tcp, sampleEnv 1 [])] = .ok s ∧
      (.v4 ⟨192, 0, 2, 7⟩, .tcp 22) ∈ s.fw.leases ∧ ∀ id lease, s.fw.leases.lookup id = some lease →
        lease.port.num ≠ fwConf.port.port ∧
        ∃ rid res, fwConf.resource rid = some res ∧ res.portNumber = lease.port.num := by
  have hnew : NftFirewall.new fwConf (sampleEnv 0 []) .empty = .ok (_, _) := rfl
  obtain ⟨s, hrun, hleases, -⟩ := requests_contained hnew [(fwRequest .tcp, sampleEnv 1 [])]
  refine ⟨_, _, hnew, s, hrun, ?_, hleases⟩
  cases hrun
  decide

end FwdState

end Letmein
