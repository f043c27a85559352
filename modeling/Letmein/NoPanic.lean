import Letmein.Command
import Letmein.FwProtocols
import Letmein.Policy
import Letmein.Wire

/-!
# No panic is reachable from the network

A loaded configuration has a protocol for the control port and for every resource. With it, no bytes that a
peer can send make a session or a client fail an assertion (`no_panic`).
-/

namespace Letmein

/-! ## Loaded configurations -/

/-- The control port and every resource have a protocol. -/
structure Config.HasProtocols (conf : Config) : Prop where
  port : conf.port.tcp || conf.port.udp
  resource : ∀ id port tcp udp users, conf.resource id = some (.port port tcp udp users) → tcp || udp

theorem loadIni_hasProtocols [StdText] {ini : Ini} {it : IterOrder Text} {itR : IterOrder ResourceId}
    {conf conf' : Config} (h : conf.loadIni ini it itR = (.ok (), conf')) : conf'.HasProtocols := by
  obtain ⟨-, hport, -, hres⟩ := readIni_ok (loadIni_ok h)
  refine ⟨getPort_ok hport, fun id port tcp udp users hid => ?_⟩
  obtain ⟨name, value, -, hread⟩ := ((getResources_ok_iff.1 hres).lookup _ _).1 hid
  obtain ⟨-, -, _, _, _, _, heq, hflags⟩ := resourceOf_ok hread
  cases heq
  exact hflags

theorem Config.HasProtocols.portType {conf : Config} (h : conf.HasProtocols) {id : ResourceId} {resource : Resource}
    (hres : conf.resource id = some resource) : ∃ portType, resource.portType = .ok portType := by
  obtain ⟨port, tcp, udp, users⟩ := resource
  have hflags := h.resource id port tcp udp users hres
  cases tcp <;> cases udp
  · cases hflags
  · exact ⟨.udp, rfl⟩
  · exact ⟨.tcp, rfl⟩
  · exact ⟨.tcpUdp, rfl⟩

/-- The control port that a command uses is either TCP or UDP. -/
theorem toControlPort_protocol {conf : Config} (h : conf.HasProtocols) (server : CommandServer) :
    (server.toControlPort conf).udp = !(server.toControlPort conf).tcp := by
  have hport := h.port
  unfold CommandServer.toControlPort
  rcases server.port with _ | _ <;> cases server.portUdp <;> cases server.portTcp <;>
    cases htcp : conf.port.tcp <;> cases hudp : conf.port.udp <;> simp_all

/-! ## Runs without a panic -/

variable {Auth : Type} [AuthToken Auth]

theorem GoingAway.ne_panicked {st : Prog.Status} {t : List (NetEvent Auth)} (h : GoingAway st t) : st ≠ .panicked := by
  cases h <;> decide

theorem ClientTrace.ne_panicked {seq : ClientSeq} {operation : Operation} {st : Prog.Status}
    {t : List (NetEvent Auth)} (h : ClientTrace seq operation st t) : st ≠ .panicked := by
  cases h
  case start => decide
  case connected hst => exact hst
  case salted => decide
  case knocked hst => exact hst
  case answered hst => exact hst
  case salted' => decide
  case responded hst => exact hst
  case finished hst => exact hst

/-- A session does not panic. -/
theorem run_ne_panicked [DecidableEq Auth] {conf : Config} (h : conf.HasProtocols) (peer : IpAddr) :
    (Protocol.run conf peer : Endpoint Auth Unit).Spec (fun st _ => st ≠ .panicked) fun _ _ => True := by
  have hbad : ∀ st (t : List (NetEvent Auth)), GoingAway st t → st ≠ .panicked := fun st t ht => ht.ne_panicked
  have hrun : Prog.Status.running ≠ .panicked := by decide
  have hfail : Prog.Status.failed ≠ .panicked := by decide
  refine Prog.Spec.bind (recvInitial_spec hrun (fun _ => hbad) ?_)
  intro knock hop
  refine Prog.Spec.bind (checkKnock_spec hop hbad ?_)
  intro key hkey hauth
  refine Prog.Spec.bind (checkResource_spec hbad ?_)
  intro resource hres huser hport
  refine Prog.Spec.bind (challengeResponse_spec rfl rfl hrun (fun _ => hrun) (fun _ _ => hrun)
    (fun _ _ _ _ hst => hst) (fun _ _ _ => hbad) ?_)
  intro s c response hresp hruser hrres hrauth
  refine Prog.Spec.bind (reconfigure_spec _ (fun _ => rfl) rfl ?_ (fun _ => hbad) hrun (fun _ _ _ => hbad)
    (fun _ _ _ st t _ => hbad st t) ?_)
  · intro hnone
    obtain ⟨portType, hsome⟩ := h.portType hres
    rw [hnone] at hsome
    cases hsome
  intro portType hp reply hreply
  refine Prog.Spec.bind (newMessage_spec hrun fun s' => ?_)
  exact sendMsg_spec hrun (fun _ => hfail) trivial

omit [AuthToken Auth] in
theorem initClient_ok {seq : CommandSeq} (h : seq.controlPort.udp = !seq.controlPort.tcp) (addr : IpAddr) :
    seq.initClient (.ok addr) = (.ret () : Endpoint Auth Unit) := by
  unfold CommandSeq.initClient
  dsimp only
  split
  · rename_i htcp
    have hudp : seq.controlPort.udp = false := by rw [h, htcp, Bool.not_true]
    rw [check, if_pos hudp]
    rfl
  · rename_i htcp
    have hudp : seq.controlPort.udp = true := by rw [h, Bool.eq_false_iff.2 htcp, Bool.not_false]
    rw [check, if_pos hudp]
    rfl

omit [AuthToken Auth] in
/-- Neither does a client whose control port is either TCP or UDP. -/
theorem initClient_ne_panicked {seq : CommandSeq} (h : seq.controlPort.udp = !seq.controlPort.tcp)
    (addr : Except String IpAddr) {f : Unit → Endpoint Auth Unit}
    (hf : (f ()).Spec (fun st _ => st ≠ .panicked) fun _ _ => True) :
    ((seq.initClient addr).context "Client init" >>= f).Spec (fun st _ => st ≠ .panicked) fun _ _ => True := by
  refine Prog.Spec.bind ?_
  rcases addr with e | addr
  · exact (by decide : Prog.Status.failed ≠ .panicked)
  rw [initClient_ok h]
  exact hf

theorem sequence_ne_panicked (seq : ClientSeq) {operation : Operation} (what : String)
    (hop : operation = .knock ∨ operation = .close) : (seq.sequence operation what : Endpoint Auth Unit).Spec
      (fun st _ => st ≠ .panicked) fun _ _ => True :=
  Prog.Spec.mono (sequence_spec seq what hop) (fun _ _ ht => ht.ne_panicked) fun _ _ _ => trivial

/-! ## Bytes from the network -/

/-- The environment whose peer delivers these bytes. -/
def overBytes [HmacSha3] (bytes : List (NetEvent AuthBytes) → Timed (Option (List UInt8)))
    (env : List (NetEvent AuthBytes) → (op : Op AuthBytes) → op.Ret) :
    List (NetEvent AuthBytes) → (op : Op AuthBytes) → op.Ret
  | h, .recv => Message.recv (bytes h)
  | h, op => env h op

/-- With a loaded configuration, whatever bytes the peer delivers and whatever else happens: a session of the server
ends without a panic, and so does a sequence of the client with the control port of its command. Keys
and tokens have the lengths that `authenticate` asserts. -/
theorem no_panic [StdText] [HmacSha3] {variant : ConfigVariant} {ini : Ini} {it : IterOrder Text}
    {itR : IterOrder ResourceId} {conf : Config} (h : (Config.new variant).loadIni ini it itR = (.ok (), conf))
    (bytes : List (NetEvent AuthBytes) → Timed (Option (List UInt8)))
    (env : List (NetEvent AuthBytes) → (op : Op AuthBytes) → op.Ret) :
    (∀ peer, (Protocol.run conf peer : Endpoint AuthBytes Unit).final (overBytes bytes env) [] ≠ .panicked) ∧
    (∀ (server : CommandServer) (seq : CommandSeq), seq.controlPort = server.toControlPort conf →
      ∀ lookup mode,
        (seq.knockSequence lookup mode : Endpoint AuthBytes Unit).final (overBytes bytes env) [] ≠ .panicked ∧
        (seq.closeSequence lookup mode : Endpoint AuthBytes Unit).final (overBytes bytes env) [] ≠ .panicked) ∧
    ∀ (msg : Message AuthBytes) (sharedKey : Key) (challenge : AuthBytes),
      msg.authenticateSlices sharedKey.toList challenge.toList = .ok (msg.authenticate sharedKey challenge) := by
  have hconf := loadIni_hasProtocols h
  have hfinal : ∀ p : Endpoint AuthBytes Unit, p.Spec (fun st _ => st ≠ .panicked) (fun _ _ => True) →
      p.final (overBytes bytes env) [] ≠ .panicked := fun p hp =>
    Prog.Spec.final (Prog.Spec.mono hp (fun _ _ hst => hst) fun _ _ _ => by decide) _ []
  refine ⟨fun peer => hfinal _ (run_ne_panicked hconf peer), ?_, Message.authenticateSlices_eq⟩
  intro server seq hport lookup mode
  have hseq : seq.controlPort.udp = !seq.controlPort.tcp := by
    rw [hport]
    exact toControlPort_protocol hconf server
  constructor
  · exact hfinal _ (initClient_ne_panicked hseq _ (sequence_ne_panicked _ _ (.inl rfl)))
  · exact hfinal _ (initClient_ne_panicked hseq _ (sequence_ne_panicked _ _ (.inr rfl)))

/-! ## Bytes that are no message -/

/-- A token function for inputs on which no token is made. -/
@[reducible] def constantMac : HmacSha3 where
  mac _ _ := .replicate 32 1

/-- Three bytes from the peer, and then whatever works. -/
def sampleBytes : List (NetEvent AuthBytes) → (op : Op AuthBytes) → op.Ret :=
  @overBytes constantMac (fun _ => .done (.ok (some [1, 2, 3])))
    (sampleAnswers ⟨MAGIC, .challenge, ⟨1⟩, ⟨2⟩, sampleSalt, .replicate 32 5⟩ (.replicate 32 5))

def sampleSeq : CommandSeq where
  user := ⟨1⟩
  resource := ⟨2⟩
  key := sampleKey
  addr := "example.com".toList
  controlPort := ⟨5800, true, false⟩
  controlTimeout := 5000

/-- The session ends with an error, and so does a client that cannot resolve its host. -/
theorem no_panic_sample :
    @Config.loadIni asciiStd FwdState.fwIni (.new .server) FwdState.fwOrder (anyOrder _) = (.ok (), FwdState.fwConf) ∧
    (@Protocol.run AuthBytes (@authTokenBytes constantMac) _ FwdState.fwConf (.v4 ⟨192, 0, 2, 7⟩)).final
      sampleBytes [] ≠ .panicked ∧
    (@CommandSeq.knockSequence AuthBytes (@authTokenBytes constantMac) sampleSeq (fun _ _ => .error "")
      .ipv4).final sampleBytes [] ≠ .panicked := by
  let := asciiStd
  let := constantMac
  have h := no_panic FwdState.fwIni_load (fun _ => .done (.ok (some [1, 2, 3])))
    (sampleAnswers ⟨MAGIC, .challenge, ⟨1⟩, ⟨2⟩, sampleSalt, .replicate 32 5⟩ (.replicate 32 5))
  have hport : sampleSeq.controlPort = CommandServer.toControlPort ⟨[], .ipv4, none, false, false⟩ FwdState.fwConf := rfl
  exact ⟨FwdState.fwIni_load, h.1 _, (h.2.1 _ sampleSeq hport _ _).1⟩

end Letmein
