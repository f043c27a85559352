import Letmein.SrvTasks

/-!
# A client over UDP (`Client::new` of `letmein/src/client.rs`, the UDP branch of `NetSocket::recv`)

A client has a dispatcher of its own for one connection. Its socket is connected to the server, and it neither accepts
nor disconnects; so its only connection stays one that was never accepted. `dispatcher_transparent`: the client does
what it would do if it read the socket itself. Every pass of `recv_from` takes out of the queue what it has put in, and
nothing is left behind when a timeout drops the task between two passes.
-/

namespace Letmein

/-! ## The client's socket -/

/-- What a connected socket reports. Its datagrams come from the peer. -/
inductive ConnRecv (msgSize : Nat) where
  | datagram (n : Nat) (buf : Datagram msgSize)
  | wouldBlock
  | error (e : String)

namespace ConnRecv
variable {msgSize : Nat}

def sockRecv (server : SocketAddr) : ConnRecv msgSize → SockRecv msgSize
  | .datagram n buf => .datagram n server buf
  | .wouldBlock => .wouldBlock
  | .error e => .error e

/-- What is read off the socket if there is no dispatcher: a datagram of the size of a message, or nothing yet. -/
def plain : ConnRecv msgSize → Except String (Option (Datagram msgSize))
  | .datagram n buf => if n = msgSize then .ok (some buf) else .error s!"Socket read: Invalid datagram size: {n}"
  | .wouldBlock => .ok none
  | .error e => .error s!"Socket read: {e}"

end ConnRecv

/-! ## The client's task -/

inductive ClientAct where
  -- One pass of the loop of `recv_from`.
  | recv (socket : ConnRecv MSG_SIZE)
  | recvTimeout
  | call (env : (op : Op AuthBytes) → op.Ret)

inductive ClientHalt where
  | notReady
  | panicked (why : Panic)

/-- A pass of receiving: what is kept for the next pass, and what comes out. -/
abbrev Pass (ρ : Type) :=
  ρ → ConnRecv MSG_SIZE → Except Panic (ρ × Except String (Option (Datagram MSG_SIZE)))

/-- A client with what its socket keeps. -/
structure UdpClient (ρ : Type) where
  rx : ρ
  prog : Endpoint AuthBytes Unit

namespace UdpClient
variable {ρ : Type}

/-- The client goes on until it waits again. -/
def resume (rx : ρ) : Endpoint AuthBytes Unit → Except ClientHalt (UdpClient ρ)
  | .panic why => .error (.panicked why)
  | prog => .ok ⟨rx, prog⟩

def step (pass : Pass ρ) (s : UdpClient ρ) : ClientAct → Except ClientHalt (UdpClient ρ)
  | .recv socket =>
    match s.prog with
    | .vis .recv k =>
      match pass s.rx socket with
      | .error why => .error (.panicked why)
      | .ok (rx, val) =>
        match SrvTasks.received val with
        | none => .ok { s with rx := rx }
        | some answer => resume rx (k (Message.recv answer))
    | _ => .error .notReady
  | .recvTimeout =>
    match s.prog with
    | .vis .recv k => resume s.rx (k .timeout)
    | _ => .error .notReady
  | .call env =>
    match s.prog with
    | .vis .recv _ => .error .notReady
    | .vis op k => resume s.rx (k (env op))
    | _ => .error .notReady

/-- What an act can come to at a point of the client: the client is not waiting for it, it is a pass of receiving, or it
answers the operation, whatever the socket keeps. -/
inductive Acted (prog : Endpoint AuthBytes Unit) : ClientAct → Prop
  | notReady {act : ClientAct}
      (h : ∀ {ρ : Type} (pass : Pass ρ) (rx : ρ), step pass ⟨rx, prog⟩ act = .error .notReady) : Acted prog act
  | pass {k : Timed (Option (Message AuthBytes)) → Endpoint AuthBytes Unit} (socket : ConnRecv MSG_SIZE)
      (hprog : prog = .vis .recv k) : Acted prog (.recv socket)
  | answered {act : ClientAct} {op : Op AuthBytes} {k : op.Ret → Endpoint AuthBytes Unit} (a : op.Ret)
      (hprog : prog = .vis op k)
      (h : ∀ {ρ : Type} (pass : Pass ρ) (rx : ρ), step pass ⟨rx, prog⟩ act = resume rx (k a)) : Acted prog act

theorem acted (prog : Endpoint AuthBytes Unit) (act : ClientAct) : Acted prog act := by
  cases prog
  case vis op k =>
    cases op
    case recv =>
      cases act with
      | recv socket => exact .pass socket rfl
      | recvTimeout => exact .answered _ rfl fun _ _ => rfl
      | call env => exact .notReady fun _ _ => rfl
    all_goals
      cases act with
      | recv socket => exact .notReady fun _ _ => rfl
      | recvTimeout => exact .notReady fun _ _ => rfl
      | call env => exact .answered _ rfl fun _ _ => rfl
  all_goals cases act <;> exact .notReady fun _ _ => rfl

end UdpClient

/-- A pass of `recv_from` with the dispatcher. -/
def dispatcherPass (server : SocketAddr) : Pass (UdpDispatcherRx MSG_SIZE 4) := fun rx socket =>
  (fun r => (r.rx, r.val)) <$> rx.tryRecvFrom (socket.sockRecv server) server

/-- A pass that reads the socket and keeps nothing. -/
def plainPass : Pass Unit := fun _ socket => .ok ((), socket.plain)

/-! ## The dispatcher between two passes -/

namespace UdpDispatcherRx
variable {msgSize qSize : Nat} {server : SocketAddr} {rx : UdpDispatcherRx msgSize qSize}

/-- Nothing is queued. There is no connection, or the one to the server. -/
structure Drained (server : SocketAddr) (rx : UdpDispatcherRx msgSize qSize) : Prop where
  max : rx.maxNrConn = 1
  nr : rx.nrQueuedDgrams = 0
  conn : rx.conn = ∅ ∨ rx.conn = (∅ : HashMap SocketAddr (UdpConn msgSize)).insert server ⟨[], server, false⟩

namespace Drained

theorem new : Drained server (new 1 : UdpDispatcherRx msgSize qSize) := ⟨rfl, rfl, .inl rfl⟩

theorem entry (h : Drained server rx) : rx.entry server = ⟨[], server, false⟩ := by
  rw [UdpDispatcherRx.entry]
  rcases h.conn with hc | hc
  · rw [hc, Finmap.lookup_empty]
    rfl
  · rw [hc, Finmap.lookup_insert]
    rfl

theorem insert (h : Drained server rx) (c : UdpConn msgSize) :
    rx.conn.insert server c = (∅ : HashMap SocketAddr (UdpConn msgSize)).insert server c := by
  rcases h.conn with hc | hc
  · rw [hc]
  · rw [hc, Finmap.insert_insert]

theorem size_insert (c : UdpConn msgSize) :
    ((∅ : HashMap SocketAddr (UdpConn msgSize)).insert server c).size = 1 := by
  rw [Finmap.size_insert_of_notMem Finmap.notMem_empty, Finmap.size_eq_zero.2 rfl]

theorem size_le (h : Drained server rx) : rx.conn.size ≤ 1 := by
  rcases h.conn with hc | hc
  · rw [hc, Finmap.size_eq_zero.2 rfl]
    omega
  · rw [hc, size_insert]

/-- A datagram of the size of a message is queued for the server. -/
theorem tryRecv (h : Drained server rx) (hq : 0 < qSize) (husize : qSize < 2 ^ 64) (buf : Datagram msgSize) :
    rx.tryRecv (.datagram msgSize server buf) = .ok ⟨.ok (), { rx with
      conn := (∅ : HashMap SocketAddr (UdpConn msgSize)).insert server ⟨[buf], server, false⟩
      nrQueuedDgrams := 1 }, [.accept, .recv]⟩ := by
  have hsize := h.size_le
  have hne : ¬ 0 = qSize := by omega
  have hle : 1 ≤ qSize := by omega
  have hmax : qSize < 18446744073709551616 := husize
  simp [UdpDispatcherRx.tryRecv, check, checkedUsize, h.max, h.nr, h.entry, h.insert, size_insert, hsize, hne, hle,
    hmax, Finmap.insert_insert, bind, Except.bind, pure, Except.pure]

/-- A pass gives what the socket gives, and leaves nothing queued. -/
theorem tryRecvFrom (h : Drained server rx) (hq : 0 < qSize) (husize : qSize < 2 ^ 64) (socket : ConnRecv msgSize) :
    ∃ r, rx.tryRecvFrom (socket.sockRecv server) server = .ok r ∧ r.val = socket.plain ∧ Drained server r.rx := by
  cases socket with
  | error e => exact ⟨_, rfl, rfl, h⟩
  | wouldBlock =>
    refine ⟨⟨.ok none, rx, rx.recvNotify⟩, ?_, rfl, h⟩
    have hrecv : rx.tryRecv .wouldBlock = .ok ⟨.ok (), rx, []⟩ := rfl
    rw [ConnRecv.sockRecv, UdpDispatcherRx.tryRecvFrom, hrecv]
    rcases h.conn with hc | hc <;> simp [hc, bind, Except.bind, pure, Except.pure]
  | datagram n buf =>
    by_cases hn : n = msgSize
    · subst hn
      rw [ConnRecv.sockRecv, ConnRecv.plain, if_pos rfl, UdpDispatcherRx.tryRecvFrom, h.tryRecv hq husize]
      refine ⟨⟨.ok (some buf), ⟨(∅ : HashMap SocketAddr (UdpConn n)).insert server ⟨[], server, false⟩, 1, 0⟩,
        [.accept, .recv]⟩, ?_, rfl, rfl, rfl, .inr rfl⟩
      simp [bind, Except.bind, pure, Except.pure, checkedSub, Finmap.insert_insert, h.max, recvNotify]
    · refine ⟨⟨.error s!"Socket read: Invalid datagram size: {n}", rx, []⟩, ?_, ?_, h⟩
      · simp [ConnRecv.sockRecv, UdpDispatcherRx.tryRecvFrom, UdpDispatcherRx.tryRecv, hn, pure, Except.pure, bind,
          Except.bind]
      · rw [ConnRecv.plain, if_neg hn]

end Drained
end UdpDispatcherRx

/-! ## Runs -/

namespace UdpClient
variable {server : SocketAddr}

/-- The client is at the same point, and its dispatcher holds nothing. -/
def Plain (server : SocketAddr) (s : UdpClient (UdpDispatcherRx MSG_SIZE 4)) (t : UdpClient Unit) : Prop :=
  s.prog = t.prog ∧ UdpDispatcherRx.Drained server s.rx

theorem resume_related {rx : UdpDispatcherRx MSG_SIZE 4} (h : UdpDispatcherRx.Drained server rx)
    (prog : Endpoint AuthBytes Unit) : (resume rx prog).Related (Plain server) (resume () prog) := by
  cases prog
  case panic => rfl
  all_goals exact ⟨rfl, h⟩

theorem step_related {s : UdpClient (UdpDispatcherRx MSG_SIZE 4)} {t : UdpClient Unit} (h : Plain server s t)
    (act : ClientAct) : (step (dispatcherPass server) s act).Related (Plain server) (step plainPass t act) := by
  obtain ⟨rx, prog⟩ := s
  obtain ⟨_, prog'⟩ := t
  obtain ⟨rfl, hrx⟩ : prog = prog' ∧ UdpDispatcherRx.Drained server rx := h
  cases acted prog act with
  | notReady h => rw [h, h]; rfl
  | answered a _ h => rw [h, h]; exact resume_related hrx _
  | pass socket hprog =>
    subst hprog
    obtain ⟨r, hr, hval, hdrained⟩ := hrx.tryRecvFrom (by decide) (by decide) socket
    have hpass : dispatcherPass server rx socket = .ok (r.rx, r.val) := by
      rw [dispatcherPass, hr]
      rfl
    simp only [step, hpass, plainPass, hval]
    cases SrvTasks.received socket.plain with
    | none => exact ⟨rfl, hdrained⟩
    | some answer => exact resume_related hdrained _

/-- No answers lead the program to a panic. -/
def Sane (prog : Endpoint AuthBytes Unit) : Prop :=
  prog.Spec (fun st _ => st ≠ .panicked) fun _ _ => True

theorem Sane.resume {prog : Endpoint AuthBytes Unit} (h : Sane prog) : resume () prog = .ok ⟨(), prog⟩ := by
  cases prog
  case panic => exact absurd rfl h
  all_goals rfl

theorem Sane.step {t : UdpClient Unit} (h : Sane t.prog) (act : ClientAct) :
    step plainPass t act = .error .notReady ∨ ∃ t', step plainPass t act = .ok t' ∧ Sane t'.prog := by
  obtain ⟨_, prog⟩ := t
  cases acted prog act with
  | notReady hact => exact .inl (hact _ _)
  | answered a hprog hact =>
    subst hprog
    have hk : Sane _ := h.2 a
    exact .inr ⟨_, (hact _ _).trans hk.resume, hk⟩
  | pass socket hprog =>
    subst hprog
    simp only [UdpClient.step, plainPass]
    cases SrvTasks.received socket.plain with
    | none => exact .inr ⟨_, rfl, h⟩
    | some answer =>
      have hk : Sane _ := h.2 (Message.recv answer)
      exact .inr ⟨_, hk.resume, hk⟩

theorem Sane.run {t : UdpClient Unit} (h : Sane t.prog) (acts : List ClientAct) (why : Panic) :
    runAll (UdpClient.step plainPass) t acts ≠ .error (.panicked why) := by
  induction acts generalizing t with
  | nil =>
    intro hrun
    cases hrun
  | cons act acts ih =>
    rw [runAll]
    rcases h.step act with hs | ⟨t', hs, ht'⟩
    · rw [hs]
      intro hrun
      cases hrun
    · rw [hs]
      exact ih ht'

/-- Whatever the socket reports and whatever happens otherwise, the client with its dispatcher is where it would be
if it read the socket itself, and it does not panic. -/
def Transparent (server : SocketAddr) (prog : Endpoint AuthBytes Unit) : Prop :=
  ∀ acts, (runAll (step (dispatcherPass server)) ⟨.new 1, prog⟩ acts).Related (Plain server)
      (runAll (step plainPass) ⟨(), prog⟩ acts) ∧
    ∀ why, runAll (step (dispatcherPass server)) ⟨.new 1, prog⟩ acts ≠ .error (.panicked why)

theorem Sane.transparent {prog : Endpoint AuthBytes Unit} (h : Sane prog) : Transparent server prog := by
  intro acts
  have hrel : (runAll (UdpClient.step (dispatcherPass server)) ⟨.new 1, prog⟩ acts).Related (Plain server)
      (runAll (UdpClient.step plainPass) ⟨(), prog⟩ acts) :=
    runAll_related (fun s t act hst => step_related hst act) ⟨rfl, .new⟩
  refine ⟨hrel, fun why hpanic => Sane.run (t := ⟨(), prog⟩) h acts why ?_⟩
  rw [hpanic] at hrel
  cases hplain : runAll (UdpClient.step plainPass) ⟨(), prog⟩ acts with
  | ok t =>
    rw [hplain] at hrel
    exact hrel.elim
  | error e =>
    rw [hplain] at hrel
    exact congrArg _ (Eq.symm hrel)

/-- A knock and a close over UDP. -/
theorem dispatcher_transparent [HmacSha3] (server : SocketAddr) (seq : ClientSeq) :
    Transparent server seq.knockSequence ∧ Transparent server seq.closeSequence :=
  ⟨Sane.transparent (sequence_ne_panicked seq _ (.inl rfl)), Sane.transparent (sequence_ne_panicked seq _ (.inr rfl))⟩

end UdpClient
end Letmein
