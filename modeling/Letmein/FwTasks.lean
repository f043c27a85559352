import Letmein.FwRequests
import Letmein.Lib.Text
import Letmein.Limit
import Letmein.NftHistory

/-!
# The tasks of the firewall daemon (`letmeinfwd/src/main.rs`, `FirewallServer::accept`)

letmeinfwd runs an accept loop, a handler for each connection, the maintenance of the firewall and the main loop. They
take turns in any order and share the firewall. The accept loop and the maintenance each have a channel to the main
loop, on which they report the error that ended them; the main loop then shuts the firewall down and the daemon exits.
`FirewallServer::accept` returns an error for a peer that is not letmeind, and the accept loop treats it as it treats an
error of the listener (`rejected_peer_ends_daemon`).
-/

namespace Letmein
open Text

/-! ## Accepting a connection -/

/-- The options of the daemon that matter here, with the ids that `read_etc_passwd` has stored. -/
structure FwdOpts where
  numConnections : Nat
  testMode : Bool
  letmeindUid : UInt32
  letmeindGid : UInt32

/-- `letmeind/letmeind.pid` when it is read. -/
inductive PidFile where
  | openError
  | readError
  | text (s : Text)
deriving DecidableEq, Repr

structure UCred where
  pid : Option Int
  uid : UInt32
  gid : UInt32
deriving DecidableEq, Repr

/-- A connection to the socket: who is at the other end, and what is received on it and can be sent. -/
structure Peer where
  cred : Except String UCred
  pidFile : PidFile
  reads : List SocketRead
  send : Except String Unit
  it : IterOrder ResourceId

/-- `i32::from_str` -/
def parseI32 : Text → Except String Int
  | '-' :: c :: digits => (fun n : Nat => -(n : Int)) <$> (c :: digits).foldlM (addDigit 10 0x80000000) 0
  | s => (fun n : Nat => (n : Int)) <$> fromStrRadix 10 0x7FFFFFFF s

def getLetmeindPid : PidFile → Except String Int
  | .openError => .error "Open PID-file of 'letmeind' daemon"
  | .readError => .error "Read PID-file of 'letmeind' daemon"
  | .text s => (parseI32 (trim s)).mapError fun _ => "Parse 'letmeind' PID-file string to number"

/-- Accept a connection. `incoming` is what the listener returns. -/
def FirewallServer.accept (opts : FwdOpts) (incoming : Except String Peer) : Except String Peer := do
  let stream ← incoming
  let cred ← stream.cred.mapError fun _ => "Get Unix socket peer credentials"
  match cred.pid with
  | none => .error "The connected pid is not known. Rejecting."
  | some pid =>
    let expectedPid ← getLetmeindPid stream.pidFile
    if pid ≠ expectedPid then
      .error s!"The connected pid {pid} is not letmeind ({expectedPid}). Rejecting."
    else if opts.testMode = false ∧ cred.uid ≠ opts.letmeindUid then
      .error (s!"The connected uid {cred.uid.toNat} is not letmeind ({opts.letmeindUid.toNat}). Rejecting. " ++
        "Please ensure that the 'letmeind' daemon is running as 'letmeind' user.")
    else if opts.testMode = false ∧ cred.gid ≠ opts.letmeindGid then
      .error (s!"The connected gid {cred.gid.toNat} is not letmeind ({opts.letmeindGid.toNat}). Rejecting. " ++
        "Please ensure that the 'letmeind' daemon is running as 'letmeind' group.")
    else .ok stream

/-- The peer is letmeind. -/
structure IsLetmeind (opts : FwdOpts) (peer : Peer) (cred : UCred) : Prop where
  known : peer.cred = .ok cred
  pid : ∃ pid, cred.pid = some pid ∧ getLetmeindPid peer.pidFile = .ok pid
  ids : opts.testMode = true ∨ cred.uid = opts.letmeindUid ∧ cred.gid = opts.letmeindGid

/-- A peer is accepted exactly if it is letmeind. -/
theorem FirewallServer.accept_ok_iff {opts : FwdOpts} {peer conn : Peer} :
    FirewallServer.accept opts (.ok peer) = .ok conn ↔ conn = peer ∧ ∃ cred, IsLetmeind opts peer cred := by
  constructor
  · intro h
    obtain ⟨stream, hstream, h⟩ := Except.bind_ok h
    cases hstream
    obtain ⟨cred, hcred, h⟩ := Except.bind_ok h
    have hcred : peer.cred = .ok cred := Except.mapError_ok_iff.1 hcred
    split at h
    · cases h
    · rename_i pid hpid
      obtain ⟨expected, hexpected, h⟩ := Except.bind_ok h
      split_ifs at h with hne huid hgid
      cases h
      have heq : pid = expected := not_not.1 hne
      refine ⟨rfl, cred, hcred, ⟨pid, hpid, heq ▸ hexpected⟩, ?_⟩
      by_cases htest : opts.testMode = false
      · exact .inr ⟨not_not.1 fun hne => huid ⟨htest, hne⟩, not_not.1 fun hne => hgid ⟨htest, hne⟩⟩
      · exact .inl (by simpa using htest)
  · rintro ⟨rfl, cred, hcred, ⟨pid, hpid, hfile⟩, hids⟩
    have huid : ¬ (opts.testMode = false ∧ cred.uid ≠ opts.letmeindUid) := by
      rintro ⟨htest, hne⟩
      rcases hids with htrue | hids
      · rw [htest] at htrue; cases htrue
      · exact hne hids.1
    have hgid : ¬ (opts.testMode = false ∧ cred.gid ≠ opts.letmeindGid) := by
      rintro ⟨htest, hne⟩
      rcases hids with htrue | hids
      · rw [htest] at htrue; cases htrue
      · exact hne hids.2
    simp only [FirewallServer.accept, hcred, hpid, hfile, Except.mapError, bind, Except.bind]
    rw [if_neg (by simp), if_neg huid, if_neg hgid]

/-! ## The tasks -/

inductive SockTask where
  | looping (state : LoopState Peer)
  -- `exit_sock_tx.send(Err(e)).await`
  | sending (e : String)

/-- The accept loop goes on. -/
def SockTask.running : SockTask → Bool
  | .looping .stopped => false
  | .looping _ => true
  | .sending _ => false

/-- The permits that the accept loop holds. -/
def SockTask.held : SockTask → Nat
  | .looping state => state.held
  | .sending _ => 0

def SockTask.stopped : SockTask → Bool
  | .looping .stopped => true
  | _ => false

inductive FwTask where
  -- `interval.tick().await`
  | ticking
  -- `exit_fw_tx.send(Err(e)).await`
  | sending (e : String)
  | stopped
deriving DecidableEq, Repr

/-- The task after a round of maintenance. -/
def FwTask.maintained : Except String Unit → FwTask
  | .ok () => .ticking
  | .error e => .sending e

inductive MainTask where
  -- `tokio::select!`
  | selecting
  | exiting (exitcode : Except String Unit)
  | exited (exitcode : Except String Unit)

def MainTask.alive : MainTask → Bool
  | .exited _ => false
  | _ => true

/-- The exit code of the daemon after the shutdown of the firewall returned `val`. -/
def shutdownCode : Except String Unit → Except String Unit → Except String Unit
  | .error _, .ok () => .error "Failed to remove firewall rules"
  | _, exitcode => exitcode

/-- The connections that have a handler are `handlers`, and what the handlers that are done returned and sent is
`served`. The channels hold one message each; the main loop takes at most one and is left then. -/
structure FwdTasks where
  firewall : FwdState
  sock : SockTask
  permits : Nat
  handlers : List Peer
  served : List (Except String Unit × Option FirewallMessage)
  maintenance : FwTask
  exitSock : Option String
  exitFw : Option String
  main : MainTask

inductive FwdAct where
  | accept (incoming : Except String Peer)
  | acquire
  | spawn
  | drop
  | sendSock
  | serve (n : Nat) (env : NftEnv)
  | maintain (env : NftEnv)
  | sendFw
  | sigterm
  | sigint
  | sighup
  | recvSock
  | recvFw
  | shutdown (env : NftEnv)

/-- Why a step is not taken: the task is not there, or it panics and the process is aborted. -/
inductive Halt where
  | notReady
  | panicked (why : Panic)
deriving DecidableEq, Repr

namespace FwdTasks

/-- After the tasks are spawned. -/
def start (opts : FwdOpts) (fw : NftFirewall) (k : Kernel) : FwdTasks where
  firewall := ⟨fw, k⟩
  sock := .looping .accepting
  permits := opts.numConnections
  handlers := []
  served := []
  maintenance := .ticking
  exitSock := none
  exitFw := none
  main := .selecting

def accept (opts : FwdOpts) (s : FwdTasks) (incoming : Except String Peer) : Except Halt FwdTasks :=
  match s.sock with
  | .looping .accepting =>
    match FirewallServer.accept opts incoming with
    | .ok conn => .ok { s with sock := .looping (.acquiring conn) }
    | .error e => .ok { s with sock := .sending e }
  | _ => .error .notReady

/-- A permit is there for the connection. The semaphore is never closed. -/
def acquire (s : FwdTasks) : Except Halt FwdTasks :=
  match s.sock, s.permits with
  | .looping (.acquiring conn), permits + 1 => .ok { s with sock := .looping (.permitted conn), permits := permits }
  | _, _ => .error .notReady

def spawn (s : FwdTasks) : Except Halt FwdTasks :=
  match s.sock with
  | .looping (.permitted conn) => .ok { s with sock := .looping .spawned, handlers := s.handlers ++ [conn] }
  | _ => .error .notReady

def drop (s : FwdTasks) : Except Halt FwdTasks :=
  match s.sock with
  | .looping .spawned => .ok { s with sock := .looping .accepting, permits := s.permits + 1 }
  | _ => .error .notReady

/-- The channel has room: nothing else is sent on it. Then the loop is left. -/
def sendSock (s : FwdTasks) : Except Halt FwdTasks :=
  match s.sock with
  | .sending e => .ok { s with sock := .looping .stopped, exitSock := some e }
  | _ => .error .notReady

/-- The handler of a connection runs. As long as the message is not complete, it waits. -/
def serve (conf : Config) (s : FwdTasks) (n : Nat) (env : NftEnv) : Except Halt FwdTasks :=
  match s.handlers[n]? with
  | none => .error .notReady
  | some conn =>
    match handleConnection conf env conn.it conn.reads conn.send s.firewall.fw s.firewall.kernel with
    | .error why => .error (.panicked why)
    | .ok none => .ok s
    | .ok (some r) => .ok { s with
        firewall := ⟨r.fw, r.kernel⟩
        handlers := s.handlers.eraseIdx n
        served := (r.val, r.reply) :: s.served }

def maintain (conf : Config) (s : FwdTasks) (env : NftEnv) : Except Halt FwdTasks :=
  match s.maintenance with
  | .ticking =>
    match s.firewall.fw.maintain conf env s.firewall.kernel with
    | .error why => .error (.panicked why)
    | .ok r => .ok { s with
        firewall := ⟨r.fw, r.kernel⟩
        maintenance := .maintained r.val }
  | _ => .error .notReady

def sendFw (s : FwdTasks) : Except Halt FwdTasks :=
  match s.maintenance with
  | .sending e => .ok { s with maintenance := .stopped, exitFw := some e }
  | _ => .error .notReady

/-- The main loop is left. -/
def leave (s : FwdTasks) (exitcode : Except String Unit) : Except Halt FwdTasks :=
  match s.main with
  | .selecting => .ok { s with main := .exiting exitcode }
  | _ => .error .notReady

def sighup (s : FwdTasks) : Except Halt FwdTasks :=
  match s.main with
  | .selecting => .ok s
  | _ => .error .notReady

/-- A message comes out of a channel, or its sender is gone. -/
def recvExit (s : FwdTasks) (message : Option String) (closed : Bool) : Except Halt FwdTasks :=
  match message with
  | some e => s.leave (.error e)
  | none => if closed then s.leave (.error "Unknown error code.") else .error .notReady

def shutdown (conf : Config) (s : FwdTasks) (env : NftEnv) : Except Halt FwdTasks :=
  match s.main with
  | .exiting exitcode =>
    match s.firewall.fw.shutdownFw conf env s.firewall.kernel with
    | .error why => .error (.panicked why)
    | .ok r => .ok { s with
        firewall := ⟨r.fw, r.kernel⟩
        main := .exited (shutdownCode r.val exitcode) }
  | _ => .error .notReady

/-- One task makes a step. When the main task has returned, the others are gone. -/
def step (conf : Config) (opts : FwdOpts) (s : FwdTasks) (act : FwdAct) : Except Halt FwdTasks :=
  if s.main.alive = false then .error .notReady
  else match act with
    | .accept incoming => s.accept opts incoming
    | .acquire => s.acquire
    | .spawn => s.spawn
    | .drop => s.drop
    | .sendSock => s.sendSock
    | .serve n env => s.serve conf n env
    | .maintain env => s.maintain conf env
    | .sendFw => s.sendFw
    | .sigterm => s.leave (.ok ())
    | .sigint => s.leave (.error "Interrupted by SIGINT.")
    | .sighup => s.sighup
    | .recvSock => s.recvExit s.exitSock s.sock.stopped
    | .recvFw => s.recvExit s.exitFw (s.maintenance = .stopped)
    | .shutdown env => s.shutdown conf env

/-! ## What a step can do -/

variable {conf : Config} {opts : FwdOpts} {s s' : FwdTasks} {act : FwdAct} {names : NftNames}

inductive Stepped (conf : Config) (opts : FwdOpts) (s : FwdTasks) : FwdTasks → Prop
  | idle : Stepped conf opts s s
  | accepted {conn : Peer} (hsock : s.sock = .looping .accepting) :
      Stepped conf opts s { s with sock := .looping (.acquiring conn) }
  | refused {e : String} (hsock : s.sock = .looping .accepting) : Stepped conf opts s { s with sock := .sending e }
  | acquired {conn : Peer} {permits : Nat} (hsock : s.sock = .looping (.acquiring conn))
      (hpermits : s.permits = permits + 1) :
      Stepped conf opts s { s with sock := .looping (.permitted conn), permits := permits }
  | spawned {conn : Peer} (hsock : s.sock = .looping (.permitted conn)) :
      Stepped conf opts s { s with sock := .looping .spawned, handlers := s.handlers ++ [conn] }
  | dropped (hsock : s.sock = .looping .spawned) :
      Stepped conf opts s { s with sock := .looping .accepting, permits := s.permits + 1 }
  | sent {e : String} (hsock : s.sock = .sending e) :
      Stepped conf opts s { s with sock := .looping .stopped, exitSock := some e }
  | served {n : Nat} {env : NftEnv} {conn : Peer} {r : HandleRet}
      (hr : handleConnection conf env conn.it conn.reads conn.send s.firewall.fw s.firewall.kernel = .ok (some r)) :
      Stepped conf opts s { s with
        firewall := ⟨r.fw, r.kernel⟩
        handlers := s.handlers.eraseIdx n
        served := (r.val, r.reply) :: s.served }
  | maintained {env : NftEnv} {r : NftRet} (hr : s.firewall.fw.maintain conf env s.firewall.kernel = .ok r) :
      Stepped conf opts s { s with firewall := ⟨r.fw, r.kernel⟩, maintenance := .maintained r.val }
  | reported {e : String} (hfw : s.maintenance = .sending e) :
      Stepped conf opts s { s with maintenance := .stopped, exitFw := some e }
  | left (exitcode : Except String Unit) (hmain : s.main = .selecting) :
      Stepped conf opts s { s with main := .exiting exitcode }
  | shutdown {env : NftEnv} {r : NftRet} {exitcode : Except String Unit} (hmain : s.main = .exiting exitcode)
      (hr : s.firewall.fw.shutdownFw conf env s.firewall.kernel = .ok r) :
      Stepped conf opts s { s with
        firewall := ⟨r.fw, r.kernel⟩
        main := .exited (shutdownCode r.val exitcode) }

theorem leave_ok {exitcode : Except String Unit} (h : s.leave exitcode = .ok s') : Stepped conf opts s s' := by
  unfold leave at h
  split at h
  · rename_i hmain
    cases h
    exact .left exitcode hmain
  · cases h

theorem recvExit_ok {message : Option String} {closed : Bool} (h : s.recvExit message closed = .ok s') :
    Stepped conf opts s s' := by
  unfold recvExit at h
  split at h
  · exact leave_ok h
  · split at h
    · exact leave_ok h
    · cases h

theorem serve_ok {n : Nat} {env : NftEnv} (h : s.serve conf n env = .ok s') : Stepped conf opts s s' := by
  unfold serve at h
  split at h
  · cases h
  · split at h
    · cases h
    · cases h
      exact .idle
    · rename_i hr
      cases h
      exact .served hr

theorem maintain_ok {env : NftEnv} (h : s.maintain conf env = .ok s') : Stepped conf opts s s' := by
  unfold maintain at h
  split at h
  · split at h
    · cases h
    · rename_i hr
      cases h
      exact .maintained hr
  · cases h

theorem shutdown_ok {env : NftEnv} (h : s.shutdown conf env = .ok s') : Stepped conf opts s s' := by
  unfold shutdown at h
  split at h
  · rename_i hmain
    split at h
    · cases h
    · rename_i hr
      cases h
      exact .shutdown hmain hr
  · cases h

theorem accept_ok {incoming : Except String Peer} (h : s.accept opts incoming = .ok s') : Stepped conf opts s s' := by
  unfold accept at h
  split at h
  · rename_i hsock
    split at h
    · cases h
      exact .accepted hsock
    · cases h
      exact .refused hsock
  · cases h

theorem step_ok (h : s.step conf opts act = .ok s') : s.main.alive = true ∧ Stepped conf opts s s' := by
  unfold step at h
  split_ifs at h with halive
  refine ⟨by simpa using halive, ?_⟩
  cases act with
  | accept incoming => exact accept_ok h
  | acquire =>
    dsimp only [acquire] at h
    split at h
    · rename_i hsock hpermits
      cases h
      exact .acquired hsock hpermits
    · cases h
  | spawn =>
    dsimp only [spawn] at h
    split at h
    · rename_i hsock
      cases h
      exact .spawned hsock
    · cases h
  | drop =>
    dsimp only [drop] at h
    split at h
    · rename_i hsock
      cases h
      exact .dropped hsock
    · cases h
  | sendSock =>
    dsimp only [sendSock] at h
    split at h
    · rename_i hsock
      cases h
      exact .sent hsock
    · cases h
  | serve n env => exact serve_ok h
  | maintain env => exact maintain_ok h
  | sendFw =>
    dsimp only [sendFw] at h
    split at h
    · rename_i hfw
      cases h
      exact .reported hfw
    · cases h
  | sigterm => exact leave_ok h
  | sigint => exact leave_ok h
  | sighup =>
    dsimp only [sighup] at h
    split at h
    · cases h
      exact .idle
    · cases h
  | recvSock => exact recvExit_ok h
  | recvFw => exact recvExit_ok h
  | shutdown env => exact shutdown_ok h

/-! ## Runs -/

theorem shutdownFw_leases {env : NftEnv} {fw : NftFirewall} {k : Kernel} {r : NftRet}
    (h : fw.shutdownFw conf env k = .ok r) : r.fw.leases = ∅ := by
  obtain ⟨u, -, h⟩ := Except.bind_ok h
  dsimp only at h
  split at h
  · cases h
    rfl
  · cases h
    rfl

/-- What a step does to the firewall: a handler or the maintenance makes a step of it, or it is shut down. -/
theorem Stepped.firewall (h : Stepped conf opts s s') :
    s'.firewall = s.firewall ∨ (∃ input, s.firewall.step conf input = .ok s'.firewall) ∨
      s'.main.alive = false ∧ s'.firewall.fw.leases = ∅ := by
  cases h with
  | @served n env conn r hr =>
    refine .inr (.inl ⟨(.message conn.reads conn.send conn.it, env), ?_⟩)
    simp only [FwdState.step, hr, bind, Except.bind]; rfl
  | @maintained env r hr =>
    refine .inr (.inl ⟨(.maintain, env), ?_⟩)
    simp only [FwdState.step, hr, bind, Except.bind]; rfl
  | shutdown _ hr => exact .inr (.inr ⟨rfl, shutdownFw_leases hr⟩)
  | _ => exact .inl rfl

/-- Only the shutdown ends the daemon. -/
theorem Stepped.alive (h : Stepped conf opts s s') (halive : s.main.alive = true) :
    s'.main.alive = true ∨ s'.firewall.fw.leases = ∅ := by
  cases h with
  | left => exact .inl rfl
  | shutdown _ hr => exact .inr (shutdownFw_leases hr)
  | _ => exact .inl halive

theorem Stepped.permits (h : Stepped conf opts s s') : s'.permits + s'.sock.held = s.permits + s.sock.held := by
  cases h with
  | accepted hsock => rw [hsock]; rfl
  | refused hsock => rw [hsock]; rfl
  | acquired hsock hcount => rw [hsock, hcount]; rfl
  | spawned hsock => rw [hsock]; rfl
  | dropped hsock => rw [hsock]; rfl
  | sent hsock => rw [hsock]; rfl
  | _ => rfl

theorem sane_of_step {s s' : FwdState} {input : FwdEvent × NftEnv} (hn : readConfiguration conf = .ok names)
    (hs : s.toFwState.Sane names) (h : s.step conf input = .ok s') : s'.toFwState.Sane names := by
  rcases FwdState.step_ok h with rfl | ⟨call, nr, -, hcall, rfl⟩
  · exact hs
  · exact hs.called (FwState.call_ok hn hs hcall)

/-- The firewall is sane until the daemon exits, then it has no leases. No permit is lost. -/
structure Sound (names : NftNames) (opts : FwdOpts) (s : FwdTasks) : Prop where
  sane : s.main.alive = true → s.firewall.toFwState.Sane names
  exited : s.main.alive = false → s.firewall.fw.leases = ∅
  permits : s.permits + s.sock.held = opts.numConnections

theorem Sound.step (hn : readConfiguration conf = .ok names) (hs : s.Sound names opts)
    (h : s.step conf opts act = .ok s') : s'.Sound names opts := by
  obtain ⟨halive, h⟩ := step_ok h
  have hsane := hs.sane halive
  refine ⟨fun halive' => ?_, fun hexit => ?_, h.permits.trans hs.permits⟩
  · rcases h.firewall with hsame | ⟨input, hinput⟩ | ⟨hexit, -⟩
    · rw [hsame]
      exact hsane
    · exact sane_of_step hn hsane hinput
    · rw [halive'] at hexit
      cases hexit
  · rcases h.alive halive with halive' | hempty
    · rw [halive'] at hexit
      cases hexit
    · exact hempty

theorem Sound.start {env : NftEnv} {fw : NftFirewall} {k k' : Kernel} (hn : readConfiguration conf = .ok names)
    (hnew : NftFirewall.new conf env k = .ok (fw, k')) : (start opts fw k').Sound names opts := by
  obtain ⟨hsane, -, -⟩ := FwState.Sane.new hn hnew
  exact ⟨fun _ => hsane, fun hexit => (by cases hexit), rfl⟩

/-- The accept loop was left because of the error, and since then handlers have only ended. -/
structure Ended (e : String) (handlers : List Peer) (s : FwdTasks) : Prop where
  sock : s.sock = .sending e ∨ s.sock = .looping .stopped ∧ s.exitSock = some e
  handlers : s.handlers.Sublist handlers

theorem Ended.step {e : String} {handlers : List Peer} (he : s.Ended e handlers)
    (h : s.step conf opts act = .ok s') : s'.Ended e handlers := by
  obtain ⟨-, h⟩ := step_ok h
  -- the loop is in none of the states in which it goes on
  have hloop : ∀ state, s.sock = .looping state → state = .stopped := by
    intro state hstate
    rcases he.sock with hsock | ⟨hsock, -⟩
    · rw [hsock] at hstate; cases hstate
    · rw [hsock] at hstate; cases hstate; rfl
  cases h with
  | idle => exact he
  | accepted hsock => cases hloop _ hsock
  | refused hsock => cases hloop _ hsock
  | acquired hsock => cases hloop _ hsock
  | spawned hsock => cases hloop _ hsock
  | dropped hsock => cases hloop _ hsock
  | @sent e' hsock =>
    rcases he.sock with hsock' | ⟨hsock', -⟩
    · rw [hsock] at hsock'
      cases hsock'
      exact ⟨.inr ⟨rfl, rfl⟩, he.handlers⟩
    · rw [hsock] at hsock'
      cases hsock'
  | served hr => exact ⟨he.sock, (List.eraseIdx_sublist _ _).trans he.handlers⟩
  | maintained => exact ⟨he.sock, he.handlers⟩
  | reported => exact ⟨he.sock, he.handlers⟩
  | left => exact ⟨he.sock, he.handlers⟩
  | shutdown => exact ⟨he.sock, he.handlers⟩

theorem Ended.notReady {e : String} {handlers : List Peer} (he : s.Ended e handlers) (conf : Config) (opts : FwdOpts)
    (incoming : Except String Peer) : s.step conf opts (.accept incoming) = .error .notReady := by
  unfold FwdTasks.step
  split_ifs with halive
  · rfl
  · rcases he.sock with hsock | ⟨hsock, -⟩
    · simp only [accept, hsock]
    · simp only [accept, hsock]

/-! ## The end of the daemon -/

variable {env : NftEnv}

theorem shutdown_exits (opts : FwdOpts) (hn : readConfiguration conf = .ok names) (hs : s.firewall.toFwState.Sane names)
    {exitcode : Except String Unit} (hmain : s.main = .exiting exitcode) (henv : ∀ i, env.nft i = true) :
    ∃ s', s.step conf opts (.shutdown env) = .ok s' ∧ s'.main = .exited exitcode ∧
      s'.firewall.kernel.content names.chain = 0 := by
  obtain ⟨r, hr, hval, hk⟩ := FwState.shutdown_empties hn hs henv
  have hr : s.firewall.fw.shutdownFw conf env s.firewall.kernel = .ok r := hr
  refine ⟨{ s with firewall := ⟨r.fw, r.kernel⟩, main := .exited (shutdownCode r.val exitcode) }, ?_, ?_, hk⟩
  · simp only [step, shutdown, hmain, hr, MainTask.alive, Bool.true_eq_false, if_false]
  · rw [hval]; rfl

theorem step_sendSock (conf : Config) (opts : FwdOpts) {e : String} (hmain : s.main = .selecting)
    (hsock : s.sock = .sending e) :
    s.step conf opts .sendSock = .ok { s with sock := .looping .stopped, exitSock := some e } := by
  simp only [step, sendSock, hmain, hsock, MainTask.alive, Bool.true_eq_false, if_false]

theorem step_recvSock (conf : Config) (opts : FwdOpts) {e : String} (hmain : s.main = .selecting)
    (hexit : s.exitSock = some e) :
    s.step conf opts .recvSock = .ok { s with main := .exiting (.error e) } := by
  simp only [step, recvExit, leave, hmain, hexit, MainTask.alive, Bool.true_eq_false, if_false]

/-- Once the accept loop has been left, the main loop can always be left because of that, and then the daemon exits. -/
theorem Ended.exits {e : String} {handlers : List Peer} (hn : readConfiguration conf = .ok names)
    (he : s.Ended e handlers) (hs : s.Sound names opts) (halive : s.main.alive = true)
    (henv : ∀ i, env.nft i = true) :
    ∃ acts s', runAll (FwdTasks.step conf opts) s acts = .ok s' ∧
      (∀ act ∈ acts, act = .sendSock ∨ act = .recvSock ∨ act = .shutdown env) ∧
      s'.main.alive = false ∧ s'.firewall.kernel.content names.chain = 0 := by
  have hexiting : ∀ {t : FwdTasks} {exitcode}, t.firewall = s.firewall → t.main = .exiting exitcode →
      ∃ t', t.step conf opts (.shutdown env) = .ok t' ∧ t'.main.alive = false ∧
        t'.firewall.kernel.content names.chain = 0 := by
    intro t exitcode hfirewall hmain
    obtain ⟨t', ht', hexited, hk⟩ := shutdown_exits opts hn (hfirewall ▸ hs.sane halive) hmain henv
    exact ⟨t', ht', by rw [hexited]; rfl, hk⟩
  cases hmain : s.main with
  | exited exitcode =>
    rw [hmain] at halive
    cases halive
  | exiting exitcode =>
    obtain ⟨s', hs', hdead, hk⟩ := hexiting rfl hmain
    refine ⟨[.shutdown env], s', ?_, by simp, hdead, hk⟩
    rw [runAll_cons_ok hs']; rfl
  | selecting =>
    rcases he.sock with hsock | ⟨hsock, hexit⟩
    · obtain ⟨s', hs', hdead, hk⟩ := hexiting
        (t := { s with sock := .looping .stopped, exitSock := some e, main := .exiting (.error e) }) rfl rfl
      have hrecv := step_recvSock (s := { s with sock := .looping .stopped, exitSock := some e }) conf opts hmain rfl
      refine ⟨[.sendSock, .recvSock, .shutdown env], s', ?_, by simp, hdead, hk⟩
      rw [runAll_cons_ok (step_sendSock conf opts hmain hsock), runAll_cons_ok hrecv, runAll_cons_ok hs']
      rfl
    · obtain ⟨s', hs', hdead, hk⟩ := hexiting (t := { s with main := .exiting (.error e) }) rfl rfl
      refine ⟨[.recvSock, .shutdown env], s', ?_, by simp, hdead, hk⟩
      rw [runAll_cons_ok (step_recvSock conf opts hmain hexit), runAll_cons_ok hs']
      rfl

/-! ## A rejected peer -/

/-- What can be seen of a run: the firewall and the answers to the requests. -/
def outcome (run : Except Halt FwdTasks) : Except Halt (FwdState × List (Except String Unit × Option FirewallMessage)) :=
  run.map fun s => (s.firewall, s.served)

/-- The connection of the peer leaves the leases, the chain and the accept loop as they are, and later peers are
served as if it had not been. -/
def Unaffected (conf : Config) (opts : FwdOpts) (names : NftNames) (s : FwdTasks) (peer : Peer) : Prop :=
  ∃ s', s.step conf opts (.accept (.ok peer)) = .ok s' ∧ s'.firewall.fw.leases = s.firewall.fw.leases ∧
    s'.firewall.kernel.content names.chain = s.firewall.kernel.content names.chain ∧ s'.sock.running = true ∧
    ∀ conn later, FirewallServer.accept opts (.ok conn) = .ok conn →
      outcome (runAll (step conf opts) s' (.accept (.ok conn) :: later)) =
        outcome (runAll (step conf opts) s (.accept (.ok conn) :: later))

theorem step_refused (conf : Config) {peer : Peer} {e : String} (halive : s.main.alive = true)
    (hsock : s.sock = .looping .accepting)
    (hrej : FirewallServer.accept opts (.ok peer) = .error e) :
    s.step conf opts (.accept (.ok peer)) = .ok { s with sock := .sending e } := by
  simp only [step, accept, halive, hsock, hrej, Bool.true_eq_false, if_false]

/-! ### One pass of the accept loop -/

section
variable {conn : Peer}

theorem step_accepted (conf : Config) (halive : s.main.alive = true) (hsock : s.sock = .looping .accepting)
    (hacc : FirewallServer.accept opts (.ok conn) = .ok conn) :
    s.step conf opts (.accept (.ok conn)) = .ok { s with sock := .looping (.acquiring conn) } := by
  simp only [step, accept, halive, hsock, hacc, Bool.true_eq_false, if_false]

theorem step_acquired (conf : Config) (opts : FwdOpts) {permits : Nat} (halive : s.main.alive = true)
    (hsock : s.sock = .looping (.acquiring conn)) (hpermits : s.permits = permits + 1) :
    s.step conf opts .acquire = .ok { s with sock := .looping (.permitted conn), permits := permits } := by
  simp only [step, acquire, halive, hsock, hpermits, Bool.true_eq_false, if_false]

theorem step_spawned (conf : Config) (opts : FwdOpts) (halive : s.main.alive = true)
    (hsock : s.sock = .looping (.permitted conn)) :
    s.step conf opts .spawn = .ok { s with sock := .looping .spawned, handlers := s.handlers ++ [conn] } := by
  simp only [step, spawn, halive, hsock, Bool.true_eq_false, if_false]

theorem step_dropped (conf : Config) (opts : FwdOpts) (halive : s.main.alive = true)
    (hsock : s.sock = .looping .spawned) :
    s.step conf opts .drop = .ok { s with sock := .looping .accepting, permits := s.permits + 1 } := by
  simp only [step, drop, halive, hsock, Bool.true_eq_false, if_false]

/-- A connection that is accepted gets a handler. -/
theorem run_accepted (halive : s.main.alive = true) (hsock : s.sock = .looping .accepting) (hpermits : 0 < s.permits)
    (hacc : FirewallServer.accept opts (.ok conn) = .ok conn) :
    runAll (step conf opts) s [.accept (.ok conn), .acquire, .spawn, .drop] =
      .ok { s with handlers := s.handlers ++ [conn] } := by
  obtain ⟨permits, hcount⟩ : ∃ permits, s.permits = permits + 1 := ⟨s.permits - 1, by omega⟩
  refine Eq.trans (runAll_cons_ok (step_accepted conf halive hsock hacc)) ?_
  refine Eq.trans (runAll_cons_ok (step_acquired conf opts halive rfl hcount)) ?_
  refine Eq.trans (runAll_cons_ok (step_spawned conf opts halive rfl)) ?_
  refine Eq.trans (runAll_cons_ok (step_dropped conf opts halive rfl)) ?_
  rw [← hsock, ← hcount]
  rfl

/-- The last handler is done. -/
theorem step_served (opts : FwdOpts) {env : NftEnv} {ret : HandleRet} (halive : s.main.alive = true)
    (hret : handleConnection conf env conn.it conn.reads conn.send s.firewall.fw s.firewall.kernel = .ok (some ret)) :
    { s with handlers := s.handlers ++ [conn] }.step conf opts (.serve s.handlers.length env) =
      .ok { s with firewall := ⟨ret.fw, ret.kernel⟩, served := (ret.val, ret.reply) :: s.served } := by
  have hconn : (s.handlers ++ [conn])[s.handlers.length]? = some conn := by simp
  simp only [step, serve, halive, hconn, hret, List.eraseIdx_append_of_length_le (Nat.le_refl _), Nat.sub_self,
    List.eraseIdx_zero, List.tail_cons, List.append_nil, Bool.true_eq_false, if_false]

end

/-- Whatever has happened before, a peer that is rejected ends the accept loop, and no connection is accepted any more,
while without it the next connection of letmeind would have got a handler. The leases and the chain are left alone only
until the main loop hears of it: then the daemon exits, without leases and with an empty chain. -/
theorem rejected_peer_ends_daemon (hn : NftNames.get conf = .ok names) {fw : NftFirewall} {k k' : Kernel}
    (hnew : NftFirewall.new conf env k = .ok (fw, k')) (acts : List FwdAct)
    (hrun : runAll (step conf opts) (start opts fw k') acts = .ok s) (halive : s.main.alive = true)
    (hsock : s.sock = .looping .accepting) {peer : Peer} {e : String}
    (hrej : FirewallServer.accept opts (.ok peer) = .error e) :
    ¬ Unaffected conf opts names s peer ∧
    (∃ s₁, s.step conf opts (.accept (.ok peer)) = .ok s₁ ∧ s₁.firewall = s.firewall ∧
      ∀ later s₂, runAll (step conf opts) s₁ later = .ok s₂ →
        s₂.handlers.Sublist s.handlers ∧
        (∀ incoming, s₂.step conf opts (.accept incoming) = .error .notReady) ∧
        (s₂.main.alive = false → s₂.firewall.fw.leases = ∅) ∧
        (s₂.main.alive = true → ∀ env : NftEnv, (∀ i, env.nft i = true) → ∃ acts s₃,
          runAll (step conf opts) s₂ acts = .ok s₃ ∧
          (∀ act ∈ acts, act = .sendSock ∨ act = .recvSock ∨ act = .shutdown env) ∧
          s₃.main.alive = false ∧ s₃.firewall.fw.leases = ∅ ∧ s₃.firewall.kernel.content names.chain = 0)) ∧
    ∀ conn cred, IsLetmeind opts conn cred → 0 < opts.numConnections →
      runAll (step conf opts) s [.accept (.ok conn), .acquire, .spawn, .drop] =
        .ok { s with handlers := s.handlers ++ [conn] } := by
  have hn := FwState.readConfiguration_eq hn
  have hsound : s.Sound names opts := runAll_inv' (fun _ _ _ hs h => hs.step hn h) (Sound.start hn hnew) hrun
  have hrefused := step_refused conf halive hsock hrej
  refine ⟨?_, ⟨_, hrefused, rfl, fun later s₂ hlater => ?_⟩, fun conn cred hconn hpos => ?_⟩
  · rintro ⟨s', hs', -, -, hrunning, -⟩
    rw [hrefused] at hs'
    cases hs'
    cases hrunning
  · have hstart : ({ s with sock := .sending e } : FwdTasks).Ended e s.handlers := ⟨.inl rfl, List.Sublist.refl _⟩
    have hended : s₂.Ended e s.handlers := runAll_inv' (fun _ _ _ he h => he.step h) hstart hlater
    have hsound₂ : s₂.Sound names opts :=
      runAll_inv' (fun _ _ _ hs h => hs.step hn h) (hsound.step hn hrefused) hlater
    refine ⟨hended.handlers, hended.notReady conf opts, hsound₂.exited, fun halive₂ env henv => ?_⟩
    obtain ⟨acts, s₃, hacts, honly, hdead, hk⟩ := hended.exits hn hsound₂ halive₂ henv
    have hsound₃ : s₃.Sound names opts := runAll_inv' (fun _ _ _ hs h => hs.step hn h) hsound₂ hacts
    exact ⟨acts, s₃, hacts, honly, hdead, hsound₃.exited hdead, hk⟩
  · refine run_accepted halive hsock ?_ (FirewallServer.accept_ok_iff.2 ⟨rfl, cred, hconn⟩)
    have hpermits := hsound.permits
    rw [hsock] at hpermits
    have hheld : (SockTask.looping (.accepting : LoopState Peer)).held = 0 := rfl
    omega

/-- letmeind has the process id 100 and the user and group id 990. -/
def sampleOpts : FwdOpts := ⟨8, false, 990, 990⟩

/-- A process with this id asks to open port 22 for TCP. -/
noncomputable def samplePeer (pid : Int) : Peer where
  cred := .ok ⟨some pid, 990, 990⟩
  pidFile := .text "100\n".toList
  reads := [.data (FirewallMessage.newOpen (.v4 ⟨192, 0, 2, 7⟩) .tcp 22).msgSerialize]
  send := .ok ()
  it := FwdState.fwResources

/-- letmeind connects and its request is served. -/
noncomputable def sampleActs : List FwdAct :=
  [.accept (.ok (samplePeer 100)), .acquire, .spawn, .drop, .serve 0 (sampleEnv 1 [])]

theorem rejected_peer_ends_daemon_sample : ∃ fw k',
    NftFirewall.new FwdState.fwConf (sampleEnv 0 []) .empty = .ok (fw, k') ∧
      ∃ s, runAll (step FwdState.fwConf sampleOpts) (start sampleOpts fw k') sampleActs = .ok s ∧
        (.v4 ⟨192, 0, 2, 7⟩, .tcp 22) ∈ s.firewall.fw.leases ∧ s.served = [(.ok (), some .newAck)] ∧
        ¬ Unaffected FwdState.fwConf sampleOpts sampleNames s (samplePeer 200) := by
  have hnew : NftFirewall.new FwdState.fwConf (sampleEnv 0 []) .empty = .ok (_, _) := rfl
  refine ⟨_, _, hnew, _, rfl, by decide, rfl, ?_⟩
  have hrej : FirewallServer.accept sampleOpts (.ok (samplePeer 200)) =
    .error "The connected pid 200 is not letmeind (100). Rejecting." := rfl
  exact (rejected_peer_ends_daemon (show NftNames.get FwdState.fwConf = .ok sampleNames from rfl) hnew
    sampleActs rfl rfl rfl hrej).1

/-- While a port is open, a process that is not letmeind connects. It is rejected, and the daemon closes the port and
exits. -/
theorem rejected_peer_closes_ports : ∃ fw k' s s',
    NftFirewall.new FwdState.fwConf (sampleEnv 0 []) .empty = .ok (fw, k') ∧
      runAll (step FwdState.fwConf sampleOpts) (start sampleOpts fw k') sampleActs = .ok s ∧
      (.v4 ⟨192, 0, 2, 7⟩, .tcp 22) ∈ s.firewall.fw.leases ∧
      ruleOf sampleNames (some (.v4 ⟨192, 0, 2, 7⟩)) (.tcp 22) ∈ s.firewall.kernel.content sampleNames.chain ∧
      ¬ Unaffected FwdState.fwConf sampleOpts sampleNames s (samplePeer 200) ∧
      runAll (step FwdState.fwConf sampleOpts) s
        [.accept (.ok (samplePeer 200)), .sendSock, .recvSock, .shutdown (sampleEnv 2 [])] = .ok s' ∧
      s'.main = .exited (.error "The connected pid 200 is not letmeind (100). Rejecting.") ∧
      s'.firewall.fw.leases = ∅ ∧ s'.firewall.kernel.content sampleNames.chain = 0 := by
  refine ⟨_, _, _, _, rfl, rfl, by decide, by decide, ?_, rfl, rfl, rfl, rfl⟩
  rintro ⟨s', hs', -, -, hrunning, -⟩
  cases hs'
  cases hrunning

end FwdTasks
end Letmein
