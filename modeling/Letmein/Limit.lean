import Letmein.FwServer
import Letmein.ProtocolAuth
import Mathlib.Logic.Relation

/-!
# The connection limit (`letmeind/src/main.rs`, `letmeinfwd/src/main.rs`)

Both daemons accept connections in a loop, take a permit of a semaphore and spawn a handler for each. The permit is
a variable of the loop, not of the handler, so it is free again as soon as the handler is spawned. The loop and
the handlers take turns in any order.
-/

namespace Letmein

/-! ## Accept loops -/

/-- What a daemon spawns for a connection: a task that makes progress until it is done. -/
structure Handler (Conn Task : Type) where
  start : Conn → Task
  moves : Task → Task → Prop
  done : Task → Bool

inductive LoopState (Conn : Type) where
  -- `srv.accept().await`
  | accepting
  -- `conn_semaphore.acquire().await`
  | acquiring (conn : Conn)
  -- Inside `if let Ok(_permit)`, before the handler is spawned.
  | permitted (conn : Conn)
  -- At its end, before `_permit` is dropped.
  | spawned
  -- After `break`.
  | stopped

/-- The free permits, the loop and the tasks that it has spawned. -/
structure Daemon (Conn Task : Type) where
  permits : Nat
  loop : LoopState Conn
  tasks : List Task

inductive LoopAct where
  | accept
  | acceptError
  | acquire
  | acquireError
  | spawn
  | drop
  | progress
deriving DecidableEq, Repr

namespace Daemon
variable {Conn Task : Type}

def new (numConnections : Nat) : Daemon Conn Task := ⟨numConnections, .accepting, []⟩

def running (h : Handler Conn Task) (s : Daemon Conn Task) : Nat := s.tasks.countP fun t => !h.done t

inductive Step (h : Handler Conn Task) : Daemon Conn Task → LoopAct → Daemon Conn Task → Prop
  | accept {permits : Nat} {tasks : List Task} (conn : Conn) :
      Step h ⟨permits, .accepting, tasks⟩ .accept ⟨permits, .acquiring conn, tasks⟩
  | acceptError {permits : Nat} {tasks : List Task} :
      Step h ⟨permits, .accepting, tasks⟩ .acceptError ⟨permits, .stopped, tasks⟩
  | acquire {permits : Nat} {tasks : List Task} {conn : Conn} :
      Step h ⟨permits + 1, .acquiring conn, tasks⟩ .acquire ⟨permits, .permitted conn, tasks⟩
  | acquireError {permits : Nat} {tasks : List Task} {conn : Conn} :
      Step h ⟨permits, .acquiring conn, tasks⟩ .acquireError ⟨permits, .accepting, tasks⟩
  | spawn {permits : Nat} {tasks : List Task} {conn : Conn} :
      Step h ⟨permits, .permitted conn, tasks⟩ .spawn ⟨permits, .spawned, tasks ++ [h.start conn]⟩
  | drop {permits : Nat} {tasks : List Task} :
      Step h ⟨permits, .spawned, tasks⟩ .drop ⟨permits + 1, .accepting, tasks⟩
  | progress {permits : Nat} {loop : LoopState Conn} {before after : List Task} {t t' : Task}
      (hrun : h.done t = false) (hmove : h.moves t t') :
      Step h ⟨permits, loop, before ++ t :: after⟩ .progress ⟨permits, loop, before ++ t' :: after⟩

/-- The states that a daemon with this limit reaches. -/
def Reaches (h : Handler Conn Task) (numConnections : Nat) : Daemon Conn Task → Prop :=
  Relation.ReflTransGen (fun s s' => ∃ act, Step h s act s') (new numConnections)

end Daemon

/-- The permits that the loop holds. -/
def LoopState.held {Conn : Type} : LoopState Conn → Nat
  | .permitted _ => 1
  | .spawned => 1
  | _ => 0

namespace Daemon
variable {Conn Task : Type} {h : Handler Conn Task} {n : Nat} {s s' : Daemon Conn Task} {act : LoopAct}

/-! ## Permits -/

theorem Step.permits (hstep : Step h s act s') : s'.permits + s'.loop.held = s.permits + s.loop.held := by
  cases hstep with
  | acquire => exact Nat.add_right_comm _ 0 1
  | _ => rfl

/-- No permit is lost and none is made. -/
theorem Reaches.permits (hs : Reaches h n s) : s.permits + s.loop.held = n := by
  induction hs with
  | refl => rfl
  | tail _ hstep ih =>
    obtain ⟨act, hstep⟩ := hstep
    rw [hstep.permits, ih]

/-- Without a permit no handler is ever spawned. -/
theorem Reaches.tasks_of_zero (hs : Reaches h 0 s) : s.tasks = [] := by
  induction hs with
  | refl => rfl
  | tail hprev hstep ih =>
    obtain ⟨act, hstep⟩ := hstep
    cases hstep with
    | spawn =>
      -- The loop holds a permit here.
      have hpermits := Reaches.permits hprev
      simp [LoopState.held] at hpermits
    | progress =>
      simp at ih
    | _ => exact ih

/-- If a permit is free, then the loop can spawn a handler whatever runs already. -/
theorem Reaches.spawn {permits : Nat} {tasks : List Task} (hs : Reaches h n ⟨permits + 1, .accepting, tasks⟩)
    (conn : Conn) : Reaches h n ⟨permits + 1, .accepting, tasks ++ [h.start conn]⟩ :=
  (((hs.tail ⟨_, .accept conn⟩).tail ⟨_, .acquire⟩).tail ⟨_, .spawn⟩).tail ⟨_, .drop⟩

/-- With one permit there is no limit: any number of handlers is spawned before one of them moves. -/
theorem reaches_spawned (h : Handler Conn Task) (conn : Conn) (permits k : Nat) :
    Reaches h (permits + 1) ⟨permits + 1, .accepting, List.replicate k (h.start conn)⟩ := by
  induction k with
  | zero => exact .refl
  | succ k ih =>
    rw [List.replicate_succ']
    exact ih.spawn conn

theorem running_spawned (conn : Conn) (hstart : h.done (h.start conn) = false) (permits k : Nat) :
    running h ⟨permits, .accepting, List.replicate k (h.start conn)⟩ = k := by
  simp [running, List.countP_replicate, hstart]

/-- The number of running handlers is bounded by the number of permits only where there is none. -/
theorem running_le_iff (conn : Conn) (hstart : h.done (h.start conn) = false) :
    (∀ s, Reaches h n s → s.running h ≤ n) ↔ n = 0 := by
  constructor
  · intro hall
    cases n with
    | zero => rfl
    | succ permits =>
      have hle := hall _ (reaches_spawned h conn permits (permits + 2))
      rw [running_spawned conn hstart] at hle
      omega
  · rintro rfl s hs
    simp [running, hs.tasks_of_zero]

end Daemon

/-! ## The daemons -/

section
variable {Auth : Type} [AuthToken Auth] [DecidableEq Auth]

/-- A handler of letmeind is a session with the peer. -/
def letmeind (Auth : Type) [AuthToken Auth] [DecidableEq Auth] (conf : Config) :
    Handler IpAddr (Endpoint Auth Unit) where
  start := Protocol.run conf
  moves p q := ∃ op k a, p = .vis op k ∧ q = k a
  done p := p.status ≠ .running

/-- A handler of letmeinfwd serves one message; until then there is no result. -/
def letmeinfwd (conf : Config) : Handler Unit (Option HandleRet) where
  start _ := none
  moves _ t' := ∃ env it recv send fw k r, handleMessage conf env it recv send fw k = .ok r ∧ t' = some r
  done := Option.isSome

/-- In every run of a daemon at most `numConnections` handlers run at once exactly if `numConnections` is 0, where the
loop never gets a permit. This is so for letmeind and for letmeinfwd, whatever their configuration. -/
theorem connections_limited (conf : Config) (numConnections : Nat) :
    ((∀ s, Daemon.Reaches (letmeind Auth conf) numConnections s →
        s.running (letmeind Auth conf) ≤ numConnections) ↔ numConnections = 0) ∧
    ((∀ s, Daemon.Reaches (letmeinfwd conf) numConnections s →
        s.running (letmeinfwd conf) ≤ numConnections) ↔ numConnections = 0) :=
  ⟨Daemon.running_le_iff (.v4 ⟨192, 0, 2, 7⟩) rfl, Daemon.running_le_iff () rfl⟩

end

/-- With the default limit of 8, nine sessions run at once, and so do nine handlers of letmeinfwd. -/
theorem connections_not_limited :
    (¬ ∀ s, Daemon.Reaches (letmeind SymAuth sampleServer) 8 s → s.running (letmeind SymAuth sampleServer) ≤ 8) ∧
    ¬ ∀ s, Daemon.Reaches (letmeinfwd sampleServer) 8 s → s.running (letmeinfwd sampleServer) ≤ 8 := by
  constructor
  · intro hall
    have hle := hall _ (Daemon.reaches_spawned _ (.v4 ⟨192, 0, 2, 7⟩) 7 9)
    revert hle
    decide
  · intro hall
    have hle := hall _ (Daemon.reaches_spawned _ () 7 9)
    revert hle
    decide

end Letmein
