import Mathlib.Data.List.Basic
import Mathlib.Logic.Function.Basic

/-! # Interaction programs

A program asks its environment for operations and goes on with the answers. `Trace` are the operations
and answers of a run up to some point, and `Spec` is what is shown of them by going through the
program once. `Runs` is a system of programs that take turns; its log is kept latest first. -/

/-- A program that returns a value, an error or panics, or asks for `op` and goes on with the answer. -/
inductive Prog (Op : Type) (Ret : Op → Type) (π α : Type) where
  | ret (a : α)
  | err (e : String)
  | panic (why : π)
  | vis (op : Op) (k : Ret op → Prog Op Ret π α)

abbrev Event {Op : Type} (Ret : Op → Type) := Sigma Ret

namespace Prog
variable {Op : Type} {Ret : Op → Type} {π α β : Type}

def bind (f : α → Prog Op Ret π β) : Prog Op Ret π α → Prog Op Ret π β
  | .ret a => f a
  | .err e => .err e
  | .panic why => .panic why
  | .vis op k => .vis op fun a => (k a).bind f

instance : Monad (Prog Op Ret π) where
  pure := .ret
  bind p f := p.bind f

def call (op : Op) : Prog Op Ret π (Ret op) := .vis op .ret

/-- Go on after an error. -/
def ignore : Prog Op Ret π α → Prog Op Ret π Unit
  | .ret _ => .ret ()
  | .err _ => .ret ()
  | .panic why => .panic why
  | .vis op k => .vis op fun a => (k a).ignore

/-- Report an error as `e`. -/
def context (e : String) : Prog Op Ret π α → Prog Op Ret π α
  | .ret a => .ret a
  | .err _ => .err e
  | .panic why => .panic why
  | .vis op k => .vis op fun a => (k a).context e

/-- Continue with the value of a computation that may panic. -/
def ofExcept : Except π α → Prog Op Ret π α
  | .ok a => .ret a
  | .error why => .panic why

/-- From `p` the events `t` lead to `q`. -/
inductive Trace : Prog Op Ret π α → List (Event Ret) → Prog Op Ret π α → Prop
  | nil (p : Prog Op Ret π α) : Trace p [] p
  | cons {op : Op} {k : Ret op → Prog Op Ret π α} {a : Ret op} {t : List (Event Ret)} {q : Prog Op Ret π α}
      (h : Trace (k a) t q) : Trace (.vis op k) (⟨op, a⟩ :: t) q

inductive Status where
  | running
  | returned
  | failed
  | panicked
deriving DecidableEq, Repr

def status : Prog Op Ret π α → Status
  | .ret _ => .returned
  | .err _ => .failed
  | .panic _ => .panicked
  | .vis _ _ => .running

/-- Every trace satisfies `P` with the status at its end, and one that returns `a` satisfies `Q a`. -/
def Spec : (Status → List (Event Ret) → Prop) → (α → List (Event Ret) → Prop) → Prog Op Ret π α → Prop
  | _, Q, .ret a => Q a []
  | P, _, .err _ => P .failed []
  | P, _, .panic _ => P .panicked []
  | P, Q, .vis op k => P .running [] ∧
      ∀ a, (k a).Spec (fun st t => P st (⟨op, a⟩ :: t)) (fun b t => Q b (⟨op, a⟩ :: t))

variable {p q : Prog Op Ret π α} {f : α → Prog Op Ret π β} {t : List (Event Ret)}

theorem ofExcept_ok_bind (a : α) (f : α → Prog Op Ret π β) : (ofExcept (.ok a) >>= f) = f a := rfl

theorem Spec.bind {P : Status → List (Event Ret) → Prop} {Q : β → List (Event Ret) → Prop}
    (h : p.Spec P fun a t => (f a).Spec (fun st t' => P st (t ++ t')) fun b t' => Q b (t ++ t')) :
    (p >>= f).Spec P Q := by
  induction p generalizing P Q with
  | ret a => exact h
  | err e => exact h
  | panic why => exact h
  | vis op k ih => exact ⟨h.1, fun a => ih a (h.2 a)⟩

theorem Spec.trace {P : Status → List (Event Ret) → Prop} (h : p.Spec P fun _ => P .returned)
    (ht : p.Trace t q) : P q.status t := by
  induction ht generalizing P with
  | nil p =>
    rcases p with a | e | why | ⟨op, k⟩
    · exact h
    · exact h
    · exact h
    · exact h.1
  | cons _ ih => exact ih (h.2 _)

theorem Spec.mono {P P' : Status → List (Event Ret) → Prop} {Q Q' : α → List (Event Ret) → Prop} (h : p.Spec P Q)
    (hP : ∀ st t, P st t → P' st t) (hQ : ∀ a t, Q a t → Q' a t) : p.Spec P' Q' := by
  induction p generalizing P P' Q Q' with
  | ret a => exact hQ a [] h
  | err e => exact hP _ [] h
  | panic why => exact hP _ [] h
  | vis op k ih => exact ⟨hP _ [] h.1, fun a => ih a (h.2 a) (fun st t => hP st _) fun b t => hQ b _⟩

theorem Trace.snoc {op : Op} {k : Ret op → Prog Op Ret π α} (h : p.Trace t (.vis op k)) (a : Ret op) :
    p.Trace (t ++ [⟨op, a⟩]) (k a) := by
  generalize hq : Prog.vis op k = q at h
  induction h with
  | nil p => subst hq; exact .cons (.nil _)
  | cons _ ih => exact .cons (ih hq)

theorem Trace.split {t₁ t₂ : List (Event Ret)} (h : p.Trace (t₁ ++ t₂) q) : ∃ r, p.Trace t₁ r ∧ r.Trace t₂ q := by
  induction t₁ generalizing p with
  | nil => exact ⟨p, .nil p, h⟩
  | cons e t₁ ih =>
    cases h with
    | cons h =>
      obtain ⟨r, h₁, h₂⟩ := ih h
      exact ⟨r, .cons h₁, h₂⟩

theorem Trace.append {r : Prog Op Ret π α} {t' : List (Event Ret)} (h : p.Trace t q) (h' : q.Trace t' r) :
    p.Trace (t ++ t') r := by
  induction h with
  | nil p => exact h'
  | cons _ ih => exact .cons (ih h')

theorem Trace.bind (h : p.Trace t q) (f : α → Prog Op Ret π β) : (p >>= f).Trace t (q >>= f) := by
  induction h with
  | nil p => exact .nil _
  | cons _ ih => exact .cons ih

/-- The events of a run after the events `h`, when the environment answers by what has happened. -/
def play (env : List (Event Ret) → (op : Op) → Ret op) : List (Event Ret) → Prog Op Ret π α → List (Event Ret)
  | _, .ret _ => []
  | _, .err _ => []
  | _, .panic _ => []
  | h, .vis op k => ⟨op, env h op⟩ :: play env (h ++ [⟨op, env h op⟩]) (k (env h op))

/-- How that run ends. -/
def final (env : List (Event Ret) → (op : Op) → Ret op) : List (Event Ret) → Prog Op Ret π α → Status
  | _, .ret _ => .returned
  | _, .err _ => .failed
  | _, .panic _ => .panicked
  | h, .vis op k => final env (h ++ [⟨op, env h op⟩]) (k (env h op))

theorem Spec.final {P : Status → List (Event Ret) → Prop} (hp : p.Spec P fun _ => P .returned)
    (env : List (Event Ret) → (op : Op) → Ret op) (h : List (Event Ret)) :
    P (final env h p) (play env h p) := by
  induction p generalizing P h with
  | ret a => exact hp
  | err e => exact hp
  | panic why => exact hp
  | vis op k ih => exact ih _ (hp.2 _) _

/-- After the events `h`, `p` asks for what `q` asks for, all of it `V`, but may end with an error where `C` has
`q` go on before its error. They return the same `Q`. -/
inductive Cuts (V : List (Event Ret) → Op → Prop) (C : List (Event Ret) → String → Prog Op Ret π Empty → Prop)
    (Q : α → List (Event Ret) → Prop) : List (Event Ret) → Prog Op Ret π α → Prog Op Ret π α → Prop
  | ret {h : List (Event Ret)} {a : α} (hq : Q a h) : Cuts V C Q h (.ret a) (.ret a)
  | err {h : List (Event Ret)} (e : String) : Cuts V C Q h (.err e) (.err e)
  | panic {h : List (Event Ret)} (why : π) : Cuts V C Q h (.panic why) (.panic why)
  | vis {h : List (Event Ret)} {op : Op} {k k' : Ret op → Prog Op Ret π α} (hv : V h op)
      (hk : ∀ a, Cuts V C Q (h ++ [⟨op, a⟩]) (k a) (k' a)) : Cuts V C Q h (.vis op k) (.vis op k')
  | cut {h : List (Event Ret)} {e : String} {q : Prog Op Ret π Empty} (hc : C h e q) :
      Cuts V C Q h (.err e) (q >>= Empty.elim)

theorem bind_assoc {γ : Type} (p : Prog Op Ret π α) (f : α → Prog Op Ret π β) (g : β → Prog Op Ret π γ) :
    ((p >>= f) >>= g) = (p >>= fun a => f a >>= g) := by
  induction p with
  | ret a => rfl
  | err e => rfl
  | panic why => rfl
  | vis op k ih => exact congrArg (Prog.vis op) (funext ih)

section
variable {V : List (Event Ret) → Op → Prop} {C : List (Event Ret) → String → Prog Op Ret π Empty → Prop}
  {h : List (Event Ret)}

theorem Cuts.bind {Q : β → List (Event Ret) → Prop} {f' : α → Prog Op Ret π β}
    (hpq : Cuts V C (fun a h => Cuts V C Q h (f a) (f' a)) h p q) : Cuts V C Q h (p >>= f) (q >>= f') := by
  induction hpq with
  | ret hq => exact hq
  | err e => exact .err e
  | panic why => exact .panic why
  | vis hv _ ih => exact .vis hv ih
  | @cut h e q hc =>
    have hq : ((q >>= Empty.elim : Prog Op Ret π α) >>= f') = (q >>= Empty.elim) := by
      rw [bind_assoc]
      exact congrArg (q >>= ·) (funext nofun)
    rw [hq]
    exact .cut hc

/-- What the events `t` put out after the events `h`. -/
def emit {γ : Type} (out : List (Event Ret) → Event Ret → Option γ) : List (Event Ret) → List (Event Ret) → List γ
  | _, [] => []
  | h, e :: t => (out h e).toList ++ emit out (h ++ [e]) t

theorem play_bind_elim (env : List (Event Ret) → (op : Op) → Ret op) (h : List (Event Ret))
    (q : Prog Op Ret π Empty) : (play env h (q >>= Empty.elim : Prog Op Ret π α)) = play env h q := by
  induction q generalizing h with
  | ret a => exact a.elim
  | err e => rfl
  | panic why => rfl
  | vis op k ih => exact congrArg (List.cons _) (ih _ _)

/-- If `keep` holds of what the common part puts out and of nothing in a part that is cut, then it filters the
outputs of `q` to those of `p`. -/
theorem Cuts.emit_play {γ : Type} {Q : α → List (Event Ret) → Prop}
    {out : List (Event Ret) → Event Ret → Option γ} {keep : γ → Bool} (env : List (Event Ret) → (op : Op) → Ret op)
    (hV : ∀ h op a x, V h op → out h ⟨op, a⟩ = some x → keep x = true)
    (hC : ∀ h e q, C h e q → (emit out h (play env h q)).filter keep = []) (hpq : Cuts V C Q h p q) :
    emit out h (play env h p) = (emit out h (play env h q)).filter keep := by
  induction hpq with
  | ret hq => rfl
  | err e => rfl
  | panic why => rfl
  | @vis h op k k' hv _ ih =>
    rw [play, play, emit, emit, List.filter_append, ih]
    rcases ho : out h ⟨op, env h op⟩ with _ | x
    · rfl
    · rw [Option.toList_some, List.filter_singleton, hV h op _ x hv ho]
      rfl
  | @cut h e q hc =>
    rw [play_bind_elim, hC h e q hc]
    rfl

end

end Prog

/-! ### Systems -/

section
variable {ι Op : Type} {Ret : Op → Type} {π α : Type} [DecidableEq ι]

def proj (i : ι) (log : List (ι × Event Ret)) : List (Event Ret) :=
  ((log.filter (·.1 = i)).map (·.2)).reverse

theorem mem_proj {i : ι} {e : Event Ret} {log : List (ι × Event Ret)} : e ∈ proj i log ↔ (i, e) ∈ log := by
  simp only [proj, List.mem_reverse, List.mem_map, List.mem_filter, decide_eq_true_eq]
  constructor
  · rintro ⟨⟨_, _⟩, ⟨h, rfl⟩, rfl⟩
    exact h
  · intro h
    exact ⟨_, ⟨h, rfl⟩, rfl⟩

theorem proj_cons_self (i : ι) (e : Event Ret) (log : List (ι × Event Ret)) :
    proj i ((i, e) :: log) = proj i log ++ [e] := by
  simp [proj]

theorem proj_cons_ne {i j : ι} (h : j ≠ i) (e : Event Ret) (log : List (ι × Event Ret)) :
    proj i ((j, e) :: log) = proj i log := by
  simp [proj, h]

theorem proj_split {i : ι} {log : List (ι × Event Ret)} {e : Event Ret} {t₁ t₂ : List (Event Ret)}
    (h : proj i log = t₁ ++ e :: t₂) : ∃ l₁ l₂, log = l₂ ++ (i, e) :: l₁ ∧ proj i l₁ = t₁ := by
  induction log generalizing t₂ with
  | nil => simp [proj] at h
  | cons x log ih =>
    obtain ⟨j, e'⟩ := x
    by_cases hj : j = i
    · subst hj
      rw [proj_cons_self] at h
      -- the latest event is the last one of the party
      rcases List.eq_nil_or_concat t₂ with rfl | ⟨t₃, e₃, rfl⟩
      · obtain ⟨h₁, h₂⟩ := List.append_inj' h rfl
        cases h₂
        exact ⟨log, [], rfl, h₁⟩
      · rw [List.concat_eq_append, ← List.cons_append, ← List.append_assoc] at h
        obtain ⟨h₁, -⟩ := List.append_inj' h rfl
        obtain ⟨l₁, l₂, rfl, hl₁⟩ := ih h₁
        exact ⟨l₁, (j, e') :: l₂, rfl, hl₁⟩
    · rw [proj_cons_ne hj] at h
      obtain ⟨l₁, l₂, rfl, hl₁⟩ := ih h
      exact ⟨l₁, (j, e') :: l₂, rfl, hl₁⟩

/-- The logs of the system whose parties start as `init`, with the programs they have come to. An
answer is one that the environment allows after what has happened so far. -/
inductive Runs (init : ι → Prog Op Ret π α) (allowed : List (ι × Event Ret) → (op : Op) → Ret op → Prop) :
    List (ι × Event Ret) → (ι → Prog Op Ret π α) → Prop
  | start : Runs init allowed [] init
  | step {log : List (ι × Event Ret)} {cur : ι → Prog Op Ret π α} (i : ι) {op : Op}
      {k : Ret op → Prog Op Ret π α} (a : Ret op) (h : Runs init allowed log cur) (hi : cur i = .vis op k)
      (ha : allowed log op a) : Runs init allowed ((i, ⟨op, a⟩) :: log) (Function.update cur i (k a))

namespace Runs
variable {init : ι → Prog Op Ret π α} {allowed : List (ι × Event Ret) → (op : Op) → Ret op → Prop}
  {log log' : List (ι × Event Ret)} {cur : ι → Prog Op Ret π α}

theorem trace (h : Runs init allowed log cur) (i : ι) : (init i).Trace (proj i log) (cur i) := by
  induction h with
  | start => exact .nil _
  | @step log cur j op k a _ hj _ ih =>
    by_cases hij : j = i
    · subst hij
      rw [proj_cons_self, Function.update_self]
      exact (hj ▸ ih).snoc a
    · rw [proj_cons_ne hij, Function.update_of_ne (Ne.symm hij)]
      exact ih

theorem earlier (h : Runs init allowed (log' ++ log) cur) : ∃ cur', Runs init allowed log cur' := by
  induction log' generalizing cur with
  | nil => exact ⟨cur, h⟩
  | cons x log' ih =>
    obtain ⟨_, _⟩ := x
    cases h with
    | step _ _ h _ _ => exact ih h

theorem answer {i : ι} {op : Op} {a : Ret op} (h : Runs init allowed (log' ++ (i, ⟨op, a⟩) :: log) cur) :
    allowed log op a := by
  obtain ⟨cur', h⟩ := h.earlier
  cases h with
  | step _ _ _ _ ha => exact ha

end Runs
end
