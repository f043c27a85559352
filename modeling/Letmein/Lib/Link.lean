import Letmein.Lib.Prog
import Mathlib.Logic.Relation

/-! # Two programs over a channel

Each end of a link takes what the other end has put into its queue, in that order, and waits while the queue is
empty. The ends never compete for a buffer, so that all runs of a link come to the same end (`Settles.of_run`). -/

/-- Every run of `r` from here comes to an end, where `P` holds. -/
inductive Settles {σ : Type} (r : σ → σ → Prop) (P : σ → Prop) : σ → Prop
  | mk {a : σ} (hstep : ∀ b, r a b → Settles r P b) (hend : (∀ b, ¬ r a b) → P a) : Settles r P a

/-- Two steps from one state are the same, or can be followed by the other one. -/
def Diamond {σ : Type} (r : σ → σ → Prop) : Prop :=
  ∀ a b c, r a b → r a c → b = c ∨ ∃ d, r b d ∧ r c d

namespace Settles
variable {σ : Type} {r : σ → σ → Prop} {P Q : σ → Prop} {a b : σ}

theorem mono (h : Settles r P a) (hPQ : ∀ a, P a → Q a) : Settles r Q a := by
  induction h with
  | mk _ hend ih => exact .mk ih fun hno => hPQ _ (hend hno)

theorem of_step (hr : Diamond r) (hab : r a b) (hb : Settles r P b) : Settles r P a := by
  -- along the runs from `b`: any other step from `a` leads to a state with a step into one of them
  induction hb generalizing a with
  | @mk b hstep _ ih =>
    refine .mk (fun c hac => ?_) fun hend => absurd hab (hend b)
    rcases hr a b c hab hac with rfl | ⟨d, hbd, hcd⟩
    · exact .mk hstep ‹_›
    · exact ih d hbd hcd

theorem of_run (hr : Diamond r) (hab : Relation.ReflTransGen r a b) (hend : ∀ c, ¬ r b c) (hb : P b) :
    Settles r P a := by
  induction hab using Relation.ReflTransGen.head_induction_on with
  | refl => exact .mk (fun c hc => absurd hc (hend c)) fun _ => hb
  | head hac _ ih => exact ih.of_step hr hac

end Settles

/-! ### Ends -/

/-- How an operation is answered: at once, with what it puts out, or with the next buffer that comes in. -/
inductive Reaction (B R : Type) where
  | now (a : R) (out : List B)
  | wait (f : B → R)

/-- One end of a link: its program, what has happened to it, and what has not been taken yet. -/
structure LinkEnd {Op : Type} (Ret : Op → Type) (π α B : Type) where
  prog : Prog Op Ret π α
  log : List (Event Ret)
  inbox : List B

section
variable {Op : Type} {Ret : Op → Type} {π α B : Type}

namespace LinkEnd

/-- The next state of an end, and what it puts out. -/
def step (react : List (Event Ret) → (op : Op) → Reaction B (Ret op)) (e : LinkEnd Ret π α B) :
    Option (LinkEnd Ret π α B × List B) :=
  match e.prog with
  | .vis op k =>
    match react e.log op with
    | .now a out => some (⟨k a, e.log ++ [⟨op, a⟩], e.inbox⟩, out)
    | .wait f =>
      match e.inbox with
      | [] => none
      | b :: inbox => some (⟨k (f b), e.log ++ [⟨op, f b⟩], inbox⟩, [])
  | _ => none

def deliver (bs : List B) (e : LinkEnd Ret π α B) : LinkEnd Ret π α B := { e with inbox := e.inbox ++ bs }

variable {react : List (Event Ret) → (op : Op) → Reaction B (Ret op)} {e e' : LinkEnd Ret π α B} {out : List B}

theorem step_now {op : Op} {k : Ret op → Prog Op Ret π α} {log : List (Event Ret)} {inbox : List B} {a : Ret op}
    (h : react log op = .now a out) :
    step react ⟨.vis op k, log, inbox⟩ = some (⟨k a, log ++ [⟨op, a⟩], inbox⟩, out) := by
  simp only [step, h]

theorem step_wait {op : Op} {k : Ret op → Prog Op Ret π α} {log : List (Event Ret)} {b : B} {inbox : List B}
    {f : B → Ret op} (h : react log op = .wait f) :
    step react ⟨.vis op k, log, b :: inbox⟩ = some (⟨k (f b), log ++ [⟨op, f b⟩], inbox⟩, []) := by
  simp only [step, h]

theorem step_wait_nil {op : Op} {k : Ret op → Prog Op Ret π α} {log : List (Event Ret)} {f : B → Ret op}
    (h : react log op = .wait f) : step react ⟨.vis op k, log, []⟩ = none := by
  simp only [step, h]

/-- What is delivered later changes no step that can be taken now. -/
theorem step_deliver (h : e.step react = some (e', out)) (bs : List B) :
    (e.deliver bs).step react = some (e'.deliver bs, out) := by
  obtain ⟨p, log, inbox⟩ := e
  rcases p with a | err | why | ⟨op, k⟩
  · cases h
  · cases h
  · cases h
  rcases hreact : react log op with ⟨a, out'⟩ | f
  · rw [step_now hreact] at h
    cases h
    exact step_now hreact
  · rcases inbox with _ | ⟨b, inbox⟩
    · rw [step_wait_nil hreact] at h
      cases h
    · rw [step_wait hreact] at h
      cases h
      exact step_wait hreact

theorem step_of_ended (h : e.prog.status ≠ .running) : e.step react = none := by
  obtain ⟨p, log, inbox⟩ := e
  rcases p with a | err | why | ⟨op, k⟩
  · rfl
  · rfl
  · rfl
  · exact absurd rfl h

end LinkEnd

/-! ### Links -/

/-- Either end takes a step, and the other end is delivered what it puts out. -/
inductive LinkStep (react₁ react₂ : List (Event Ret) → (op : Op) → Reaction B (Ret op)) :
    LinkEnd Ret π α B × LinkEnd Ret π α B → LinkEnd Ret π α B × LinkEnd Ret π α B → Prop
  | left {a a' b : LinkEnd Ret π α B} {out : List B} (h : a.step react₁ = some (a', out)) :
      LinkStep react₁ react₂ (a, b) (a', b.deliver out)
  | right {a b b' : LinkEnd Ret π α B} {out : List B} (h : b.step react₂ = some (b', out)) :
      LinkStep react₁ react₂ (a, b) (a.deliver out, b')

variable {react react₁ react₂ : List (Event Ret) → (op : Op) → Reaction B (Ret op)}

theorem LinkStep.diamond : Diamond (@LinkStep Op Ret π α B react₁ react₂) := by
  rintro ⟨a, b⟩ c d hc hd
  cases hc with
  | left ha =>
    cases hd with
    | left ha' =>
      rw [ha] at ha'
      cases ha'
      exact .inl rfl
    | right hb => exact .inr ⟨_, .right (LinkEnd.step_deliver hb _), .left (LinkEnd.step_deliver ha _)⟩
  | right hb =>
    cases hd with
    | left ha => exact .inr ⟨_, .left (LinkEnd.step_deliver ha _), .right (LinkEnd.step_deliver hb _)⟩
    | right hb' =>
      rw [hb] at hb'
      cases hb'
      exact .inl rfl

theorem LinkStep.not_of_ended {a b : LinkEnd Ret π α B} (ha : a.prog.status ≠ .running)
    (hb : b.prog.status ≠ .running) : ∀ c, ¬ LinkStep react₁ react₂ (a, b) c := by
  intro c hc
  cases hc with
  | left h => rw [LinkEnd.step_of_ended ha] at h; cases h
  | right h => rw [LinkEnd.step_of_ended hb] at h; cases h

/-- After the events `log`, with `inbox` waiting, an end sees the events `t`. It leaves `inbox'` and puts `out` out. -/
inductive Sees (react : List (Event Ret) → (op : Op) → Reaction B (Ret op)) :
    List (Event Ret) → List B → List (Event Ret) → List B → List B → Prop
  | nil {log : List (Event Ret)} {inbox : List B} : Sees react log inbox [] inbox []
  | now {log t : List (Event Ret)} {inbox inbox' : List B} {op : Op} {a : Ret op} {out out' outs : List B}
      (h : react log op = .now a out) (ht : Sees react (log ++ [⟨op, a⟩]) inbox t inbox' out')
      (hout : out ++ out' = outs) : Sees react log inbox (⟨op, a⟩ :: t) inbox' outs
  | wait {log t : List (Event Ret)} {b : B} {inbox inbox' : List B} {op : Op} {a : Ret op} {f : B → Ret op}
      {out : List B} (h : react log op = .wait f) (hf : f b = a) (ht : Sees react (log ++ [⟨op, a⟩]) inbox t inbox' out) :
      Sees react log (b :: inbox) (⟨op, a⟩ :: t) inbox' out

namespace Sees
variable {p q : Prog Op Ret π α} {log t : List (Event Ret)} {inbox inbox' out : List B}

/-- A trace whose events are seen is a run of the end. -/
theorem run_left (h : Sees react₁ log inbox t inbox' out) (ht : p.Trace t q) (b : LinkEnd Ret π α B) :
    Relation.ReflTransGen (LinkStep react₁ react₂) (⟨p, log, inbox⟩, b) (⟨q, log ++ t, inbox'⟩, b.deliver out) := by
  induction h generalizing p b with
  | nil =>
    cases ht
    simp only [LinkEnd.deliver, List.append_nil]
    exact .refl
  | now h _ hout ih =>
    subst hout
    cases ht with
    | cons ht =>
      refine .head (.left (LinkEnd.step_now h)) ?_
      simpa only [LinkEnd.deliver, List.append_assoc, List.cons_append, List.nil_append] using ih ht (b.deliver _)
  | wait h hf _ ih =>
    subst hf
    cases ht with
    | cons ht =>
      refine .head (.left (LinkEnd.step_wait h)) ?_
      simpa only [LinkEnd.deliver, List.append_assoc, List.cons_append, List.nil_append, List.append_nil] using ih ht b

theorem run_right (h : Sees react₂ log inbox t inbox' out) (ht : p.Trace t q) (a : LinkEnd Ret π α B) :
    Relation.ReflTransGen (LinkStep react₁ react₂) (a, ⟨p, log, inbox⟩) (a.deliver out, ⟨q, log ++ t, inbox'⟩) := by
  have hswap : ∀ c d : LinkEnd Ret π α B × LinkEnd Ret π α B, LinkStep react₂ react₁ c d →
      LinkStep react₁ react₂ c.swap d.swap := by
    intro c d hcd
    cases hcd with
    | left h => exact .right h
    | right h => exact .left h
  have hleft : Relation.ReflTransGen (LinkStep react₂ react₁) (⟨p, log, inbox⟩, a)
    (⟨q, log ++ t, inbox'⟩, a.deliver out) := h.run_left ht a
  exact hleft.lift Prod.swap hswap

end Sees
end
