import Letmein.Lib.Run

/-! # Histories of a machine with outputs

`step s i` yields an output and the state after input `i` in state `s`, or the failure that ends the run. A history
is a list of records, one for each step, with the state after it. `Chained step s es` says that the records are steps
from `s` on, and a history can be cut anywhere: what comes later is a history from where the earlier part ends. -/

variable {σ ι ο ε : Type}

/-- One step of a machine: its input, its output and the state after it. -/
structure Record (σ ι ο : Type) where
  input : ι
  output : ο
  state : σ

/-- The records of all steps, or the failure that ended the run. -/
def traceAll (step : σ → ι → Except ε (ο × σ)) : σ → List ι → Except ε (List (Record σ ι ο))
  | _, [] => .ok []
  | s, i :: is => do
    let (o, s') ← step s i
    let es ← traceAll step s' is
    return ⟨i, o, s'⟩ :: es

/-- The state after the records, from `s` on. -/
def endState : σ → List (Record σ ι ο) → σ
  | s, [] => s
  | _, e :: es => endState e.state es

theorem endState_append (s : σ) (es fs : List (Record σ ι ο)) :
    endState s (es ++ fs) = endState (endState s es) fs := by
  induction es generalizing s with
  | nil => rfl
  | cons e es ih => exact ih e.state

/-- What holds after every record holds at the end. -/
theorem endState_of_forall {P : σ → Prop} {s : σ} {es : List (Record σ ι ο)} (hne : es ≠ [])
    (h : ∀ e ∈ es, P e.state) : P (endState s es) := by
  induction es generalizing s with
  | nil => exact absurd rfl hne
  | cons e es ih =>
    cases es with
    | nil => exact h e List.mem_cons_self
    | cons f es => exact @ih e.state (List.cons_ne_nil _ _) fun x hx => h x (List.mem_cons_of_mem _ hx)

def Chained (step : σ → ι → Except ε (ο × σ)) : σ → List (Record σ ι ο) → Prop
  | _, [] => True
  | s, e :: es => step s e.input = .ok (e.output, e.state) ∧ Chained step e.state es

namespace Chained
variable {step : σ → ι → Except ε (ο × σ)} {s : σ} {es fs : List (Record σ ι ο)} {P : σ → Prop}

theorem of_traceAll {is : List ι} (h : traceAll step s is = .ok es) : Chained step s es := by
  induction is generalizing s es with
  | nil =>
    cases h
    trivial
  | cons i is ih =>
    obtain ⟨⟨o, s'⟩, hstep, h⟩ := Except.bind_ok h
    obtain ⟨es', hes, h⟩ := Except.bind_ok h
    cases h
    exact ⟨hstep, ih hes⟩

theorem append_iff : Chained step s (es ++ fs) ↔ Chained step s es ∧ Chained step (endState s es) fs := by
  induction es generalizing s with
  | nil => exact ⟨fun h => ⟨trivial, h⟩, And.right⟩
  | cons e es ih =>
    show _ ∧ Chained step e.state (es ++ fs) ↔ (_ ∧ _) ∧ _
    rw [ih, and_assoc]
    rfl

/-- What every step keeps holds after every record. -/
theorem inv (hP : ∀ s i o s', P s → step s i = .ok (o, s') → P s') (h : Chained step s es) (hs : P s) :
    P (endState s es) ∧ ∀ e ∈ es, P e.state := by
  induction es generalizing s with
  | nil => exact ⟨hs, by simp⟩
  | cons e es ih =>
    have he := hP _ _ _ _ hs h.1
    obtain ⟨hend, hall⟩ := ih h.2 he
    refine ⟨hend, ?_⟩
    intro x hx
    rcases List.mem_cons.mp hx with rfl | hx
    · exact he
    · exact hall x hx

end Chained
