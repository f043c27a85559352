import Letmein.Lib.Prog

/-! # Ledgers of interaction programs

A ledger is what is entered for the events of a program, one after the other. `Keeps` says that after every event the
ledger is all right, and what it is when the program returns or fails; it is shown by going through the program once.
Then the ledger is all right at every point of every run (`Keeps.trace`). -/

namespace Prog
variable {Op : Type} {Ret : Op → Type} {π α β σ : Type} {enter : σ → Event Ret → σ} {ok : σ → Prop} {s : σ}
  {p q : Prog Op Ret π α} {t : List (Event Ret)}

/-- From the ledger `s` on, the program keeps it `ok`, fails with a ledger that is `E` and returns `a` with one that is
`Q a`. -/
def Keeps (enter : σ → Event Ret → σ) (ok : σ → Prop) (E : σ → Prop) (Q : α → σ → Prop) :
    σ → Prog Op Ret π α → Prop
  | s, .ret a => Q a s
  | s, .err _ => E s
  | _, .panic _ => True
  | s, .vis op k => ∀ a, ok (enter s ⟨op, a⟩) ∧ (k a).Keeps enter ok E Q (enter s ⟨op, a⟩)

namespace Keeps
variable {E E' : σ → Prop} {Q Q' : α → σ → Prop}

theorem bind {f : α → Prog Op Ret π β} {R : β → σ → Prop}
    (h : p.Keeps enter ok E (fun a s => (f a).Keeps enter ok E R s) s) : (p >>= f).Keeps enter ok E R s := by
  induction p generalizing s with
  | ret a => exact h
  | err e => exact h
  | panic why => trivial
  | vis op k ih => exact fun a => ⟨(h a).1, ih a (h a).2⟩

theorem mono (h : p.Keeps enter ok E Q s) (hE : ∀ s, E s → E' s) (hQ : ∀ a s, Q a s → Q' a s) :
    p.Keeps enter ok E' Q' s := by
  induction p generalizing s with
  | ret a => exact hQ a s h
  | err e => exact hE s h
  | panic why => trivial
  | vis op k ih => exact fun a => ⟨(h a).1, ih a (h a).2⟩

theorem ignore {R : Unit → σ → Prop} (h : p.Keeps enter ok (R ()) (fun _ => R ()) s) :
    p.ignore.Keeps enter ok E R s := by
  induction p generalizing s with
  | ret a => exact h
  | err e => exact h
  | panic why => trivial
  | vis op k ih => exact fun a => ⟨(h a).1, ih a (h a).2⟩

theorem ofExcept {x : Except π α} (h : ∀ a, x = .ok a → Q a s) : (Prog.ofExcept x : Prog Op Ret π α).Keeps enter ok E Q s := by
  cases x with
  | error why => trivial
  | ok a => exact h a rfl

/-- The ledger is all right at the end of every trace. -/
theorem trace (h : p.Keeps enter ok E Q s) (hs : ok s) (ht : p.Trace t q) : ok (t.foldl enter s) := by
  induction ht generalizing s with
  | nil p => exact hs
  | @cons op k a t q _ ih => exact ih (h a).2 (h a).1

end Keeps
end Prog
