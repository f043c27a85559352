import Mathlib.Data.List.Infix

/-! # Runs of a machine whose steps may fail

`step s i` is the state after input `i` in state `s`, or the failure that ends the run. `AllSteps G`
says that every step a run takes meets `G`, and `runAll_inv` is the induction: what every such step
keeps, a run of such steps keeps. -/

variable {σ ι ε : Type} {step : σ → ι → Except ε σ} {s s' : σ} {i : ι} {is js : List ι}

/-- The state after all inputs, or the failure that ended the run. -/
def runAll (step : σ → ι → Except ε σ) : σ → List ι → Except ε σ
  | s, [] => .ok s
  | s, i :: is => step s i >>= fun s' => runAll step s' is

def AllSteps (step : σ → ι → Except ε σ) (G : σ → ι → Prop) : σ → List ι → Prop
  | _, [] => True
  | s, i :: is => G s i ∧ ∀ s', step s i = .ok s' → AllSteps step G s' is

theorem AllSteps.cons {G : σ → ι → Prop} (hG : G s i) (hs : step s i = .ok s') (h : AllSteps step G s' is) :
    AllSteps step G s (i :: is) := by
  refine ⟨hG, fun s'' hs'' => ?_⟩
  rw [hs] at hs''
  cases hs''
  exact h

theorem AllSteps.and {G H : σ → ι → Prop} (hG : AllSteps step G s is) (hH : AllSteps step H s is) :
    AllSteps step (fun s i => G s i ∧ H s i) s is := by
  induction is generalizing s with
  | nil => trivial
  | cons i is ih => exact ⟨⟨hG.1, hH.1⟩, fun s' hs' => ih (hG.2 s' hs') (hH.2 s' hs')⟩

namespace Except

def Related {α β : Type} (R : α → β → Prop) : Except ε α → Except ε β → Prop
  | .ok a, .ok b => R a b
  | .error e, .error e' => e = e'
  | _, _ => False

theorem Related.refl {α : Type} (x : Except ε α) : x.Related (· = ·) x := by
  cases x <;> rfl

theorem Related.mono {α β : Type} {R S : α → β → Prop} {x : Except ε α} {y : Except ε β}
    (h : x.Related R y) (hRS : ∀ a b, R a b → S a b) : x.Related S y := by
  cases x <;> cases y
  · exact h
  · exact h
  · exact h
  · exact hRS _ _ h

theorem Related.bind {α β γ δ : Type} {R : α → β → Prop} {S : γ → δ → Prop} {x : Except ε α}
    {y : Except ε β} {f : α → Except ε γ} {g : β → Except ε δ} (h : x.Related R y)
    (hfg : ∀ a b, R a b → (f a).Related S (g b)) : (x >>= f).Related S (y >>= g) := by
  cases x <;> cases y
  · exact h
  · exact h.elim
  · exact h.elim
  · exact hfg _ _ h

theorem bind_ok {α β : Type} {x : Except ε α} {f : α → Except ε β} {b : β} (h : (x >>= f) = .ok b) :
    ∃ a, x = .ok a ∧ f a = .ok b := by
  cases x with
  | error e => cases h
  | ok a => exact ⟨a, rfl, h⟩

theorem bind_error {α β : Type} {x : Except ε α} {f : α → Except ε β} {e : ε}
    (h : (x >>= f) = .error e) : x = .error e ∨ ∃ a, x = .ok a ∧ f a = .error e := by
  cases x with
  | error e' => cases h; exact .inl rfl
  | ok a => exact .inr ⟨a, rfl, h⟩

theorem of_map_ok {α β : Type} {x : Except ε α} {f : α → β} {b : β} (h : f <$> x = .ok b) :
    ∃ a, x = .ok a ∧ f a = b := by
  cases x with
  | error e => cases h
  | ok a => cases h; exact ⟨a, rfl, rfl⟩

theorem of_map_error {α β : Type} {x : Except ε α} {f : α → β} {e : ε} (h : f <$> x = .error e) :
    x = .error e := by
  cases x with
  | error e' => cases h; rfl
  | ok a => cases h

theorem mapError_ok_iff {α ε' : Type} {x : Except ε α} {f : ε → ε'} {a : α} :
    x.mapError f = .ok a ↔ x = .ok a := by
  cases x with
  | error e => exact ⟨nofun, nofun⟩
  | ok b => exact ⟨fun h => by cases h; rfl, fun h => by cases h; rfl⟩

/-- Two outcomes are the same up to their errors. -/
theorem toOption_congr {α ε' : Type} {x : Except ε α} {y : Except ε' α} (h : ∀ a, x = .ok a ↔ y = .ok a) :
    x.toOption = y.toOption := by
  cases x with
  | ok a =>
    rw [(h a).1 rfl]
    rfl
  | error e =>
    cases y with
    | ok b => cases (h b).2 rfl
    | error e' => rfl

theorem forM_ok_iff {α : Type} {f : α → Except ε Unit} {l : List α} :
    l.forM f = .ok () ↔ ∀ x ∈ l, f x = .ok () := by
  induction l with
  | nil => exact ⟨fun _ => by simp, fun _ => rfl⟩
  | cons x l ih =>
    rw [List.forall_mem_cons, ← ih]
    constructor
    · intro h
      obtain ⟨_, hx, h⟩ := bind_ok h
      exact ⟨hx, h⟩
    · rintro ⟨hx, h⟩
      show (f x >>= fun _ => l.forM f) = .ok ()
      rw [hx]
      exact h

theorem mapM_ok {α β : Type} {f : α → Except ε β} {g : α → β} {l : List α} (h : ∀ x ∈ l, f x = .ok (g x)) :
    l.mapM f = .ok (l.map g) := by
  induction l with
  | nil => rfl
  | cons x l ih =>
    rw [List.mapM_cons, h x List.mem_cons_self, ih fun y hy => h y (List.mem_cons_of_mem _ hy)]
    rfl

theorem mapM_mapError_ok_iff {α β ε' : Type} {f : α → Except ε β} {g : ε → ε'} {l : List α} {bs : List β} :
    (l.mapM fun x => (f x).mapError g) = .ok bs ↔ l.map f = bs.map .ok := by
  induction l generalizing bs with
  | nil => simp [pure, Except.pure, eq_comm]
  | cons x l ih =>
    rw [List.mapM_cons, List.map_cons]
    constructor
    · intro h
      obtain ⟨b, hb, h⟩ := bind_ok h
      obtain ⟨bs', hbs', h⟩ := bind_ok h
      cases h
      rw [mapError_ok_iff] at hb
      rw [hb, ih.1 hbs', List.map_cons]
    · intro h
      rcases bs with _ | ⟨b, bs⟩
      · cases h
      · rw [List.map_cons, List.cons.injEq] at h
        rw [mapError_ok_iff.2 h.1, ih.2 h.2]
        rfl

theorem mapM_ok_iff {α β : Type} {f : α → Except ε β} {l : List α} {bs : List β} :
    l.mapM f = .ok bs ↔ l.map f = bs.map .ok := by
  have hf : (fun x => (f x).mapError id) = f := funext fun x => by cases f x <;> rfl
  rw [← mapM_mapError_ok_iff (g := id), hf]

theorem exists_map_ok {α β : Type} {f : α → Except ε β} {l : List α} (h : ∀ x ∈ l, ∃ b, f x = .ok b) :
    ∃ bs : List β, l.map f = bs.map .ok := by
  induction l with
  | nil => exact ⟨[], rfl⟩
  | cons x l ih =>
    obtain ⟨b, hb⟩ := h x List.mem_cons_self
    obtain ⟨bs, hbs⟩ := ih fun y hy => h y (List.mem_cons_of_mem _ hy)
    exact ⟨b :: bs, by rw [List.map_cons, List.map_cons, hb, hbs]⟩

/-- What a fold that may fail has made of a list is described by `D`, if `D` goes on from each list to the
next longer one as the fold does. -/
theorem foldlM_ok_iff {α β : Type} {f : β → α → Except ε β} {b b' : β} {l : List α} {D : List α → β → Prop}
    (hnil : ∀ b', D [] b' ↔ b' = b)
    (hconcat : ∀ l x b', D (l ++ [x]) b' ↔ ∃ b₁, D l b₁ ∧ f b₁ x = .ok b') :
    l.foldlM f b = .ok b' ↔ D l b' := by
  induction l using List.reverseRecOn generalizing b' with
  | nil =>
    rw [hnil]
    exact ⟨fun h => by cases h; rfl, fun h => by rw [h]; rfl⟩
  | append_singleton l x ih =>
    rw [hconcat, List.foldlM_append]
    constructor
    · intro h
      obtain ⟨b₁, h₁, h⟩ := bind_ok h
      rw [List.foldlM_cons] at h
      obtain ⟨b₂, h₂, h⟩ := bind_ok h
      cases h
      exact ⟨b₁, ih.1 h₁, h₂⟩
    · rintro ⟨b₁, h₁, h₂⟩
      rw [ih.2 h₁]
      show (f b₁ x >>= fun b₂ => [].foldlM f b₂) = .ok b'
      rw [h₂]
      rfl

/-- Reading all elements first and folding them then succeeds as reading each one when its turn comes. -/
theorem mapM_foldlM_ok_iff {α β γ : Type} {f : α → Except ε β} {g : γ → β → Except ε γ} {l : List α} {c c' : γ} :
    (∃ bs, l.mapM f = .ok bs ∧ bs.foldlM g c = .ok c') ↔ l.foldlM (fun c x => f x >>= g c) c = .ok c' := by
  induction l generalizing c with
  | nil => simp [pure, Except.pure]
  | cons x l ih =>
    rw [List.foldlM_cons, List.mapM_cons]
    constructor
    · rintro ⟨bs, hbs, h⟩
      obtain ⟨b, hb, hbs⟩ := bind_ok hbs
      obtain ⟨bs', hbs', hbs⟩ := bind_ok hbs
      cases hbs
      rw [List.foldlM_cons] at h
      obtain ⟨c₁, h₁, h⟩ := bind_ok h
      rw [hb]
      show (g c b >>= _) = _
      rw [h₁]
      exact ih.1 ⟨bs', hbs', h⟩
    · intro h
      obtain ⟨c₁, h₁, h⟩ := bind_ok h
      obtain ⟨b, hb, hg⟩ := bind_ok h₁
      obtain ⟨bs, hbs, hfold⟩ := ih.2 h
      refine ⟨b :: bs, ?_, ?_⟩
      · rw [hb, hbs]
        rfl
      · rw [List.foldlM_cons, hg]
        exact hfold

end Except

theorem runAll_cons_ok (h : step s i = .ok s') : runAll step s (i :: is) = runAll step s' is := by
  rw [runAll, h]; rfl

/-- What steps that meet `G` keep, a run of them keeps. -/
theorem runAll_inv {G : σ → ι → Prop} {P : σ → Prop}
    (hstep : ∀ s i s', P s → G s i → step s i = .ok s' → P s') (h0 : P s)
    (hG : AllSteps step G s is) (h : runAll step s is = .ok s') : P s' := by
  induction is generalizing s with
  | nil => cases h; exact h0
  | cons i is ih =>
    obtain ⟨s₁, h₁, h₂⟩ := Except.bind_ok h
    exact ih (hstep s i s₁ h0 hG.1 h₁) (hG.2 s₁ h₁) h₂

theorem runAll_inv_mem {P : σ → Prop} (hstep : ∀ s i s', i ∈ is → P s → step s i = .ok s' → P s') (h0 : P s)
    (h : runAll step s is = .ok s') : P s' := by
  induction is generalizing s with
  | nil => cases h; exact h0
  | cons i is ih =>
    obtain ⟨s₁, h₁, h₂⟩ := Except.bind_ok h
    exact ih (fun s j s' hj => hstep s j s' (List.mem_cons_of_mem _ hj))
      (hstep s i s₁ List.mem_cons_self h0 h₁) h₂

theorem runAll_inv' {P : σ → Prop} (hstep : ∀ s i s', P s → step s i = .ok s' → P s') (h0 : P s)
    (h : runAll step s is = .ok s') : P s' :=
  runAll_inv_mem (fun s i s' _ => hstep s i s') h0 h

theorem runAll_returns {P : σ → Prop} (hstep : ∀ s i, i ∈ is → P s → ∃ s', step s i = .ok s' ∧ P s')
    (h0 : P s) : ∃ s', runAll step s is = .ok s' ∧ P s' := by
  induction is generalizing s with
  | nil => exact ⟨s, rfl, h0⟩
  | cons i is ih =>
    obtain ⟨s₁, h₁, hs₁⟩ := hstep s i List.mem_cons_self h0
    rw [runAll_cons_ok h₁]
    exact ih (fun s j hj => hstep s j (List.mem_cons_of_mem _ hj)) hs₁

/-! ### Two machines on the same inputs -/

theorem runAll_related {τ : Type} {step' : τ → ι → Except ε τ} {R : σ → τ → Prop} {t : τ}
    (hstep : ∀ s t i, R s t → (step s i).Related R (step' t i)) (h : R s t) :
    (runAll step s is).Related R (runAll step' t is) := by
  induction is generalizing s t with
  | nil => exact h
  | cons i is ih => exact (hstep s t i h).bind fun s' t' h' => ih h'

theorem runAll_congr {step' : σ → ι → Except ε σ} {P : σ → Prop} {G : σ → ι → Prop}
    (hkeep : ∀ s i s', P s → step s i = .ok s' → P s')
    (hstep : ∀ s i, P s → G s i → step' s i = step s i) (h0 : P s) (hG : AllSteps step G s is) :
    runAll step' s is = runAll step s is := by
  induction is generalizing s with
  | nil => rfl
  | cons i is ih =>
    unfold runAll
    rw [hstep s i h0 hG.1]
    cases hs : step s i with
    | error e => rfl
    | ok s' => exact ih (hkeep s i s' h0 hs) (hG.2 s' hs)

theorem runAll_append (s : σ) (is js : List ι) :
    runAll step s (is ++ js) = runAll step s is >>= fun s' => runAll step s' js := by
  induction is generalizing s with
  | nil => rfl
  | cons i is ih =>
    show (step s i >>= fun s' => runAll step s' (is ++ js)) = _
    cases hs : step s i with
    | error e => rw [runAll, hs]; rfl
    | ok s' => rw [runAll_cons_ok hs]; exact ih s'

/-! ### Counting steps -/

section
variable {G : σ → ι → Prop} [∀ s i, Decidable (G s i)]

/-- The number of steps of a run that meet `G`. -/
def countSteps (step : σ → ι → Except ε σ) (G : σ → ι → Prop) [∀ s i, Decidable (G s i)] : σ → List ι → Nat
  | _, [] => 0
  | s, i :: is => (if G s i then 1 else 0) + (step s i).toOption.elim 0 fun s' => countSteps step G s' is

theorem countSteps_cons_ok (h : step s i = .ok s') :
    countSteps step G s (i :: is) = (if G s i then 1 else 0) + countSteps step G s' is := by
  rw [countSteps, h]; rfl

/-- What every step keeps of a number that goes up with each step that meets `G`, a run keeps. -/
theorem runAll_count {P : Nat → σ → Prop} {n : Nat}
    (hstep : ∀ n s i s', P n s → step s i = .ok s' → P (n + if G s i then 1 else 0) s') (h0 : P n s)
    (h : runAll step s is = .ok s') : P (n + countSteps step G s is) s' := by
  induction is generalizing n s with
  | nil => cases h; exact h0
  | cons i is ih =>
    obtain ⟨s₁, h₁, h₂⟩ := Except.bind_ok h
    rw [countSteps_cons_ok h₁, ← Nat.add_assoc]
    exact ih (hstep n s i s₁ h0 h₁) h₂

end
