/-!
# Programs that raise, and what they preserve

A program reads and writes a state and may raise; what it has written stays when it raises. That is
`ExceptT ε (StateM σ)`.

* `Program`, `outcome`: a program, and its result with the state it leaves.
* `outcome_bind` to `outcome_tryCatch`: the outcome of each construct.
* `Preserves`: the state is left with the invariant, raised or not; one rule for each construct.
* `forEach`, `Preserves.forEach`: a loop over a list.
-/

set_option autoImplicit false

namespace Programs

variable {σ ε α β : Type}

/-- A program on the states `σ` that may raise an `ε`. -/
abbrev Program (σ ε α : Type) : Type := ExceptT ε (StateM σ) α

/-- The result, and the state behind it. -/
def outcome (m : Program σ ε α) (s : σ) : Except ε α × σ := Id.run ((ExceptT.run m).run s)

@[simp] theorem outcome_pure (a : α) (s : σ) :
    outcome (pure a : Program σ ε α) s = (.ok a, s) := rfl

@[simp] theorem outcome_throw (e : ε) (s : σ) :
    outcome (throw e : Program σ ε α) s = (.error e, s) := rfl

@[simp] theorem outcome_get (s : σ) : outcome (get : Program σ ε σ) s = (.ok s, s) := rfl

@[simp] theorem outcome_modify (f : σ → σ) (s : σ) :
    outcome (modify f : Program σ ε Unit) s = (.ok (), f s) := rfl

theorem outcome_bind (m : Program σ ε α) (f : α → Program σ ε β) (s : σ) :
    outcome (m >>= f) s = match outcome m s with
      | (.ok a, s') => outcome (f a) s'
      | (.error e, s') => (.error e, s') := by
  change Id.run ((ExceptT.bindCont f (outcome m s).1 : StateM σ _) (outcome m s).2) = _
  rcases outcome m s with ⟨r, s'⟩
  cases r <;> rfl

theorem outcome_tryCatch (m : Program σ ε α) (f : ε → Program σ ε α) (s : σ) :
    outcome (tryCatch m f) s = match outcome m s with
      | (.ok a, s') => (.ok a, s')
      | (.error e, s') => outcome (f e) s' := by
  change Id.run ((match (outcome m s).1 with
    | .ok a => pure (.ok a)
    | .error e => ExceptT.run (f e) : StateM σ _) (outcome m s).2) = _
  rcases outcome m s with ⟨r, s'⟩
  cases r <;> rfl

/-! ## What a program preserves -/

/-- **The program leaves the invariant as it is**, whether it returns or raises. -/
def Preserves (I : σ → Prop) (m : Program σ ε α) : Prop := ∀ s, I s → I (outcome m s).2

namespace Preserves

variable {I : σ → Prop} {m : Program σ ε α} {f : α → Program σ ε β}

theorem pure (a : α) : Preserves I (pure a : Program σ ε α) := fun _ h => h

theorem throw (e : ε) : Preserves I (throw e : Program σ ε α) := fun _ h => h

theorem modify {f : σ → σ} (h : ∀ s, I s → I (f s)) :
    Preserves I (modify f : Program σ ε Unit) := h

theorem bind (hm : Preserves I m) (hf : ∀ a, Preserves I (f a)) : Preserves I (m >>= f) := by
  intro s hs
  rw [outcome_bind]
  have hstep := hm s hs
  generalize outcome m s = p at hstep ⊢
  obtain ⟨r, s'⟩ := p
  cases r with
  | ok a => exact hf a s' hstep
  | error e => exact hstep

/-- What is read satisfies the invariant. -/
theorem get {f : σ → Program σ ε β} (h : ∀ s, I s → Preserves I (f s)) :
    Preserves I (get >>= f) := by
  intro s hs
  rw [outcome_bind]
  exact h s hs s hs

theorem tryCatch {f : ε → Program σ ε α} (hm : Preserves I m) (hf : ∀ e, Preserves I (f e)) :
    Preserves I (tryCatch m f) := by
  intro s hs
  rw [outcome_tryCatch]
  have hstep := hm s hs
  generalize outcome m s = p at hstep ⊢
  obtain ⟨r, s'⟩ := p
  cases r with
  | ok a => exact hstep
  | error e => exact hf e s' hstep

/-- Each branch may use what its test says. -/
theorem ite {c : Prop} [Decidable c] {m n : Program σ ε α} (hm : c → Preserves I m)
    (hn : ¬c → Preserves I n) : Preserves I (if c then m else n) := by
  split
  · rename_i hc
    exact hm hc
  · rename_i hc
    exact hn hc

end Preserves

/-! ## Loops -/

/-- `for x in xs: f(x)` -/
def forEach (f : β → Program σ ε Unit) : List β → Program σ ε Unit
  | [] => pure ()
  | x :: xs => do
      f x
      forEach f xs

theorem Preserves.forEach {I : σ → Prop} {f : β → Program σ ε Unit} {xs : List β}
    (h : ∀ x ∈ xs, Preserves I (f x)) : Preserves I (forEach f xs) := by
  induction xs with
  | nil => exact .pure ()
  | cons x xs ih =>
      refine .bind (h x List.mem_cons_self) fun _ => ih ?_
      intro y hy
      exact h y (List.mem_cons_of_mem _ hy)

end Programs
