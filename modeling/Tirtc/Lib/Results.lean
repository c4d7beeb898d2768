import Mathlib.Data.List.Forall2
import Mathlib.Logic.Basic

/-!
# Computations that raise, and when they have a result

Plain `Except` computations, one after the other and over the elements of a list.

* `Succeeds`: there is a result.
* `succeeds_bind`, `succeeds_bind_of`, `succeeds_mapM`: when the constructs have one.
* `raises_of_not_succeeds`: otherwise there is an error.
* `bind_eq_ok`, `mapM_eq_ok`, `mapM_eq_ok_map`, `mapM_range_eq_ok`: what the result is.
* `bind_eq_error`, `mapError_eq_error`, `mapM_eq_error`: where the error comes from.
-/

set_option autoImplicit false

namespace Results

variable {ε α β : Type}

/-- The computation has a result. -/
def Succeeds (x : Except ε α) : Prop := ∃ a, x = .ok a

@[simp] theorem succeeds_ok (a : α) : Succeeds (.ok a : Except ε α) := ⟨a, rfl⟩

@[simp] theorem not_succeeds_error (e : ε) : ¬ Succeeds (.error e : Except ε α) := by
  rintro ⟨a, h⟩
  cases h

/-- Without a result there is an error. -/
theorem raises_of_not_succeeds {x : Except ε α} (h : ¬ Succeeds x) : ∃ e, x = .error e := by
  cases x with
  | ok a => exact absurd ⟨a, rfl⟩ h
  | error e => exact ⟨e, rfl⟩

/-- Two computations have a result when the first has one, and the second has one from there. -/
theorem succeeds_bind {x : Except ε α} {f : α → Except ε β} :
    Succeeds (x >>= f) ↔ ∃ a, x = .ok a ∧ Succeeds (f a) := by
  constructor
  · intro h
    cases x with
    | ok a => exact ⟨a, rfl, h⟩
    | error e => exact absurd h (not_succeeds_error e)
  · rintro ⟨a, rfl, h⟩
    exact h

/-- Two computations, where the second does not fail on a result of the first. -/
theorem succeeds_bind_of {x : Except ε α} {f : α → Except ε β} {P : Prop}
    (h : ∀ a, x = .ok a → (Succeeds (f a) ↔ P)) : Succeeds (x >>= f) ↔ Succeeds x ∧ P := by
  rw [succeeds_bind]
  constructor
  · rintro ⟨a, hx, hf⟩
    exact ⟨⟨a, hx⟩, (h a hx).mp hf⟩
  · rintro ⟨⟨a, hx⟩, hP⟩
    exact ⟨a, hx, (h a hx).mpr hP⟩

/-- **Over a list there is a result exactly when every element has one.** -/
theorem succeeds_mapM {f : α → Except ε β} {l : List α} :
    Succeeds (l.mapM f) ↔ ∀ a ∈ l, Succeeds (f a) := by
  induction l with
  | nil =>
      constructor
      · intro _ a ha
        cases ha
      · intro _
        exact ⟨[], rfl⟩
  | cons x rest ih =>
      rw [List.mapM_cons, succeeds_bind_of fun b _ => succeeds_bind_of (P := True) fun bs _ => ?_]
      · rw [ih, and_true, List.forall_mem_cons]
      · exact iff_of_true ⟨b :: bs, rfl⟩ trivial

/-! ## The result, and the error -/

/-- One computation, then another. -/
theorem bind_eq_ok {x : Except ε α} {f : α → Except ε β} {b : β} :
    x >>= f = .ok b ↔ ∃ a, x = .ok a ∧ f a = .ok b := by
  cases x with
  | ok a =>
      constructor
      · intro h
        exact ⟨a, rfl, h⟩
      · rintro ⟨a', heq, h⟩
        cases heq
        exact h
  | error e =>
      constructor
      · intro h
        cases h
      · rintro ⟨a, heq, -⟩
        cases heq

theorem bind_eq_error {x : Except ε α} {f : α → Except ε β} {e : ε} :
    x >>= f = .error e ↔ x = .error e ∨ ∃ a, x = .ok a ∧ f a = .error e := by
  cases x with
  | ok a =>
      constructor
      · intro h
        exact .inr ⟨a, rfl, h⟩
      · rintro (heq | ⟨a', heq, h⟩)
        · cases heq
        · cases heq
          exact h
  | error e' =>
      constructor
      · intro h
        exact .inl (congrArg Except.error (Except.error.inj h))
      · rintro (h | ⟨a, heq, -⟩)
        · exact congrArg Except.error (Except.error.inj h)
        · cases heq

/-- An error under another name. -/
theorem mapError_eq_ok {δ : Type} {x : Except ε α} {f : ε → δ} {a : α} :
    x.mapError f = .ok a ↔ x = .ok a := by
  cases x with
  | ok b =>
      constructor
      · rintro ⟨⟩
        rfl
      · rintro ⟨⟩
        rfl
  | error e =>
      constructor
      · rintro ⟨⟩
      · rintro ⟨⟩

theorem mapError_eq_error {δ : Type} {x : Except ε α} {f : ε → δ} {d : δ} :
    x.mapError f = .error d ↔ ∃ e, x = .error e ∧ f e = d := by
  cases x with
  | ok b =>
      constructor
      · rintro ⟨⟩
      · rintro ⟨e, ⟨⟩, -⟩
  | error e =>
      constructor
      · intro h
        exact ⟨e, rfl, Except.error.inj h⟩
      · rintro ⟨e', heq, h⟩
        cases heq
        exact congrArg Except.error h

/-- **Over a list the results stand in its order.** -/
theorem mapM_eq_ok {f : α → Except ε β} {l : List α} {ys : List β} :
    l.mapM f = .ok ys ↔ List.Forall₂ (fun x y => f x = .ok y) l ys := by
  induction l generalizing ys with
  | nil =>
      rw [List.mapM_nil, List.forall₂_nil_left_iff]
      exact ⟨fun h => (Except.ok.inj h).symm, fun h => h ▸ rfl⟩
  | cons x rest ih =>
      rw [List.mapM_cons, bind_eq_ok, List.forall₂_cons_left_iff]
      constructor
      · rintro ⟨y, hy, h⟩
        obtain ⟨zs, hzs, h⟩ := bind_eq_ok.mp h
        cases h
        exact ⟨y, zs, hy, ih.mp hzs, rfl⟩
      · rintro ⟨y, zs, hy, hzs, rfl⟩
        exact ⟨y, hy, bind_eq_ok.mpr ⟨zs, ih.mpr hzs, rfl⟩⟩

/-- **A decoder with an encoder**: over a list, the list is the encoded results. -/
theorem mapM_eq_ok_map {f : α → Except ε β} {g : β → α} (h : ∀ x y, f x = .ok y ↔ x = g y)
    {l : List α} {ys : List β} : l.mapM f = .ok ys ↔ l = ys.map g := by
  rw [mapM_eq_ok, ← List.forall₂_eq_eq_eq, List.forall₂_map_right_iff]
  simp only [h]

/-- The error is that of an element. -/
theorem mapM_eq_error {f : α → Except ε β} {l : List α} {e : ε} (h : l.mapM f = .error e) :
    ∃ x ∈ l, f x = .error e := by
  induction l with
  | nil => cases h
  | cons x rest ih =>
      rw [List.mapM_cons] at h
      rcases bind_eq_error.mp h with hx | ⟨y, -, h⟩
      · exact ⟨x, List.mem_cons_self, hx⟩
      · rcases bind_eq_error.mp h with hrest | ⟨ys, -, h⟩
        · obtain ⟨x', hx', h⟩ := ih hrest
          exact ⟨x', List.mem_cons_of_mem x hx', h⟩
        · cases h

/-- **A loop over indices** gives one result for each. -/
theorem mapM_range_eq_ok {f : ℕ → Except ε β} {n : ℕ} {ys : List β} :
    (List.range n).mapM f = .ok ys ↔
      n = ys.length ∧ ∀ i (hi : i < ys.length), f i = .ok ys[i] := by
  have hrange : (List.range n).length = n := List.length_range
  rw [mapM_eq_ok, List.forall₂_iff_get]
  constructor
  · rintro ⟨hlength, h⟩
    refine ⟨hrange.symm.trans hlength, ?_⟩
    intro i hi
    simpa using h i (hlength ▸ hi) hi
  · rintro ⟨hlength, h⟩
    refine ⟨hrange.trans hlength, ?_⟩
    intro i hi hi'
    simpa using h i hi'

end Results
