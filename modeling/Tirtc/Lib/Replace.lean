import Mathlib.Data.List.Basic

/-!
# Replacing the last match of a list

`replaceLast? p b l` puts `b` at the last position of `l` whose element satisfies `p`, and is
`none` when there is none. The proofs use it through `replaceLast?_eq_some` and
`replaceLast?_eq_none` only.
-/

set_option autoImplicit false

namespace ListEdit

variable {α : Type*} {p : α → Bool} {b : α}

/-- The list with its last `p`-element replaced by `b`. -/
def replaceLast? (p : α → Bool) (b : α) : List α → Option (List α)
  | [] => none
  | a :: as =>
      match replaceLast? p b as with
      | some bs => some (a :: bs)
      | none => if p a then some (b :: as) else none

/-- Nothing is replaced exactly when nothing matches. -/
theorem replaceLast?_eq_none {l : List α} :
    replaceLast? p b l = none ↔ ∀ a ∈ l, p a = false := by
  induction l with
  | nil => simp [replaceLast?]
  | cons a as ih =>
      cases hr : replaceLast? p b as with
      | some bs =>
          have hex : ¬ ∀ x ∈ as, p x = false := fun h => by simp [ih.mpr h] at hr
          simp only [replaceLast?, hr, List.forall_mem_cons]
          simp [hex]
      | none =>
          have has : ∀ x ∈ as, p x = false := ih.mp hr
          by_cases ha : p a = true
          · simp [replaceLast?, hr, ha]
          · simpa [replaceLast?, hr, ha] using has

/-- What replacing does: the match is the last one, and everything else stays in place. -/
theorem replaceLast?_eq_some {l l' : List α} (h : replaceLast? p b l = some l') :
    ∃ xs a ys, l = xs ++ a :: ys ∧ p a = true ∧ (∀ y ∈ ys, p y = false) ∧
      l' = xs ++ b :: ys := by
  induction l generalizing l' with
  | nil => simp [replaceLast?] at h
  | cons a as ih =>
      cases hr : replaceLast? p b as with
      | some bs =>
          obtain ⟨xs, c, ys, rfl, hc, hys, rfl⟩ := ih hr
          simp only [replaceLast?, hr, Option.some.injEq] at h
          exact ⟨a :: xs, c, ys, rfl, hc, hys, h.symm⟩
      | none =>
          by_cases ha : p a = true
          · simp only [replaceLast?, hr, ha, if_true, Option.some.injEq] at h
            exact ⟨[], a, as, rfl, ha, replaceLast?_eq_none.mp hr, h.symm⟩
          · simp [replaceLast?, hr, ha] at h

end ListEdit
