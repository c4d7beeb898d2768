import Mathlib.Logic.Relation
import Tirtc.Lib.Threads

/-!
# Who waits for whom

A thread that is in a call goes on, or waits for another thread. When every wait is for a thread of
a lower rank, the waits of a thread lead to one that does not wait, and there is no circle.

* `exists_end_of_rank`: the rank rule.
* `Threads.Goes`: a thread goes on, whatever it is answered.
-/

set_option autoImplicit false

namespace Transition

universe u

/-- **The rank rule**: who waits for somebody of a lower rank only, waits in the end for somebody
who does not wait. -/
theorem exists_end_of_rank {ι : Type u} {waits : ι → ι → Prop} {calls ends : ι → Prop}
    (rank : ι → ℕ)
    (h : ∀ i, calls i → ends i ∨ ∃ j, waits i j ∧ calls j ∧ rank j < rank i) {i : ι}
    (hi : calls i) : ∃ j, Relation.ReflTransGen waits i j ∧ ends j := by
  induction hn : rank i using Nat.strong_induction_on generalizing i with
  | h n ih =>
      rcases h i hi with hends | ⟨j, hwaits, hj, hrank⟩
      · exact ⟨i, .refl, hends⟩
      · obtain ⟨k, hpath, hends⟩ := ih (rank j) (hn ▸ hrank) hj rfl
        exact ⟨k, .head hwaits hpath, hends⟩

namespace Threads

variable {ι σ π α ε : Type u} (T : Threads ι σ π α ε)

/-- Thread `i` goes on, whatever of `answers` it gets. -/
def Goes (answers : π → α → Prop) (c : Config ι σ π) (i : ι) : Prop :=
  (∃ a, answers (c.pc i) a) ∧
    ∀ a, answers (c.pc i) a → (T.step i c.shared (c.pc i) a).isSome = true

end Threads

end Transition
