import Mathlib.Data.Set.Card
import Mathlib.Logic.Function.Basic

/-!
# Counting the positions of an assignment that satisfy a predicate

`countOf p f` is the number of indices `i` with `p (f i)`, for an assignment `f` on any index
type (the local states of a family of threads, say) in which only finitely many indices satisfy
`p` (`FinitelyMany p f`). The lemmas the proofs use are `FinitelyMany.update` and
`countOf_update`: what one `Function.update` does to the finiteness and to the count.
-/

set_option autoImplicit false

namespace Counting

variable {ι β : Type*}

/-- Only finitely many indices have a value that satisfies `p`. -/
def FinitelyMany (p : β → Prop) (f : ι → β) : Prop := {i | p (f i)}.Finite

/-- The number of indices whose value satisfies `p`. -/
noncomputable def countOf (p : β → Prop) (f : ι → β) : ℕ := {i | p (f i)}.ncard

variable {p : β → Prop} {f : ι → β}

/-- No index of a constant assignment is counted when its value fails `p`. -/
theorem FinitelyMany.const {v : β} (h : ¬ p v) : FinitelyMany p (fun _ : ι => v) := by
  simp [FinitelyMany, h]

theorem countOf_const_eq_zero {v : β} (h : ¬ p v) : countOf p (fun _ : ι => v) = 0 := by
  simp [countOf, h]

/-- The count is positive exactly when some index satisfies `p`. -/
theorem countOf_pos (hf : FinitelyMany p f) : 0 < countOf p f ↔ ∃ i, p (f i) := by
  unfold countOf
  rw [Set.ncard_pos hf]
  exact Iff.rfl

/-- An index that satisfies `p` makes the count positive. -/
theorem countOf_pos_of (hf : FinitelyMany p f) {i : ι} (hi : p (f i)) : 0 < countOf p f :=
  (countOf_pos hf).mpr ⟨i, hi⟩

/-- Two indices that satisfy `p` coincide when the count is at most one. -/
theorem eq_of_countOf_le_one (hf : FinitelyMany p f) (h : countOf p f ≤ 1) {i j : ι}
    (hi : p (f i)) (hj : p (f j)) : i = j :=
  (Set.ncard_le_one hf).mp h i hi j hj

variable [DecidableEq ι]

/-- The indices that satisfy `p` after an update, away from the updated one. -/
theorem setOf_update_diff (i : ι) (v : β) :
    {j | p (Function.update f i v j)} \ {i} = {j | p (f j)} \ {i} := by
  ext j
  by_cases hj : j = i
  · simp [hj]
  · simp [hj]

/-- An update keeps the finiteness. -/
theorem FinitelyMany.update (hf : FinitelyMany p f) (i : ι) (v : β) :
    FinitelyMany p (Function.update f i v) := by
  have hdiff : ({j | p (Function.update f i v j)} \ {i}).Finite := by
    rw [setOf_update_diff]
    exact hf.sdiff
  refine (hdiff.insert i).subset ?_
  intro j hj
  by_cases hji : j = i
  · exact Set.mem_insert_iff.mpr (Or.inl hji)
  · exact Set.mem_insert_of_mem i ⟨hj, hji⟩

omit [DecidableEq ι] in
/-- The count, split at one index. -/
theorem countOf_eq_diff_add (hf : FinitelyMany p f) (i : ι) [Decidable (p (f i))] :
    countOf p f = ({j | p (f j)} \ {i}).ncard + if p (f i) then 1 else 0 := by
  unfold countOf
  by_cases hi : p (f i)
  · rw [if_pos hi]
    exact (Set.ncard_sdiff_singleton_add_one (s := {j | p (f j)}) hi hf).symm
  · have hmem : i ∉ {j | p (f j)} := hi
    rw [if_neg hi, Set.sdiff_singleton_eq_self hmem, Nat.add_zero]

/-- **One update moves the count by the difference at the updated index.** -/
theorem countOf_update [DecidablePred p] (hf : FinitelyMany p f) (i : ι) (v : β) :
    countOf p (Function.update f i v) + (if p (f i) then 1 else 0) =
      countOf p f + if p v then 1 else 0 := by
  rw [countOf_eq_diff_add hf i, countOf_eq_diff_add (hf.update i v) i, setOf_update_diff,
    Function.update_self]
  omega

end Counting
