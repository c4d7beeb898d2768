import Mathlib.Data.List.Forall2

/-!
# Selections: what comes of a list, in its order

`List.SublistForall₂ R l₁ l₂` says that the elements of `l₁` come, in order, of some of the elements
of `l₂`.

* `sublistForall₂_of_index`: it is so where each element of `l₁` knows its place in `l₂`, and the
  places grow.
* `SublistForall₂.filterMap`: a selection of a selection.
-/

set_option autoImplicit false

namespace Selection

open List

universe u v w x

variable {α : Type u} {β : Type v} {γ : Type w} {δ : Type x} {R : α → β → Prop}
  {S : γ → δ → Prop}

/-- The same behind the first `k` elements of `l₂`, for the induction. -/
theorem sublistForall₂_drop (index : α → ℕ) {l₁ : List α} {l₂ : List β} {k : ℕ}
    (hgrow : l₁.Pairwise fun x y => index x < index y)
    (hplace : ∀ a ∈ l₁, k ≤ index a ∧ ∃ b, l₂[index a]? = some b ∧ R a b) :
    SublistForall₂ R l₁ (l₂.drop k) := by
  induction l₁ generalizing k with
  | nil => exact .nil
  | cons a rest ih =>
      obtain ⟨hbehind, hgrow⟩ := List.pairwise_cons.mp hgrow
      obtain ⟨hk, b, hb, hR⟩ := hplace a List.mem_cons_self
      have hrest : SublistForall₂ R rest (l₂.drop (index a + 1)) := by
        apply ih hgrow
        intro c hc
        exact ⟨hbehind c hc, (hplace c (List.mem_cons_of_mem _ hc)).2⟩
      obtain ⟨picked, hpicked, hsub⟩ := sublistForall₂_iff.mp hrest
      have hhere : l₂.drop (index a) = b :: l₂.drop (index a + 1) := by
        obtain ⟨hlt, hget⟩ := List.getElem?_eq_some_iff.mp hb
        rw [← hget]
        exact List.drop_eq_getElem_cons hlt
      have hdrop : (l₂.drop (index a)).Sublist (l₂.drop k) := List.drop_sublist_drop_left l₂ hk
      rw [hhere] at hdrop
      apply sublistForall₂_iff.mpr
      exact ⟨b :: picked, .cons hR hpicked, (hsub.cons_cons b).trans hdrop⟩

/-- **Growing places**: the elements of `l₁` come, in order, of those at their places. -/
theorem sublistForall₂_of_index (index : α → ℕ) {l₁ : List α} {l₂ : List β}
    (hgrow : l₁.Pairwise fun x y => index x < index y)
    (hplace : ∀ a ∈ l₁, ∃ b, l₂[index a]? = some b ∧ R a b) : SublistForall₂ R l₁ l₂ := by
  have hdrop := sublistForall₂_drop index (k := 0) hgrow fun a ha => ⟨Nat.zero_le _, hplace a ha⟩
  rwa [List.drop_zero] at hdrop

/-- **A selection of a selection**, where what is selected on the left is selected on the right. -/
theorem filterMap {l₁ : List α} {l₂ : List β} {f : α → Option γ} {g : β → Option δ}
    (h : SublistForall₂ R l₁ l₂)
    (hfg : ∀ a b c, R a b → f a = some c → ∃ d, g b = some d ∧ S c d) :
    SublistForall₂ S (l₁.filterMap f) (l₂.filterMap g) := by
  induction h with
  | nil => exact .nil
  | @cons a b l₁ l₂ hR _ ih =>
      cases hf : f a with
      | some c =>
          obtain ⟨d, hg, hS⟩ := hfg a b c hR hf
          rw [List.filterMap_cons_some hf, List.filterMap_cons_some hg]
          exact .cons hS ih
      | none =>
          rw [List.filterMap_cons_none hf]
          cases hg : g b with
          | some d =>
              rw [List.filterMap_cons_some hg]
              exact .cons_right ih
          | none =>
              rw [List.filterMap_cons_none hg]
              exact ih
  | @cons_right b l₁ l₂ _ ih =>
      cases hg : g b with
      | some d =>
          rw [List.filterMap_cons_some hg]
          exact .cons_right ih
      | none =>
          rw [List.filterMap_cons_none hg]
          exact ih

end Selection
