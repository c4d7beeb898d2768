import Mathlib.Algebra.BigOperators.Group.Finset.Basic
import Mathlib.Data.Multiset.Count
import Mathlib.Logic.Relation
import Tirtc.Lib.Counting

/-!
# Objects that are counted by their references

A heap whose objects know how many references there are to them, and which an object leaves with
the last one. The owners are the multiset of the references, wherever they are kept.

* `Heap`, `Heap.new`, `Heap.incref`, `Heap.decref`: the heap and its operations; `decref` gives back
  the object that leaves.
* `Owned`: every object has one reference for each of its owners, and every owner has its object.
* `Owned.new`, `Owned.incref`, `Owned.decref`: the operations keep that, as the owners change.
* `Heap.live`: how many objects satisfy a predicate; what the operations do to it.
* `Heap.inner`: the references that the objects hold themselves; what the operations do to them.
* `Owned.reached`: where objects refer to older ones only, whatever is left is reached from the
  references that are not in the heap.
-/

set_option autoImplicit false

namespace RefCounts

open Counting

variable {α : Type}

/-- A heap: the references to the object at an address, and the object; `made` addresses have been
given out. -/
structure Heap (α : Type) where
  cell : ℕ → Option (ℕ × α) := fun _ => none
  made : ℕ := 0

namespace Heap

variable (h : Heap α) (a : ℕ)

/-- A new object, with one reference. -/
def new (x : α) : Heap α := ⟨Function.update h.cell h.made (some (1, x)), h.made + 1⟩

/-- One more reference. -/
def incref : Heap α :=
  match h.cell a with
  | some (n, x) => { h with cell := Function.update h.cell a (some (n + 1, x)) }
  | none => h

/-- One reference less, and the object whose last one it was. -/
def decref : Option α × Heap α :=
  match h.cell a with
  | some (n, x) =>
      if n = 1 then (some x, { h with cell := Function.update h.cell a none })
      else (none, { h with cell := Function.update h.cell a (some (n - 1, x)) })
  | none => (none, h)

/-- The object at an address becomes `x`. -/
def set (x : α) : Heap α :=
  match h.cell a with
  | some (n, _) => { h with cell := Function.update h.cell a (some (n, x)) }
  | none => h

/-- The cell has an object that satisfies `p`. -/
def Holds (p : α → Prop) : Option (ℕ × α) → Prop
  | some (_, x) => p x
  | none => False

instance (p : α → Prop) [DecidablePred p] : DecidablePred (Holds p)
  | some (_, x) => inferInstanceAs (Decidable (p x))
  | none => isFalse id

/-- The number of the objects that satisfy `p`. -/
noncomputable def live (p : α → Prop) : ℕ := countOf (Holds p) h.cell

end Heap

/-- **Every object has one reference for each owner**, and every owner has its object. -/
structure Owned (h : Heap α) (owners : Multiset ℕ) : Prop where
  refs : ∀ a n x, h.cell a = some (n, x) → n = owners.count a ∧ 0 < n
  held : ∀ a ∈ owners, ∃ n x, h.cell a = some (n, x)
  fresh : ∀ a, h.made ≤ a → h.cell a = none

namespace Owned

variable {h : Heap α} {owners : Multiset ℕ} {a : ℕ} {x : α}

/-- Nothing has been made yet. -/
theorem empty : Owned ({} : Heap α) 0 where
  refs a n x hcell := by cases hcell
  held a ha := absurd ha (Multiset.notMem_zero a)
  fresh _ _ := rfl

/-- Nobody owns what has not been made. -/
theorem notMem_fresh (ho : Owned h owners) (ha : h.made ≤ a) : a ∉ owners := by
  intro hmem
  obtain ⟨n, x, hcell⟩ := ho.held a hmem
  cases (ho.fresh a ha).symm.trans hcell

/-- A new object belongs to its maker. -/
theorem new (ho : Owned h owners) (x : α) : Owned (h.new x) (h.made ::ₘ owners) where
  refs a n y hcell := by
    by_cases ha : a = h.made
    · subst ha
      have hnone : owners.count h.made = 0 :=
        Multiset.count_eq_zero_of_notMem (ho.notMem_fresh (le_refl _))
      simp only [Heap.new, Function.update_self, Option.some.injEq, Prod.mk.injEq] at hcell
      simp [← hcell.1, hnone]
    · simp only [Heap.new, Function.update_of_ne ha] at hcell
      simpa [Multiset.count_cons_of_ne ha] using ho.refs a n y hcell
  held a ha := by
    by_cases hmade : a = h.made
    · subst hmade
      exact ⟨1, x, by simp [Heap.new]⟩
    · obtain ⟨n, y, hcell⟩ := ho.held a ((Multiset.mem_cons.mp ha).resolve_left hmade)
      exact ⟨n, y, by simpa [Heap.new, hmade] using hcell⟩
  fresh a ha := by
    have hmade : h.made + 1 ≤ a := ha
    have hne : a ≠ h.made := by omega
    simpa [Heap.new, hne] using ho.fresh a (by omega)

/-- Whoever has a reference may make another one. -/
theorem incref (ho : Owned h owners) (ha : a ∈ owners) : Owned (h.incref a) (a ::ₘ owners) := by
  obtain ⟨n, x, hcell⟩ := ho.held a ha
  obtain ⟨hcount, hpos⟩ := ho.refs a n x hcell
  have heq : h.incref a = { h with cell := Function.update h.cell a (some (n + 1, x)) } := by
    simp [Heap.incref, hcell]
  rw [heq]
  refine ⟨?_, ?_, ?_⟩
  · intro b m y hb
    by_cases hba : b = a
    · subst hba
      simp only [Function.update_self, Option.some.injEq, Prod.mk.injEq] at hb
      simp [← hb.1, hcount]
    · simp only [Function.update_of_ne hba] at hb
      simpa [Multiset.count_cons_of_ne hba] using ho.refs b m y hb
  · intro b hb
    by_cases hba : b = a
    · subst hba
      exact ⟨n + 1, x, by simp⟩
    · obtain ⟨m, y, hb⟩ := ho.held b ((Multiset.mem_cons.mp hb).resolve_left hba)
      exact ⟨m, y, by simpa [hba] using hb⟩
  · intro b hb
    have hba : b ≠ a := by
      rintro rfl
      cases (ho.fresh b hb).symm.trans hcell
    simpa [hba] using ho.fresh b hb

/-- An owner gives its reference back. -/
theorem decref (ho : Owned h (a ::ₘ owners)) : Owned (h.decref a).2 owners := by
  obtain ⟨n, x, hcell⟩ := ho.held a (Multiset.mem_cons_self a owners)
  obtain ⟨hcount, hpos⟩ := ho.refs a n x hcell
  rw [Multiset.count_cons_self] at hcount
  have hothers : ∀ b m y, b ≠ a → h.cell b = some (m, y) → m = owners.count b ∧ 0 < m := by
    intro b m y hba hb
    simpa [Multiset.count_cons_of_ne hba] using ho.refs b m y hb
  have hne : ∀ b, h.made ≤ b → b ≠ a := by
    rintro b hb rfl
    cases (ho.fresh b hb).symm.trans hcell
  by_cases hlast : n = 1
  · have heq : (h.decref a).2 = { h with cell := Function.update h.cell a none } := by
      simp [Heap.decref, hcell, hlast]
    have hgone : a ∉ owners := Multiset.count_eq_zero.mp (by omega)
    rw [heq]
    refine ⟨?_, ?_, ?_⟩
    · intro b m y hb
      by_cases hba : b = a
      · subst hba
        simp at hb
      · exact hothers b m y hba (by simpa [hba] using hb)
    · intro b hb
      have hba : b ≠ a := fun heq => hgone (heq ▸ hb)
      obtain ⟨m, y, hb⟩ := ho.held b (Multiset.mem_cons_of_mem hb)
      exact ⟨m, y, by simpa [hba] using hb⟩
    · intro b hb
      simpa [hne b hb] using ho.fresh b hb
  · have heq : (h.decref a).2 = { h with cell := Function.update h.cell a (some (n - 1, x)) } := by
      simp [Heap.decref, hcell, hlast]
    rw [heq]
    refine ⟨?_, ?_, ?_⟩
    · intro b m y hb
      by_cases hba : b = a
      · subst hba
        simp only [Function.update_self, Option.some.injEq, Prod.mk.injEq] at hb
        omega
      · exact hothers b m y hba (by simpa [hba] using hb)
    · intro b hb
      by_cases hba : b = a
      · subst hba
        exact ⟨n - 1, x, by simp⟩
      · obtain ⟨m, y, hb⟩ := ho.held b (Multiset.mem_cons_of_mem hb)
        exact ⟨m, y, by simpa [hba] using hb⟩
    · intro b hb
      simpa [hne b hb] using ho.fresh b hb

/-- A new object that is given up at once leaves nothing but its address. -/
theorem decref_new (ho : Owned h owners) (x : α) :
    (h.new x).decref h.made = (some x, { h with made := h.made + 1 }) := by
  have hcell : Function.update (Function.update h.cell h.made (some (1, x))) h.made none =
      h.cell := by
    rw [Function.update_idem, Function.update_eq_self_iff]
    exact (ho.fresh h.made (le_refl _)).symm
  simp [Heap.decref, Heap.new, hcell]

/-- An address is left out. -/
theorem skip (ho : Owned h owners) : Owned { h with made := h.made + 1 } owners where
  refs := ho.refs
  held := ho.held
  fresh a ha := ho.fresh a (Nat.le_of_succ_le ha)

/-- When nobody owns anything, nothing is left. -/
theorem nothing (ho : Owned h 0) (a : ℕ) : h.cell a = none := by
  cases hcell : h.cell a with
  | none => rfl
  | some c =>
      obtain ⟨hcount, hpos⟩ := ho.refs a c.1 c.2 hcell
      simp only [Multiset.count_zero] at hcount
      omega

end Owned

/-! ## The objects stay what they are -/

section Objects

variable {h : Heap α} {a b : ℕ} {x y z : α}

/-- The object `x` is at the address `a`. -/
def Heap.Has (h : Heap α) (a : ℕ) (x : α) : Prop := ∃ n, h.cell a = some (n, x)

namespace Heap

theorem Has.unique (hx : h.Has a x) (hy : h.Has a y) : x = y := by
  obtain ⟨n, hx⟩ := hx
  obtain ⟨m, hy⟩ := hy
  rw [hx, Option.some.injEq, Prod.mk.injEq] at hy
  exact hy.2

/-- One object, and one more. -/
theorem has_new : (h.new x).Has b y ↔ (b = h.made ∧ y = x) ∨ (b ≠ h.made ∧ h.Has b y) := by
  unfold Has
  by_cases hb : b = h.made
  · subst hb
    simp [new, eq_comm]
  · simp [new, hb]

/-- A reference more changes no object. -/
theorem has_incref : (h.incref a).Has b y ↔ h.Has b y := by
  unfold Has
  cases ha : h.cell a with
  | none => simp [incref, ha]
  | some c =>
      by_cases hb : b = a
      · subst hb
        simp [incref, ha, Prod.ext_iff]
      · simp [incref, ha, hb]

/-- An object changes. -/
theorem has_set (ha : h.Has a x) :
    (h.set a y).Has b z ↔ (b = a ∧ z = y) ∨ (b ≠ a ∧ h.Has b z) := by
  obtain ⟨n, ha⟩ := ha
  unfold Has
  by_cases hb : b = a
  · subst hb
    simp [set, ha, eq_comm]
  · simp [set, ha, hb]

/-- A reference less, and there are others. -/
theorem has_decref_none (hleft : (h.decref a).1 = none) : (h.decref a).2.Has b y ↔ h.Has b y := by
  unfold Has
  cases ha : h.cell a with
  | none => simp [decref, ha]
  | some c =>
      obtain ⟨n, z⟩ := c
      by_cases hlast : n = 1
      · simp [decref, ha, hlast] at hleft
      · by_cases hb : b = a
        · subst hb
          simp [decref, ha, hlast]
        · simp [decref, ha, hlast, hb]

/-- The last reference: the object leaves, and the others stay. -/
theorem has_decref_some (hleft : (h.decref a).1 = some x) :
    h.Has a x ∧ ∀ b y, (h.decref a).2.Has b y ↔ b ≠ a ∧ h.Has b y := by
  unfold Has
  cases ha : h.cell a with
  | none => simp [decref, ha] at hleft
  | some c =>
      obtain ⟨n, z⟩ := c
      by_cases hlast : n = 1
      · simp only [decref, ha, hlast, if_true, Option.some.injEq] at hleft
        refine ⟨⟨n, by rw [hleft]⟩, ?_⟩
        intro b y
        by_cases hb : b = a
        · subst hb
          simp [decref, ha, hlast]
        · simp [decref, ha, hlast, hb]
      · simp [decref, ha, hlast] at hleft

/-- In any case, what is left was there. -/
theorem Has.of_decref (hb : (h.decref a).2.Has b y) : h.Has b y := by
  cases hleft : (h.decref a).1 with
  | none => exact (has_decref_none hleft).mp hb
  | some x => exact (((has_decref_some hleft).2 b y).mp hb).2

@[simp] theorem incref_made : (h.incref a).made = h.made := by
  unfold incref
  split
  · rfl
  · rfl

@[simp] theorem set_made : (h.set a x).made = h.made := by
  unfold set
  split
  · rfl
  · rfl

@[simp] theorem decref_made : (h.decref a).2.made = h.made := by
  unfold decref
  split
  · split
    · rfl
    · rfl
  · rfl

end Heap

/-- An address with an object has been given out. -/
theorem Owned.lt_made {owners : Multiset ℕ} (ho : Owned h owners) (ha : h.Has a x) :
    a < h.made := by
  obtain ⟨n, ha⟩ := ha
  by_contra hmade
  cases (ho.fresh a (not_lt.mp hmade)).symm.trans ha

/-- An object has an owner. -/
theorem Owned.mem_of_has {owners : Multiset ℕ} (ho : Owned h owners) (ha : h.Has a x) :
    a ∈ owners := by
  obtain ⟨n, ha⟩ := ha
  obtain ⟨hcount, hpos⟩ := ho.refs a n x ha
  exact Multiset.count_pos.mp (hcount ▸ hpos)

/-- An owner has an object. -/
theorem Owned.has {owners : Multiset ℕ} (ho : Owned h owners) (ha : a ∈ owners) :
    ∃ x, h.Has a x := by
  obtain ⟨n, x, hcell⟩ := ho.held a ha
  exact ⟨x, n, hcell⟩

end Objects

/-! ## The objects that are left -/

section Live

variable {h : Heap α} {owners : Multiset ℕ} {a : ℕ} {x : α} (p : α → Prop)

/-- Only finitely many addresses have an object. -/
theorem Owned.finite (ho : Owned h owners) : FinitelyMany (Heap.Holds p) h.cell := by
  refine (Set.finite_lt_nat h.made).subset ?_
  intro a ha
  by_contra hmade
  have hnone : h.cell a = none := ho.fresh a (not_lt.mp hmade)
  rw [Set.mem_ofPred_eq, hnone] at ha
  exact ha

/-- Nothing has been made yet. -/
theorem Heap.live_empty : ({} : Heap α).live p = 0 := countOf_const_eq_zero id

/-- A live object makes the number positive. -/
theorem Owned.live_pos (ho : Owned h owners) {n : ℕ} (hcell : h.cell a = some (n, x)) (hx : p x) :
    0 < h.live p := by
  refine countOf_pos_of (ho.finite p) (i := a) ?_
  rw [hcell]
  exact hx

variable [DecidablePred p]

/-- A new object is one more. -/
theorem Owned.live_new (ho : Owned h owners) (x : α) :
    (h.new x).live p = h.live p + if p x then 1 else 0 := by
  have hupdate := countOf_update (ho.finite p) h.made (some (1, x))
  rw [ho.fresh h.made (le_refl _)] at hupdate
  exact hupdate

/-- A reference more makes no object. -/
theorem Owned.live_incref (ho : Owned h owners) : (h.incref a).live p = h.live p := by
  cases hcell : h.cell a with
  | none => simp [Heap.incref, hcell]
  | some c =>
      have hupdate := countOf_update (ho.finite p) a (some (c.1 + 1, c.2))
      have heq : (h.incref a).cell = Function.update h.cell a (some (c.1 + 1, c.2)) := by
        simp [Heap.incref, hcell]
      rw [hcell] at hupdate
      unfold Heap.live
      rw [heq]
      exact Nat.add_right_cancel hupdate

/-- A reference less makes one object less, if it was the last one. -/
theorem Owned.live_decref (ho : Owned h owners) :
    (h.decref a).2.live p + (h.decref a).1.elim 0 (fun x => if p x then 1 else 0) =
      h.live p := by
  cases hcell : h.cell a with
  | none => simp [Heap.decref, hcell]
  | some c =>
      obtain ⟨n, x⟩ := c
      by_cases hlast : n = 1
      · have hupdate := countOf_update (ho.finite p) a none
        have heq : h.decref a = (some x, { h with cell := Function.update h.cell a none }) := by
          simp [Heap.decref, hcell, hlast]
        rw [hcell] at hupdate
        rw [heq]
        exact hupdate
      · have hupdate := countOf_update (ho.finite p) a (some (n - 1, x))
        have heq : h.decref a =
            (none, { h with cell := Function.update h.cell a (some (n - 1, x)) }) := by
          simp [Heap.decref, hcell, hlast]
        rw [hcell] at hupdate
        rw [heq]
        exact Nat.add_right_cancel hupdate

end Live

/-! ## Objects that hold references -/

section Inner

variable {h : Heap α} {owners : Multiset ℕ} {a n : ℕ} {x y : α} (refs : α → Multiset ℕ)

/-- The references that the object of a cell holds. -/
def cellRefs : Option (ℕ × α) → Multiset ℕ
  | some (_, x) => refs x
  | none => 0

/-- The references that the objects of the heap hold. -/
def Heap.inner (h : Heap α) : Multiset ℕ := ∑ a ∈ Finset.range h.made, cellRefs refs (h.cell a)

theorem Owned.mem_inner (ho : Owned h owners) {b : ℕ} :
    b ∈ h.inner refs ↔ ∃ a x, h.Has a x ∧ b ∈ refs x := by
  unfold Heap.inner
  rw [Multiset.mem_sum]
  constructor
  · rintro ⟨a, -, hb⟩
    cases hcell : h.cell a with
    | none =>
        rw [hcell] at hb
        exact absurd hb (Multiset.notMem_zero b)
    | some c =>
        rw [hcell] at hb
        exact ⟨a, c.2, ⟨c.1, hcell⟩, hb⟩
  · rintro ⟨a, x, ⟨n, hcell⟩, hb⟩
    refine ⟨a, Finset.mem_range.mpr (ho.lt_made ⟨n, hcell⟩), ?_⟩
    rw [hcell]
    exact hb

/-- One cell changes. -/
theorem Heap.inner_update (ha : a < h.made) (c : Option (ℕ × α)) :
    Heap.inner refs { h with cell := Function.update h.cell a c } + cellRefs refs (h.cell a) =
      h.inner refs + cellRefs refs c := by
  have hmem : a ∈ Finset.range h.made := Finset.mem_range.mpr ha
  have hothers : ∀ b ∈ (Finset.range h.made).erase a,
      cellRefs refs (Function.update h.cell a c b) = cellRefs refs (h.cell b) := by
    intro b hb
    rw [Function.update_of_ne (Finset.ne_of_mem_erase hb)]
  unfold Heap.inner
  dsimp only
  rw [← Finset.add_sum_erase _ _ hmem, ← Finset.add_sum_erase _ (fun b => cellRefs refs (h.cell b))
    hmem, Finset.sum_congr rfl hothers, Function.update_self]
  ac_rfl

/-- The references of a new object are there as well. -/
theorem Heap.inner_new (h : Heap α) (x : α) :
    (h.new x).inner refs = h.inner refs + refs x := by
  have hothers : ∀ b ∈ Finset.range h.made,
      cellRefs refs ((h.new x).cell b) = cellRefs refs (h.cell b) := by
    intro b hb
    have hne : b ≠ h.made := (Finset.mem_range.mp hb).ne
    simp [Heap.new, hne]
  have hlast : cellRefs refs ((h.new x).cell h.made) = refs x := by simp [Heap.new, cellRefs]
  unfold Heap.inner
  rw [show (h.new x).made = h.made + 1 from rfl, Finset.sum_range_succ, hlast,
    Finset.sum_congr rfl hothers]

/-- A reference to an object changes nothing that the objects hold. -/
theorem Owned.inner_incref (ho : Owned h owners) : (h.incref a).inner refs = h.inner refs := by
  cases hcell : h.cell a with
  | none => simp [Heap.incref, hcell]
  | some c =>
      have hupdate := Heap.inner_update refs (ho.lt_made ⟨c.1, hcell⟩) (some (c.1 + 1, c.2))
      have heq : h.incref a =
          { h with cell := Function.update h.cell a (some (c.1 + 1, c.2)) } := by
        simp [Heap.incref, hcell]
      rw [hcell] at hupdate
      rw [heq]
      exact add_right_cancel hupdate

/-- An object that leaves takes its references along. -/
theorem Owned.inner_decref (ho : Owned h owners) :
    (h.decref a).2.inner refs + (h.decref a).1.elim 0 refs = h.inner refs := by
  cases hcell : h.cell a with
  | none => simp [Heap.decref, hcell]
  | some c =>
      obtain ⟨n, x⟩ := c
      by_cases hlast : n = 1
      · have hupdate := Heap.inner_update refs (ho.lt_made ⟨n, hcell⟩) none
        have heq : h.decref a = (some x, { h with cell := Function.update h.cell a none }) := by
          simp [Heap.decref, hcell, hlast]
        rw [hcell] at hupdate
        rw [heq]
        exact hupdate.trans (add_zero _)
      · have hupdate := Heap.inner_update refs (ho.lt_made ⟨n, hcell⟩) (some (n - 1, x))
        have heq : h.decref a =
            (none, { h with cell := Function.update h.cell a (some (n - 1, x)) }) := by
          simp [Heap.decref, hcell, hlast]
        rw [hcell] at hupdate
        rw [heq]
        exact (add_zero _).trans (add_right_cancel hupdate)

/-- An object that changes exchanges its references. -/
theorem Owned.inner_set (ho : Owned h owners) (ha : h.Has a y) :
    (h.set a x).inner refs + refs y = h.inner refs + refs x := by
  obtain ⟨n, hcell⟩ := ha
  have hupdate := Heap.inner_update refs (ho.lt_made ⟨n, hcell⟩) (some (n, x))
  have heq : h.set a x = { h with cell := Function.update h.cell a (some (n, x)) } := by
    simp [Heap.set, hcell]
  rw [hcell] at hupdate
  rw [heq]
  exact hupdate

/-- It has the owners that it had. -/
theorem Owned.set (ho : Owned h owners) (ha : h.Has a y) : Owned (h.set a x) owners := by
  obtain ⟨n, hcell⟩ := ha
  have heq : h.set a x = { h with cell := Function.update h.cell a (some (n, x)) } := by
    simp [Heap.set, hcell]
  rw [heq]
  refine ⟨?_, ?_, ?_⟩
  · intro b m z hb
    by_cases hba : b = a
    · subst hba
      simp only [Function.update_self, Option.some.injEq, Prod.mk.injEq] at hb
      rw [← hb.1]
      exact ho.refs b n y hcell
    · exact ho.refs b m z (by simpa [hba] using hb)
  · intro b hb
    by_cases hba : b = a
    · subst hba
      exact ⟨n, x, by simp⟩
    · obtain ⟨m, z, hb⟩ := ho.held b hb
      exact ⟨m, z, by simpa [hba] using hb⟩
  · intro b hb
    have hba : b ≠ a := by
      rintro rfl
      cases (ho.fresh b hb).symm.trans hcell
    simpa [hba] using ho.fresh b hb

/-- The object at `a` refers to `b`. -/
def Heap.Refers (h : Heap α) (a b : ℕ) : Prop := ∃ x, h.Has a x ∧ b ∈ refs x

/-- **Nothing is left over**: where objects refer to older ones only, an object that is still there
is reached from a reference that is not in the heap. -/
theorem Owned.reached {roots : Multiset ℕ} (ho : Owned h (roots + h.inner refs))
    (holder : ∀ a b, h.Refers refs a b → b < a) (ha : h.Has a x) :
    ∃ r ∈ roots, Relation.ReflTransGen (h.Refers refs) r a := by
  -- by induction on how many younger addresses there are
  obtain ⟨k, hk⟩ : ∃ k, h.made - a = k := ⟨_, rfl⟩
  induction k using Nat.strong_induction_on generalizing a x with
  | _ k ih =>
      rcases Multiset.mem_add.mp (ho.mem_of_has ha) with hroot | hinner
      · exact ⟨a, hroot, .refl⟩
      · obtain ⟨b, y, hb, href⟩ := (ho.mem_inner refs).mp hinner
        have hlt := holder b a ⟨y, hb, href⟩
        have hmade := ho.lt_made hb
        obtain ⟨r, hr, hpath⟩ := ih (h.made - b) (by omega) hb rfl
        exact ⟨r, hr, hpath.tail ⟨y, hb, href⟩⟩

end Inner

end RefCounts
