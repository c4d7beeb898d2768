import Mathlib.Algebra.Ring.Nat
import Mathlib.Data.Nat.Notation
import Mathlib.Logic.Relation
import Tirtc.Lib.Worklist

/-!
# Search of a graph with a stack and a set of seen nodes

A node lists its successors, some of which may be missing. The search pops a successor, drops it
when it is missing or seen, stops at the target, and pushes the successors otherwise. It ends
because the successors of a node weigh no more than the node; the nodes may be infinite in number.

* `Graph`, `search`: the graph and the search, over any nodes.
* `Graph.Edge`: the edges as a relation.
* `search_sound`, `search_complete`: the two halves, for any stack and any seen nodes.
* `search_eq_true`: from one node, the search finds the target exactly when a path leads there.
-/

set_option autoImplicit false

namespace Search

universe u

variable {α : Type u}

/-- What an entry of the stack weighs. -/
def cost (weight : α → ℕ) : Option α → ℕ
  | none => 1
  | some x => weight x + 1

/-- What a stack weighs. -/
def total (weight : α → ℕ) (pending : List (Option α)) : ℕ := (pending.map (cost weight)).sum

@[simp] theorem total_nil (weight : α → ℕ) : total weight [] = 0 := rfl

@[simp] theorem total_cons (weight : α → ℕ) (x : Option α) (pending : List (Option α)) :
    total weight (x :: pending) = cost weight x + total weight pending := by
  simp [total]

@[simp] theorem total_append (weight : α → ℕ) (xs ys : List (Option α)) :
    total weight (xs ++ ys) = total weight xs + total weight ys := by
  simp [total]

/-- A graph whose paths end. -/
structure Graph (α : Type u) where
  /-- The successors of a node, in the order in which they are popped. -/
  next : α → List (Option α)
  /-- A bound on the nodes behind a node. -/
  weight : α → ℕ
  next_le : ∀ x, total weight (next x) ≤ weight x

/-- There is an edge from `x` to `y`. -/
def Graph.Edge (G : Graph α) (x y : α) : Prop := some y ∈ G.next x

variable [DecidableEq α] (G : Graph α) (target : α)

/-- The search, from a stack and the nodes that are seen. -/
def search : List (Option α) → List α → Bool
  | [], _ => false
  | none :: pending, seen => search pending seen
  | some x :: pending, seen =>
      if x ∈ seen then search pending seen
      else if x = target then true
      else search (G.next x ++ pending) (x :: seen)
termination_by pending _ => total G.weight pending
decreasing_by
  · simp [cost]
  · simp [cost]
  · have hle := G.next_le x
    simp [cost]
    omega

variable {G target}

/-- What the search finds is behind an entry of the stack. -/
theorem search_sound {pending : List (Option α)} {seen : List α}
    (h : search G target pending seen = true) :
    ∃ x, some x ∈ pending ∧ Relation.ReflTransGen G.Edge x target := by
  fun_induction search G target pending seen with
  | case1 => cases h
  | case2 pending seen ih =>
      obtain ⟨y, hy, hpath⟩ := ih h
      exact ⟨y, List.mem_cons_of_mem _ hy, hpath⟩
  | case3 x pending seen _ ih =>
      obtain ⟨y, hy, hpath⟩ := ih h
      exact ⟨y, List.mem_cons_of_mem _ hy, hpath⟩
  | case4 pending seen => exact ⟨target, List.mem_cons_self, .refl⟩
  | case5 x pending seen _ _ ih =>
      obtain ⟨y, hy, hpath⟩ := ih h
      rcases List.mem_append.mp hy with hnext | hmem
      · exact ⟨x, List.mem_cons_self, .head hnext hpath⟩
      · exact ⟨y, List.mem_cons_of_mem _ hmem, hpath⟩

/-- **The seen nodes are done with**: none is the target, and what follows them is seen or on the
stack. -/
def Explored (G : Graph α) (target : α) (pending : List (Option α)) (seen : List α) : Prop :=
  ∀ x ∈ seen, x ≠ target ∧ ∀ y, G.Edge x y → y ∈ seen ∨ some y ∈ pending

omit [DecidableEq α] in
/-- The promise of the seen nodes is that of any worklist over these successors. -/
theorem explored_iff {pending : List (Option α)} {seen : List α} :
    Explored G target pending seen ↔ Worklist.Explored G.next target pending seen := Iff.rfl

/-- What is behind an entry of the stack is found. -/
theorem search_complete {pending : List (Option α)} {seen : List α}
    (hexplored : Explored G target pending seen)
    (h : ∃ y, y ∉ seen ∧ some y ∈ pending ∧ Relation.ReflTransGen G.Edge y target) :
    search G target pending seen = true := by
  rw [explored_iff] at hexplored
  fun_induction search G target pending seen with
  | case1 =>
      obtain ⟨y, -, hy, -⟩ := h
      cases hy
  | case2 pending seen ih => exact ih hexplored.skip_none (by simpa using h)
  | case3 x pending seen hseen ih =>
      obtain ⟨y, hy, hmem, hpath⟩ := h
      exact ih (hexplored.skip_seen hseen)
        ⟨y, hy, Worklist.Explored.exit_of_seen hseen hy hmem, hpath⟩
  | case4 => rfl
  | case5 x pending seen hseen htarget ih =>
      obtain ⟨y, -, hmem, hpath⟩ := h
      have hexplored' := hexplored.push htarget
      exact ih hexplored' (hexplored'.exit (Worklist.mem_of_push hmem) hpath)

/-- **From one node, the search finds the target exactly when a path leads there.** -/
theorem search_eq_true {x : α} :
    search G target [some x] [] = true ↔ Relation.ReflTransGen G.Edge x target := by
  constructor
  · intro h
    obtain ⟨y, hy, hpath⟩ := search_sound h
    obtain rfl : y = x := by simpa using hy
    exact hpath
  · intro hpath
    refine search_complete (fun z hz => by cases hz) ⟨x, ?_, List.mem_cons_self, hpath⟩
    exact List.not_mem_nil

end Search
