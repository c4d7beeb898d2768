import Mathlib.Data.Fintype.Card
import Mathlib.Logic.Relation

/-!
# Worklist search of a finite graph

A node lists its successors, some of which may be missing; the graph may have cycles. The search
pops an entry of a stack, drops it when it is missing or seen, stops at the target, and pushes the
successors otherwise. The stack can grow at every step: the search ends because every push is paid
by a node that is seen from then on.

* `Edge`, `Explored`: the edges as a relation, and what the seen nodes promise.
* `Explored.skip_none`, `Explored.skip_seen`, `Explored.push`: what each step makes of that promise.
* `Explored.exit`: a path to the target leaves the seen nodes through the stack.
* `search`: the search, on a finite type of nodes.
* `search_sound`, `search_complete`, `search_eq_true`: it finds the target exactly when a path leads
  there.
-/

set_option autoImplicit false

namespace Worklist

universe u

variable {α : Type u}

/-! ## The seen nodes -/

section Explored

variable (next : α → List (Option α)) (target : α)

/-- There is an edge from `x` to `y`. -/
def Edge (x y : α) : Prop := some y ∈ next x

/-- **The seen nodes are done with**: none is the target, and what follows them is seen or on the
stack. -/
def Explored (pending : List (Option α)) (seen : List α) : Prop :=
  ∀ x ∈ seen, x ≠ target ∧ ∀ y, Edge next x y → y ∈ seen ∨ some y ∈ pending

variable {next target} {pending : List (Option α)} {seen : List α}

/-- At the start nothing is seen. -/
theorem Explored.nil : Explored next target pending [] := by
  intro x hx
  cases hx

/-- A missing entry is dropped. -/
theorem Explored.skip_none (h : Explored next target (none :: pending) seen) :
    Explored next target pending seen := by
  intro x hx
  refine ⟨(h x hx).1, ?_⟩
  intro y hy
  simpa using (h x hx).2 y hy

/-- A seen entry is dropped. -/
theorem Explored.skip_seen {x : α} (h : Explored next target (some x :: pending) seen)
    (hseen : x ∈ seen) : Explored next target pending seen := by
  intro z hz
  refine ⟨(h z hz).1, ?_⟩
  intro w hw
  rcases (h z hz).2 w hw with hin | hin
  · exact .inl hin
  · rcases List.mem_cons.mp hin with heq | htail
    · exact .inl (Option.some.inj heq ▸ hseen)
    · exact .inr htail

/-- Another entry is seen now, and what follows it is on the stack. -/
theorem Explored.push {x : α} (h : Explored next target (some x :: pending) seen)
    (hne : x ≠ target) : Explored next target (next x ++ pending) (x :: seen) := by
  intro z hz
  rcases List.mem_cons.mp hz with rfl | hz
  · exact ⟨hne, fun w hw => .inr (List.mem_append_left _ hw)⟩
  · refine ⟨(h z hz).1, ?_⟩
    intro w hw
    rcases (h z hz).2 w hw with hin | hin
    · exact .inl (List.mem_cons_of_mem _ hin)
    · rcases List.mem_cons.mp hin with heq | htail
      · exact .inl (Option.some.inj heq ▸ List.mem_cons_self)
      · exact .inr (List.mem_append_right _ htail)

/-- **A path to the target leaves the seen nodes through the stack.** -/
theorem Explored.exit (h : Explored next target pending seen) {x : α}
    (hx : x ∈ seen ∨ some x ∈ pending) (hpath : Relation.ReflTransGen (Edge next) x target) :
    ∃ y, y ∉ seen ∧ some y ∈ pending ∧ Relation.ReflTransGen (Edge next) y target := by
  classical
  induction hpath using Relation.ReflTransGen.head_induction_on with
  | refl =>
      have hnot : target ∉ seen := fun hmem => (h target hmem).1 rfl
      exact ⟨target, hnot, hx.resolve_left hnot, .refl⟩
  | head hedge hrest ih =>
      rename_i z w
      by_cases hz : z ∈ seen
      · exact ih ((h z hz).2 w hedge)
      · exact ⟨z, hz, hx.resolve_left hz, .head hedge hrest⟩

/-- A path on from an entry that is dropped as seen goes through the rest of the stack. -/
theorem Explored.exit_of_seen {x y : α} (hseen : x ∈ seen) (hy : y ∉ seen)
    (hmem : some y ∈ some x :: pending) : some y ∈ pending := by
  rcases List.mem_cons.mp hmem with heq | htail
  · exact absurd (Option.some.inj heq ▸ hseen) hy
  · exact htail

/-- A path on from the stack before a push is one from the seen nodes or the stack after it. -/
theorem mem_of_push {x y : α} (hmem : some y ∈ some x :: pending) :
    y ∈ x :: seen ∨ some y ∈ next x ++ pending := by
  rcases List.mem_cons.mp hmem with heq | htail
  · exact .inl (Option.some.inj heq ▸ List.mem_cons_self)
  · exact .inr (List.mem_append_right _ htail)

end Explored

/-! ## The search -/

section Search

variable [DecidableEq α]

/-- A node that was not seen makes the nodes that are left fewer. -/
theorem left_lt [Fintype α] {x : α} {seen : List α} (h : x ∉ seen) :
    Fintype.card α - (x :: seen).toFinset.card < Fintype.card α - seen.toFinset.card := by
  have hnot : x ∉ seen.toFinset := by simpa using h
  have hlt := Finset.card_lt_univ_of_notMem hnot
  rw [List.toFinset_cons, Finset.card_insert_of_notMem hnot]
  omega

/-- The search, from a stack and the nodes that are seen. -/
def search [Fintype α] (next : α → List (Option α)) (target : α) :
    List (Option α) → List α → Bool
  | [], _ => false
  | none :: pending, seen => search next target pending seen
  | some x :: pending, seen =>
      if x ∈ seen then search next target pending seen
      else if x = target then true
      else search next target (next x ++ pending) (x :: seen)
termination_by pending seen => (Fintype.card α - seen.toFinset.card, pending.length)
decreasing_by
  · exact Prod.Lex.right _ (Nat.lt_succ_self _)
  · exact Prod.Lex.right _ (Nat.lt_succ_self _)
  · exact Prod.Lex.left _ _ (left_lt ‹_›)

variable [Fintype α] {next : α → List (Option α)} {target : α}

/-- What the search finds is behind an entry of the stack. -/
theorem search_sound {pending : List (Option α)} {seen : List α}
    (h : search next target pending seen = true) :
    ∃ x, some x ∈ pending ∧ Relation.ReflTransGen (Edge next) x target := by
  fun_induction search next target pending seen with
  | case1 => cases h
  | case2 pending seen ih =>
      obtain ⟨y, hy, hpath⟩ := ih h
      exact ⟨y, List.mem_cons_of_mem _ hy, hpath⟩
  | case3 x pending seen _ ih =>
      obtain ⟨y, hy, hpath⟩ := ih h
      exact ⟨y, List.mem_cons_of_mem _ hy, hpath⟩
  | case4 pending seen => exact ⟨target, List.mem_cons_self, .refl⟩
  | case5 x pending seen _ _ ih =>
      obtain ⟨y, hy, hpath⟩ := ih h
      rcases List.mem_append.mp hy with hnext | hmem
      · exact ⟨x, List.mem_cons_self, .head hnext hpath⟩
      · exact ⟨y, List.mem_cons_of_mem _ hmem, hpath⟩

/-- What is behind an entry of the stack is found. -/
theorem search_complete {pending : List (Option α)} {seen : List α}
    (hexplored : Explored next target pending seen)
    (h : ∃ y, y ∉ seen ∧ some y ∈ pending ∧ Relation.ReflTransGen (Edge next) y target) :
    search next target pending seen = true := by
  fun_induction search next target pending seen with
  | case1 =>
      obtain ⟨y, -, hy, -⟩ := h
      cases hy
  | case2 pending seen ih => exact ih hexplored.skip_none (by simpa using h)
  | case3 x pending seen hseen ih =>
      obtain ⟨y, hy, hmem, hpath⟩ := h
      exact ih (hexplored.skip_seen hseen) ⟨y, hy, Explored.exit_of_seen hseen hy hmem, hpath⟩
  | case4 => rfl
  | case5 x pending seen hseen htarget ih =>
      obtain ⟨y, -, hmem, hpath⟩ := h
      have hexplored' := hexplored.push htarget
      exact ih hexplored' (hexplored'.exit (mem_of_push hmem) hpath)

/-- **From one node, the search finds the target exactly when a path leads there**, whatever cycles
the graph has. -/
theorem search_eq_true {x : α} :
    search next target [some x] [] = true ↔ Relation.ReflTransGen (Edge next) x target := by
  constructor
  · intro h
    obtain ⟨y, hy, hpath⟩ := search_sound h
    obtain rfl : y = x := by simpa using hy
    exact hpath
  · intro hpath
    exact search_complete .nil ⟨x, List.not_mem_nil, List.mem_cons_self, hpath⟩

end Search

end Worklist
