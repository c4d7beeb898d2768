import Mathlib.Algebra.Ring.Nat
import Mathlib.Logic.Basic

/-!
# Machines: partial labelled steps, guarded reachability, runs, simulation

A `Machine` has start states and an executable partial step; all nondeterminism is in the
labels, so a run on a concrete list of labels can be evaluated. Everything here is over
arbitrary states and labels.

* `ReachWith M ok s`: `s` is reached by a run each of whose steps `(state, label)` satisfies
  the guard `ok`; `Reach M` is the unguarded case.
* `exec M s as`: the run on the labels `as` from `s`.
* `ReachWith.invariant`, `ReachWith.invariant_of`: the induction rules. The safety theorems
  over machines are instances of them.
* `exec_invariant`: the same along one run.
* `exists_reach`, `exists_reachWith`: a run that is evaluated, and a test of its last state.
* `after`, `ReachWith.trans`, `ReachWith.after`: the runs from a state on.
* `Simulates`, `Simulates.reach`: forward simulation, and the transport of reachability.
-/

namespace Transition

universe u v w x

/-- A machine: its start states and its partial step. `none` says that the label is not
enabled in that state. -/
structure Machine (σ : Type u) (α : Type v) where
  /-- The states a run may begin in. -/
  start : σ → Prop
  /-- The state after one label, if the label is enabled. -/
  step : σ → α → Option σ

namespace Machine

variable {σ : Type u} {α : Type v} (M : Machine σ α)

/-! ## Reachability -/

/-- The states reached by runs all of whose steps satisfy the guard `ok`. -/
inductive ReachWith (ok : σ → α → Prop) : σ → Prop
  | start {s : σ} : M.start s → ReachWith ok s
  | step {s t : σ} {a : α} : ReachWith ok s → ok s a → M.step s a = some t → ReachWith ok t

/-- The states reached by some run. -/
def Reach (s : σ) : Prop := M.ReachWith (fun _ _ => True) s

variable {M}

/-- A weaker guard reaches at least as much. -/
theorem ReachWith.mono {ok ok' : σ → α → Prop} (h : ∀ s a, ok s a → ok' s a) {s : σ}
    (hs : M.ReachWith ok s) : M.ReachWith ok' s := by
  induction hs with
  | start h₀ => exact .start h₀
  | step _ hok hstep ih => exact .step ih (h _ _ hok) hstep

/-- A guarded run is a run. -/
theorem ReachWith.reach {ok : σ → α → Prop} {s : σ} (hs : M.ReachWith ok s) : M.Reach s :=
  hs.mono fun _ _ _ => trivial

/-- The start states are reachable. -/
theorem Reach.of_start {s : σ} (h : M.start s) : M.Reach s := .start h

/-- One more step. -/
theorem Reach.tail {s t : σ} {a : α} (hs : M.Reach s) (h : M.step s a = some t) : M.Reach t :=
  .step hs trivial h

/-- **The invariant rule**: what the start states satisfy and every guarded step keeps holds
in every state a guarded run reaches. -/
theorem ReachWith.invariant {ok : σ → α → Prop} {I : σ → Prop} (h₀ : ∀ s, M.start s → I s)
    (h₁ : ∀ s a t, I s → ok s a → M.step s a = some t → I t) {s : σ}
    (hs : M.ReachWith ok s) : I s := by
  induction hs with
  | start h => exact h₀ _ h
  | step _ hok hstep ih => exact h₁ _ _ _ ih hok hstep

/-- A run whose guard follows, in its states, from another one. -/
theorem ReachWith.mono_of {ok ok' : σ → α → Prop} (h : ∀ s a, M.Reach s → ok s a → ok' s a) {s : σ}
    (hs : M.ReachWith ok s) : M.ReachWith ok' s := by
  induction hs with
  | start h₀ => exact .start h₀
  | step hr hok hstep ih => exact .step ih (h _ _ hr.reach hok) hstep

/-- The invariant rule with an invariant `J` already known. -/
theorem ReachWith.invariant_of {ok : σ → α → Prop} {I J : σ → Prop}
    (hJ : ∀ s, M.ReachWith ok s → J s) (h₀ : ∀ s, M.start s → J s → I s)
    (h₁ : ∀ s a t, J s → J t → I s → ok s a → M.step s a = some t → I t) {s : σ}
    (hs : M.ReachWith ok s) : I s := by
  induction hs with
  | start h => exact h₀ _ h (hJ _ (.start h))
  | step hr hok hstep ih => exact h₁ _ _ _ (hJ _ hr) (hJ _ (.step hr hok hstep)) ih hok hstep

/-! ## Runs on a list of labels

A small run names its threads and objects by the literals of `Fin 1` and `Fin 2`. The instances
below stand in them by name, so that the list of labels is data without proofs of its own. -/

instance neZero_one : NeZero 1 := ⟨by decide⟩

instance neZero_two : NeZero 2 := ⟨by decide⟩

variable (M)

/-- The run on a list of labels. -/
def exec : σ → List α → Option σ
  | s, [] => some s
  | s, a :: as => (M.step s a).bind fun t => exec t as

variable {M}

@[simp] theorem exec_nil (s : σ) : M.exec s [] = some s := rfl

@[simp] theorem exec_cons (s : σ) (a : α) (as : List α) :
    M.exec s (a :: as) = (M.step s a).bind fun t => M.exec t as := rfl

/-- A run on `a :: as` is one step and a run on `as`. -/
theorem exec_cons_eq_some {s t : σ} {a : α} {as : List α} :
    M.exec s (a :: as) = some t ↔ ∃ r, M.step s a = some r ∧ M.exec r as = some t := by
  rw [exec_cons, Option.bind_eq_some_iff]

/-- A predicate every step keeps holds at the end of a run. -/
theorem exec_invariant {I : σ → Prop} (h : ∀ s a t, I s → M.step s a = some t → I t)
    {s t : σ} {as : List α} (hrun : M.exec s as = some t) (hs : I s) : I t := by
  induction as generalizing s with
  | nil => exact Option.some.inj hrun ▸ hs
  | cons a as ih =>
      obtain ⟨r, hr, hrest⟩ := exec_cons_eq_some.mp hrun
      exact ih hrest (h _ _ _ hs hr)

/-- A run from a reachable state ends in a reachable state. -/
theorem Reach.exec {s t : σ} {as : List α} (hs : M.Reach s) (h : M.exec s as = some t) :
    M.Reach t :=
  exec_invariant (I := M.Reach) (fun _ _ _ hr hstep => hr.tail hstep) h hs

variable (M) in
/-- The machine without the steps that fail the check `ok`. -/
def guarded (ok : σ → α → Bool) : Machine σ α where
  start := M.start
  step s a := if ok s a then M.step s a else none

/-- A step of the checked machine is a step that passes the check. -/
theorem guarded_step_eq_some {ok : σ → α → Bool} {s t : σ} {a : α} :
    (M.guarded ok).step s a = some t ↔ ok s a = true ∧ M.step s a = some t := by
  unfold guarded
  by_cases hok : ok s a = true <;> simp [hok]

/-- A run whose every step passes the check `ok` ends in a state that the guard `ok` reaches. -/
theorem ReachWith.exec {ok : σ → α → Bool} {s t : σ} {as : List α}
    (hs : M.ReachWith (fun s a => ok s a = true) s) (h : (M.guarded ok).exec s as = some t) :
    M.ReachWith (fun s a => ok s a = true) t := by
  refine exec_invariant (I := M.ReachWith fun s a => ok s a = true) ?_ h hs
  intro s a t hr hstep
  obtain ⟨hok, hstep⟩ := guarded_step_eq_some.mp hstep
  exact .step hr hok hstep

/-- A run from a start state, and a test that its last state passes. -/
theorem exists_reach {p : σ → Bool} {s : σ} {l : List α} (hs : M.start s)
    (h : (M.exec s l).any p = true) : ∃ t, M.Reach t ∧ p t = true := by
  obtain ⟨t, ht, hp⟩ := (Option.any_eq_true p _).mp h
  exact ⟨t, Reach.exec (.of_start hs) ht, hp⟩

/-- The same of a run whose steps satisfy a guard that can be decided. -/
theorem exists_reachWith {ok : σ → α → Prop} [∀ s a, Decidable (ok s a)] {p : σ → Bool} {s : σ}
    {l : List α} (hs : M.start s)
    (h : ((M.guarded fun s a => decide (ok s a)).exec s l).any p = true) :
    ∃ t, M.ReachWith ok t ∧ p t = true := by
  obtain ⟨t, ht, hp⟩ := (Option.any_eq_true p _).mp h
  have hreach := ReachWith.exec (.start hs) ht
  exact ⟨t, hreach.mono fun _ _ hok => of_decide_eq_true hok, hp⟩

/-! ## Runs from a state on -/

variable (M) in
/-- The machine whose runs begin in `s`. -/
def after (s : σ) : Machine σ α := { M with start := (· = s) }

/-- What a guarded run from a state that guarded runs reach reaches is reached so. -/
theorem ReachWith.trans {ok : σ → α → Prop} {s t : σ} (hs : M.ReachWith ok s)
    (ht : (M.after s).ReachWith ok t) : M.ReachWith ok t := by
  induction ht with
  | start hr =>
      obtain rfl := hr
      exact hs
  | step _ hok hstep ih => exact .step ih hok hstep

/-- What a run from a reachable state reaches is reachable. -/
theorem Reach.after {ok : σ → α → Prop} {s t : σ} (hs : M.Reach s)
    (ht : (M.after s).ReachWith ok t) : M.Reach t :=
  hs.trans (ht.mono fun _ _ _ => trivial)

/-- Runs compose. -/
theorem ReachWith.after {ok : σ → α → Prop} {r s t : σ} (hs : (M.after r).ReachWith ok s)
    (ht : (M.after s).ReachWith ok t) : (M.after r).ReachWith ok t :=
  hs.trans ht

/-- A run whose every step passes the check `ok`. -/
theorem ReachWith.of_exec {ok : σ → α → Bool} {s t : σ} {as : List α}
    (h : (M.guarded ok).exec s as = some t) :
    (M.after s).ReachWith (fun s a => ok s a = true) t := by
  refine exec_invariant (M := M.guarded ok) ?_ h (ReachWith.start rfl)
  intro r a t hr hstep
  obtain ⟨hok, hstep⟩ := guarded_step_eq_some.mp hstep
  exact .step hr hok hstep

/-- One step is a run. -/
theorem ReachWith.one {ok : σ → α → Prop} {s t : σ} {a : α} (hok : ok s a)
    (h : M.step s a = some t) : (M.after s).ReachWith ok t :=
  .step (.start rfl) hok h

/-! ## Simulation -/

/-- `N` simulates `M` along `rel`: related start states, and each step of `M` is answered by a
run of `N`. -/
structure Simulates {τ : Type w} {β : Type x} (M : Machine σ α) (N : Machine τ β)
    (rel : σ → τ → Prop) : Prop where
  start : ∀ s, M.start s → ∃ t, N.start t ∧ rel s t
  step : ∀ s a s' t, M.Reach s → rel s t → M.step s a = some s' →
    ∃ bs t', N.exec t bs = some t' ∧ rel s' t'

/-- A simulation carries reachable states to reachable states. -/
theorem Simulates.reach {τ : Type w} {β : Type x} {N : Machine τ β} {rel : σ → τ → Prop}
    (h : Simulates M N rel) {s : σ} (hs : M.Reach s) : ∃ t, N.Reach t ∧ rel s t := by
  induction hs with
  | start h₀ =>
      obtain ⟨t, ht, hrel⟩ := h.start _ h₀
      exact ⟨t, .start ht, hrel⟩
  | step hr _ hstep ih =>
      obtain ⟨t, ht, hrel⟩ := ih
      obtain ⟨bs, t', hrun, hrel'⟩ := h.step _ _ _ _ hr hrel hstep
      exact ⟨t', ht.exec hrun, hrel'⟩

end Machine

end Transition
