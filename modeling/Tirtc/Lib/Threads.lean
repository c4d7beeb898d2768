import Mathlib.Logic.Function.Basic
import Tirtc.Lib.Machine

/-!
# Threads over a shared state, and the rely-guarantee rule

Any number of threads `ι` step on one shared state, each with a local state of its own (its place
in the program, say), and an environment steps on the shared state alone.

* `Threads`, `Threads.machine`: the system, as a machine.
* `Threads.guard`: a guard on the steps, by what a step sees.
* `RelyGuarantee`: an invariant of the shared state, an assertion for the local state of each
  thread, and a guarantee that every step gives to the other threads.
* `RelyGuarantee.reach_of`, `RelyGuarantee.reach`: all of them hold in every state a guarded run
  reaches. Each step is looked at on its own; `stable` says once and for all that the others do not
  disturb an assertion.
* `RelyGuarantee.step`: every step from such a state gives its guarantee.
-/

set_option autoImplicit false

namespace Transition

universe u

/-- Threads `ι` with local states `π` and labels `α` over a shared state `σ`, in an environment
with labels `ε`. -/
structure Threads (ι σ π α ε : Type u) where
  /-- The shared states a run may begin in. -/
  start : σ → Prop
  /-- The local state in which every thread begins. -/
  entry : π
  /-- A step of a thread. -/
  step : ι → σ → π → α → Option (σ × π)
  /-- A step of the environment. -/
  env : σ → ε → Option σ

/-- The shared state and the local states. -/
structure Config (ι σ π : Type u) where
  shared : σ
  pc : ι → π

/-- Who steps. -/
inductive Label (ι α ε : Type u)
  | thread (i : ι) (a : α)
  | env (e : ε)

namespace Threads

variable {ι σ π α ε : Type u} [DecidableEq ι] (T : Threads ι σ π α ε)

/-- The interleavings. -/
def machine : Machine (Config ι σ π) (Label ι α ε) where
  start c := T.start c.shared ∧ c.pc = fun _ => T.entry
  step c
    | .thread i a =>
        (T.step i c.shared (c.pc i) a).map fun next => ⟨next.1, Function.update c.pc i next.2⟩
    | .env e => (T.env c.shared e).map fun s => ⟨s, c.pc⟩

/-- A guard on steps, by what the step sees. -/
def guard (okThread : ι → σ → π → α → Prop) (okEnv : σ → ε → Prop) (c : Config ι σ π) :
    Label ι α ε → Prop
  | .thread i a => okThread i c.shared (c.pc i) a
  | .env e => okEnv c.shared e

instance {okThread : ι → σ → π → α → Prop} {okEnv : σ → ε → Prop}
    [∀ i s pc a, Decidable (okThread i s pc a)] [∀ s e, Decidable (okEnv s e)] (c : Config ι σ π) :
    (l : Label ι α ε) → Decidable (guard okThread okEnv c l)
  | .thread i a => inferInstanceAs (Decidable (okThread i c.shared (c.pc i) a))
  | .env e => inferInstanceAs (Decidable (okEnv c.shared e))

variable {T}

/-- **The obligations of a rely-guarantee proof**, for the steps that a guard admits: `G (some i)`
is what a step of thread `i` guarantees to the others, `G none` a step of the environment. -/
structure RelyGuarantee (T : Threads ι σ π α ε) (okThread : ι → σ → π → α → Prop)
    (okEnv : σ → ε → Prop) (I : σ → Prop) (A : ι → σ → π → Prop) (G : Option ι → σ → σ → Prop) :
    Prop where
  start : ∀ s, T.start s → I s ∧ ∀ i, A i s T.entry
  thread : ∀ i s p a s' p', I s → A i s p → okThread i s p a → T.step i s p a = some (s', p') →
    I s' ∧ A i s' p' ∧ G (some i) s s'
  env : ∀ s e s', I s → okEnv s e → T.env s e = some s' → I s' ∧ G none s s'
  stable : ∀ j k s s' p, k ≠ some j → I s → I s' → G k s s' → A j s p → A j s' p

/-- **The rely-guarantee rule**, for a guard on whole configurations that the invariant and the
assertions turn into the guard by what a step sees. -/
theorem RelyGuarantee.reach_of {okThread : ι → σ → π → α → Prop} {okEnv : σ → ε → Prop}
    {I : σ → Prop} {A : ι → σ → π → Prop} {G : Option ι → σ → σ → Prop}
    {ok : Config ι σ π → Label ι α ε → Prop} (h : RelyGuarantee T okThread okEnv I A G)
    (hguard : ∀ c l, I c.shared → (∀ i, A i c.shared (c.pc i)) → ok c l →
      guard okThread okEnv c l)
    {c : Config ι σ π} (hc : T.machine.ReachWith ok c) :
    I c.shared ∧ ∀ i, A i c.shared (c.pc i) := by
  refine hc.invariant (I := fun c => I c.shared ∧ ∀ i, A i c.shared (c.pc i)) ?_ ?_
  · rintro c ⟨hstart, hpc⟩
    obtain ⟨hI, hA⟩ := h.start c.shared hstart
    exact ⟨hI, fun i => by rw [hpc]; exact hA i⟩
  · rintro c (⟨i, a⟩ | ⟨e⟩) c' ⟨hI, hA⟩ hok hstep
    · obtain ⟨⟨s', p'⟩, hnext, rfl⟩ := Option.map_eq_some_iff.mp hstep
      obtain ⟨hI', hA', hG⟩ := h.thread i _ _ _ _ _ hI (hA i) (hguard _ _ hI hA hok) hnext
      refine ⟨hI', fun j => ?_⟩
      by_cases hj : j = i
      · subst hj
        simpa using hA'
      · have hne : some i ≠ some j := fun heq => hj (Option.some.inj heq).symm
        simpa [hj] using h.stable j (some i) _ _ _ hne hI hI' hG (hA j)
    · obtain ⟨s', hnext, rfl⟩ := Option.map_eq_some_iff.mp hstep
      obtain ⟨hI', hG⟩ := h.env _ _ _ hI (hguard _ _ hI hA hok) hnext
      exact ⟨hI', fun j => h.stable j none _ _ _ (by simp) hI hI' hG (hA j)⟩

/-- The rule for a guard by what a step sees. -/
theorem RelyGuarantee.reach {okThread : ι → σ → π → α → Prop} {okEnv : σ → ε → Prop} {I : σ → Prop}
    {A : ι → σ → π → Prop} {G : Option ι → σ → σ → Prop}
    (h : RelyGuarantee T okThread okEnv I A G) {c : Config ι σ π}
    (hc : T.machine.ReachWith (guard okThread okEnv) c) :
    I c.shared ∧ ∀ i, A i c.shared (c.pc i) :=
  h.reach_of (fun _ _ _ _ hok => hok) hc

/-- A step from such a state gives its guarantee. -/
theorem RelyGuarantee.step {okThread : ι → σ → π → α → Prop} {okEnv : σ → ε → Prop} {I : σ → Prop}
    {A : ι → σ → π → Prop} {G : Option ι → σ → σ → Prop}
    (h : RelyGuarantee T okThread okEnv I A G) {c c' : Config ι σ π} {l : Label ι α ε}
    (hc : T.machine.ReachWith (guard okThread okEnv) c) (hok : guard okThread okEnv c l)
    (hstep : T.machine.step c l = some c') : ∃ k, G k c.shared c'.shared := by
  obtain ⟨hI, hA⟩ := h.reach hc
  rcases l with ⟨i, a⟩ | ⟨e⟩
  · obtain ⟨⟨s', p'⟩, hnext, rfl⟩ := Option.map_eq_some_iff.mp hstep
    exact ⟨some i, (h.thread i _ _ _ _ _ hI (hA i) hok hnext).2.2⟩
  · obtain ⟨s', hnext, rfl⟩ := Option.map_eq_some_iff.mp hstep
    exact ⟨none, (h.env _ _ _ hI hok hnext).2⟩

end Threads

end Transition
