import Mathlib.Tactic.Common
import Tirtc.Lib.Threads
import Tirtc.Lifecycle

/-!
# Calls that follow a close coordinator

In a larger system the threads that close one object move its coordinator only with `begin`, with
the wake of a waiter and with the report of the performer. What the coordinator promises then holds
of the object in that system.

* `Turn`: what a step of one thread does to the coordinator and to its place.
* `Follows`: the coordinator and the places of the threads are those of a state of `Closing`.
* `Follows.turn`: every turn keeps that.
* `Follows.performing` to `Follows.wakes`: what it gives.
* `Turn.closed`, `Turn.notOpen`: `closed` is never left, and `open` is never come back to.
* `Follows.reach`: a system whose every step is a turn follows its coordinator in every run.
-/

set_option autoImplicit false

namespace Tirtc.Closing

variable {ι : Type} {c c' : CloseCoordinator} {pc : ι → Caller} {p p' : Caller}

/-- The place of a thread without what its last call got. -/
def place : Caller → Caller
  | .returned _ _ => .idle
  | caller => caller

/-- **A turn of one thread**: none, the first section of `begin`, the wake behind its wait, or the
report of the performer. -/
inductive Turn (c : CloseCoordinator) : Caller → CloseCoordinator → Caller → Prop
  | stays (p : Caller) : Turn c p c p
  | begins (preflightInUse : Bool) :
      Turn c .idle (c.begin preflightInUse).2 (place (afterBegin (c.begin preflightInUse).1))
  | wakes (g : ℕ) (o : Option PyError) (c' : CloseCoordinator) : c.outcomes g = some o →
      c.leave g = some c' → Turn c (.waiting g) c' .idle
  | fails (g : ℕ) (error : PyError) : Turn c (.performing g) (c.fail g error) .idle
  | succeeds (g : ℕ) (error : Option PyError) : Turn c (.performing g) (c.succeed g error) .idle

/-- The coordinator and the threads are as in a state that keeps the protocol. -/
def Follows (c : CloseCoordinator) (pc : ι → Caller) : Prop :=
  ∃ s : Closing ι, Protocol s ∧ s.coordinator = c ∧ ∀ j, place (s.pc j) = pc j

/-- Nobody has called yet. -/
theorem follows_start : Follows {} fun _ : ι => .idle :=
  ⟨{}, protocol_start, rfl, fun _ => rfl⟩

theorem place_eq {caller p : Caller} (h : place caller = p) (hp : p ≠ .idle) : caller = p := by
  cases caller with
  | returned joined raised => exact absurd h.symm hp
  | _ => exact h

/-- A thread that is in no call can call `begin`. -/
theorem beginStep_eq [DecidableEq ι] {s : Closing ι} {i : ι} (h : place (s.pc i) = .idle)
    (pf : Bool) : s.beginStep i pf =
      some { s.goto i (afterBegin (s.coordinator.begin pf).1) with
        coordinator := (s.coordinator.begin pf).2 } := by
  cases hpc : s.pc i with
  | idle => simp [beginStep, hpc]
  | returned joined raised => simp [beginStep, hpc]
  | performing g =>
      rw [hpc] at h
      cases h
  | waiting g =>
      rw [hpc] at h
      cases h

/-- **Every turn keeps the protocol.** -/
theorem Follows.turn [DecidableEq ι] (h : Follows c pc) {i : ι} (hturn : Turn c (pc i) c' p') :
    Follows c' (Function.update pc i p') := by
  obtain ⟨s, hs, rfl, hpc⟩ := h
  have hgoto : ∀ (caller : Caller), place caller = p' →
      ∀ j, place ((s.goto i caller).pc j) = Function.update pc i p' j := by
    intro caller hcaller j
    by_cases hj : j = i
    · subst hj
      simp [goto, hcaller]
    · simp [goto, hj, hpc j]
  generalize hp : pc i = p at hturn
  cases hturn with
  | stays =>
      refine ⟨s, hs, rfl, fun j => ?_⟩
      by_cases hj : j = i
      · subst hj
        simp [hpc j, hp]
      · simp [hpc j, hj]
  | begins pf =>
      have hstep : s.step (.begin i pf) = some _ := beginStep_eq ((hpc i).trans hp) pf
      exact ⟨_, protocol_step hs hstep, rfl, hgoto _ rfl⟩
  | wakes g o _ houtcome hleave =>
      have hi : s.pc i = .waiting g := place_eq ((hpc i).trans hp) (by simp)
      have hstep : s.step (.wake i) =
          some { s.goto i (.returned (some g) (o.map copyError)) with coordinator := c' } := by
        simp [step, wakeStep, hi, CloseCoordinator.outcome?, houtcome, hleave]
      exact ⟨_, protocol_step hs hstep, rfl, hgoto _ rfl⟩
  | fails g error =>
      have hi : s.pc i = .performing g := place_eq ((hpc i).trans hp) (by simp)
      have hstep : s.step (.fail i error) = some { s.goto i .idle with
          coordinator := s.coordinator.fail g error
          recorded := Function.update s.recorded g (some (some error)) } := by
        simp [step, reportStep, hi]
      exact ⟨_, protocol_step hs hstep, rfl, hgoto _ rfl⟩
  | succeeds g error =>
      have hi : s.pc i = .performing g := place_eq ((hpc i).trans hp) (by simp)
      have hstep : s.step (.succeed i error) = some { s.goto i .idle with
          coordinator := s.coordinator.succeed g error
          recorded := Function.update s.recorded g (some error) } := by
        simp [step, reportStep, hi]
      exact ⟨_, protocol_step hs hstep, rfl, hgoto _ rfl⟩

/-- The performer performs the generation in progress. -/
theorem Follows.performing (h : Follows c pc) {j : ι} {g : ℕ} (hj : pc j = .performing g) :
    c.status = .closing ∧ g = c.generation := by
  obtain ⟨s, hs, rfl, hpc⟩ := h
  exact hs.performing j g (place_eq ((hpc j).trans hj) (by simp))

/-- There is one performer at most. -/
theorem Follows.unique (h : Follows c pc) {j k : ι} {g g' : ℕ} (hj : pc j = .performing g)
    (hk : pc k = .performing g') : j = k := by
  obtain ⟨s, hs, rfl, hpc⟩ := h
  exact hs.unique j k g g' (place_eq ((hpc j).trans hj) (by simp))
    (place_eq ((hpc k).trans hk) (by simp))

/-- A waiter finds the outcome of its generation, or a thread performs that generation. -/
theorem Follows.waiting (h : Follows c pc) {j : ι} {g : ℕ} (hj : pc j = .waiting g) :
    (∃ o, c.outcomes g = some o) ∨ ∃ k, pc k = .performing g := by
  obtain ⟨s, hs, rfl, hpc⟩ := h
  have hj : s.pc j = .waiting g := place_eq ((hpc j).trans hj) (by simp)
  cases hrecorded : s.recorded g with
  | some o => exact .inl ⟨o, (hs.kept j g hj).trans hrecorded⟩
  | none =>
      obtain ⟨hstatus, rfl⟩ := hs.pending j g hj hrecorded
      obtain ⟨k, hk⟩ := hs.performer hstatus
      exact .inr ⟨k, (hpc k).symm.trans (congrArg place hk)⟩

/-- The generation in progress has no outcome yet. -/
theorem Follows.current (h : Follows c pc) (hclosing : c.status = .closing) :
    c.outcomes c.generation = none := by
  obtain ⟨s, hs, rfl, hpc⟩ := h
  cases houtcome : s.coordinator.outcomes s.coordinator.generation with
  | none => rfl
  | some o => cases (hs.outcome _ o houtcome).1.symm.trans (hs.current hclosing)

/-- A waiter is counted. -/
theorem Follows.counted (h : Follows c pc) {j : ι} {g : ℕ} (hj : pc j = .waiting g) :
    0 < c.waiting g := by
  obtain ⟨s, hs, rfl, hpc⟩ := h
  rw [hs.count g]
  exact Counting.countOf_pos_of (hs.finite g) (place_eq ((hpc j).trans hj) (by simp))

/-- A waiter can leave. -/
theorem Follows.wakes (h : Follows c pc) {j : ι} {g : ℕ} (hj : pc j = .waiting g) :
    ∃ c', c.leave g = some c' :=
  c.leave_isSome (h.counted hj)

/-- `closed` is never left. -/
theorem Turn.closed (h : Follows c pc) {i : ι} (hturn : Turn c (pc i) c' p')
    (hclosed : c.status = .closed) : c'.status = .closed := by
  have hidle : ∀ g, pc i ≠ .performing g := by
    intro g hg
    cases hclosed.symm.trans (h.performing hg).1
  generalize pc i = p at hturn hidle
  cases hturn with
  | stays => exact hclosed
  | begins pf => simp [CloseCoordinator.begin, hclosed]
  | wakes g o _ _ hleave => exact (c.leave_spec hleave).1.trans hclosed
  | fails g error => exact absurd rfl (hidle g)
  | succeeds g error => exact absurd rfl (hidle g)

/-- `open` is never come back to. -/
theorem Turn.notOpen (hturn : Turn c p c' p') (hopen : c.status ≠ .open) : c'.status ≠ .open := by
  cases hturn with
  | stays => exact hopen
  | begins pf =>
      rcases c.begin_cases pf with ⟨hst, hbegin⟩ | ⟨hst, hbegin⟩ | ⟨hst, hbegin⟩ | ⟨hst, hbegin⟩
      · simp [hbegin, hst]
      · simp [hbegin, hst]
      · exact absurd hst hopen
      · simp [hbegin]
  | wakes g o _ _ hleave =>
      rw [(c.leave_spec hleave).1]
      exact hopen
  | fails g error => simp [CloseCoordinator.fail]
  | succeeds g error => simp [CloseCoordinator.succeed]

/-- **A system whose every step is a turn follows its coordinator in every run.** -/
theorem Follows.reach [DecidableEq ι] {σ π α ε : Type} {T : Transition.Threads ι σ π α ε}
    (close : σ → CloseCoordinator) (caller : π → Caller)
    (hstart : ∀ s, T.start s → close s = {}) (hentry : caller T.entry = .idle)
    (hthread : ∀ i s p a s' p', T.step i s p a = some (s', p') →
      Turn (close s) (caller p) (close s') (caller p'))
    (henv : ∀ s e s', T.env s e = some s' → close s' = close s)
    {c : Transition.Config ι σ π} (hc : T.machine.Reach c) :
    Follows (close c.shared) fun j => caller (c.pc j) := by
  refine hc.invariant (I := fun c => Follows (close c.shared) fun j => caller (c.pc j)) ?_ ?_
  · rintro ⟨shared, pc⟩ ⟨hshared, hpc⟩
    obtain rfl : pc = fun _ => T.entry := hpc
    show Follows (close shared) fun _ => caller T.entry
    rw [hstart shared hshared, hentry]
    exact follows_start
  · rintro c (⟨i, a⟩ | e) c' hfollows - hstep
    · obtain ⟨⟨s', p'⟩, hnext, rfl⟩ := Option.map_eq_some_iff.mp hstep
      have hupdate : (fun j => caller (Function.update c.pc i p' j)) =
          Function.update (fun j => caller (c.pc j)) i (caller p') := by
        funext j
        by_cases hj : j = i
        · subst hj
          simp
        · simp [hj]
      show Follows (close s') fun j => caller (Function.update c.pc i p' j)
      rw [hupdate]
      exact hfollows.turn (hthread i _ _ a _ _ hnext)
    · obtain ⟨s', hnext, rfl⟩ := Option.map_eq_some_iff.mp hstep
      show Follows (close s') fun j => caller (c.pc j)
      rw [henv _ e _ hnext]
      exact hfollows

end Tirtc.Closing
