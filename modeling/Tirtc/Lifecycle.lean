import Mathlib.Logic.Function.Basic
import Tirtc.Errors
import Tirtc.Lib.Counting
import Tirtc.Lib.Machine

/-!
# The close coordinator: one performer, and every joiner gets the outcome it joined

`_lifecycle._CloseCoordinator` decides, for one SDK object, which of the threads that close it
performs the teardown (`begin` returns a generation), which threads wait for the one in
progress (they join its generation) and what the waiters get.

* `CloseCoordinator` with `begin`, `outcome?`, `leave`, `fail`, `succeed`: the record and its
  lock-held sections, as in the source. `begin` is cut at `Condition.wait`: `begin` itself is
  the section up to the wait, `outcome?` is the loop test, `leave` the `finally` block.
* `Closing ι`: the coordinator with any number of calling threads `ι`, and `machine`, whose
  labels are the lock-held sections. `recorded` is history: the argument of the `fail` or
  `succeed` call of each generation.
* `Protocol`: the invariant, `protocol_step` its step lemma, `reach_protocol` the run lemma.
* `single_performer_protocol`: what the coordinator promises, for every run.
-/

set_option autoImplicit false

namespace Tirtc

/-- Source: `_lifecycle.py`, `_CloseCoordinator._status` -/
inductive CloseStatus
  | «open» | closing | closeFailed | closed
  deriving DecidableEq, Repr

/-- The two dictionaries are functions to `Option`; `none` is an absent key.
Source: `_lifecycle.py`, `_CloseCoordinator.__init__` -/
structure CloseCoordinator where
  status : CloseStatus := .open
  generation : ℕ := 0
  outcomes : ℕ → Option (Option PyError) := fun _ => none
  waiters : ℕ → Option ℕ := fun _ => none

/-- How the first section of `begin` leaves: at the wait of a joined generation, or with a
return value, or with an exception. -/
inductive BeginResult
  | join (generation : ℕ)
  | none
  | inUse
  | perform (generation : ℕ)
  deriving DecidableEq, Repr

namespace CloseCoordinator

variable (c : CloseCoordinator)

/-- `self._waiters.get(generation, 0)` -/
def waiting (generation : ℕ) : ℕ := (c.waiters generation).getD 0

/-- Source: `_lifecycle.py`, `require_open` -/
def requireOpen : Option PyError := if c.status = .open then .none else some closedError

/-- The section of `begin` up to `self._condition.wait()`.
Source: `_lifecycle.py`, `begin` -/
def begin (preflightInUse : Bool := false) : BeginResult × CloseCoordinator :=
  match c.status with
  | .closing =>
      (.join c.generation, { c with
        waiters := Function.update c.waiters c.generation (some (c.waiting c.generation + 1)) })
  | .closed => (.none, c)
  | status =>
      if status = .open ∧ preflightInUse then (.inUse, c)
      else (.perform (c.generation + 1),
        { c with generation := c.generation + 1, status := .closing })

/-- The loop test of a joined generation and the value read after it: `none` while
`generation not in self._outcomes`.
Source: `_lifecycle.py`, `begin` -/
def outcome? (generation : ℕ) : Option (Option PyError) := c.outcomes generation

/-- The `finally` block of a joined generation. `none` is the `KeyError` of a missing count.
Source: `_lifecycle.py`, `begin` -/
def leave (generation : ℕ) : Option CloseCoordinator :=
  (c.waiters generation).map fun count =>
    let remaining := count - 1
    if remaining ≠ 0 then
      { c with waiters := Function.update c.waiters generation (some remaining) }
    else
      { c with
        waiters := Function.update c.waiters generation .none
        outcomes := Function.update c.outcomes generation .none }

/-- The part `fail` and `succeed` share: the outcome is kept only for waiters. -/
def record (generation : ℕ) (error : Option PyError) : CloseCoordinator :=
  if c.waiting generation ≠ 0 then
    { c with outcomes := Function.update c.outcomes generation (some error) }
  else c

/-- Source: `_lifecycle.py`, `fail` -/
def fail (generation : ℕ) (error : PyError) : CloseCoordinator :=
  { c.record generation (some error) with status := .closeFailed }

/-- Source: `_lifecycle.py`, `succeed` -/
def succeed (generation : ℕ) (error : Option PyError := .none) : CloseCoordinator :=
  { c.record generation error with status := .closed }

variable {c} in
/-- `require_open` passes. -/
theorem requireOpen_eq_none : c.requireOpen = none ↔ c.status = .open := by
  unfold requireOpen
  split
  next h => simp [h]
  next h => simp [h]

/-! ### What each section does to each field -/

@[simp] theorem record_generation (g : ℕ) (e : Option PyError) :
    (c.record g e).generation = c.generation := by
  unfold record; split <;> rfl

@[simp] theorem record_waiters (g : ℕ) (e : Option PyError) :
    (c.record g e).waiters = c.waiters := by
  unfold record; split <;> rfl

theorem record_outcomes_of_ne {g h : ℕ} (e : Option PyError) (hne : h ≠ g) :
    (c.record g e).outcomes h = c.outcomes h := by
  unfold record; split <;> simp [hne]

theorem record_outcomes_of_waiting {g : ℕ} (e : Option PyError) (h : c.waiting g ≠ 0) :
    (c.record g e).outcomes g = some e := by
  simp [record, h]

theorem record_outcomes_of_not_waiting {g : ℕ} (e : Option PyError) (h : c.waiting g = 0) :
    (c.record g e).outcomes g = c.outcomes g := by
  simp [record, h]

/-- An outcome was there before, or is the one recorded. -/
theorem record_outcome {g h : ℕ} {e o : Option PyError}
    (ho : (c.record g e).outcomes h = some o) : c.outcomes h = some o ∨ o = e := by
  by_cases hg : h = g
  · subst hg
    by_cases hw : c.waiting h = 0
    · exact .inl ((c.record_outcomes_of_not_waiting e hw).symm.trans ho)
    · rw [c.record_outcomes_of_waiting e hw] at ho
      exact .inr (Option.some.inj ho).symm
  · exact .inl ((c.record_outcomes_of_ne e hg).symm.trans ho)

/-- What leaving does to the record: one waiter of `g` less, and the outcome of `g` goes with the
last one. -/
theorem leave_spec {c' : CloseCoordinator} {g : ℕ} (h : c.leave g = some c') :
    c'.status = c.status ∧ c'.generation = c.generation ∧
      c'.waiting g = c.waiting g - 1 ∧
      c'.outcomes g = (if c.waiting g - 1 = 0 then .none else c.outcomes g) ∧
      ∀ k, k ≠ g → c'.waiting k = c.waiting k ∧ c'.outcomes k = c.outcomes k := by
  unfold leave at h
  cases hw : c.waiters g with
  | none => simp [hw] at h
  | some n =>
      have hn : c.waiting g = n := by simp [waiting, hw]
      rw [hw, Option.map_some, Option.some.injEq] at h
      by_cases hr : n - 1 = 0
      · rw [if_neg (not_not.mpr hr)] at h
        subst h
        simp +contextual [waiting, hw, hr]
      · rw [if_pos hr] at h
        subst h
        simp +contextual [waiting, hw, hr]

/-- So leaving makes no outcome. -/
theorem leave_outcome {c' : CloseCoordinator} {g h : ℕ} {o : Option PyError}
    (hleave : c.leave g = some c') (ho : c'.outcomes h = some o) : c.outcomes h = some o := by
  obtain ⟨-, -, -, hleft, hothers⟩ := c.leave_spec hleave
  by_cases hg : h = g
  · subst hg
    rw [hleft] at ho
    split at ho
    · cases ho
    · exact ho
  · exact (hothers h hg).2.symm.trans ho

/-- Nor does a close that fails make one without an error. -/
theorem fail_outcome {g h : ℕ} {e : PyError} (ho : (c.fail g e).outcomes h = some none) :
    c.outcomes h = some none := by
  rcases c.record_outcome (e := some e) ho with hbefore | hnone
  · exact hbefore
  · cases hnone

/-- Leaving never misses a count that is positive. -/
theorem leave_isSome {g : ℕ} (h : 0 < c.waiting g) : ∃ c', c.leave g = some c' := by
  cases hw : c.waiters g with
  | none => simp [waiting, hw] at h
  | some n => simp [leave, hw]

/-- What `begin` can do, by the status it finds. -/
theorem begin_cases (pf : Bool) :
    (c.status = .closing ∧ c.begin pf = (.join c.generation, { c with
        waiters := Function.update c.waiters c.generation
          (some (c.waiting c.generation + 1)) })) ∨
    (c.status = .closed ∧ c.begin pf = (.none, c)) ∨
    (c.status = .open ∧ c.begin pf = (.inUse, c)) ∨
    ((c.status = .open ∨ c.status = .closeFailed) ∧ c.begin pf = (.perform (c.generation + 1),
        { c with generation := c.generation + 1, status := .closing })) := by
  cases hs : c.status with
  | «open» => cases pf <;> simp [begin, hs]
  | closing => simp [begin, hs]
  | closeFailed => simp [begin, hs]
  | closed => simp [begin, hs]

/-- `begin` while another thread closes. -/
theorem begin_of_closing (h : c.status = .closing) :
    c.begin = (.join c.generation, { c with
      waiters := Function.update c.waiters c.generation
        (some (c.waiting c.generation + 1)) }) := by
  simp [begin, h]

/-- `begin` while nobody closes and nothing is closed. -/
theorem begin_of_idle (h : c.status = .open ∨ c.status = .closeFailed) :
    c.begin = (.perform (c.generation + 1),
      { c with generation := c.generation + 1, status := .closing }) := by
  rcases h with h | h <;> simp [begin, h]

end CloseCoordinator

/-! ## The calling threads -/

/-- Where a thread is in its call of `begin`, and what it got from the last one. -/
inductive Caller
  | idle
  | performing (generation : ℕ)
  | waiting (generation : ℕ)
  | returned (joined : Option ℕ) (raised : Option PyError)
  deriving DecidableEq, Repr

/-- A coordinator and its calling threads. -/
structure Closing (ι : Type) where
  coordinator : CloseCoordinator := {}
  pc : ι → Caller := fun _ => .idle
  /-- History: the outcome each generation's performer reported. -/
  recorded : ℕ → Option (Option PyError) := fun _ => none

/-- The lock-held sections. -/
inductive CloseAction (ι : Type)
  | begin (i : ι) (preflightInUse : Bool)
  | wake (i : ι)
  | fail (i : ι) (error : PyError)
  | succeed (i : ι) (error : Option PyError)

open Counting

namespace Closing

variable {ι : Type} [DecidableEq ι]

/-- Thread `i` goes to `caller`. -/
def goto (s : Closing ι) (i : ι) (caller : Caller) : Closing ι :=
  { s with pc := Function.update s.pc i caller }

/-- Where the first section of `begin` takes its caller. -/
def afterBegin : BeginResult → Caller
  | .join g => .waiting g
  | .none => .returned none none
  | .inUse => .returned none (some inUseError)
  | .perform g => .performing g

/-- A thread that is not inside a call or a teardown calls `begin`. -/
def beginStep (s : Closing ι) (i : ι) (preflightInUse : Bool) : Option (Closing ι) :=
  match s.pc i with
  | .performing _ | .waiting _ => none
  | _ =>
      let (result, c) := s.coordinator.begin preflightInUse
      some { s.goto i (afterBegin result) with coordinator := c }

/-- A waiter finds its generation in `_outcomes`, leaves, and returns or raises. -/
def wakeStep (s : Closing ι) (i : ι) : Option (Closing ι) :=
  match s.pc i with
  | .waiting g =>
      (s.coordinator.outcome? g).bind fun error =>
        (s.coordinator.leave g).map fun c =>
          { s.goto i (.returned (some g) (error.map copyError)) with coordinator := c }
  | _ => none

/-- The performer of a generation reports `error`: `fail` or `succeed`. -/
def reportStep (s : Closing ι) (i : ι) (error : Option PyError)
    (report : CloseCoordinator → ℕ → CloseCoordinator) : Option (Closing ι) :=
  match s.pc i with
  | .performing g =>
      some { s.goto i .idle with
        coordinator := report s.coordinator g
        recorded := Function.update s.recorded g (some error) }
  | _ => none

/-- One lock-held section. -/
def step (s : Closing ι) : CloseAction ι → Option (Closing ι)
  | .begin i pf => s.beginStep i pf
  | .wake i => s.wakeStep i
  | .fail i error => s.reportStep i (some error) fun c g => c.fail g error
  | .succeed i error => s.reportStep i error fun c g => c.succeed g error

/-- The coordinator of a fresh object, called by the threads `ι`. -/
def machine (ι : Type) [DecidableEq ι] : Transition.Machine (Closing ι) (CloseAction ι) where
  start s := s = {}
  step := step

/-! ## The invariant -/

/-- **The protocol invariant.** `performing`, `unique` and `performer` tie the status to the one
thread that tears down; `count` ties `_waiters` to the threads that wait; `kept` says that a
waiter finds in `_outcomes` exactly what its generation's performer reported. -/
structure Protocol (s : Closing ι) : Prop where
  performing : ∀ i g, s.pc i = .performing g →
    s.coordinator.status = .closing ∧ g = s.coordinator.generation
  unique : ∀ i j g h, s.pc i = .performing g → s.pc j = .performing h → i = j
  performer : s.coordinator.status = .closing →
    ∃ i, s.pc i = .performing s.coordinator.generation
  finite : ∀ g, FinitelyMany (· = Caller.waiting g) s.pc
  count : ∀ g, s.coordinator.waiting g = countOf (· = Caller.waiting g) s.pc
  outcome : ∀ g o, s.coordinator.outcomes g = some o →
    s.recorded g = some o ∧ 0 < s.coordinator.waiting g
  kept : ∀ i g, s.pc i = .waiting g → s.coordinator.outcomes g = s.recorded g
  pending : ∀ i g, s.pc i = .waiting g → s.recorded g = none →
    s.coordinator.status = .closing ∧ g = s.coordinator.generation
  fresh : ∀ g, s.coordinator.generation < g → s.recorded g = none
  current : s.coordinator.status = .closing → s.recorded s.coordinator.generation = none
  joined : ∀ i g r, s.pc i = .returned (some g) r →
    ∃ o, s.recorded g = some o ∧ r = o.map copyError

omit [DecidableEq ι] in
/-- Nobody has called yet. -/
theorem protocol_start : Protocol ({} : Closing ι) where
  performing := by simp
  unique := by simp
  performer := by simp
  finite g := FinitelyMany.const (by simp)
  count g := by
    rw [countOf_const_eq_zero (by simp)]
    rfl
  outcome := by simp
  kept := by simp
  pending := by simp
  fresh := by simp
  current := by simp
  joined := by simp

/-- Where thread `j` is after thread `i` has moved. -/
theorem goto_pc_iff {s : Closing ι} {i j : ι} {caller d : Caller} :
    (s.goto i caller).pc j = d ↔ (j = i ∧ caller = d) ∨ (j ≠ i ∧ s.pc j = d) := by
  by_cases hji : j = i
  · subst hji; simp [goto]
  · simp [goto, hji]

/-- A thread found somewhere the mover did not go was there before. -/
theorem of_goto {s : Closing ι} {i j : ι} {caller d : Caller} (hc : caller ≠ d)
    (hj : (s.goto i caller).pc j = d) : s.pc j = d := by
  rcases goto_pc_iff.mp hj with ⟨-, h⟩ | ⟨-, h⟩
  · exact absurd h hc
  · exact h

/-- A thread that goes from a place where it does not wait for `g` to another such place leaves
the count of `g` alone. -/
theorem countOf_goto {s : Closing ι} (hs : Protocol s) {i : ι} {caller : Caller} {g : ℕ}
    (hi : s.pc i ≠ .waiting g) (hc : caller ≠ .waiting g) :
    countOf (· = Caller.waiting g) (s.goto i caller).pc = s.coordinator.waiting g := by
  have h := countOf_update (hs.finite g) i caller
  rw [if_neg hi, if_neg hc, Nat.add_zero, Nat.add_zero] at h
  exact h.trans (hs.count g).symm

omit [DecidableEq ι] in
/-- No thread performs while the status is not `closing`. -/
theorem not_performing {s : Closing ι} (hs : Protocol s) (hst : s.coordinator.status ≠ .closing)
    (j : ι) (g : ℕ) : s.pc j ≠ .performing g :=
  fun hj => hst (hs.performing j g hj).1

/-- The performer is not the thread that moves, if that one does not perform. -/
theorem performer_goto {s : Closing ι} (hs : Protocol s) {i : ι} {caller : Caller}
    (hi : ∀ g, s.pc i ≠ .performing g) (hst : s.coordinator.status = .closing) :
    ∃ j, (s.goto i caller).pc j = .performing s.coordinator.generation := by
  obtain ⟨j, hj⟩ := hs.performer hst
  have hne : j ≠ i := fun h => hi _ (h ▸ hj)
  exact ⟨j, goto_pc_iff.mpr (.inr ⟨hne, hj⟩)⟩

/-- **A thread starts the teardown**: no generation is outstanding, and the new one is fresh. -/
theorem protocol_perform {s : Closing ι} (hs : Protocol s) {i : ι}
    (hi : ∀ g, s.pc i ≠ .waiting g) (hst : s.coordinator.status ≠ .closing) :
    Protocol { s.goto i (.performing (s.coordinator.generation + 1)) with
      coordinator := { s.coordinator with
        generation := s.coordinator.generation + 1, status := .closing } } where
  performing j g hj := by
    rcases goto_pc_iff.mp hj with ⟨rfl, h⟩ | ⟨-, h⟩
    · exact ⟨rfl, (Caller.performing.inj h).symm⟩
    · exact absurd h (not_performing hs hst j g)
  unique j k g h hj hk := by
    rcases goto_pc_iff.mp hj with ⟨rfl, -⟩ | ⟨-, hj'⟩
    · rcases goto_pc_iff.mp hk with ⟨rfl, -⟩ | ⟨-, hk'⟩
      · rfl
      · exact absurd hk' (not_performing hs hst k h)
    · exact absurd hj' (not_performing hs hst j g)
  performer _ := ⟨i, goto_pc_iff.mpr (.inl ⟨rfl, rfl⟩)⟩
  finite g := (hs.finite g).update i _
  count g := (countOf_goto hs (hi g) (by simp)).symm
  outcome := hs.outcome
  kept j g hj := hs.kept j g (of_goto (by simp) hj)
  pending j g hj hrec := absurd (hs.pending j g (of_goto (by simp) hj) hrec).1 hst
  fresh g hg := hs.fresh g (Nat.lt_of_succ_lt hg)
  current _ := hs.fresh _ (Nat.lt_succ_self _)
  joined j g r hj := hs.joined j g r (of_goto (by simp) hj)

/-- **A thread joins the generation in progress**: it is counted, and nothing has been reported
for that generation yet. -/
theorem protocol_join {s : Closing ι} (hs : Protocol s) {i : ι}
    (hi : ∀ g, s.pc i ≠ .waiting g) (hi' : ∀ g, s.pc i ≠ .performing g)
    (hst : s.coordinator.status = .closing) :
    Protocol { s.goto i (.waiting s.coordinator.generation) with
      coordinator := { s.coordinator with
        waiters := Function.update s.coordinator.waiters s.coordinator.generation
          (some (s.coordinator.waiting s.coordinator.generation + 1)) } } where
  performing j g hj := hs.performing j g (of_goto (by simp) hj)
  unique j k g h hj hk := hs.unique j k g h (of_goto (by simp) hj) (of_goto (by simp) hk)
  performer _ := performer_goto hs hi' hst
  finite g := (hs.finite g).update i _
  count g := by
    have h := countOf_update (hs.finite g) i (Caller.waiting s.coordinator.generation)
    rw [if_neg (hi g), ← hs.count g] at h
    by_cases hg : g = s.coordinator.generation
    · subst hg
      simpa [CloseCoordinator.waiting, goto] using h.symm
    · simpa [CloseCoordinator.waiting, goto, hg, Ne.symm hg] using h.symm
  outcome g o hg := by
    obtain ⟨hrec, hpos⟩ := hs.outcome g o hg
    have hne : g ≠ s.coordinator.generation := by
      rintro rfl
      rw [hs.current hst] at hrec
      cases hrec
    refine ⟨hrec, ?_⟩
    simpa [CloseCoordinator.waiting, hne] using hpos
  kept j g hj := by
    rcases goto_pc_iff.mp hj with ⟨-, h⟩ | ⟨-, h⟩
    · cases h
      have hrec := hs.current hst
      cases hout : s.coordinator.outcomes s.coordinator.generation with
      | none => exact hrec.symm
      | some o => exact absurd (hs.outcome _ o hout).1 (by simp [hrec])
    · exact hs.kept j g h
  pending j g hj hrec := by
    rcases goto_pc_iff.mp hj with ⟨-, h⟩ | ⟨-, h⟩
    · cases h
      exact ⟨hst, rfl⟩
    · exact hs.pending j g h hrec
  fresh := hs.fresh
  current := hs.current
  joined j g r hj := hs.joined j g r (of_goto (by simp) hj)

/-- **A call of `begin` that returns or raises at once** moves nothing but its caller. -/
theorem protocol_return {s : Closing ι} (hs : Protocol s) {i : ι} (raised : Option PyError)
    (hi : ∀ g, s.pc i ≠ .waiting g) (hi' : ∀ g, s.pc i ≠ .performing g) :
    Protocol (s.goto i (.returned none raised)) where
  performing j g hj := hs.performing j g (of_goto (by simp) hj)
  unique j k g h hj hk := hs.unique j k g h (of_goto (by simp) hj) (of_goto (by simp) hk)
  performer hst := performer_goto hs hi' hst
  finite g := (hs.finite g).update i _
  count g := (countOf_goto hs (hi g) (by simp)).symm
  outcome := hs.outcome
  kept j g hj := hs.kept j g (of_goto (by simp) hj)
  pending j g hj hrec := hs.pending j g (of_goto (by simp) hj) hrec
  fresh := hs.fresh
  current := hs.current
  joined j g r hj := hs.joined j g r (of_goto (by simp) hj)

/-- **A waiter leaves** with what its generation's performer reported; the last one takes the
outcome with it. -/
theorem protocol_wake {s : Closing ι} (hs : Protocol s) {i : ι} {g₀ : ℕ} {o : Option PyError}
    {c : CloseCoordinator} (hi : s.pc i = .waiting g₀)
    (ho : s.coordinator.outcomes g₀ = some o) (hc : s.coordinator.leave g₀ = some c) :
    Protocol { s.goto i (.returned (some g₀) (o.map copyError)) with coordinator := c } := by
  obtain ⟨hstatus, hgen, hcount, hout, hother⟩ := s.coordinator.leave_spec hc
  have hpos : 0 < s.coordinator.waiting g₀ := by
    rw [hs.count g₀]
    exact countOf_pos_of (hs.finite g₀) hi
  have hmoved := countOf_update (hs.finite g₀) i (Caller.returned (some g₀) (o.map copyError))
  rw [if_pos hi, if_neg (by simp), ← hs.count g₀] at hmoved
  refine ⟨?_, ?_, ?_, ?_, ?_, ?_, ?_, ?_, ?_, ?_, ?_⟩
  · rw [hstatus, hgen]
    exact fun j g hj => hs.performing j g (of_goto (by simp) hj)
  · exact fun j k g h hj hk =>
      hs.unique j k g h (of_goto (by simp) hj) (of_goto (by simp) hk)
  · rw [hstatus, hgen]
    exact performer_goto hs (by simp [hi])
  · exact fun g => (hs.finite g).update i _
  · -- the mover is the one waiter that is no longer counted
    intro g
    by_cases hg : g = g₀
    · subst hg
      rw [hcount]
      exact Nat.sub_eq_of_eq_add hmoved.symm
    · have hne : s.pc i ≠ .waiting g := by simp [hi, Ne.symm hg]
      rw [(hother g hg).1]
      exact (countOf_goto hs hne (by simp)).symm
  · -- the outcome of `g₀` stays only while somebody still waits for it
    intro g o' hg
    by_cases hgg : g = g₀
    · subst hgg
      rw [hout] at hg
      by_cases hlast : s.coordinator.waiting g - 1 = 0
      · simp [hlast] at hg
      · rw [if_neg hlast] at hg
        exact ⟨(hs.outcome g o' hg).1, by rw [hcount]; omega⟩
    · rw [(hother g hgg).2] at hg
      rw [(hother g hgg).1]
      exact hs.outcome g o' hg
  · intro j g hj
    have hj' := of_goto (by simp) hj
    by_cases hgg : g = g₀
    · subst hgg
      have hne : j ≠ i := by
        rintro rfl
        simp [goto] at hj
      -- `j` still waits, so `i` was not the last one
      have hlast : s.coordinator.waiting g - 1 ≠ 0 := by
        have h := countOf_pos_of ((hs.finite g).update i _) hj
        omega
      rw [hout, if_neg hlast]
      exact hs.kept j g hj'
    · rw [(hother g hgg).2]
      exact hs.kept j g hj'
  · rw [hstatus, hgen]
    exact fun j g hj => hs.pending j g (of_goto (by simp) hj)
  · rw [hgen]
    exact hs.fresh
  · rw [hstatus, hgen]
    exact hs.current
  · intro j g r hj
    rcases goto_pc_iff.mp hj with ⟨-, h⟩ | ⟨-, h⟩
    · cases h
      exact ⟨o, (hs.outcome g₀ o ho).1, rfl⟩
    · exact hs.joined j g r h

/-- **The performer reports**: the outcome reaches exactly the threads that wait for it, and no
generation is outstanding any more. -/
theorem protocol_report {s : Closing ι} (hs : Protocol s) {i : ι} {g₀ : ℕ}
    {error : Option PyError} {status : CloseStatus} (hi : s.pc i = .performing g₀)
    (hst : status ≠ .closing) :
    Protocol { s.goto i .idle with
      coordinator := { s.coordinator.record g₀ error with status := status }
      recorded := Function.update s.recorded g₀ (some error) } := by
  obtain ⟨hclosing, hg₀⟩ := hs.performing i g₀ hi
  have hnone : s.recorded g₀ = none := by rw [hg₀]; exact hs.current hclosing
  have hout : s.coordinator.outcomes g₀ = none := by
    cases h : s.coordinator.outcomes g₀ with
    | none => rfl
    | some o => exact absurd (hs.outcome _ o h).1 (by simp [hnone])
  have hidle : ∀ j g, (s.goto i .idle).pc j ≠ .performing g := by
    intro j g hj
    have hj' := of_goto (by simp) hj
    have hji : j = i := hs.unique j i g g₀ hj' hi
    subst hji
    simp [goto] at hj
  refine ⟨?_, ?_, ?_, ?_, ?_, ?_, ?_, ?_, ?_, ?_, ?_⟩
  · exact fun j g hj => absurd hj (hidle j g)
  · exact fun j k g h hj _ => absurd hj (hidle j g)
  · exact fun h => absurd h hst
  · exact fun g => (hs.finite g).update i _
  · intro g
    have hne : s.pc i ≠ .waiting g := by simp [hi]
    rw [show CloseCoordinator.waiting _ g = s.coordinator.waiting g by
      simp [CloseCoordinator.waiting]]
    exact (countOf_goto hs hne (by simp)).symm
  · intro g o hg
    by_cases hgg : g = g₀
    · subst hgg
      by_cases hw : s.coordinator.waiting g = 0
      · have h := s.coordinator.record_outcomes_of_not_waiting error hw
        rw [hout] at h
        exact absurd (h.symm.trans hg) (by simp)
      · have h := s.coordinator.record_outcomes_of_waiting error hw
        have ho : error = o := Option.some.inj (h.symm.trans hg)
        subst ho
        exact ⟨by simp, by simpa [CloseCoordinator.waiting] using Nat.pos_of_ne_zero hw⟩
    · have h := s.coordinator.record_outcomes_of_ne error hgg
      obtain ⟨hrec, hpos⟩ := hs.outcome g o (h.symm.trans hg)
      exact ⟨by simpa [hgg] using hrec, by simpa [CloseCoordinator.waiting] using hpos⟩
  · intro j g hj
    have hj' := of_goto (by simp) hj
    by_cases hgg : g = g₀
    · subst hgg
      have hw : s.coordinator.waiting g ≠ 0 := by
        rw [hs.count g]
        exact (countOf_pos_of (hs.finite g) hj').ne'
      simpa using s.coordinator.record_outcomes_of_waiting error hw
    · have hrec : Function.update s.recorded g₀ (some error) g = s.recorded g :=
        Function.update_of_ne hgg _ _
      exact (s.coordinator.record_outcomes_of_ne error hgg).trans
        ((hs.kept j g hj').trans hrec.symm)
  · -- an unreported generation would be the one just reported
    intro j g hj hrec
    have hj' := of_goto (by simp) hj
    by_cases hgg : g = g₀
    · subst hgg; simp at hrec
    · have hrec' : s.recorded g = none := (Function.update_of_ne hgg _ _).symm.trans hrec
      exact absurd ((hs.pending j g hj' hrec').2.trans hg₀.symm) hgg
  · intro g hg
    have hlt : s.coordinator.generation < g := by simpa using hg
    have hne : g ≠ g₀ := by omega
    exact (Function.update_of_ne hne _ _).trans (hs.fresh g hlt)
  · exact fun h => absurd h hst
  · intro j g r hj
    obtain ⟨o, ho, hr⟩ := hs.joined j g r (of_goto (by simp) hj)
    have hne : g ≠ g₀ := by
      rintro rfl
      rw [hnone] at ho
      cases ho
    exact ⟨o, (Function.update_of_ne hne _ _).trans ho, hr⟩

/-- Only the performer of a generation reports. -/
theorem reportStep_cases {s t : Closing ι} {i : ι} {error : Option PyError}
    {report : CloseCoordinator → ℕ → CloseCoordinator}
    (h : s.reportStep i error report = some t) :
    ∃ g, s.pc i = .performing g ∧
      t = { s.goto i .idle with
        coordinator := report s.coordinator g
        recorded := Function.update s.recorded g (some error) } := by
  cases hpc : s.pc i with
  | performing g =>
      simp only [reportStep, hpc, Option.some.injEq] at h
      exact ⟨g, rfl, h.symm⟩
  | _ => simp [reportStep, hpc] at h

/-- **What a lock-held section can do**: a thread outside the protocol calls `begin`, a waiter
whose outcome is there leaves, or the performer of a generation reports. -/
theorem step_cases {s t : Closing ι} {a : CloseAction ι} (h : s.step a = some t) :
    (∃ i pf, a = .begin i pf ∧ (∀ g, s.pc i ≠ .waiting g) ∧ (∀ g, s.pc i ≠ .performing g) ∧
      t = { s.goto i (afterBegin (s.coordinator.begin pf).1) with
        coordinator := (s.coordinator.begin pf).2 }) ∨
    (∃ i g o c, a = .wake i ∧ s.pc i = .waiting g ∧ s.coordinator.outcomes g = some o ∧
      s.coordinator.leave g = some c ∧
      t = { s.goto i (.returned (some g) (o.map copyError)) with coordinator := c }) ∨
    (∃ i g error status, (status = .closeFailed ∨ status = .closed) ∧ s.pc i = .performing g ∧
      t = { s.goto i .idle with
        coordinator := { s.coordinator.record g error with status := status }
        recorded := Function.update s.recorded g (some error) }) := by
  cases a with
  | begin i pf =>
      refine .inl ⟨i, pf, rfl, ?_⟩
      cases hpc : s.pc i <;> simp_all [step, beginStep]
  | wake i =>
      refine .inr (.inl ?_)
      cases hpc : s.pc i with
      | waiting g =>
          simp only [step, wakeStep, hpc, CloseCoordinator.outcome?, Option.bind_eq_some_iff,
            Option.map_eq_some_iff] at h
          obtain ⟨o, ho, c, hc, rfl⟩ := h
          exact ⟨i, g, o, c, rfl, hpc, ho, hc, rfl⟩
      | _ => simp [step, wakeStep, hpc] at h
  | fail i error =>
      have h : s.reportStep i (some error) (fun c g => c.fail g error) = some t := h
      obtain ⟨g, hi, ht⟩ := reportStep_cases h
      exact .inr (.inr ⟨i, g, some error, .closeFailed, .inl rfl, hi, ht⟩)
  | succeed i error =>
      have h : s.reportStep i error (fun c g => c.succeed g error) = some t := h
      obtain ⟨g, hi, ht⟩ := reportStep_cases h
      exact .inr (.inr ⟨i, g, error, .closed, .inr rfl, hi, ht⟩)

/-- **The step lemma**: every lock-held section keeps the protocol invariant. -/
theorem protocol_step {s t : Closing ι} {a : CloseAction ι} (hs : Protocol s)
    (h : s.step a = some t) : Protocol t := by
  rcases step_cases h with ⟨i, pf, -, hi, hi', rfl⟩ | ⟨i, g, o, c, -, hi, ho, hc, rfl⟩ |
    ⟨i, g, error, status, hst, hi, rfl⟩
  · rcases s.coordinator.begin_cases pf with
      ⟨hst, hb⟩ | ⟨-, hb⟩ | ⟨-, hb⟩ | ⟨hst, hb⟩
    · rw [hb]; exact protocol_join hs hi hi' hst
    · rw [hb]; exact protocol_return hs none hi hi'
    · rw [hb]; exact protocol_return hs (some inUseError) hi hi'
    · rw [hb]
      exact protocol_perform hs hi (by rcases hst with hst | hst <;> simp [hst])
  · exact protocol_wake hs hi ho hc
  · exact protocol_report hs hi (by rcases hst with hst | hst <;> simp [hst])

/-- **The run lemma.** -/
theorem reach_protocol {s : Closing ι} (hs : (machine ι).Reach s) : Protocol s := by
  apply hs.invariant
  · intro r hr
    have hr : r = {} := hr
    exact hr ▸ protocol_start
  · exact fun r a t hr _ hstep => protocol_step hr hstep

/-! ## The promises -/

/-- `closed` is never left. -/
theorem closed_step {s t : Closing ι} {a : CloseAction ι} (hs : Protocol s)
    (hclosed : s.coordinator.status = .closed) (h : s.step a = some t) :
    t.coordinator.status = .closed := by
  rcases step_cases h with ⟨i, pf, -, -, -, rfl⟩ | ⟨i, g, o, c, -, -, -, hc, rfl⟩ |
    ⟨i, g, error, status, -, hi, rfl⟩
  · simp [CloseCoordinator.begin, hclosed]
  · exact (s.coordinator.leave_spec hc).1.trans hclosed
  · exact absurd (hs.performing i g hi).1 (by simp [hclosed])

/-- What has been reported for a generation stays. -/
theorem recorded_step {s t : Closing ι} {a : CloseAction ι} (hs : Protocol s)
    (h : s.step a = some t) (g : ℕ) (o : Option PyError) (ho : s.recorded g = some o) :
    t.recorded g = some o := by
  rcases step_cases h with ⟨i, pf, -, -, -, rfl⟩ | ⟨i, g', o', c, -, -, -, -, rfl⟩ |
    ⟨i, g', error, status, -, hi, rfl⟩
  · exact ho
  · exact ho
  · obtain ⟨hst, hg'⟩ := hs.performing i g' hi
    have hne : g ≠ g' := by
      rintro rfl
      rw [hg', hs.current hst] at ho
      cases ho
    exact (Function.update_of_ne hne _ _).trans ho

/-- A waiter whose generation has been reported can wake, and gets what was reported. -/
theorem wake_enabled {s : Closing ι} (hs : Protocol s) {i : ι} {g : ℕ} {o : Option PyError}
    (hi : s.pc i = .waiting g) (ho : s.recorded g = some o) :
    ∃ t, s.step (.wake i) = some t ∧ t.pc i = .returned (some g) (o.map copyError) := by
  have hpos : 0 < s.coordinator.waiting g := by
    rw [hs.count g]
    exact countOf_pos_of (hs.finite g) hi
  obtain ⟨c, hc⟩ := s.coordinator.leave_isSome hpos
  have hout : s.coordinator.outcome? g = some o := (hs.kept i g hi).trans ho
  refine ⟨{ s.goto i (.returned (some g) (o.map copyError)) with coordinator := c }, ?_, ?_⟩
  · simp only [step, wakeStep, hi, hout, hc, Option.bind_some, Option.map_some]
  · simp [goto]

/-- **`_CloseCoordinator` is a single-performer protocol.** In every state that any number of
threads can reach, in any order of the lock-held sections and with any retries:

1. at most one thread performs, and it performs the current generation;
2. a thread that joined generation `g` has returned `None` or raised a copy of what was reported
   for `g`, that report never changes, and a thread that still waits can wake with exactly that
   report as soon as there is one (there is one unless `g` is the generation being closed);
3. `closed` is never left, and a `begin` made then returns `None`;
4. every key of `_outcomes` has a positive count in `_waiters`, which is the number of threads
   that wait for it.
Source: `_lifecycle.py`, `_CloseCoordinator` -/
theorem single_performer_protocol {s : Closing ι} (hs : (machine ι).Reach s) :
    (∀ i j g h, s.pc i = .performing g → s.pc j = .performing h →
      i = j ∧ g = h ∧ g = s.coordinator.generation) ∧
    ((∀ i g raised, s.pc i = .returned (some g) raised →
        ∃ outcome, s.recorded g = some outcome ∧ raised = outcome.map copyError) ∧
      (∀ a t g outcome, s.step a = some t → s.recorded g = some outcome →
        t.recorded g = some outcome) ∧
      (∀ i g outcome, s.pc i = .waiting g → s.recorded g = some outcome →
        ∃ t, s.step (.wake i) = some t ∧
          t.pc i = .returned (some g) (outcome.map copyError)) ∧
      (∀ i g, s.pc i = .waiting g → s.recorded g = none →
        s.coordinator.status = .closing ∧ g = s.coordinator.generation)) ∧
    (s.coordinator.status = .closed →
      (∀ a t, s.step a = some t → t.coordinator.status = .closed) ∧
      ∀ i pf t, s.step (.begin i pf) = some t → t.pc i = .returned none none) ∧
    (∀ g, (s.coordinator.outcomes g).isSome →
      0 < s.coordinator.waiting g ∧
      s.coordinator.waiting g = countOf (· = Caller.waiting g) s.pc) := by
  have hP := reach_protocol hs
  refine ⟨?_, ⟨hP.joined, fun a t g o h => recorded_step hP h g o, ?_, hP.pending⟩, ?_, ?_⟩
  · intro i j g h hi hj
    have hg := (hP.performing i g hi).2
    exact ⟨hP.unique i j g h hi hj, hg.trans (hP.performing j h hj).2.symm, hg⟩
  · exact fun i g o hi ho => wake_enabled hP hi ho
  · intro hclosed
    refine ⟨fun a t h => closed_step hP hclosed h, fun i pf t h => ?_⟩
    rcases step_cases h with ⟨j, pf', hj, -, -, rfl⟩ | ⟨j, g, o, c, hj, -⟩ |
      ⟨j, g, e, st, hst, hj, rfl⟩
    · cases hj
      simp [CloseCoordinator.begin, hclosed, afterBegin, goto]
    · cases hj
    · exact absurd (hP.performing j g hj).1 (by simp [hclosed])
  · intro g hg
    obtain ⟨o, ho⟩ := Option.isSome_iff_exists.mp hg
    exact ⟨(hP.outcome g o ho).2, hP.count g⟩

/-- A run in which thread 1 joins the first generation, the teardown fails, thread 2 starts the
second one, and thread 1 wakes only then. -/
def overtakenWaiter : List (CloseAction (Fin 3)) :=
  [.begin 0 false, .begin 1 false, .fail 0 timeoutError, .begin 2 false, .wake 1]

/-- Thread 1 of that run raises the outcome of the generation it joined. -/
theorem single_performer_protocol_overtaken :
    ∃ s, (machine (Fin 3)).exec {} overtakenWaiter = some s ∧
      s.pc 1 = .returned (some 1) (some timeoutError) ∧
      ∃ outcome, s.recorded 1 = some outcome ∧
        some timeoutError = outcome.map copyError := by
  refine ⟨_, rfl, rfl, ?_⟩
  have hrun : (machine (Fin 3)).exec {} overtakenWaiter = some _ := rfl
  have hs := Transition.Machine.Reach.exec (.of_start rfl) hrun
  exact (single_performer_protocol hs).2.1.1 1 1 _ rfl

end Closing

end Tirtc
