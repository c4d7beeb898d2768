import Mathlib.Tactic.Common
import Tirtc.Storage.Exports

/-!
# An export has one outcome

Whoever brings the outcome of an ExportTask, the completion or a `stop()`, every call gets the same
one, over all joins, retries and late events.

* `Closes`, `TaskOk`, `CallAt`, `At`: the invariant, and what a thread knows at its place.
* `Keeps`: what a step leaves to the others.
* `begin_good`, `call_good`, `step_good`, `environment_good`: each step keeps the invariant.
* `export_rely_guarantee`: all of it, for every interleaving and every result.
* `refused_unchanged`: a callback task that the closed dispatcher refuses changes nothing.
* `Answers`, `one_outcome`: what the task promises.
-/

set_option autoImplicit false
set_option linter.unusedSectionVars false

namespace Tirtc.Exports

open Transition

variable {ι : Type} {errorName : ℤ → String} {t t' : ExportTask ι} {i : ι}

/-! ## The invariant -/

/-- Thread `i` performs the teardown. -/
def Closes (i : ι) (t : ExportTask ι) : Prop := t.closer = some i ∧ t.close.status = .closing

/-- **The invariant of an ExportTask.** -/
structure TaskOk (t : ExportTask ι) : Prop where
  done : t.done = t.terminal
  unset : t.terminal = false → t.file = none ∧ t.error = none
  set : t.terminal = true →
    (∃ file, t.file = some file ∧ t.error = none) ∨ ∃ e, t.file = none ∧ t.error = some e
  once : t.destroys ≤ 1
  destroyed : t.destroys = 1 → t.report = true
  live : t.close.status = .open ∨ t.close.status = .closeFailed → t.destroys = 0
  closed : t.close.status = .closed → t.terminal = true
  succeeded : ∀ g, t.close.outcomes g = some none → t.terminal = true

/-- What thread `i` knows in `stop()` or `wait()`. -/
def CallAt (i : ι) (t : ExportTask ι) : CallStage → Prop
  | .waiting _ | .join _ => True
  | .finish | .result => t.terminal = true
  | .stop _ | .stopped _ _ _ _ | .fail _ _ => Closes i t ∧ t.destroys = 0
  | .load _ => (Closes i t ∧ t.destroys = 0) ∧ t.terminal = true
  | .closeDispatcher _ | .drain _ | .destroy _ =>
      (Closes i t ∧ t.destroys = 0) ∧ t.terminal = true ∧ t.report = true
  | .finishParent _ | .succeed _ =>
      (Closes i t ∧ t.destroys = 1) ∧ t.terminal = true ∧ t.report = true

/-- What thread `i` knows at its place. -/
def At (i : ι) (t : ExportTask ι) : ExportPc → Prop
  | .idle (.file f) | .parent (.delete f) => t.file = some f
  | .call stage | .parent (.call stage) => CallAt i t stage
  | _ => True

/-- **What a step of `k` leaves to the others**: the outcome and the report once they are there, the
teardown to the thread that performs it, and a task that is closed. -/
structure Keeps (k : Option ι) (t t' : ExportTask ι) : Prop where
  outcome : t.terminal = true → t'.terminal = true ∧ t'.file = t.file ∧ t'.error = t.error
  report : t.report = true → t'.report = true
  closes : ∀ j, k ≠ some j → Closes j t → Closes j t' ∧ t'.destroys = t.destroys
  closed : t.close.status = .closed → t'.close.status = .closed

theorem Keeps.refl (k : Option ι) (t : ExportTask ι) : Keeps k t t where
  outcome h := ⟨h, rfl, rfl⟩
  report h := h
  closes _ _ h := ⟨h, rfl⟩
  closed h := h

/-- A file that is there stays. -/
theorem Keeps.file {k : Option ι} {file : RecordingFile} (h : Keeps k t t') (ht : TaskOk t)
    (hfile : t.file = some file) : t'.file = some file := by
  cases hterminal : t.terminal with
  | true => exact ((h.outcome hterminal).2.1).trans hfile
  | false =>
      have hnone := (ht.unset hterminal).1
      cases hnone.symm.trans hfile

/-- What a thread knows in `stop()` or `wait()`, the others leave alone. -/
theorem CallAt.stable {j : ι} {k : Option ι} {stage : CallStage} (hk : k ≠ some j)
    (h : Keeps k t t') (hA : CallAt j t stage) : CallAt j t' stage := by
  have hcloses : ∀ n, Closes j t ∧ t.destroys = n → Closes j t' ∧ t'.destroys = n := by
    rintro n ⟨hcloses, hdestroys⟩
    obtain ⟨hcloses', hsame⟩ := h.closes j hk hcloses
    exact ⟨hcloses', hsame.trans hdestroys⟩
  cases stage with
  | waiting _ | join _ => trivial
  | finish | result => exact (h.outcome hA).1
  | stop _ | stopped _ _ _ _ | fail _ _ => exact hcloses 0 hA
  | load _ => exact ⟨hcloses 0 hA.1, (h.outcome hA.2).1⟩
  | closeDispatcher _ | drain _ | destroy _ =>
      exact ⟨hcloses 0 hA.1, (h.outcome hA.2.1).1, h.report hA.2.2⟩
  | finishParent _ | succeed _ => exact ⟨hcloses 1 hA.1, (h.outcome hA.2.1).1, h.report hA.2.2⟩

/-- What a thread knows, the others leave alone. -/
theorem At.stable {j : ι} {k : Option ι} {p : ExportPc} (hk : k ≠ some j) (ht : TaskOk t)
    (h : Keeps k t t') (hA : At j t p) : At j t' p := by
  cases p with
  | idle last =>
      cases last with
      | file f => exact h.file ht hA
      | _ => trivial
  | call stage => exact CallAt.stable hk h hA
  | parent stage =>
      cases stage with
      | call stage => exact CallAt.stable hk h hA
      | delete f => exact h.file ht hA
      | _ => trivial
  | _ => trivial

/-! ## Single sections -/

/-- What a section owes, but for the place it leads to. -/
structure Good (k : Option ι) (t t' : ExportTask ι) : Prop where
  ok : TaskOk t'
  keeps : Keeps k t t'

theorem Good.refl (k : Option ι) (ht : TaskOk t) : Good k t t := ⟨ht, .refl k t⟩

/-- A step that touches neither the outcome nor the teardown. -/
theorem Good.same {k : Option ι} (ht : TaskOk t) (hclose : t'.close = t.close)
    (hdone : t'.done = t.done) (hterminal : t'.terminal = t.terminal) (hfile : t'.file = t.file)
    (herror : t'.error = t.error) (hreport : t.report = true → t'.report = true)
    (hdestroys : t'.destroys = t.destroys) (hcloser : t'.closer = t.closer) : Good k t t' where
  ok := by
    refine ⟨?_, ?_, ?_, ?_, fun h => hreport (ht.destroyed (hdestroys ▸ h)), ?_, ?_, ?_⟩
    · rw [hdone, hterminal]
      exact ht.done
    · rw [hterminal, hfile, herror]
      exact ht.unset
    · rw [hterminal, hfile, herror]
      exact ht.set
    · rw [hdestroys]
      exact ht.once
    · rw [hclose, hdestroys]
      exact ht.live
    · rw [hclose, hterminal]
      exact ht.closed
    · rw [hclose, hterminal]
      exact ht.succeeded
  keeps := by
    refine ⟨fun h => ⟨hterminal.trans h, hfile, herror⟩, hreport, ?_, ?_⟩
    · intro j _ h
      exact ⟨⟨hcloser.trans h.1, hclose ▸ h.2⟩, hdestroys⟩
    · intro h
      rw [hclose]
      exact h

/-- **The outcome is set**, by the completion or by `stop()`, if it is not there. -/
theorem complete_good {k : Option ι} (errorName : ℤ → String) (ht : TaskOk t) (code : ℤ)
    (path : String) (durationMs : ℤ) :
    Good k t (t.complete errorName code path durationMs) ∧
      (t.complete errorName code path durationMs).terminal = true := by
  unfold ExportTask.complete
  split
  next hterminal => exact ⟨.refl k ht, hterminal⟩
  next hterminal =>
    refine ⟨⟨⟨rfl, by simp, fun _ => ?_, ht.once, ht.destroyed, ht.live, fun _ => rfl,
      fun _ _ => rfl⟩, ⟨fun h => absurd h hterminal, fun h => h, fun _ _ h => ⟨h, rfl⟩,
      fun h => h⟩⟩, rfl⟩
    by_cases hcode : code = 0
    · exact .inl ⟨⟨path, durationMs⟩, by simp [hcode]⟩
    · exact .inr ⟨errorFromCode code (errorName code), by simp [hcode]⟩

variable (errorName t) in
/-- What the load of the report leaves alone. -/
theorem load_frame (report progress : NativeResult) (value : ExportProgress)
    (convert : Option PyError) :
    (t.loadReport errorName report progress value convert).1.closer = t.closer ∧
      (t.loadReport errorName report progress value convert).1.close = t.close ∧
      (t.loadReport errorName report progress value convert).1.destroys = t.destroys ∧
      (t.report = true → (t.loadReport errorName report progress value convert).1.report = true) ∧
      ((t.loadReport errorName report progress value convert).2 = none →
        (t.loadReport errorName report progress value convert).1.report = true) := by
  unfold ExportTask.loadReport
  split
  next hreport => exact ⟨rfl, rfl, rfl, id, fun _ => hreport⟩
  next =>
    split
    · exact ⟨rfl, rfl, rfl, id, by simp⟩
    · exact ⟨rfl, rfl, rfl, id, by simp⟩
    · split
      · exact ⟨rfl, rfl, rfl, id, by simp⟩
      · exact ⟨rfl, rfl, rfl, fun _ => rfl, fun _ => rfl⟩

/-- The report is loaded, or the section raises. -/
theorem load_good {k : Option ι} (errorName : ℤ → String) (ht : TaskOk t)
    (report progress : NativeResult) (value : ExportProgress) (convert : Option PyError) :
    Good k t (t.loadReport errorName report progress value convert).1 := by
  unfold ExportTask.loadReport
  split
  · exact .refl k ht
  · split
    · exact .refl k ht
    · exact .refl k ht
    · split
      · exact .same ht rfl rfl rfl rfl rfl id rfl rfl
      · exact .same ht rfl rfl rfl rfl rfl (fun _ => rfl) rfl rfl

/-- The dispatcher is not closed there. -/
theorem load_dispatcher {u : ExportTask ι} {raised : Option PyError}
    {report progress : NativeResult} {value : ExportProgress} {convert : Option PyError}
    (h : t.loadReport errorName report progress value convert = (u, raised)) :
    u.dispatcher = t.dispatcher := by
  obtain rfl : (t.loadReport errorName report progress value convert).1 = u := congrArg Prod.fst h
  unfold ExportTask.loadReport
  split
  · rfl
  · split
    · rfl
    · rfl
    · split <;> rfl

/-- Nor in the first section of a call. -/
theorem begin_dispatcher (i : ι) (stops : Bool) :
    (beginCall t i stops).1.dispatcher = t.dispatcher := by
  unfold beginCall
  rcases t.close.begin_cases false with ⟨-, hb⟩ | ⟨-, hb⟩ | ⟨-, hb⟩ | ⟨-, hb⟩
  all_goals
    rw [hb]

/-- The coordinator goes on, without a change of the status. -/
theorem Good.close {k : Option ι} {close : CloseCoordinator} (ht : TaskOk t)
    (hstatus : close.status = t.close.status)
    (houtcomes : ∀ g, close.outcomes g = some none → t.close.outcomes g = some none) :
    Good k t { t with close := close } where
  ok := ⟨ht.done, ht.unset, ht.set, ht.once, ht.destroyed, fun h => ht.live (by rwa [← hstatus]),
    fun h => ht.closed (hstatus.symm.trans h), fun g h => ht.succeeded g (houtcomes g h)⟩
  keeps := ⟨fun h => ⟨h, rfl, rfl⟩, id, fun _ _ h => ⟨⟨h.1, hstatus.trans h.2⟩, rfl⟩,
    fun h => hstatus.trans h⟩

/-- A file that a call returns is the one. -/
theorem result_ok {file : RecordingFile} (h : t.resultOrError = .ok file) : t.file = some file := by
  unfold ExportTask.resultOrError at h
  split at h
  · cases h
  next hfile =>
    cases h
    exact hfile
  · cases h

/-- How the first section of a call, or a stage of it, leads on. -/
def NextAt (i : ι) (t : ExportTask ι) : CallStage ⊕ Except PyError RecordingFile → Prop
  | .inl stage => CallAt i t stage
  | .inr (.ok file) => t.file = some file
  | .inr (.error _) => True

theorem next_result (i : ι) (t : ExportTask ι) : NextAt i t (.inr t.resultOrError) := by
  cases hresult : t.resultOrError with
  | ok file => exact result_ok hresult
  | error e => trivial

/-- **The first section of `stop()` or `_finish()`**: it joins a teardown, gets the result, or
performs the teardown. -/
theorem begin_good (ht : TaskOk t) (stops : Bool) (h : stops = false → t.terminal = true) :
    Good (some i) t (beginCall t i stops).1 ∧
      NextAt i (beginCall t i stops).1 (beginCall t i stops).2 := by
  unfold beginCall
  rcases t.close.begin_cases false with ⟨hst, hb⟩ | ⟨hst, hb⟩ | ⟨hst, hb⟩ | ⟨hst, hb⟩
  · simp only [hb]
    exact ⟨.close ht rfl fun _ h => h, trivial⟩
  · simp only [hb]
    exact ⟨.close ht rfl fun _ h => h, next_result i _⟩
  · simp only [hb]
    exact ⟨.close ht rfl fun _ h => h, trivial⟩
  · simp only [hb]
    have hdestroys : t.destroys = 0 := ht.live hst
    have hidle : t.close.status ≠ .closing ∧ t.close.status ≠ .closed := by
      rcases hst with hst | hst <;> simp [hst]
    refine ⟨⟨⟨ht.done, ht.unset, ht.set, ht.once, ht.destroyed, fun _ => hdestroys, by simp,
      ht.succeeded⟩, ⟨fun h => ⟨h, rfl, rfl⟩, id, fun j _ h => absurd h.2 hidle.1,
      fun h => absurd h hidle.2⟩⟩, ?_⟩
    cases hterminal : t.terminal with
    | false =>
        cases stops with
        | true => exact ⟨⟨rfl, rfl⟩, hdestroys⟩
        | false => cases hterminal.symm.trans (h rfl)
    | true =>
        cases stops with
        | true => exact ⟨⟨⟨rfl, rfl⟩, hdestroys⟩, rfl⟩
        | false => exact ⟨⟨⟨rfl, rfl⟩, hdestroys⟩, rfl⟩

/-- The performer reports how its teardown went. -/
theorem report_good {close : CloseCoordinator} {error : Option PyError} {g : ℕ} (ht : TaskOk t)
    (hcloses : Closes i t) (hstatus : close.status = .closeFailed ∨ close.status = .closed)
    (hrecord : close.outcomes = (t.close.record g error).outcomes)
    (hfailed : close.status = .closeFailed → t.destroys = 0 ∧ error ≠ none)
    (hclosed : close.status = .closed → t.terminal = true) :
    Good (some i) t { t with close := close } where
  ok := by
    refine ⟨ht.done, ht.unset, ht.set, ht.once, ht.destroyed, ?_, hclosed, ?_⟩
    · intro h
      rcases h with h | h
      · rcases hstatus with hst | hst
        · cases h.symm.trans hst
        · cases h.symm.trans hst
      · exact (hfailed h).1
    · intro k hk
      have hk : close.outcomes k = some none := hk
      rw [hrecord] at hk
      rcases t.close.record_outcome hk with hold | hnew
      · exact ht.succeeded k hold
      · rcases hstatus with hst | hst
        · exact absurd hnew.symm (hfailed hst).2
        · exact hclosed hst
  keeps := by
    refine ⟨fun h => ⟨h, rfl, rfl⟩, id, ?_, ?_⟩
    · intro j hj h
      exact absurd (hcloses.1.symm.trans h.1) hj
    · intro h
      cases hcloses.2.symm.trans h

/-! ## The calls -/

/-- A thread goes on with `wait()`. -/
theorem callAt_waitBegin (ht : TaskOk t) (timed : Bool) : CallAt i t (waitBegin t timed) := by
  unfold waitBegin
  split
  next hdone => exact ht.done.symm.trans hdone
  next => trivial

/-- The report is loaded, or not, under a teardown. -/
theorem load_closes {u : ExportTask ι} {raised : Option PyError} {report progress : NativeResult}
    {value : ExportProgress} {convert : Option PyError} (ht : TaskOk t)
    (hA : Closes i t ∧ t.destroys = 0)
    (hload : t.loadReport errorName report progress value convert = (u, raised)) :
    Good (some i) t u ∧ (Closes i u ∧ u.destroys = 0) ∧ (raised = none → u.report = true) := by
  have hgood := load_good (k := some i) errorName ht report progress value convert
  have hframe := load_frame errorName t report progress value convert
  rw [hload] at hgood hframe
  obtain ⟨hcloser, hclose, hdestroys, -, hloaded⟩ := hframe
  exact ⟨hgood, ⟨⟨hcloser.trans hA.1.1, hclose ▸ hA.1.2⟩, hdestroys.trans hA.2⟩, hloaded⟩

/-- **A stage of `stop()` or `wait()` keeps the invariant.** -/
theorem call_good {stage : CallStage} {act : ExportAction}
    {next : CallStage ⊕ Except PyError RecordingFile} (ht : TaskOk t) (hA : CallAt i t stage)
    (h : callStep errorName t i stage act = some (t', next)) :
    Good (some i) t t' ∧ NextAt i t' next := by
  cases callStep_cases h with
  | ready timed hdone => exact ⟨.refl _ ht, ht.done.symm.trans hdone⟩
  | timedOut => exact ⟨.refl _ ht, trivial⟩
  | begins => exact begin_good ht false fun _ => hA
  | wakes g close error houtcome hleave =>
      have hstatus := (t.close.leave_spec hleave).1
      refine ⟨.close ht hstatus fun k hk => t.close.leave_outcome hleave hk, ?_⟩
      cases error with
      | some e => trivial
      | none => exact next_result i _
  | stopFails g r path durationMs e hr => exact ⟨.refl _ ht, hA⟩
  | stopReturns g r path durationMs code hr => exact ⟨.refl _ ht, hA⟩
  | completes g code path durationMs =>
      obtain ⟨hgood, hterminal⟩ := complete_good (k := some i) errorName ht code path durationMs
      refine ⟨hgood, ?_, hterminal⟩
      unfold ExportTask.complete
      split
      · exact hA
      · exact hA
  | loads g report progress value convert u hload =>
      obtain ⟨hgood, hcloses, hloaded⟩ := load_closes ht hA.1 hload
      exact ⟨hgood, hcloses, (hgood.keeps.outcome hA.2).1, hloaded rfl⟩
  | loadFails g report progress value convert u e hload =>
      obtain ⟨hgood, hcloses, -⟩ := load_closes ht hA.1 hload
      exact ⟨hgood, hcloses⟩
  | closesDispatcher g => exact ⟨.same ht rfl rfl rfl rfl rfl id rfl rfl, hA⟩
  | drained g hdone => exact ⟨.refl _ ht, hA⟩
  | destroys g r hr =>
      obtain ⟨⟨hcloses, hdestroys⟩, hterminal, hreport⟩ := hA
      have hclosing : t.close.status = .closing := hcloses.2
      refine ⟨⟨?_, ?_⟩, ⟨hcloses, by simp [hdestroys]⟩, hterminal, hreport⟩
      · exact ⟨ht.done, ht.unset, ht.set, by simp [hdestroys], fun _ => hreport, by simp [hclosing],
          ht.closed, ht.succeeded⟩
      · refine ⟨fun h => ⟨h, rfl, rfl⟩, id, fun j hj h => ?_, id⟩
        exact absurd (hcloses.1.symm.trans h.1) hj
  | destroyFails g r e hr => exact ⟨.refl _ ht, hA.1⟩
  | finishesParent g => exact ⟨.same ht rfl rfl rfl rfl rfl id rfl rfl, hA⟩
  | succeeds g =>
      obtain ⟨⟨hcloses, hdestroys⟩, hterminal, hreport⟩ := hA
      exact ⟨report_good ht hcloses (.inr rfl) rfl (by simp [CloseCoordinator.succeed])
        fun _ => hterminal, hterminal⟩
  | fails g e =>
      obtain ⟨hcloses, hdestroys⟩ := hA
      exact ⟨report_good ht hcloses (.inl rfl) rfl (fun _ => ⟨hdestroys, by simp⟩)
        (by simp [CloseCoordinator.fail]), trivial⟩
  | results => exact ⟨.refl _ ht, next_result i t⟩

/-- A step of the Runtime or the pool keeps the invariant. -/
theorem environment_good {e : ExportEnvironment} (ht : TaskOk t)
    (h : environmentStep errorName t e = some t') : Good none t t' := by
  cases e with
  | post event =>
      obtain ⟨r, -, rfl⟩ := Option.map_eq_some_iff.mp h
      exact .same ht rfl rfl rfl rfl rfl id rfl rfl
  | drainBegin =>
      simp only [environmentStep] at h
      split at h
      · cases h
      · cases h
        exact .same ht rfl rfl rfl rfl rfl id rfl rfl
  | handle =>
      obtain ⟨event, -, rfl⟩ := Option.map_eq_some_iff.mp h
      have hhandled : Good none t (t.handleEvent errorName event) := by
        cases event with
        | progress fraction coveredMs =>
            unfold ExportTask.handleEvent
            simp only
            split
            · exact .refl _ ht
            · exact .same ht rfl rfl rfl rfl rfl id rfl rfl
        | gap => exact .refl _ ht
        | completed code path durationMs =>
            exact (complete_good errorName ht code path durationMs).1
      have htaken : Good none (t.handleEvent errorName event)
          { t.handleEvent errorName event with delivering := none } :=
        .same hhandled.ok rfl rfl rfl rfl rfl id rfl rfl
      exact ⟨htaken.ok, ⟨hhandled.keeps.outcome, hhandled.keeps.report, hhandled.keeps.closes,
        hhandled.keeps.closed⟩⟩
  | drainEnd =>
      simp only [environmentStep] at h
      split at h
      · cases h
        exact .same ht rfl rfl rfl rfl rfl id rfl rfl
      · cases h

/-- How a call ends, or goes on. -/
theorem at_ofCall {next : CallStage ⊕ Except PyError RecordingFile} (h : NextAt i t next) :
    At i t (.ofCall next) := by
  rcases next with stage | _ | file
  · exact h
  · trivial
  · exact h

/-- The same for `_close_from_parent`. -/
theorem at_ofParentCall {next : CallStage ⊕ Except PyError RecordingFile} (h : NextAt i t next) :
    At i t (.ofParentCall next) := by
  rcases next with stage | (_ | _) | file
  · exact h
  · trivial
  · trivial
  · exact h

/-- A quiet thread knows nothing. -/
theorem at_quiet {p : ExportPc} (h : p.quiet = true) : At i t p := by
  rcases p with (_ | _ | _) | _ | _ | _ | (_ | _ | _ | _ | _ | _)
  all_goals
    trivial

/-- **A step of a thread keeps the invariant.** -/
theorem step_good {p p' : ExportPc} {act : ExportAction} (ht : TaskOk t) (hA : At i t p)
    (h : exportStep errorName t i p act = some (t', p')) :
    Good (some i) t t' ∧ At i t' p' := by
  cases exportStep_cases h with
  | begins last =>
      obtain ⟨hgood, hnext⟩ := begin_good (i := i) ht true (by simp)
      exact ⟨hgood, at_ofCall hnext⟩
  | waits last timed => exact ⟨.refl _ ht, callAt_waitBegin ht timed⟩
  | parentWaits => exact ⟨.refl _ ht, callAt_waitBegin ht false⟩
  | cancels p p' act hact hnone hp' =>
      refine ⟨.refl _ ht, ?_⟩
      rcases hp' with rfl | rfl
      · trivial
      · trivial
  | reads report progress value convert =>
      refine ⟨load_good errorName ht report progress value convert, ?_⟩
      split
      · trivial
      · trivial
  | calls stage act t' next hcall =>
      obtain ⟨hgood, hplace⟩ := call_good ht hA hcall
      exact ⟨hgood, at_ofCall hplace⟩
  | parentCalls stage act t' next hcall =>
      obtain ⟨hgood, hplace⟩ := call_good ht hA hcall
      exact ⟨hgood, at_ofParentCall hplace⟩
  | quiet p p' act hother hp' hcancel => exact ⟨.refl _ ht, at_quiet hp'⟩

/-- **Any number of calls on one ExportTask keep the invariant.** -/
theorem export_rely_guarantee : Threads.RelyGuarantee (exportCalls ι errorName)
    (fun _ _ _ _ => True) (fun _ _ => True) TaskOk At Keeps where
  start := by
    rintro t rfl
    exact ⟨⟨rfl, fun _ => ⟨rfl, rfl⟩, by simp, by simp, by simp, fun _ => rfl, by simp, by simp⟩,
      fun i => trivial⟩
  thread i t p act t' p' ht hA _ hstep := by
    obtain ⟨hgood, hplace⟩ := step_good ht hA hstep
    exact ⟨hgood.ok, hplace, hgood.keeps⟩
  env t e t' ht _ hstep := by
    have hgood := environment_good ht hstep
    exact ⟨hgood.ok, hgood.keeps⟩
  stable j k t t' p hk ht _ hG hA := hA.stable hk ht hG

/-! ## One outcome -/

/-- The call has ended with the outcome of the task: with its file, or with a copy of its error, of
the same code. -/
def Answers (t : ExportTask ι) (p : ExportPc) : Prop :=
  (∃ file, t.file = some file ∧ p = .idle (.file file)) ∨
    ∃ e, t.error = some e ∧ p = .idle (.raised (copyError e))

/-- `_result_or_error()` on a task with an outcome. -/
theorem answers_result (ht : TaskOk t) (hterminal : t.terminal = true) :
    Answers t (.ofCall (.inr t.resultOrError)) := by
  rcases ht.set hterminal with ⟨file, hfile, herror⟩ | ⟨e, hfile, herror⟩
  · refine .inl ⟨file, hfile, ?_⟩
    simp [ExportPc.ofCall, ExportTask.resultOrError, herror, hfile, Returned.of]
  · refine .inr ⟨e, herror, ?_⟩
    simp [ExportPc.ofCall, ExportTask.resultOrError, herror, Returned.of]

/-- On a closed task the first section of `stop()` and of `_finish()` answers at once. -/
theorem begin_closed (hclosed : t.close.status = .closed) (stops : Bool) :
    beginCall t i stops = (t, .inr t.resultOrError) := by
  unfold beginCall
  simp [CloseCoordinator.begin, hclosed]

/-- A call begins only in a thread that is in no call. -/
theorem begins_idle {p : ExportPc} {act : ExportAction} {next : ExportTask ι × ExportPc}
    (hact : act = .stop ∨ ∃ timed, act = .wait timed)
    (h : exportStep errorName t i p act = some next) : ∃ last, p = .idle last := by
  cases p with
  | idle last => exact ⟨last, rfl⟩
  | cancelNative => rcases hact with rfl | ⟨timed, rfl⟩ <;> cases h
  | report => rcases hact with rfl | ⟨timed, rfl⟩ <;> cases h
  | call stage =>
      rcases hact with rfl | ⟨timed, rfl⟩
      · cases stage <;> cases h
      · cases stage <;> cases h
  | parent stage =>
      rcases hact with rfl | ⟨timed, rfl⟩
      · cases stage with
        | call stage => cases stage <;> cases h
        | _ => cases h
      · cases stage with
        | call stage => cases stage <;> cases h
        | _ => cases h

section Runs

variable [DecidableEq ι] {c c' : Config ι (ExportTask ι) ExportPc}

/-- The invariant in every state that is reached. -/
theorem reach_task (hc : (exportCalls ι errorName).machine.Reach c) :
    TaskOk c.shared ∧ ∀ i, At i c.shared (c.pc i) :=
  export_rely_guarantee.reach (hc.mono fun _ l _ => by cases l <;> trivial)

/-- What a step leaves as it is. -/
theorem step_keeps (hc : (exportCalls ι errorName).machine.Reach c)
    {l : Label ι ExportAction ExportEnvironment}
    (hstep : (exportCalls ι errorName).machine.step c l = some c') :
    ∃ k, Keeps k c.shared c'.shared :=
  export_rely_guarantee.step (hc.mono fun _ l _ => by cases l <;> trivial)
    (by cases l <;> trivial) hstep

/-- A stage of `stop()` or `wait()` closes the dispatcher behind the end of the export only. -/
theorem call_dispatcher {stage : CallStage} {act : ExportAction}
    {next : CallStage ⊕ Except PyError RecordingFile} (hA : CallAt i t stage)
    (h : callStep errorName t i stage act = some (t', next)) :
    t'.dispatcher = t.dispatcher ∨ t.terminal = true := by
  cases callStep_cases h with
  | begins => exact .inl (begin_dispatcher i false)
  | completes g code path durationMs =>
      left
      unfold ExportTask.complete
      split <;> rfl
  | loads g report progress value convert u hload => exact .inl (load_dispatcher hload)
  | loadFails g report progress value convert u e hload => exact .inl (load_dispatcher hload)
  | closesDispatcher g => exact .inr hA.2.1
  | _ => exact .inl rfl

/-- So does a step of a thread. -/
theorem step_dispatcher {p p' : ExportPc} {act : ExportAction} (hA : At i t p)
    (h : exportStep errorName t i p act = some (t', p')) :
    t'.dispatcher = t.dispatcher ∨ t.terminal = true := by
  cases exportStep_cases h with
  | begins last => exact .inl (begin_dispatcher i true)
  | reads report progress value convert => exact .inl (load_dispatcher rfl)
  | calls stage act t' next hcall => exact call_dispatcher hA hcall
  | parentCalls stage act t' next hcall => exact call_dispatcher hA hcall
  | _ => exact .inl rfl

/-- A step of the Runtime or the pool never closes it. -/
theorem environment_dispatcher {e : ExportEnvironment}
    (h : environmentStep errorName t e = some t') :
    t'.dispatcher.closed = t.dispatcher.closed := by
  cases e with
  | post event =>
      obtain ⟨r, hpost, rfl⟩ := Option.map_eq_some_iff.mp h
      unfold Dispatcher.postNativeTask at hpost
      split at hpost
      · cases hpost
        rfl
      · split at hpost
        · cases hpost
        · cases hpost
          rfl
  | drainBegin =>
      simp only [environmentStep] at h
      split at h
      · cases h
      · cases h
        cases hevents : t.dispatcher.events with
        | nil => rw [Dispatcher.drainBegin_nil hevents]
        | cons head rest => rw [Dispatcher.drainBegin_cons hevents]
  | handle =>
      obtain ⟨event, -, rfl⟩ := Option.map_eq_some_iff.mp h
      cases event with
      | progress fraction coveredMs =>
          unfold ExportTask.handleEvent
          dsimp only
          split <;> rfl
      | gap => rfl
      | completed code path durationMs =>
          unfold ExportTask.handleEvent ExportTask.complete
          dsimp only
          split <;> rfl
  | drainEnd =>
      simp only [environmentStep] at h
      split at h
      · cases h
        rfl
      · cases h

/-- **A callback task that the closed dispatcher refuses changes nothing.** It is run off the queue,
and its handler finds that the export has ended. -/
theorem refused_unchanged (hc : (exportCalls ι errorName).machine.Reach c)
    (hclosed : c.shared.dispatcher.closed = true) (event : ExportEvent) :
    c.shared.handleEvent errorName event = c.shared := by
  have hterminal : c.shared.dispatcher.closed = true → c.shared.terminal = true := by
    refine hc.invariant_of (J := fun c => TaskOk c.shared ∧ ∀ i, At i c.shared (c.pc i))
      (I := fun c => c.shared.dispatcher.closed = true → c.shared.terminal = true)
      (fun c hc => reach_task hc) ?_ ?_
    · rintro ⟨shared, pc⟩ ⟨rfl, -⟩ - hclosed
      cases hclosed
    · rintro c (⟨i, act⟩ | e) c' ⟨ht, hA⟩ - hI - hstep hclosed
      · obtain ⟨⟨t', p'⟩, hnext, rfl⟩ := Option.map_eq_some_iff.mp hstep
        obtain ⟨hgood, -⟩ := step_good ht (hA i) hnext
        rcases step_dispatcher (hA i) hnext with hsame | hterminal
        · exact (hgood.keeps.outcome (hI (by rwa [← hsame]))).1
        · exact (hgood.keeps.outcome hterminal).1
      · obtain ⟨t', hnext, rfl⟩ := Option.map_eq_some_iff.mp hstep
        have hsame := environment_dispatcher hnext
        exact ((environment_good ht hnext).keeps.outcome (hI (hsame ▸ hclosed))).1
  cases event with
  | progress fraction coveredMs => simp [ExportTask.handleEvent, hterminal hclosed]
  | gap => rfl
  | completed code path durationMs =>
      simp [ExportTask.handleEvent, ExportTask.complete, hterminal hclosed]

/-- The first section of `_finish()` in a thread that calls `wait()` on a closed task. -/
theorem finish_closed (hc : (exportCalls ι errorName).machine.Reach c)
    (hclosed : c.shared.close.status = .closed) {i : ι} (hi : c.pc i = .call .finish)
    {act : ExportAction}
    (hstep : (exportCalls ι errorName).machine.step c (.thread i act) = some c') :
    Answers c'.shared (c'.pc i) := by
  obtain ⟨ht, -⟩ := reach_task hc
  obtain ⟨⟨t', p'⟩, hnext, rfl⟩ := Option.map_eq_some_iff.mp hstep
  rw [hi] at hnext
  obtain ⟨⟨u, next⟩, hcall, hpc⟩ := Option.map_eq_some_iff.mp hnext
  cases act with
  | go =>
      have hbegin : beginCall c.shared i false = (u, next) := Option.some.inj hcall
      rw [begin_closed hclosed] at hbegin
      cases hbegin
      cases hpc
      simpa using answers_result ht (ht.closed hclosed)
  | _ => cases hcall

/-- **An export has one outcome.** In every state that any number of calls on an ExportTask and any
events of the Runtime can reach, with any result of every native call:

1. the outcome is not there before `_terminal` is set, and never changes afterwards;
2. with `_terminal`, exactly one of `_file` and `_error` is set;
3. `_done` is set exactly with `_terminal`;
4. a `stop()` or `wait()` that has returned normally has returned that file;
5. once the task is closed it stays so, and every `stop()` or `wait()` that begins then returns that
   file or raises a copy of that error;
6. the native task is destroyed once at most, and only with the report loaded.
Source: `storage/__init__.py`, `ExportTask` -/
theorem one_outcome (hc : (exportCalls ι errorName).machine.Reach c) :
    ((c.shared.terminal = false → c.shared.file = none ∧ c.shared.error = none) ∧
      ∀ l c', (exportCalls ι errorName).machine.step c l = some c' → c.shared.terminal = true →
        c'.shared.terminal = true ∧ c'.shared.file = c.shared.file ∧
          c'.shared.error = c.shared.error) ∧
    (c.shared.terminal = true →
      (∃ file, c.shared.file = some file ∧ c.shared.error = none) ∨
        ∃ e, c.shared.file = none ∧ c.shared.error = some e) ∧
    c.shared.done = c.shared.terminal ∧
    (∀ i file, c.pc i = .idle (.file file) → c.shared.file = some file) ∧
    (c.shared.close.status = .closed →
      (∀ l c', (exportCalls ι errorName).machine.step c l = some c' →
        c'.shared.close.status = .closed) ∧
      (∀ i c', (exportCalls ι errorName).machine.step c (.thread i .stop) = some c' →
        Answers c'.shared (c'.pc i)) ∧
      (∀ i timed c', (exportCalls ι errorName).machine.step c (.thread i (.wait timed)) = some c' →
        c'.pc i = .call .finish) ∧
      ∀ i act c', c.pc i = .call .finish →
        (exportCalls ι errorName).machine.step c (.thread i act) = some c' →
        Answers c'.shared (c'.pc i)) ∧
    c.shared.destroys ≤ 1 ∧ (c.shared.destroys = 1 → c.shared.report = true) := by
  obtain ⟨ht, hA⟩ := reach_task hc
  refine ⟨⟨ht.unset, ?_⟩, ht.set, ht.done, ?_,
    fun hclosed => ⟨?_, ?_, ?_,
      fun i act c' hi hstep => finish_closed hc hclosed hi hstep⟩, ht.once, ht.destroyed⟩
  · intro l c' hstep hterminal
    obtain ⟨k, hkeeps⟩ := step_keeps hc hstep
    exact hkeeps.outcome hterminal
  · intro i file hi
    have hat := hA i
    rw [hi] at hat
    exact hat
  · intro l c' hstep
    obtain ⟨k, hkeeps⟩ := step_keeps hc hstep
    exact hkeeps.closed hclosed
  · intro i c' hstep
    obtain ⟨⟨t', p'⟩, hnext, rfl⟩ := Option.map_eq_some_iff.mp hstep
    obtain ⟨last, hidle⟩ := begins_idle (.inl rfl) hnext
    have hanswer := answers_result ht (ht.closed hclosed)
    simp only [exportCalls, hidle, exportStep, begin_closed hclosed, Option.some.injEq,
      Prod.mk.injEq] at hnext
    obtain ⟨rfl, rfl⟩ := hnext
    simpa using hanswer
  · intro i timed c' hstep
    obtain ⟨⟨t', p'⟩, hnext, rfl⟩ := Option.map_eq_some_iff.mp hstep
    obtain ⟨last, hidle⟩ := begins_idle (.inr ⟨timed, rfl⟩) hnext
    have hdone : c.shared.done = true := ht.done.trans (ht.closed hclosed)
    simp only [exportCalls, hidle, exportStep, waitBegin, hdone, Option.some.injEq,
      Prod.mk.injEq] at hnext
    obtain ⟨rfl, rfl⟩ := hnext
    simp

end Runs

/-- Thread `0` stops the export; its native close stays in use at first. Thread `1` waits, and the
completion that comes late brings another outcome. -/
def stopTwice : List (Label (Fin 2) ExportAction ExportEnvironment) :=
  [.thread 1 (.wait false), .thread 0 .stop,
    .thread 0 (.stopped (.code 0) "export.mp4" 2000), .thread 0 .go,
    .thread 0 (.loaded (.code 0) (.code 0) ⟨1, 2000⟩ none), .env (.post (.completed 6115 "" 0)),
    .thread 0 .go, .env .drainBegin, .env .handle, .env .drainEnd, .thread 0 .go,
    .thread 0 (.native (.code 6026)), .thread 0 .go, .thread 0 .stop,
    .thread 0 (.loaded (.code 0) (.code 0) ⟨1, 2000⟩ none), .thread 0 .go, .thread 0 .go,
    .thread 0 (.native (.code 0)), .thread 1 .go, .thread 1 .go, .thread 0 .go, .thread 0 .go,
    .thread 1 .go]

/-- Thread `1` of that run gets the file of the `stop()`. -/
theorem one_outcome_stopTwice :
    ∃ c, (exportCalls (Fin 2) fun _ => "").machine.exec ⟨{}, fun _ => .idle .none⟩ stopTwice =
        some c ∧ c.pc 1 = .idle (.file ⟨"export.mp4", 2000⟩) ∧
      c.shared.file = some ⟨"export.mp4", 2000⟩ := by
  have hrun : ((exportCalls (Fin 2) fun _ => "").machine.exec ⟨{}, fun _ => .idle .none⟩
      stopTwice).any (fun c => c.pc 1 = .idle (.file ⟨"export.mp4", 2000⟩)) = true := by
    decide +kernel
  obtain ⟨c, hexec, hlast⟩ := (Option.any_eq_true _ _).mp hrun
  have hpc := of_decide_eq_true hlast
  have hstart : (exportCalls (Fin 2) fun _ => "").machine.start ⟨{}, fun _ => .idle .none⟩ :=
    ⟨rfl, rfl⟩
  have hc := Machine.Reach.exec (.of_start hstart) hexec
  exact ⟨c, hexec, hpc, (one_outcome hc).2.2.2.1 1 _ hpc⟩

end Tirtc.Exports
