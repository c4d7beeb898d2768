import Mathlib.Data.Rat.Defs
import Mathlib.Algebra.Order.Ring.Rat
import Tirtc.Dispatch.Dispatcher
import Tirtc.Lib.Threads
import Tirtc.Teardown.Objects

/-!
# One ExportTask: its outcome and its teardown

Any number of threads call `stop()`, `wait()`, `cancel()` and `report` on one ExportTask, and close
it from its CloudStorage, while the Runtime hands its callback tasks to the dispatcher and the pool
runs them. Calls inside a callback of the task itself are refused at once, and are left out. So is
the run of a callback task off the queue: the closed dispatcher refuses it when the export has
ended, and then its handler changes nothing (`refused_unchanged`); one that finds no memory for its
capsule is handled at once, as an event is that comes to an empty queue.

* `ExportEvent`, `RecordingFile`, `ExportProgress`, `ExportTask`: the records. Fractions are finite
  floats, hence rational.
* `complete`, `handleEvent`, `loadReport`, `resultOrError`, `cancelBegin`: the lock-held sections.
* `CallStage`, `ParentStage`, `ExportPc`: where a thread is; `beginCall` to `exportStep`: the calls.
* `CallMoves`, `ExportMoves`, `callStep_cases`, `exportStep_cases`: what a step of a thread does.
* `ExportEnvironment`, `environmentStep`: the Runtime and the pool.
* `exportCalls`: all of it as a `Transition.Threads` system.
-/

set_option autoImplicit false

namespace Tirtc.Exports

open Transition

/-! ## The record -/

/-- What a callback task of the Runtime reports. -/
inductive ExportEvent
  | progress (fraction : ℚ) (coveredMs : ℤ)
  | gap
  | completed (code : ℤ) (path : String) (durationMs : ℤ)
  deriving DecidableEq

/-- Source: `_core.py`, `RecordingFile` -/
structure RecordingFile where
  path : String
  durationMs : ℤ
  deriving DecidableEq

/-- Source: `storage/__init__.py`, `ExportProgress` -/
structure ExportProgress where
  fraction : ℚ := 0
  coveredMs : ℤ := 0
  deriving DecidableEq

/-- An ExportTask with its native task. `report` says that `_report` is set; `delivering` is the
event of the callback task that a pool thread runs. `destroys` and `closer` are history: the native
closes that returned 0, and the thread that performs the teardown in progress.
Source: `storage/__init__.py`, `ExportTask._prepare` -/
structure ExportTask (ι : Type) where
  close : CloseCoordinator := {}
  done : Bool := false
  progress : ExportProgress := {}
  report : Bool := false
  dispatcher : Dispatcher ExportEvent := .init
  delivering : Option ExportEvent := none
  terminal : Bool := false
  parentFinished : Bool := false
  file : Option RecordingFile := none
  error : Option PyError := none
  destroys : ℕ := 0
  closer : Option ι := none

namespace ExportTask

variable {ι : Type} (errorName : ℤ → String) (t : ExportTask ι)

/-- The outcome is set, unless it is already.
Source: `storage/__init__.py`, `ExportTask._handle_event` and `ExportTask.stop` -/
def complete (code : ℤ) (path : String) (durationMs : ℤ) : ExportTask ι :=
  if t.terminal then t
  else
    { t with
      terminal := true
      file := if code = 0 then some ⟨path, durationMs⟩ else none
      error := if code ≠ 0 then some (errorFromCode code (errorName code)) else none
      done := true }

/-- Source: `storage/__init__.py`, `ExportTask._handle_event` -/
def handleEvent : ExportEvent → ExportTask ι
  | .progress fraction coveredMs =>
      if t.terminal || decide (fraction < t.progress.fraction) then t
      else { t with progress := ⟨fraction, coveredMs⟩ }
  | .gap => t
  | .completed code path durationMs => t.complete errorName code path durationMs

/-- The report and the last progress are read under the lock; `convert` is what making the report
from its values raises.
Source: `storage/__init__.py`, `ExportTask._load_report` -/
def loadReport (report progress : NativeResult) (value : ExportProgress)
    (convert : Option PyError) : ExportTask ι × Option PyError :=
  if t.report then (t, none)
  else
    match report.check errorName, progress.check errorName with
    | some e, _ => (t, some e)
    | none, some e => (t, some e)
    | none, none =>
        match convert with
        | some e => ({ t with progress := value }, some e)
        | none => ({ t with progress := value, report := true }, none)

/-- Source: `storage/__init__.py`, `ExportTask._result_or_error` -/
def resultOrError : Except PyError RecordingFile :=
  match t.error, t.file with
  | some e, _ => .error (copyError e)
  | none, some file => .ok file
  -- the assertion fails
  | none, none => .error (.other 0)

/-- How the section of `cancel` leaves: with nothing to do, with the error it raises, or before the
native call.
Source: `storage/__init__.py`, `ExportTask.cancel` -/
def cancelBegin : Option (Except PyError Unit) :=
  if t.terminal then some (.ok ())
  else t.close.requireOpen.map .error

end ExportTask

/-! ## Where a thread is -/

/-- The stages of `stop()` and `wait()`, behind `begin` with the generation. -/
inductive CallStage
  | waiting (timed : Bool)
  | finish
  | join (generation : ℕ)
  | stop (generation : ℕ)
  | stopped (generation : ℕ) (code : ℤ) (path : String) (durationMs : ℤ)
  | load (generation : ℕ)
  | closeDispatcher (generation : ℕ)
  | drain (generation : ℕ)
  | destroy (generation : ℕ)
  | finishParent (generation : ℕ)
  | succeed (generation : ℕ)
  | fail (generation : ℕ) (error : PyError)
  | result
  deriving DecidableEq

/-- The stages of `_close_from_parent`. -/
inductive ParentStage
  | cancel
  | cancelNative
  | wait
  | call (stage : CallStage)
  | check (error : PyError)
  | delete (file : RecordingFile)
  deriving DecidableEq

/-- How a call ended. -/
inductive Returned
  | none
  | file (file : RecordingFile)
  | raised (error : PyError)
  deriving DecidableEq

/-- Where a thread is: in no call, with how the last one ended, or in one of the calls. -/
inductive ExportPc
  | idle (last : Returned)
  | cancelNative
  | report
  | call (stage : CallStage)
  | parent (stage : ParentStage)
  deriving DecidableEq

/-- What moves a thread: a call, the next section or wait, a wait that times out, the results of
native calls. -/
inductive ExportAction
  | stop
  | wait (timed : Bool)
  | cancel
  | report
  | closeFromParent
  | go
  | timeout
  | native (result : NativeResult)
  | stopped (result : NativeResult) (path : String) (durationMs : ℤ)
  | loaded (report progress : NativeResult) (value : ExportProgress) (convert : Option PyError)
  deriving DecidableEq

/-! ## The calls -/

section Calls

variable {ι : Type} (errorName : ℤ → String) (t : ExportTask ι) (i : ι)

/-- The first section of `stop()`, and of `_finish()` in `wait()`.
Source: `storage/__init__.py`, `ExportTask.stop` and `ExportTask._finish` -/
def beginCall (stops : Bool) : ExportTask ι × (CallStage ⊕ Except PyError RecordingFile) :=
  let (result, close) := t.close.begin
  let t := { t with close := close }
  match result with
  | .join g => (t, .inl (.join g))
  | .none => (t, .inr t.resultOrError)
  | .inUse => (t, .inr (.error inUseError))
  | .perform g =>
      ({ t with closer := some i }, .inl (if stops && !t.terminal then .stop g else .load g))

/-- `wait()` looks at `_done`. Source: `storage/__init__.py`, `ExportTask.wait` -/
def waitBegin (timed : Bool) : CallStage := if t.done then .finish else .waiting timed

/-- A stage of `stop()` or `wait()`; on the right how it ends.
Source: `storage/__init__.py`, `ExportTask.stop`, `ExportTask.wait` and `ExportTask._finish` -/
def callStep :
    CallStage → ExportAction → Option (ExportTask ι × (CallStage ⊕ Except PyError RecordingFile))
  | .waiting _, .go => if t.done then some (t, .inl .finish) else none
  | .waiting timed, .timeout => if timed then some (t, .inr (.error timeoutError)) else none
  | .finish, .go => some (beginCall t i false)
  | .join g, .go =>
      (t.close.outcome? g).bind fun error =>
        (t.close.leave g).map fun close =>
          let t := { t with close := close }
          (t, .inr (match error with
            | some e => .error (copyError e)
            | none => t.resultOrError))
  | .stop g, .stopped r path durationMs =>
      match Teardown.retryInUseResult r with
      | .error e => some (t, .inl (.fail g e))
      | .ok code => some (t, .inl (.stopped g code path durationMs))
  | .stopped g code path durationMs, .go =>
      some (t.complete errorName code path durationMs, .inl (.load g))
  | .load g, .loaded report progress value convert =>
      match t.loadReport errorName report progress value convert with
      | (t, none) => some (t, .inl (.closeDispatcher g))
      | (t, some e) => some (t, .inl (.fail g e))
  | .closeDispatcher g, .go =>
      some ({ t with dispatcher := t.dispatcher.close }, .inl (.drain g))
  | .drain g, .go => if t.dispatcher.closeDone then some (t, .inl (.destroy g)) else none
  | .destroy g, .native r =>
      match r.retryInUse errorName with
      | none => some ({ t with destroys := t.destroys + 1 }, .inl (.finishParent g))
      | some e => some (t, .inl (.fail g e))
  | .finishParent g, .go => some ({ t with parentFinished := true }, .inl (.succeed g))
  | .succeed g, .go => some ({ t with close := t.close.succeed g t.error }, .inl .result)
  | .fail g e, .go => some ({ t with close := t.close.fail g e }, .inr (.error e))
  | .result, .go => some (t, .inr t.resultOrError)
  | _, _ => none

/-- A stage of `_close_from_parent`.
Source: `storage/__init__.py`, `ExportTask._close_from_parent` -/
def parentStep : ParentStage → ExportAction → Option (ExportTask ι × (ParentStage ⊕ Returned))
  | .cancel, .go =>
      match t.cancelBegin with
      | some (.ok ()) => some (t, .inl .wait)
      | some (.error e) => some (t, .inr (.raised e))
      | none => some (t, .inl .cancelNative)
  | .cancelNative, .native r =>
      match r.check errorName with
      | none => some (t, .inl .wait)
      | some e => some (t, .inr (.raised e))
  | .wait, .go => some (t, .inl (.call (waitBegin t false)))
  | .call stage, act =>
      (callStep errorName t i stage act).map fun
        | (t, .inl stage) => (t, .inl (.call stage))
        | (t, .inr (.ok file)) => (t, .inl (.delete file))
        | (t, .inr (.error (.tirtc e))) => (t, .inl (.check (.tirtc e)))
        | (t, .inr (.error e)) => (t, .inr (.raised e))
  | .check e, .go =>
      some (t, .inr (if t.close.status ≠ .closed then .raised e else .none))
  | .delete _, .native r =>
      some (t, .inr (match r.check errorName with
        | none => .none
        | some e => .raised e))
  | _, _ => none

/-- How `stop()` and `wait()` end. -/
def Returned.of : Except PyError RecordingFile → Returned
  | .ok f => .file f
  | .error e => .raised e

/-- A thread goes on with a stage of `stop()` or `wait()`, or has left the call. -/
def ExportPc.ofCall : CallStage ⊕ Except PyError RecordingFile → ExportPc
  | .inl stage => .call stage
  | .inr result => .idle (.of result)

/-- A thread goes on with a stage of `_close_from_parent`, or has left it. -/
def ExportPc.ofParent : ParentStage ⊕ Returned → ExportPc
  | .inl stage => .parent stage
  | .inr last => .idle last

/-- A step of thread `i`. -/
def exportStep : ExportPc → ExportAction → Option (ExportTask ι × ExportPc)
  | .idle _, .stop =>
      let (t, next) := beginCall t i true
      some (t, .ofCall next)
  | .idle _, .wait timed => some (t, .call (waitBegin t timed))
  | .idle _, .cancel =>
      match t.cancelBegin with
      | some (.ok ()) => some (t, .idle .none)
      | some (.error e) => some (t, .idle (.raised e))
      | none => some (t, .cancelNative)
  | .idle _, .report =>
      if t.terminal then some (t, .report) else some (t, .idle (.raised inUseError))
  | .idle _, .closeFromParent => some (t, .parent (if t.terminal then .wait else .cancel))
  | .cancelNative, .native r =>
      some (t, .idle (match r.check errorName with
        | none => .none
        | some e => .raised e))
  | .report, .loaded report progress value convert =>
      match t.loadReport errorName report progress value convert with
      | (t, none) => some (t, .idle .none)
      | (t, some e) => some (t, .idle (.raised e))
  | .call stage, act => (callStep errorName t i stage act).map fun next => (next.1, .ofCall next.2)
  | .parent stage, act =>
      (parentStep errorName t i stage act).map fun next => (next.1, .ofParent next.2)
  | _, _ => none

end Calls

/-! ## What a step of a thread does -/

section Moves

variable {ι : Type} {errorName : ℤ → String} {t t' : ExportTask ι} {i : ι}

variable (errorName t i) in
/-- What a stage of `stop()` or `wait()` does. -/
inductive CallMoves :
    CallStage → ExportAction → ExportTask ι → CallStage ⊕ Except PyError RecordingFile → Prop
  | ready (timed : Bool) (hdone : t.done = true) : CallMoves (.waiting timed) .go t (.inl .finish)
  | timedOut : CallMoves (.waiting true) .timeout t (.inr (.error timeoutError))
  | begins : CallMoves .finish .go (beginCall t i false).1 (beginCall t i false).2
  | wakes (g : ℕ) (close : CloseCoordinator) (error : Option PyError)
      (houtcome : t.close.outcome? g = some error) (hleave : t.close.leave g = some close) :
      CallMoves (.join g) .go { t with close := close }
        (.inr (error.elim t.resultOrError fun e => .error (copyError e)))
  | stopFails (g : ℕ) (r : NativeResult) (path : String) (durationMs : ℤ) (e : PyError)
      (hr : Teardown.retryInUseResult r = .error e) :
      CallMoves (.stop g) (.stopped r path durationMs) t (.inl (.fail g e))
  | stopReturns (g : ℕ) (r : NativeResult) (path : String) (durationMs code : ℤ)
      (hr : Teardown.retryInUseResult r = .ok code) :
      CallMoves (.stop g) (.stopped r path durationMs) t (.inl (.stopped g code path durationMs))
  | completes (g : ℕ) (code : ℤ) (path : String) (durationMs : ℤ) :
      CallMoves (.stopped g code path durationMs) .go (t.complete errorName code path durationMs)
        (.inl (.load g))
  | loads (g : ℕ) (report progress : NativeResult) (value : ExportProgress)
      (convert : Option PyError) (u : ExportTask ι)
      (hload : t.loadReport errorName report progress value convert = (u, none)) :
      CallMoves (.load g) (.loaded report progress value convert) u (.inl (.closeDispatcher g))
  | loadFails (g : ℕ) (report progress : NativeResult) (value : ExportProgress)
      (convert : Option PyError) (u : ExportTask ι) (e : PyError)
      (hload : t.loadReport errorName report progress value convert = (u, some e)) :
      CallMoves (.load g) (.loaded report progress value convert) u (.inl (.fail g e))
  | closesDispatcher (g : ℕ) :
      CallMoves (.closeDispatcher g) .go { t with dispatcher := t.dispatcher.close }
        (.inl (.drain g))
  | drained (g : ℕ) (hdone : t.dispatcher.closeDone = true) :
      CallMoves (.drain g) .go t (.inl (.destroy g))
  | destroys (g : ℕ) (r : NativeResult) (hr : r.retryInUse errorName = none) :
      CallMoves (.destroy g) (.native r) { t with destroys := t.destroys + 1 }
        (.inl (.finishParent g))
  | destroyFails (g : ℕ) (r : NativeResult) (e : PyError) (hr : r.retryInUse errorName = some e) :
      CallMoves (.destroy g) (.native r) t (.inl (.fail g e))
  | finishesParent (g : ℕ) :
      CallMoves (.finishParent g) .go { t with parentFinished := true } (.inl (.succeed g))
  | succeeds (g : ℕ) :
      CallMoves (.succeed g) .go { t with close := t.close.succeed g t.error } (.inl .result)
  | fails (g : ℕ) (e : PyError) :
      CallMoves (.fail g e) .go { t with close := t.close.fail g e } (.inr (.error e))
  | results : CallMoves .result .go t (.inr t.resultOrError)

/-- **Inversion of a stage of `stop()` or `wait()`.** -/
theorem callStep_cases {stage : CallStage} {act : ExportAction}
    {next : CallStage ⊕ Except PyError RecordingFile}
    (h : callStep errorName t i stage act = some (t', next)) :
    CallMoves errorName t i stage act t' next := by
  unfold callStep at h
  split at h
  next timed =>
    split at h
    next hdone =>
      cases h
      exact .ready timed hdone
    · cases h
  next timed =>
    split at h
    next htimed =>
      cases h
      subst htimed
      exact .timedOut
    · cases h
  next =>
    have hbegins : CallMoves errorName t i .finish .go _ _ := .begins
    rw [Option.some.inj h] at hbegins
    exact hbegins
  next g =>
    obtain ⟨error, houtcome, hwake⟩ := Option.bind_eq_some_iff.mp h
    obtain ⟨close, hleave, hnext⟩ := Option.map_eq_some_iff.mp hwake
    have hwakes : CallMoves errorName t i (.join g) .go _ _ := .wakes g close error houtcome hleave
    cases error with
    | none =>
        cases hnext
        exact hwakes
    | some e =>
        cases hnext
        exact hwakes
  next g r path durationMs =>
    split at h
    next e hr =>
      cases h
      exact .stopFails g r path durationMs e hr
    next code hr =>
      cases h
      exact .stopReturns g r path durationMs code hr
  next g code path durationMs =>
    cases h
    exact .completes g code path durationMs
  next g report progress value convert =>
    split at h
    next u hload =>
      cases h
      exact .loads g report progress value convert _ hload
    next u e hload =>
      cases h
      exact .loadFails g report progress value convert _ e hload
  next g =>
    cases h
    exact .closesDispatcher g
  next g =>
    split at h
    next hdone =>
      cases h
      exact .drained g hdone
    · cases h
  next g r =>
    split at h
    next hr =>
      cases h
      exact .destroys g r hr
    next e hr =>
      cases h
      exact .destroyFails g r e hr
  next g =>
    cases h
    exact .finishesParent g
  next g =>
    cases h
    exact .succeeds g
  next g e =>
    cases h
    exact .fails g e
  next =>
    cases h
    exact .results
  · cases h

/-- Here a thread knows nothing of the task. -/
def ExportPc.quiet : ExportPc → Bool
  | .idle (.file _) | .call _ | .parent (.call _) | .parent (.delete _) => false
  | _ => true

/-- `_close_from_parent` goes on behind a stage of its `wait()`. -/
def ExportPc.ofParentCall : CallStage ⊕ Except PyError RecordingFile → ExportPc
  | .inl stage => .parent (.call stage)
  | .inr (.ok file) => .parent (.delete file)
  | .inr (.error (.tirtc e)) => .parent (.check (.tirtc e))
  | .inr (.error e) => .idle (.raised e)

variable (errorName t i) in
/-- What a step of a thread does: it calls `stop()` or `wait()` or goes on with it, it reads the
report, or it leaves the task as it is. -/
inductive ExportMoves : ExportPc → ExportAction → ExportTask ι → ExportPc → Prop
  | begins (last : Returned) :
      ExportMoves (.idle last) .stop (beginCall t i true).1 (.ofCall (beginCall t i true).2)
  | waits (last : Returned) (timed : Bool) :
      ExportMoves (.idle last) (.wait timed) t (.call (waitBegin t timed))
  | parentWaits : ExportMoves (.parent .wait) .go t (.parent (.call (waitBegin t false)))
  | cancels (p p' : ExportPc) (act : ExportAction) (hact : act = .cancel ∨ act = .go)
      (hnone : t.cancelBegin = none) (hp' : p' = .cancelNative ∨ p' = .parent .cancelNative) :
      ExportMoves p act t p'
  | reads (report progress : NativeResult) (value : ExportProgress) (convert : Option PyError) :
      ExportMoves .report (.loaded report progress value convert)
        (t.loadReport errorName report progress value convert).1
        (.idle (match (t.loadReport errorName report progress value convert).2 with
          | none => .none
          | some e => .raised e))
  | calls (stage : CallStage) (act : ExportAction) (t' : ExportTask ι)
      (next : CallStage ⊕ Except PyError RecordingFile)
      (hcall : callStep errorName t i stage act = some (t', next)) :
      ExportMoves (.call stage) act t' (.ofCall next)
  | parentCalls (stage : CallStage) (act : ExportAction) (t' : ExportTask ι)
      (next : CallStage ⊕ Except PyError RecordingFile)
      (hcall : callStep errorName t i stage act = some (t', next)) :
      ExportMoves (.parent (.call stage)) act t' (.ofParentCall next)
  | quiet (p p' : ExportPc) (act : ExportAction)
      (hact : ∀ report progress value convert, act ≠ .loaded report progress value convert)
      (hp' : p'.quiet = true) (hcancel : p' ≠ .cancelNative ∧ p' ≠ .parent .cancelNative) :
      ExportMoves p act t p'

/-- A stage of `_close_from_parent`. -/
theorem parentStep_cases {stage : ParentStage} {act : ExportAction} {next : ParentStage ⊕ Returned}
    (h : parentStep errorName t i stage act = some (t', next)) :
    ExportMoves errorName t i (.parent stage) act t' (.ofParent next) := by
  unfold parentStep at h
  split at h
  · split at h
    · cases h
      exact .quiet _ _ _ (by simp) rfl (by simp [ExportPc.ofParent])
    · cases h
      exact .quiet _ _ _ (by simp) rfl (by simp [ExportPc.ofParent])
    next hnone =>
      cases h
      exact .cancels _ _ _ (.inr rfl) hnone (.inr rfl)
  · split at h
    all_goals
      cases h
      exact .quiet _ _ _ (by simp) rfl (by simp [ExportPc.ofParent])
  · cases h
    exact .parentWaits
  · obtain ⟨⟨u, result⟩, hcall, hnext⟩ := Option.map_eq_some_iff.mp h
    rcases result with stage | (_ | _) | file
    all_goals
      cases hnext
      exact .parentCalls _ _ _ _ hcall
  · cases h
    split
    all_goals
      exact .quiet _ _ _ (by simp) rfl (by simp [ExportPc.ofParent])
  · cases h
    split
    all_goals
      exact .quiet _ _ _ (by simp) rfl (by simp [ExportPc.ofParent])
  · cases h

/-- **Inversion of a step of a thread.** -/
theorem exportStep_cases {p p' : ExportPc} {act : ExportAction}
    (h : exportStep errorName t i p act = some (t', p')) :
    ExportMoves errorName t i p act t' p' := by
  unfold exportStep at h
  split at h
  next last =>
    cases h
    exact .begins last
  next last timed =>
    cases h
    exact .waits last timed
  · split at h
    · cases h
      exact .quiet _ _ _ (by simp) rfl (by simp)
    · cases h
      exact .quiet _ _ _ (by simp) rfl (by simp)
    next hnone =>
      cases h
      exact .cancels _ _ _ (.inl rfl) hnone (.inl rfl)
  · split at h
    all_goals
      cases h
      exact .quiet _ _ _ (by simp) rfl (by simp)
  · cases h
    split
    all_goals
      exact .quiet _ _ _ (by simp) rfl (by simp)
  · cases h
    split
    all_goals
      exact .quiet _ _ _ (by simp) rfl (by simp)
  next report progress value convert =>
    have hreads : ExportMoves errorName t i .report (.loaded report progress value convert) _ _ :=
      .reads report progress value convert
    split at h
    next hload =>
      cases h
      rw [hload] at hreads
      exact hreads
    next hload =>
      cases h
      rw [hload] at hreads
      exact hreads
  · obtain ⟨⟨u, next⟩, hcall, hnext⟩ := Option.map_eq_some_iff.mp h
    cases hnext
    exact .calls _ _ _ _ hcall
  · obtain ⟨⟨u, next⟩, hparent, hnext⟩ := Option.map_eq_some_iff.mp h
    cases hnext
    exact parentStep_cases hparent
  · cases h

end Moves

/-! ## The Runtime and the pool -/

/-- The Runtime hands over a callback task, the pool takes one, runs it, and is done with it. -/
inductive ExportEnvironment
  | post (event : ExportEvent)
  | drainBegin
  | handle
  | drainEnd
  deriving DecidableEq

/-- A step of the Runtime or the pool. The thread that hands over a task waits while the queue is
full; what the closed dispatcher refuses changes nothing.
Source: `_dispatch.py`, `_native_task_sink` and `_Dispatcher._drain_one` -/
def environmentStep {ι : Type} (errorName : ℤ → String) (t : ExportTask ι) :
    ExportEnvironment → Option (ExportTask ι)
  | .post event =>
      (t.dispatcher.postNativeTask event).map fun r => { t with dispatcher := r.dispatcher }
  | .drainBegin =>
      if t.dispatcher.executing then none
      else
        let (event, d) := t.dispatcher.drainBegin
        some { t with delivering := event.map Event.values, dispatcher := d }
  | .handle =>
      t.delivering.map fun event => { t.handleEvent errorName event with delivering := none }
  | .drainEnd =>
      if t.dispatcher.executing && t.delivering.isNone then
        some { t with dispatcher := t.dispatcher.drainEnd.2 }
      else none

/-- **The calls on one ExportTask**, from its creation on. -/
def exportCalls (ι : Type) (errorName : ℤ → String) :
    Threads ι (ExportTask ι) ExportPc ExportAction ExportEnvironment where
  start t := t = {}
  entry := .idle .none
  step i t p act := exportStep errorName t i p act
  env := environmentStep errorName

end Tirtc.Exports
