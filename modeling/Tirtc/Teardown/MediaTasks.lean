import Mathlib.Data.Finset.Basic
import Tirtc.Lib.Threads
import Tirtc.Storage.ExportReports
import Tirtc.Teardown.Objects

/-!
# The media tasks, and the teardowns that stop them

Any number of threads stop RecordingTasks, wait for ExportTasks or stop them, and close the
Connections, Replays and CloudStorages these tasks belong to. Each task hands over one file at
most, which is known by the task. A close that runs inside the close of a Client or of a
CloudStorage is a call of a thread of its own, and finalizers, which come when nobody refers to a
task any more, are left out.

* `MediaTask`, `TaskOwner`, `MediaState`: the records.
* `TaskStage`, `OwnerStage`, `MediaPc`: where a thread is; `Origin` tells whether the application
  calls, or the teardown of an owner.
* `stopBegin` to `ownerStep`: the calls, as in the source.
* `mediaCalls`: all of it as a `Transition.Threads` system.
-/

set_option autoImplicit false
set_option linter.unusedSectionVars false

namespace Tirtc.Media

open Transition

/-! ## The records -/

/-- The classes of tasks with a file. The `RecordingTask`s of a Connection and of a Replay run the
same code. -/
inductive MediaKind
  | recordingTask | exportTask
  deriving DecidableEq, Repr

/-- A task; without a `parent` it has not been made yet. `stopped` is `_stopped` of a RecordingTask
and `_terminal` of an ExportTask, and `done` is `_done` of an ExportTask; `file` says that `_result`
or `_file` is set, and `report` that `_report` is. `returned` and `deleted` are history: a call of
the application has returned the file, and a teardown has called its `delete()`.
Source: `_core.py`, `RecordingTask._prepare`; `storage/__init__.py`, `RecordingTask._prepare` and
`ExportTask._prepare` -/
structure MediaTask (Q : Type) where
  kind : MediaKind := .recordingTask
  parent : Option Q := none
  close : CloseCoordinator := {}
  stopped : Bool := false
  done : Bool := false
  file : Bool := false
  report : Bool := false
  error : Option PyError := none
  parentFinished : Bool := false
  returned : Bool := false
  deleted : Bool := false

/-- A Connection, a Replay or a CloudStorage. `closer` and `remaining` are history: the thread that
performs its teardown, and the tasks of the snapshot that this has still to deal with.
Source: `_core.py`, `Connection`; `storage/__init__.py`, `Replay._prepare` and
`CloudStorage._prepare` -/
structure TaskOwner (T ι : Type) where
  tasks : Finset T := ∅
  close : CloseCoordinator := {}
  closer : Option ι := none
  remaining : List T := []

/-- All tasks and their owners. -/
structure MediaState (T Q ι : Type) where
  task : T → MediaTask Q := fun _ => {}
  owner : Q → TaskOwner T ι := fun _ => {}

/-- The task comes to its end with a code and the duration of its file, unless it has already; on
the right what that raises. An ExportTask is terminal before its file is made, a RecordingTask is
stopped behind that.
Source: `RecordingTask.stop`, `ExportTask.stop`, `ExportTask._handle_event` -/
def MediaTask.ends {Q : Type} (errorName : ℤ → String) (x : MediaTask Q) (code durationMs : ℤ) :
    MediaTask Q × Option PyError :=
  if x.stopped then (x, none)
  else if Teardown.overflows code durationMs then
    (if x.kind = .exportTask then { x with stopped := true } else { x with error := none },
      some overflowError)
  else
    ({ x with
        stopped := true
        done := true
        file := decide (code = 0)
        error := if code = 0 then none else some (errorFromCode code (errorName code)) }, none)

/-- That changes its end alone. -/
theorem MediaTask.ends_eq {Q : Type} (errorName : ℤ → String) (x : MediaTask Q)
    (code durationMs : ℤ) : ∃ stopped done file error, (x.ends errorName code durationMs).1 =
      { x with stopped := stopped, done := done, file := file, error := error } := by
  unfold MediaTask.ends
  split
  · exact ⟨x.stopped, x.done, x.file, x.error, rfl⟩
  · split
    · split
      · exact ⟨true, x.done, x.file, x.error, rfl⟩
      · exact ⟨x.stopped, x.done, x.file, none, rfl⟩
    · exact ⟨_, _, _, _, rfl⟩

@[simp] theorem MediaTask.ends_returned {Q : Type} (errorName : ℤ → String) (x : MediaTask Q)
    (code durationMs : ℤ) : (x.ends errorName code durationMs).1.returned = x.returned := by
  obtain ⟨stopped, done, file, error, h⟩ := x.ends_eq errorName code durationMs
  rw [h]

@[simp] theorem MediaTask.ends_deleted {Q : Type} (errorName : ℤ → String) (x : MediaTask Q)
    (code durationMs : ℤ) : (x.ends errorName code durationMs).1.deleted = x.deleted := by
  obtain ⟨stopped, done, file, error, h⟩ := x.ends_eq errorName code durationMs
  rw [h]

/-- The report is read and decoded; on the right what that raises.
Source: `storage/__init__.py`, `ExportTask._load_report` -/
def MediaTask.loads {Q : Type} (errorName : ℤ → String) (x : MediaTask Q)
    (report progress : NativeResult) (value : Exports.NativeReport) :
    MediaTask Q × Option PyError :=
  match report.check errorName, progress.check errorName with
  | some e, _ | none, some e => (x, some e)
  | none, none =>
      match Exports.exportReportFromNative errorName value with
      | .error _ => (x, some decodingError)
      | .ok _ => ({ x with report := true }, none)

/-- That sets the report, or nothing. -/
theorem MediaTask.loads_eq {Q : Type} (errorName : ℤ → String) (x : MediaTask Q)
    (report progress : NativeResult) (value : Exports.NativeReport) :
    ∃ loaded, (x.loads errorName report progress value).1 = { x with report := loaded } := by
  unfold MediaTask.loads
  split
  · exact ⟨x.report, rfl⟩
  · exact ⟨x.report, rfl⟩
  · split
    · exact ⟨x.report, rfl⟩
    · exact ⟨true, rfl⟩

namespace MediaState

variable {T Q ι : Type} [DecidableEq T] [DecidableEq Q] (s : MediaState T Q ι)

/-- Task `t` becomes `x`. -/
def setTask (t : T) (x : MediaTask Q) : MediaState T Q ι :=
  { s with task := Function.update s.task t x }

/-- Owner `q` becomes `x`. -/
def setOwner (q : Q) (x : TaskOwner T ι) : MediaState T Q ι :=
  { s with owner := Function.update s.owner q x }

@[simp] theorem setTask_task (t : T) (x : MediaTask Q) (u : T) :
    (s.setTask t x).task u = if u = t then x else s.task u := by
  by_cases h : u = t
  · subst h
    simp [setTask]
  · simp [setTask, h]

@[simp] theorem setTask_owner (t : T) (x : MediaTask Q) : (s.setTask t x).owner = s.owner := rfl

@[simp] theorem setOwner_task (q : Q) (x : TaskOwner T ι) : (s.setOwner q x).task = s.task := rfl

@[simp] theorem setOwner_owner (q : Q) (x : TaskOwner T ι) (r : Q) :
    (s.setOwner q x).owner r = if r = q then x else s.owner r := by
  by_cases h : r = q
  · subst h
    simp [setOwner]
  · simp [setOwner, h]

/-- A task is taken out of the set of its owner, once.
Source: `_core.py`, `Connection._finish_task`; `storage/__init__.py`, `Replay._finish_task` and
`CloudStorage._finish_export` -/
def finish (t : T) : MediaState T Q ι :=
  let x := s.task t
  match x.parent, x.parentFinished with
  | some q, false =>
      (s.setOwner q { s.owner q with tasks := (s.owner q).tasks.erase t }).setTask t
        { x with parentFinished := true }
  | _, _ => s

/-- It leaves the files alone. -/
theorem finish_task (t u : T) :
    ((s.finish t).task u).returned = (s.task u).returned ∧
      ((s.finish t).task u).deleted = (s.task u).deleted := by
  simp only [finish]
  split
  · by_cases hu : u = t
    · simp [hu]
    · simp [hu]
  · exact ⟨rfl, rfl⟩

/-- It leaves the teardowns alone. -/
theorem finish_remaining (t : T) (q : Q) :
    ((s.finish t).owner q).remaining = (s.owner q).remaining := by
  simp only [finish]
  split
  next r hparent hleft =>
    by_cases hq : q = r
    · simp [hq]
    · simp [hq]
  next => rfl

end MediaState

/-! ## Where a thread is -/

/-- The stages of a call on a task, with the generation that it performs. The first two are
`_close_from_parent` of an ExportTask before its `wait()`. -/
inductive TaskStage
  | terminal | cancel
  | await (timed : Bool)
  | begin (stops : Bool)
  | join (generation : ℕ)
  | stop (generation : ℕ)
  | report (generation : ℕ)
  | destroy (generation : ℕ)
  | finish (generation : ℕ)
  | succeed (generation : ℕ)
  | fail (generation : ℕ) (error : PyError)
  | result
  | raised (error : PyError)
  | delete
  deriving DecidableEq

/-- The stages of the close of an owner in the thread that performs it, with the tasks of the
snapshot that are still to be dealt with. -/
inductive OwnerStage (T : Type)
  | tasks (rest : List T)
  | succeed
  | fail (error : PyError)
  deriving DecidableEq

/-- Who calls: the application, or the teardown of an owner, with its generation and the rest of the
snapshot behind the task. -/
abbrev Origin (T Q : Type) := Option (Q × ℕ × List T)

/-- Where a thread is: in no call, with what the last one raised, or in one of the calls. -/
inductive MediaPc (T Q : Type)
  | idle (raised : Option PyError)
  | call (t : T) (origin : Origin T Q) (stage : TaskStage)
  | joinOwner (q : Q) (generation : ℕ)
  | close (q : Q) (generation : ℕ) (stage : OwnerStage T)
  deriving DecidableEq

/-- What moves a thread: a call of the application, a native call, the native stop of a task with
the duration of its file, the native report of an export, an exception of a part of the close of an
owner beside its tasks, a wait that times out, the end of a teardown with the error that it has
kept, or the next section. -/
inductive MediaAction (T Q : Type)
  | start (q : Q) (t : T) (kind : MediaKind) (result : NativeResult)
  | stop (t : T) (callback : Bool)
  | wait (t : T) (timed : Bool) (callback : Bool)
  | close (q : Q) (order : List T) (callback : Bool)
  | native (result : NativeResult)
  | stopped (result : NativeResult) (durationMs : ℤ)
  | loads (report progress : NativeResult) (value : Exports.NativeReport)
  | raises (error : PyError)
  | timeout
  | report (childError : Option PyError)
  | go

/-- The completion of an export, with a code and the duration of its file. -/
structure Completion (T : Type) where
  task : T
  code : ℤ
  durationMs : ℤ

/-! ## The calls -/

section Calls

variable {T Q ι : Type} [DecidableEq T] [DecidableEq Q] (errorName : ℤ → String)
  (s : MediaState T Q ι) (i : ι)

/-- A new task `t` of an open owner, under the lock of the owner.
Source: `_core.py`, `Connection.start_recording`; `storage/__init__.py`, `Replay.start_recording`
and `CloudStorage.export_recording` -/
def startTask (q : Q) (t : T) (kind : MediaKind) (r : NativeResult) :
    Option (MediaState T Q ι × MediaPc T Q) :=
  let x := s.owner q
  if (s.task t).parent.isSome then none
  else match x.close.requireOpen with
    | some e => some (s, .idle (some e))
    | none =>
        match r.check errorName with
        | some e => some (s, .idle (some e))
        | none =>
            some ((s.setOwner q { x with tasks := insert t x.tasks }).setTask t
              { kind := kind, parent := some q }, .idle none)

/-- The application calls `stop()`.
Source: `RecordingTask.stop`, `ExportTask.stop` -/
def stopBegin (t : T) (callback : Bool) : Option (MediaState T Q ι × MediaPc T Q) :=
  if (s.task t).parent.isNone then none
  else if callback then some (s, .idle (some inUseError))
  else some (s, .call t none (.begin true))

/-- The application calls `wait()`. Source: `storage/__init__.py`, `ExportTask.wait` -/
def waitBegin (t : T) (timed callback : Bool) : Option (MediaState T Q ι × MediaPc T Q) :=
  if (s.task t).parent.isNone ∨ (s.task t).kind = .recordingTask then none
  else if callback then some (s, .idle (some inUseError))
  else some (s, .call t none (.await timed))

/-- The performer of a generation goes on from `begin`.
Source: `RecordingTask.stop`, `ExportTask.stop`, `ExportTask._finish` -/
def performs (x : MediaTask Q) (stops : Bool) (g : ℕ) : TaskStage :=
  if x.kind = .recordingTask then if x.stopped then .destroy g else .stop g
  else if stops && !x.stopped then .stop g else .report g

/-- The call that a teardown has made raises. An ExportTask that is closed all the same is passed
over. Source: `storage/__init__.py`, `ExportTask._close_from_parent` -/
def raisedInTeardown (t : T) (q : Q) (g : ℕ) (rest : List T) (e : PyError) :
    MediaState T Q ι × MediaPc T Q :=
  let x := s.task t
  match e with
  | .tirtc _ =>
      if x.kind = .exportTask ∧ x.close.status = .closed then
        (s.setOwner q { s.owner q with remaining := rest }, .close q g (.tasks rest))
      else (s, .close q g (.fail e))
  | .other _ => (s, .close q g (.fail e))

/-- A stage of a call on task `t`. What the section of `cancel()` finds is what the look at
`_terminal` before it finds, or this was too early. Behind the report an export waits until its
dispatcher is empty; a file that is gone already is deleted without a native call, as if this
succeeded.
Source: `_core.py`, `RecordingTask.stop`; `storage/__init__.py`, `RecordingTask.stop`,
`ExportTask.wait`, `ExportTask._finish`, `ExportTask.stop`, `ExportTask.cancel` and
`ExportTask._close_from_parent` -/
def taskStep (t : T) (origin : Origin T Q) :
    TaskStage → MediaAction T Q → Option (MediaState T Q ι × MediaPc T Q)
  | .terminal, .go =>
      match origin with
      | some (q, g, _) =>
          if (s.task t).stopped then some (s, .call t origin (.await false))
          else match (s.task t).close.requireOpen with
            | some e => some (s, .close q g (.fail e))
            | none => some (s, .call t origin .cancel)
      | none => none
  | .cancel, .native r =>
      match origin with
      | some (q, g, _) =>
          match r.check errorName with
          | some e => some (s, .close q g (.fail e))
          | none => some (s, .call t origin (.await false))
      | none => none
  | .await _, .go =>
      if (s.task t).done then some (s, .call t origin (.begin false)) else none
  | .await timed, .timeout =>
      if timed then some (s, .call t origin (.raised timeoutError)) else none
  | .begin stops, .go =>
      let x := s.task t
      let (result, close) := x.close.begin
      match result with
      | .join g => some (s.setTask t { x with close := close }, .call t origin (.join g))
      | .none => some (s, .call t origin .result)
      | .inUse => some (s, .call t origin (.raised inUseError))
      | .perform g =>
          some (s.setTask t { x with close := close }, .call t origin (performs x stops g))
  | .join g, .go =>
      let x := s.task t
      (x.close.outcome? g).bind fun error =>
        (x.close.leave g).map fun close =>
          (s.setTask t { x with close := close }, .call t origin (match error with
            | some e => .raised (copyError e)
            | none => .result))
  | .stop g, .stopped r durationMs =>
      match Teardown.retryInUseResult r with
      | .error e => some (s, .call t origin (.fail g e))
      | .ok code =>
          let (x, raised) := (s.task t).ends errorName code durationMs
          some (s.setTask t x, .call t origin (match raised with
            | some e => .fail g e
            | none => if x.kind = .recordingTask then .destroy g else .report g))
  | .report g, .loads report progress value =>
      if (s.task t).report then none
      else
        let (x, raised) := (s.task t).loads errorName report progress value
        some (s.setTask t x, .call t origin (match raised with
          | some e => .fail g e
          | none => .destroy g))
  | .report g, .go =>
      if (s.task t).report then some (s, .call t origin (.destroy g)) else none
  | .destroy g, .native r =>
      match r.retryInUse errorName with
      | some e => some (s, .call t origin (.fail g e))
      | none => some (s, .call t origin (.finish g))
  | .finish g, .go => some (s.finish t, .call t origin (.succeed g))
  | .succeed g, .go =>
      let x := s.task t
      some (s.setTask t { x with close := x.close.succeed g x.error }, .call t origin .result)
  | .fail g e, .go =>
      let x := s.task t
      some (s.setTask t { x with close := x.close.fail g e }, .call t origin (.raised e))
  | .result, .go =>
      let x := s.task t
      match x.error, x.file with
      | some e, _ => some (s, .call t origin (.raised (copyError e)))
      | none, true =>
          match origin with
          | none => some (s.setTask t { x with returned := true }, .idle none)
          | some _ => some (s, .call t origin .delete)
      -- the assertion fails
      | none, false => some (s, .call t origin (.raised assertionError))
  | .raised e, .go =>
      match origin with
      | none => some (s, .idle (some e))
      | some (q, g, rest) => some (raisedInTeardown s t q g rest e)
  | .delete, .native r =>
      match origin with
      | some (q, g, rest) =>
          let s := s.setTask t { s.task t with deleted := true }
          match r.check errorName with
          | some e => some (s, .close q g (.fail e))
          | none =>
              some (s.setOwner q { s.owner q with remaining := rest }, .close q g (.tasks rest))
      | none => none
  | _, _ => none

/-- The first section of the close of an owner, whose snapshot has the tasks in some order.
Source: `_core.py`, `Connection._close_connection`; `storage/__init__.py`, `Replay._close_replay`
and `CloudStorage._close_cloud` -/
def closeBegin (q : Q) (order : List T) (callback : Bool) :
    Option (MediaState T Q ι × MediaPc T Q) :=
  let x := s.owner q
  if callback then some (s, .idle (some inUseError))
  else if order.Nodup ∧ order.toFinset = x.tasks then
    let (result, close) := x.close.begin
    match result with
    | .join g => some (s.setOwner q { x with close := close }, .joinOwner q g)
    | .none => some (s, .idle none)
    | .inUse => some (s, .idle (some inUseError))
    | .perform g =>
        some (s.setOwner q { x with close := close, closer := some i, remaining := order },
          .close q g (.tasks order))
  else none

/-- A thread that joined a close in progress wakes with its outcome.
Source: `_lifecycle.py`, `_CloseCoordinator.begin` -/
def wakeOwner (q : Q) (g : ℕ) : Option (MediaState T Q ι × MediaPc T Q) :=
  let x := s.owner q
  (x.close.outcome? g).bind fun error =>
    (x.close.leave g).map fun close =>
      (s.setOwner q { x with close := close }, .idle (error.map copyError))

/-- A stage of the close of an owner. Its other parts come before or behind the tasks, and may
raise.
Source: `_core.py`, `Connection._close_connection`; `storage/__init__.py`, `Replay._close_replay`
and `CloudStorage._close_cloud` -/
def ownerStep (q : Q) (g : ℕ) :
    OwnerStage T → MediaAction T Q → Option (MediaState T Q ι × MediaPc T Q)
  | .tasks (t :: rest), .go =>
      if (s.task t).kind = .recordingTask then some (s, .call t (some (q, g, rest)) (.begin true))
      else some (s, .call t (some (q, g, rest)) .terminal)
  | .tasks [], .native r =>
      match r.retryInUse errorName with
      | some e => some (s, .close q g (.fail e))
      | none => some (s, .close q g .succeed)
  | .tasks _, .raises e => some (s, .close q g (.fail e))
  | .succeed, .report childError =>
      let x := s.owner q
      some (s.setOwner q { x with close := x.close.succeed g childError, closer := none },
        .idle childError)
  | .fail e, .go =>
      let x := s.owner q
      some (s.setOwner q { x with close := x.close.fail g e, closer := none, remaining := [] },
        .idle (some e))
  | _, _ => none

/-- A step of thread `i`. -/
def mediaStep : MediaPc T Q → MediaAction T Q → Option (MediaState T Q ι × MediaPc T Q)
  | .idle _, .start q t kind r => startTask errorName s q t kind r
  | .idle _, .stop t callback => stopBegin s t callback
  | .idle _, .wait t timed callback => waitBegin s t timed callback
  | .idle _, .close q order callback => closeBegin s i q order callback
  | .call t origin stage, act => taskStep errorName s t origin stage act
  | .joinOwner q g, .go => wakeOwner s q g
  | .close q g stage, act => ownerStep errorName s q g stage act
  | _, _ => none

/-- An ExportTask completes; what its callback raises goes to the pool.
Source: `storage/__init__.py`, `ExportTask._handle_event` -/
def completeTask (e : Completion T) : Option (MediaState T Q ι) :=
  let x := s.task e.task
  if x.parent.isSome ∧ x.kind = .exportTask then
    some (s.setTask e.task (x.ends errorName e.code e.durationMs).1)
  else none

end Calls

/-- **The calls on the media tasks and their owners**, before any task is made. -/
def mediaCalls (T Q ι : Type) [DecidableEq T] [DecidableEq Q] (errorName : ℤ → String) :
    Threads ι (MediaState T Q ι) (MediaPc T Q) (MediaAction T Q) (Completion T) where
  start s := s = {}
  entry := .idle none
  step i s pc act := mediaStep errorName s i pc act
  env := completeTask errorName

end Tirtc.Media
