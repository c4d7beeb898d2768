import Tirtc.Lib.Datetime
import Tirtc.Lifecycle

/-!
# The objects below a Client

One RTC or Cloud Client and everything made from it, as far as creating and closing goes: each
object's coordinator, its sets of children, and whether its native handle has been destroyed. What
an object does in its `close` or `stop` once the teardown is its own is a list of `Item`s, one
definition for each class; `Frames` runs them.

* `Kind`, `Kind.childKinds`: the classes and what they create.
* `Node`, `Tree`: the objects, by number; `Node.ends`: how a task comes to its end.
* `Item`: a part of a teardown; `Client.closeItems` to `ExportTask.finishItems`: the teardowns.
* `create`: an object is created from an open parent.
-/

set_option autoImplicit false

namespace Tirtc.Teardown

/-! ### Classes and objects -/

/-- The classes with a native handle that is destroyed in `close` or `stop`. The `RecordingTask`s of
a Connection and of a Replay run the same code, and so do the two Clients but for what they
create.
Source: `_core.py`, `_raw_dump.py`, `storage/__init__.py` -/
inductive Kind
  | client | connection | cloudClient | cloudStorage | replay | recordingTask | rawDump | exportTask
  deriving DecidableEq, Repr

/-- What the objects of a class create.
Source: `Client.create_connection`, `Client._open`, `start_recording`, `start_raw_dump`,
`CloudStorage.create_replay`, `CloudStorage.export_recording` -/
def Kind.childKinds : Kind → List Kind
  | .client => [.connection]
  | .cloudClient => [.cloudStorage]
  | .connection | .replay => [.rawDump, .recordingTask]
  | .cloudStorage => [.replay, .exportTask]
  | .recordingTask | .rawDump | .exportTask => []

/-- An object. `children` are its sets `_connections`, `_clouds`, `_replays`, `_exports`, `_tasks`
and `_dumps` together, told apart by the kinds of the children. `stopped` is `_stopped` of a
RecordingTask, `_terminal` of an ExportTask, and whether a RawDump has its `_archive`. `done` is
`_done` of an ExportTask, and `file` says that a task has its file. A RawDump has `closed` and a
lock in the place of the coordinator. -/
structure Node where
  kind : Kind := .client
  parent : Option ℕ := none
  close : CloseCoordinator := {}
  children : List ℕ := []
  stopped : Bool := false
  done : Bool := false
  file : Bool := false
  error : Option PyError := none
  closed : Bool := false
  locked : Bool := false
  /-- History: the native destroy has succeeded. For a Client that is the release of its lease. -/
  destroyed : Bool := false

/-- `child._close.status == "closed"`, or `dump._closed` for a RawDump. -/
def Node.isClosed (n : Node) : Bool :=
  if n.kind = .rawDump then n.closed else n.close.status = .closed

/-- What a call raises that finds the teardown done: a task keeps its error, and its file if it has
none.
Source: `RecordingTask.stop`, `ExportTask._result_or_error` -/
def Node.result (n : Node) : Option PyError :=
  if n.kind = .recordingTask ∨ n.kind = .exportTask then
    match n.error with
    | some e => some (copyError e)
    | none => if n.file then none else some assertionError
  else none

/-- What a teardown reports in the end: a task its own error, the others the error of a child that
they have kept. -/
def Node.outcome (n : Node) (kept : Option PyError) : Option PyError :=
  if n.kind = .recordingTask ∨ n.kind = .exportTask then n.error else kept

/-- What a teardown raises in the end. -/
def Node.raises (n : Node) (kept : Option PyError) : Option PyError :=
  if n.kind = .recordingTask ∨ n.kind = .exportTask then n.result else kept

/-- `RecordingFile._create` raises: `timedelta` does not have the duration of the file.
Source: `_core.py`, `RecordingFile._create` -/
def overflows (code durationMs : ℤ) : Bool :=
  code = 0 && (Datetime.TimeDelta.ofMilliseconds durationMs).isNone

/-- A task or an export comes to its end with a code and the duration of its file, unless it has
already; on the right what that raises. An ExportTask is terminal before its file is made, a
RecordingTask is stopped behind that.
Source: `RecordingTask.stop`, `ExportTask.stop`, `ExportTask._handle_event` -/
def Node.ends (errorName : ℤ → String) (n : Node) (code durationMs : ℤ) : Node × Option PyError :=
  if n.stopped then (n, none)
  else if overflows code durationMs then
    (if n.kind = .exportTask then { n with stopped := true } else { n with error := none },
      some overflowError)
  else
    ({ n with
        stopped := true
        done := true
        file := code = 0
        error := if code = 0 then none else some (errorFromCode code (errorName code)) }, none)

/-- That changes its end alone. -/
theorem Node.ends_eq (errorName : ℤ → String) (n : Node) (code durationMs : ℤ) :
    ∃ stopped done file error, (n.ends errorName code durationMs).1 =
      { n with stopped := stopped, done := done, file := file, error := error } := by
  unfold Node.ends
  split
  · exact ⟨n.stopped, n.done, n.file, n.error, rfl⟩
  · split
    · split
      · exact ⟨true, n.done, n.file, n.error, rfl⟩
      · exact ⟨n.stopped, n.done, n.file, none, rfl⟩
    · exact ⟨_, _, _, _, rfl⟩

/-- The objects below one Client, which has the number `0`. The numbers from `count` on are not used
yet. -/
structure Tree where
  count : ℕ
  node : ℕ → Node

namespace Tree

variable (s : Tree)

/-- A new Client. -/
def root (cloud : Bool) : Tree where
  count := 1
  node x := if x = 0 then { kind := if cloud then .cloudClient else .client } else {}

/-- Object `x` becomes `f` of itself. -/
def modify (x : ℕ) (f : Node → Node) : Tree :=
  { s with node := Function.update s.node x (f (s.node x)) }

@[simp] theorem modify_count (x : ℕ) (f : Node → Node) : (s.modify x f).count = s.count := rfl

@[simp] theorem modify_node (x : ℕ) (f : Node → Node) (y : ℕ) :
    (s.modify x f).node y = if y = x then f (s.node x) else s.node y := by
  by_cases h : y = x
  · subst h
    simp [modify]
  · simp [modify, h]

/-- The coordinator of `x` becomes `close`. -/
def setClose (x : ℕ) (close : CloseCoordinator) : Tree :=
  s.modify x fun n => { n with close := close }

/-- The members of a snapshot that are of a kind. -/
def ofKind (order : List ℕ) (kind : Kind) : List ℕ := order.filter fun c => (s.node c).kind = kind

/-- `x` is taken out of the set of its parent.
Source: `_finish_connection`, `_finish_cloud`, `_finish_replay`, `_finish_export`, `_finish_task`,
`_finish_raw_dump` -/
def finish (x : ℕ) : Tree :=
  match (s.node x).parent with
  | some p => s.modify p fun n => { n with children := n.children.filter (· ≠ x) }
  | none => s

/-- There is one more object, of class `kind` and in the sets of `x`. -/
def add (kind : Kind) (x : ℕ) : Tree where
  count := s.count + 1
  node y :=
    if y = s.count then { kind := kind, parent := some x }
    else if y = x then { s.node x with children := s.count :: (s.node x).children }
    else s.node y

/-- An object of class `kind` is created from `x`, under the lock of `x`; on the right what that
raises.
Source: `Client.create_connection`, `Client._open`, `start_recording`, `start_raw_dump`,
`CloudStorage.create_replay`, `CloudStorage.export_recording` -/
def create (errorName : ℤ → String) (kind : Kind) (x : ℕ) (r : NativeResult) :
    Tree × Option PyError :=
  match (s.node x).close.requireOpen with
  | some e => (s, some e)
  | none =>
      match r.check errorName with
      | some e => (s, some e)
      | none => (s.add kind x, none)

end Tree

/-! ### Teardowns -/

/-- What a parent does with the exception of a child: it raises it, or keeps it if the child is
closed all the same. -/
inductive OnError
  | raise | keep
  deriving DecidableEq, Repr

/-- A part of a teardown. `work` is a part that may raise and concerns no child: it cancels,
detaches, stops natively, closes a dispatcher, loads a report or deletes a file. -/
inductive Item
  | work
  | stop
  | child (c : ℕ) (onError : OnError)
  | destroy
  | succeed
  | finish
  deriving DecidableEq, Repr

/-- The children are closed one after the other, and what they raise is kept. -/
def closeKeeping (children : List ℕ) : List Item := children.map (Item.child · .keep)

/-- The tasks are stopped one after the other, and their files deleted. -/
def stopAndDelete (tasks : List ℕ) : List Item :=
  tasks.flatMap fun task => [Item.child task .raise, Item.work]

/-- The two Clients.
Source: `_core.py`, `Client.close`; `storage/__init__.py`, `Client.close` -/
def Client.closeItems (children : List ℕ) : List Item :=
  closeKeeping children ++ [.destroy, .succeed]

/-- Source: `_core.py`, `Connection._close_connection` -/
def Connection.closeItems (dumps tasks : List ℕ) : List Item :=
  .work :: (closeKeeping dumps ++ (stopAndDelete tasks ++ [.work, .destroy, .succeed, .finish]))

/-- Source: `storage/__init__.py`, `CloudStorage._close_cloud` -/
def CloudStorage.closeItems (replays exports : List ℕ) : List Item :=
  .work :: (closeKeeping replays ++
    (exports.map (Item.child · .raise) ++ [.destroy, .succeed, .finish]))

/-- Source: `storage/__init__.py`, `Replay._close_replay` -/
def Replay.closeItems (dumps tasks : List ℕ) : List Item :=
  closeKeeping dumps ++ (stopAndDelete tasks ++ [.work, .destroy, .finish, .succeed])

/-- Source: `_core.py`, `RecordingTask.stop`; `storage/__init__.py`, `RecordingTask.stop` -/
def RecordingTask.stopItems (stopped : Bool) : List Item :=
  if stopped then [.destroy, .finish, .succeed] else [.stop, .destroy, .finish, .succeed]

/-- Source: `storage/__init__.py`, `ExportTask._finish` -/
def ExportTask.finishItems : List Item := [.work, .destroy, .finish, .succeed]

/-- Source: `storage/__init__.py`, `ExportTask.stop` -/
def ExportTask.stopItems (terminal : Bool) : List Item :=
  if terminal then ExportTask.finishItems else .stop :: ExportTask.finishItems

/-- The teardown of `x`, with the children in the order in which the snapshot has them; `stops`
tells `ExportTask.stop` from `ExportTask._finish`. A RawDump has no coordinator. -/
def Tree.items (s : Tree) (x : ℕ) (stops : Bool) (order : List ℕ) : Option (List Item) :=
  match (s.node x).kind with
  | .client | .cloudClient => some (Client.closeItems order)
  | .connection =>
      some (Connection.closeItems (s.ofKind order .rawDump) (s.ofKind order .recordingTask))
  | .cloudStorage =>
      some (CloudStorage.closeItems (s.ofKind order .replay) (s.ofKind order .exportTask))
  | .replay => some (Replay.closeItems (s.ofKind order .rawDump) (s.ofKind order .recordingTask))
  | .recordingTask => some (RecordingTask.stopItems (s.node x).stopped)
  | .exportTask =>
      some (if stops then ExportTask.stopItems (s.node x).stopped else ExportTask.finishItems)
  | .rawDump => none

/-- The result of `_retry_in_use_result`, from that of the last try: the code, or what it raises.
Source: `_util.py`, `_retry_in_use_result` -/
def retryInUseResult : NativeResult → Except PyError ℤ
  | .code c => if c = 6026 then .error timeoutError else .ok c
  | .raised e => .error e

/-- It returns the code of a last try that is not in use any more. -/
theorem retryInUseResult_eq_ok {r : NativeResult} {code : ℤ} :
    retryInUseResult r = .ok code ↔ r = .code code ∧ code ≠ 6026 := by
  cases r with
  | code c =>
      by_cases hcode : c = 6026
      · subst hcode
        constructor
        · intro h
          cases h
        · rintro ⟨heq, hne⟩
          cases heq
          exact absurd rfl hne
      · simp only [retryInUseResult, if_neg hcode, Except.ok.injEq, NativeResult.code.injEq]
        constructor
        · rintro rfl
          exact ⟨rfl, hcode⟩
        · rintro ⟨rfl, -⟩
          rfl
  | raised e => simp [retryInUseResult]

/-- What the native destroy of an object raises. A lease gives up with the last code; the others
raise a timeout.
Source: `_runtime.py`, `_release` and `_close_handle`; `_util.py`, `_retry_in_use` -/
def destroyError (errorName : ℤ → String) (kind : Kind) (r : NativeResult) : Option PyError :=
  if kind = .client ∨ kind = .cloudClient then r.check errorName else r.retryInUse errorName

end Tirtc.Teardown
