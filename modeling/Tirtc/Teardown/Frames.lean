import Tirtc.Lib.Threads
import Tirtc.Teardown.Objects

/-!
# Creating, stopping, waiting and closing, from any threads

Any number of threads create objects below one Client and stop, await and close them. A thread has
the stack of its calls: the `close` of a parent calls the `close` of a child and goes on when that
returns or raises.

* `Frame`: a call and where it is; `Action`: what moves it.
* `enterStep`, `performStep`, `dumpStep`, `exportStep`: the steps of the calls.
* `resume`: a call returns to the one below it.
* `teardown`: the system. Finalizers call what threads call here.
-/

set_option autoImplicit false

namespace Tirtc.Teardown

open Transition

/-! ### Calls -/

/-- A call of object `x` that is not over, and where it is.

`enter` to `fail` are the calls with a coordinator: before `begin`; in its wait; with the `items` of
the teardown still to do and the error of a child kept; with the exception `e` of child `c`, whose
status is to be read; before `fail`. -/
inductive Frame
  | enter (x : ℕ) (stops : Bool)
  | join (x g : ℕ)
  | perform (x g : ℕ) (items : List Item) (kept : Option PyError)
  | check (x g c : ℕ) (e : PyError) (items : List Item) (kept : Option PyError)
  | fail (x g : ℕ) (e : PyError)
  /-- `RawDump.close`: before its lock, at its `stop`, at the native destroy, behind its lock. -/
  | dumpClose (x : ℕ)
  | dumpStopping (x : ℕ)
  | dumpDestroy (x : ℕ) (stopError : Option PyError)
  | dumpFinish (x : ℕ) (stopError : Option PyError)
  /-- `RawDump.stop`. -/
  | dumpStop (x : ℕ)
  | dumpStopNative (x : ℕ)
  /-- `ExportTask._close_from_parent`: before it reads `_terminal`, in `cancel`, in `wait`, with the
  exception of that, at the deletion of the file. -/
  | exportClose (x : ℕ)
  | exportCancel (x : ℕ)
  | exportCancelNative (x : ℕ)
  | exportWaited (x : ℕ)
  | exportCheck (x : ℕ) (e : PyError)
  | exportDelete (x : ℕ)
  /-- `ExportTask.wait`. -/
  | exportWait (x : ℕ)
  deriving DecidableEq

/-- The object that is called. -/
def Frame.object : Frame → ℕ
  | .enter x _ | .join x _ | .perform x _ _ _ | .check x _ _ _ _ _ | .fail x _ _
  | .dumpClose x | .dumpStopping x | .dumpDestroy x _ | .dumpFinish x _
  | .dumpStop x | .dumpStopNative x
  | .exportClose x | .exportCancel x | .exportCancelNative x | .exportWaited x
  | .exportCheck x _ | .exportDelete x | .exportWait x => x

/-- What moves a thread: a call, the next section, an exception of a section, the result of a native
call, that of the native stop of a task with the duration of its file, or `begin` with the order in
which the snapshot has the children. -/
inductive Action
  | create (kind : Kind) (x : ℕ) (r : NativeResult)
  | close (x : ℕ)
  | stop (x : ℕ)
  | wait (x : ℕ)
  | go
  | raises (e : PyError)
  | native (r : NativeResult)
  | stopped (r : NativeResult) (durationMs : ℤ)
  | begin (order : List ℕ)
  deriving DecidableEq

/-- Where a step takes a call: it goes on, calls another, or returns or raises. -/
inductive Next
  | goes (f : Frame)
  | calls (f callee : Frame)
  | returns (raised : Option PyError)

section Steps

variable (errorName : ℤ → String) (s : Tree)

/-- The call by which a parent closes child `c`.
Source: `Connection._close_from_client`, `CloudStorage._close_from_client`,
`Replay._close_from_parent`, `ExportTask._close_from_parent`, `RecordingTask.stop`,
`RawDump.close` -/
def Tree.closeFrame (c : ℕ) : Frame :=
  match (s.node c).kind with
  | .rawDump => .dumpClose c
  | .exportTask => .exportClose c
  | .recordingTask => .enter c true
  | _ => .enter c false

/-- Up to `begin`, with the snapshot in the same section. Whether the caller is in a callback and in
the process of the Runtime is checked before; `ExportTask._finish` has no such check.
Source: `Client.close`, `_close_connection`, `_close_cloud`, `_close_replay`,
`RecordingTask.stop`, `ExportTask.stop`, `ExportTask._finish` -/
def enterStep (x : ℕ) (stops : Bool) : Action → Option (Tree × Next)
  | .raises e =>
      if (s.node x).kind = .exportTask ∧ stops = false then none
      else some (s, .returns (some e))
  | .begin order =>
      let n := s.node x
      if order.Perm n.children then
        let t := s.setClose x n.close.begin.2
        match n.close.begin.1 with
        | .join g => some (t, .goes (.join x g))
        | .none => some (t, .returns n.result)
        | .inUse => some (t, .returns (some inUseError))
        | .perform g =>
            (s.items x stops order).map fun items => (t, .goes (.perform x g items none))
      else none
  | _ => none

/-- The wait of `begin` ends.
Source: `_lifecycle.py`, `_CloseCoordinator.begin` -/
def joinStep (x g : ℕ) : Action → Option (Tree × Next)
  | .go =>
      let n := s.node x
      (n.close.outcome? g).bind fun error =>
        (n.close.leave g).map fun close =>
          (s.setClose x close, .returns (match error with
            | some e => some (copyError e)
            | none => n.result))
  | _ => none

/-- A part of the teardown of `x`.
Source: as `Tree.items` -/
def performStep (x g : ℕ) (kept : Option PyError) :
    List Item → Action → Option (Tree × Next)
  | [], .go => some (s, .returns ((s.node x).raises kept))
  | .work :: items, .go => some (s, .goes (.perform x g items kept))
  | .work :: _, .raises e => some (s, .goes (.fail x g e))
  | .stop :: items, .stopped r durationMs =>
      match retryInUseResult r with
      | .ok code =>
          some (s.modify x fun n => (n.ends errorName code durationMs).1,
            .goes (match ((s.node x).ends errorName code durationMs).2 with
              | none => .perform x g items kept
              | some e => .fail x g e))
      | .error e => some (s, .goes (.fail x g e))
  | .child c onError :: items, .go =>
      some (s, .calls (.perform x g (.child c onError :: items) kept) (s.closeFrame c))
  | .destroy :: items, .native r =>
      match destroyError errorName (s.node x).kind r with
      | none =>
          some (s.modify x fun n => { n with destroyed := true }, .goes (.perform x g items kept))
      | some e => some (s, .goes (.fail x g e))
  | .succeed :: items, .go =>
      let n := s.node x
      some (s.setClose x (n.close.succeed g (n.outcome kept)), .goes (.perform x g items kept))
  | .finish :: items, .go => some (s.finish x, .goes (.perform x g items kept))
  | _, _ => none

/-- A step of `RawDump.close` and of `RawDump.stop`.
Source: `_raw_dump.py`, `RawDump.close` and `RawDump.stop` -/
def dumpStep : Frame → Action → Option (Tree × Next)
  | .dumpClose _, .raises e => some (s, .returns (some e))
  | .dumpClose x, .go =>
      if (s.node x).locked then none
      else if (s.node x).closed then some (s, .returns none)
      else some (s.modify x fun n => { n with locked := true }, .goes (.dumpStopping x))
  | .dumpStopping x, .raises e => some (s, .goes (.dumpDestroy x (some e)))
  | .dumpStopping x, .go =>
      if (s.node x).stopped then some (s, .goes (.dumpDestroy x none)) else none
  | .dumpStopping x, .native r =>
      if (s.node x).stopped then none
      else
        match r.check errorName with
        | none => some (s.modify x fun n => { n with stopped := true }, .goes (.dumpDestroy x none))
        | some e => some (s, .goes (.dumpDestroy x (some e)))
  | .dumpDestroy x stopError, .native r =>
      match r.retryInUse errorName with
      | none =>
          some (s.modify x fun n => { n with destroyed := true, closed := true, locked := false },
            .goes (.dumpFinish x stopError))
      | some e => some (s.modify x fun n => { n with locked := false }, .returns (some e))
  | .dumpFinish x stopError, .go => some (s.finish x, .returns stopError)
  | .dumpStop _, .raises e => some (s, .returns (some e))
  | .dumpStop x, .go =>
      if (s.node x).locked then none
      else if (s.node x).closed then some (s, .returns (some closedError))
      else if (s.node x).stopped then some (s, .returns none)
      else some (s.modify x fun n => { n with locked := true }, .goes (.dumpStopNative x))
  | .dumpStopNative x, .native r =>
      match r.check errorName with
      | none =>
          some (s.modify x fun n => { n with stopped := true, locked := false }, .returns none)
      | some e => some (s.modify x fun n => { n with locked := false }, .returns (some e))
  | _, _ => none

/-- A step of `ExportTask._close_from_parent`, of the `cancel` in it, and of `ExportTask.wait`. Only
a `TiRTCError` of `wait` is looked at.
Source: `storage/__init__.py`, `ExportTask._close_from_parent`, `cancel` and `wait` -/
def exportStep : Frame → Action → Option (Tree × Next)
  | .exportClose x, .go =>
      if (s.node x).stopped then some (s, .calls (.exportWaited x) (.exportWait x))
      else some (s, .goes (.exportCancel x))
  | .exportCancel _, .raises e => some (s, .returns (some e))
  | .exportCancel x, .go =>
      if (s.node x).stopped then some (s, .calls (.exportWaited x) (.exportWait x))
      else
        match (s.node x).close.requireOpen with
        | some e => some (s, .returns (some e))
        | none => some (s, .goes (.exportCancelNative x))
  | .exportCancelNative x, .native r =>
      match r.check errorName with
      | none => some (s, .calls (.exportWaited x) (.exportWait x))
      | some e => some (s, .returns (some e))
  | .exportCheck x (.tirtc e), .go =>
      if (s.node x).close.status = .closed then some (s, .returns none)
      else some (s, .returns (some (.tirtc e)))
  | .exportCheck _ (.other ref), .go => some (s, .returns (some (.other ref)))
  | .exportDelete _, .go => some (s, .returns none)
  | .exportDelete _, .raises e => some (s, .returns (some e))
  | .exportWait _, .raises e => some (s, .returns (some e))
  | .exportWait x, .go => if (s.node x).done then some (s, .goes (.enter x false)) else none
  | _, _ => none

/-- A step of a call. -/
def frameStep : Frame → Action → Option (Tree × Next)
  | .enter x stops, act => enterStep s x stops act
  | .join x g, act => joinStep s x g act
  | .perform x g items kept, act => performStep errorName s x g kept items act
  | .check x g c e items kept, .go =>
      if (s.node c).isClosed then some (s, .goes (.perform x g items (kept <|> some e)))
      else some (s, .goes (.fail x g e))
  | .fail x g e, .go =>
      some (s.setClose x ((s.node x).close.fail g e), .returns (some e))
  | .check .., _ => none
  | .fail .., _ => none
  | f@(.exportClose _), act | f@(.exportCancel _), act | f@(.exportCancelNative _), act
  | f@(.exportWaited _), act | f@(.exportCheck ..), act | f@(.exportDelete _), act
  | f@(.exportWait _), act => exportStep errorName s f act
  | f, act => dumpStep errorName s f act

end Steps

/-! ### Threads -/

/-- A thread: what its last call has raised, and the calls it is in, the innermost first. -/
structure Thread where
  raised : Option PyError := none
  stack : List Frame := []

/-- A call returns or raises to the one below it. -/
def resume : List Frame → Option PyError → Thread
  | [], raised => ⟨raised, []⟩
  | .perform x g (.child _ _ :: items) kept :: stack, none =>
      ⟨none, .perform x g items kept :: stack⟩
  | .perform x g (.child c .keep :: items) kept :: stack, some e =>
      ⟨none, .check x g c e items kept :: stack⟩
  | .perform x g (.child _ .raise :: _) _ :: stack, some e => ⟨none, .fail x g e :: stack⟩
  | .exportWaited x :: stack, none => ⟨none, .exportDelete x :: stack⟩
  | .exportWaited x :: stack, some e => ⟨none, .exportCheck x e :: stack⟩
  | stack, _ => ⟨none, stack⟩

/-- Where a step of the innermost call takes the thread. -/
def Next.after (stack : List Frame) : Next → Thread
  | .goes f => ⟨none, f :: stack⟩
  | .calls f callee => ⟨none, callee :: f :: stack⟩
  | .returns raised => resume stack raised

/-- The call that a user makes of object `x`. -/
def Tree.callFrame (s : Tree) : Action → Option Frame
  | .close x =>
      match (s.node x).kind with
      | .rawDump => some (.dumpClose x)
      | .recordingTask | .exportTask => none
      | _ => some (.enter x false)
  | .stop x =>
      match (s.node x).kind with
      | .rawDump => some (.dumpStop x)
      | .recordingTask | .exportTask => some (.enter x true)
      | _ => none
  | .wait x => if (s.node x).kind = .exportTask then some (.exportWait x) else none
  | _ => none

/-- A step of a thread. -/
def threadStep (errorName : ℤ → String) (s : Tree) (thread : Thread) (act : Action) :
    Option (Tree × Thread) :=
  match thread.stack with
  | [] =>
      match act with
      | .create kind x r =>
          if x < s.count ∧ kind ∈ (s.node x).kind.childKinds then
            let next := s.create errorName kind x r
            some (next.1, ⟨next.2, []⟩)
          else none
      | act =>
          ((s.callFrame act).filter fun f => f.object < s.count).map fun f => (s, ⟨none, [f]⟩)
  | f :: stack => (frameStep errorName s f act).map fun next => (next.1, next.2.after stack)

/-- The Runtime completes an export, with the duration of its file. -/
structure Completed where
  x : ℕ
  code : ℤ
  durationMs : ℤ

/-- A step of the Runtime; what it raises goes to the pool.
Source: `storage/__init__.py`, `ExportTask._handle_event` -/
def completedStep (errorName : ℤ → String) (s : Tree) (e : Completed) : Option Tree :=
  if (s.node e.x).kind = .exportTask then
    some (s.modify e.x fun n => (n.ends errorName e.code e.durationMs).1)
  else none

/-- **The calls on the objects below one Client**, a Cloud Client or not. -/
def teardown (ι : Type) (cloud : Bool) (errorName : ℤ → String) :
    Threads ι Tree Thread Action Completed where
  start s := s = .root cloud
  entry := {}
  step _ := threadStep errorName
  env := completedStep errorName

end Tirtc.Teardown
