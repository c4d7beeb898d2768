import Tirtc.Dispatch.Executor

/-!
# Native callback tasks

A Replay and an ExportTask have a dispatcher whose queue carries nothing but tasks of the Runtime:
`dispatch_callback_task` wraps each one in a capsule, the sink queues it, and a pool thread, or the
capsule's destructor, runs it. A running task calls the event callback of the object directly.

* `NativeTask`, `Capsule`: a task with the record behind its capsule.
* `TaskCall`, `PoolRun`: where a thread that dispatches or closes is, and how far a pool thread is
  with the task it has taken.
* `NativeTasks`: all dispatchers of such objects, the pool and the threads. The dispatchers of
  other objects only keep the pool busy, and are left out.
* `Runner`: who runs a task: a pool thread, a thread of the Runtime, a destructor.
* `TaskAction`, `step`, `machine`: every interleaving, in the creating process.
-/

set_option autoImplicit false

namespace Tirtc

open Transition

/-! ## The state -/

/-- The capsule of a task: not made, alive, in its destructor (which may be in the event callback),
or freed. -/
inductive Capsule
  | absent | live
  | destroying (callback : Bool)
  | freed
  deriving DecidableEq, Repr

/-- A task that the Runtime has handed over. `function` says that the pointer in the record is set,
`frame` that `dispatch_callback_task` holds its own reference to the capsule. `invocations`,
`accepted` and `caller` are history.
Source: `native/extension.c`, `NativeCallbackTask` -/
structure NativeTask (D ι : Type) where
  dispatcher : Option D := none
  function : Bool := false
  capsule : Capsule := .absent
  frame : Bool := false
  invocations : ℕ := 0
  accepted : Bool := false
  caller : Option ι := none
  deriving DecidableEq

/-- Where a thread is: in no call; in `dispatch_callback_task` before the record is made, running
the function itself, in the sink, in `post_native_task`, or before it drops its reference; or in a
close of the object, at the wait of `_Dispatcher.close` or behind it.
Source: `native/extension.c`, `dispatch_callback_task`; `_dispatch.py`, `_native_task_sink` -/
inductive TaskCall (D : Type)
  | idle
  | allocate (n : ℕ)
  | direct (n : ℕ) (callback : Bool)
  | sink (n : ℕ)
  | post (d : D) (n : ℕ)
  | release (n : ℕ)
  | closing (d : D)
  | closed (d : D)
  deriving DecidableEq

/-- How far a pool thread is with the task it has taken out of the queue. -/
inductive PoolRun
  | before
  | inside (callback : Bool)
  | after
  deriving DecidableEq, Repr

/-- The pool, the tasks by number and the threads `ι`. `holding` are the threads that hold a
reference to a dispatcher, `freed` and `handlerGone` say that a dispatcher and the object of its
handler are gone, and `destroyed` that the native object is. `accepted`, `ran` and `returned` are
history: the tasks that `post_native_task` has taken, those of them that have been invoked, and
whether a call of `_Dispatcher.close` has returned. -/
structure NativeTasks (D ι : Type) where
  pool : Executor D (List PyValue)
  made : ℕ := 0
  task : ℕ → NativeTask D ι := fun _ => {}
  runs : Fin 2 → PoolRun := fun _ => .before
  calls : ι → TaskCall D := fun _ => .idle
  holding : D → List ι := fun _ => []
  freed : D → Bool := fun _ => false
  handlerGone : D → Bool := fun _ => false
  destroyed : D → Bool := fun _ => false
  accepted : D → List ℕ := fun _ => []
  ran : D → List ℕ := fun _ => []
  returned : D → Bool := fun _ => false

/-- The queue entry of task `n`: `("native_task", (task,), False, True)`. -/
def taskEvent (n : ℕ) : Event (List PyValue) := ⟨.nativeTask, [.object n], false, true⟩

/-- The task of a queue entry. -/
def eventTask (event : Event (List PyValue)) : Option ℕ :=
  match event.kind, event.values with
  | .nativeTask, [.object n] => some n
  | _, _ => none

@[simp] theorem eventTask_taskEvent (n : ℕ) : eventTask (taskEvent n) = some n := rfl

/-- The task that a pool thread has taken out of the queue. -/
def takenTask {D : Type} : Worker D (List PyValue) → Option ℕ
  | .running _ event => eventTask event
  | _ => none

/-- Who runs a task. -/
inductive Runner (ι : Type)
  | pool (w : Fin 2)
  | thread (i : ι)
  | destructor (n : ℕ)
  deriving DecidableEq

/-- The steps of the threads of the Runtime, of the closing threads, of the runners and of the
pool. -/
inductive TaskAction (D ι : Type)
  | dispatch (i : ι) (d : D) (gil : Bool)
  | allocate (i : ι) (ok : Bool)
  | lookUp (i : ι) (reached : Bool)
  | post (i : ι)
  | release (i : ι)
  | run (w : Fin 2)
  | destroy (n : ℕ)
  | callback (r : Runner ι)
  | callbackEnd (r : Runner ι)
  | functionEnd (r : Runner ι)
  | close (i : ι) (d : D)
  | wake (i : ι)
  | nativeClose (i : ι) (code : ℤ)
  | discard (d : D)
  | handlerGone (d : D)
  | free (d : D)
  | put (d : D)
  | get (w : Fin 2)
  | drainBegin (w : Fin 2)
  | drainEnd (w : Fin 2)
  | reschedule (w : Fin 2)

namespace NativeTasks

variable {D ι : Type} [DecidableEq D] [DecidableEq ι] (s : NativeTasks D ι)

/-- Thread `i` goes to `call`. -/
def goto (i : ι) (call : TaskCall D) : NativeTasks D ι :=
  { s with calls := Function.update s.calls i call }

/-- Task `n` becomes `f` of itself. -/
def modify (n : ℕ) (f : NativeTask D ι → NativeTask D ι) : NativeTasks D ι :=
  { s with task := Function.update s.task n (f (s.task n)) }

/-- Pool thread `w` is at `run` with its task. -/
def setRun (w : Fin 2) (run : PoolRun) : NativeTasks D ι :=
  { s with runs := Function.update s.runs w run }

/-- Thread `i` takes a reference to dispatcher `d`. -/
def hold (i : ι) (d : D) : NativeTasks D ι :=
  { s with holding := Function.update s.holding d (i :: s.holding d) }

/-- Thread `i` drops a reference to dispatcher `d`. -/
def unhold (i : ι) (d : D) : NativeTasks D ι :=
  { s with holding := Function.update s.holding d ((s.holding d).erase i) }

/-- The function of task `n` is called. -/
def invoke (n : ℕ) : NativeTasks D ι :=
  { s.modify n fun task =>
      { task with function := false, invocations := task.invocations + 1 } with
    ran := fun d =>
      if (s.task n).accepted = true ∧ (s.task n).dispatcher = some d then s.ran d ++ [n]
      else s.ran d }

/-- `post_native_task` has taken task `n`. -/
def accept (d : D) (n : ℕ) : NativeTasks D ι :=
  { s.modify n fun task => { task with accepted := true } with
    accepted := Function.update s.accepted d (s.accepted d ++ [n]) }

/-- Somebody holds a reference to the capsule of task `n`: `dispatch_callback_task`, the queue of
its dispatcher, or a pool thread that has taken it. -/
def held (n : ℕ) : Bool :=
  let task := s.task n
  task.frame ||
    (match task.dispatcher with
      | some d => !s.freed d && (s.pool.dispatchers d).events.any fun e => eventTask e == some n
      | none => false) ||
    decide (∃ w, takenTask (s.pool.worker w) = some n)

/-- The task whose function a runner is in, and whether that is in the event callback. -/
def inFunction : Runner ι → Option (ℕ × Bool)
  | .pool w =>
      match s.pool.worker w, s.runs w with
      | .running _ event, .inside callback => (eventTask event).map fun n => (n, callback)
      | _, _ => none
  | .thread i =>
      match s.calls i with
      | .direct n callback => some (n, callback)
      | _ => none
  | .destructor n =>
      match (s.task n).capsule with
      | .destroying callback => some (n, callback)
      | _ => none

/-- A runner enters or leaves the event callback. -/
def setCallback (n : ℕ) (callback : Bool) : Runner ι → NativeTasks D ι
  | .pool w => s.setRun w (.inside callback)
  | .thread i => s.goto i (.direct n callback)
  | .destructor m => s.modify m fun task => { task with capsule := .destroying callback }

/-- The function has returned to its runner. -/
def leave : Runner ι → NativeTasks D ι
  | .pool w => s.setRun w .after
  | .thread i => s.goto i .idle
  | .destructor m => s.modify m fun task => { task with capsule := .freed }

/-- A step of the pool alone. -/
def poolStep (a : ExecutorAction D (List PyValue)) : Option (NativeTasks D ι) :=
  (s.pool.step a).map fun pool => { s with pool := pool }

/-! ## The steps -/

/-- A task is handed over before the native object is destroyed. Without the GIL its function is
called at once. Source: `native/extension.c`, `dispatch_callback_task` -/
def dispatchStep (i : ι) (d : D) (gil : Bool) : Option (NativeTasks D ι) :=
  match s.calls i with
  | .idle =>
      if s.destroyed d then none
      else
        let n := s.made
        let s := { s with
          made := n + 1
          task := Function.update s.task n { dispatcher := some d, caller := some i } }
        if gil then some (s.goto i (.allocate n))
        else some ((s.invoke n).goto i (.direct n false))
  | _ => none

/-- The record and its capsule are made, or the function is called at once.
Source: `native/extension.c`, `dispatch_callback_task` -/
def allocateStep (i : ι) (ok : Bool) : Option (NativeTasks D ι) :=
  match s.calls i with
  | .allocate n =>
      if ok then
        some ((s.modify n fun task =>
          { task with function := true, capsule := .live, frame := true }).goto i (.sink n))
      else some ((s.invoke n).goto i (.direct n false))
  | _ => none

/-- The sink looks the dispatcher up. It is not reached when there is no callback any more, or when
the call fails before. Source: `_dispatch.py`, `_native_task_sink` -/
def lookUpStep (i : ι) (reached : Bool) : Option (NativeTasks D ι) :=
  match s.calls i with
  | .sink n =>
      match (s.task n).dispatcher with
      | some d =>
          if reached && !s.freed d then some ((s.hold i d).goto i (.post d n))
          else some (s.goto i (.release n))
      | none => none
  | _ => none

/-- The section of `post_native_task` behind its wait.
Source: `_dispatch.py`, `_Dispatcher.post_native_task` -/
def postStep (i : ι) : Option (NativeTasks D ι) :=
  match s.calls i with
  | .post d n =>
      (s.poolStep (.postNativeTask d [.object n])).map fun t =>
        let t := (t.unhold i d).goto i (.release n)
        if (s.pool.dispatchers d).closed then t else t.accept d n
  | _ => none

/-- `dispatch_callback_task` drops its reference and returns. -/
def releaseStep (i : ι) : Option (NativeTasks D ι) :=
  match s.calls i with
  | .release n => some ((s.modify n fun task => { task with frame := false }).goto i .idle)
  | _ => none

/-- A pool thread runs the task it has taken, unless it has been run.
Source: `native/extension.c`, `py_run_callback_task` and `run_callback_task_locked` -/
def runStep (w : Fin 2) : Option (NativeTasks D ι) :=
  match s.pool.worker w, s.runs w with
  | .running _ event, .before =>
      (eventTask event).map fun n =>
        if (s.task n).function then (s.invoke n).setRun w (.inside false) else s.setRun w .after
  | _, _ => none

/-- The last reference to a capsule has gone: its destructor runs the task, unless that has been
run, and frees the record. Source: `native/extension.c`, `callback_task_destroy` -/
def destroyStep (n : ℕ) : Option (NativeTasks D ι) :=
  if (s.task n).capsule = .live ∧ s.held n = false then
    if (s.task n).function then
      some ((s.invoke n).modify n fun task => { task with capsule := .destroying false })
    else some (s.modify n fun task => { task with capsule := .freed })
  else none

/-- A running task posts an event to its object: the sink calls the handler, if it is there.
Source: `_dispatch.py`, `_native_task_sink` -/
def callbackStep (r : Runner ι) : Option (NativeTasks D ι) :=
  match s.inFunction r with
  | some (n, false) =>
      match (s.task n).dispatcher with
      | some d =>
          if s.freed d || s.handlerGone d then none else some (s.setCallback n true r)
      | none => none
  | _ => none

/-- The event callback returns. -/
def callbackEndStep (r : Runner ι) : Option (NativeTasks D ι) :=
  match s.inFunction r with
  | some (n, true) => some (s.setCallback n false r)
  | _ => none

/-- The function of a task returns. -/
def functionEndStep (r : Runner ι) : Option (NativeTasks D ι) :=
  match s.inFunction r with
  | some (_, false) => some (s.leave r)
  | _ => none

/-- A close of the object comes to `self._dispatcher.close()`.
Source: `storage/__init__.py`, `Replay._close_replay`, `ExportTask._finish` and `ExportTask.stop` -/
def closeStep (i : ι) (d : D) : Option (NativeTasks D ι) :=
  match s.calls i with
  | .idle =>
      if s.freed d then none
      else (s.poolStep (.close d)).map fun t => (t.hold i d).goto i (.closing d)
  | _ => none

/-- `_Dispatcher.close` returns. Source: `_dispatch.py`, `_Dispatcher.close` -/
def wakeStep (i : ι) : Option (NativeTasks D ι) :=
  match s.calls i with
  | .closing d =>
      if (s.pool.dispatchers d).closeDone then
        some ({ s with returned := Function.update s.returned d true }.goto i (.closed d))
      else none
  | _ => none

/-- The native destroy behind it, and the end of the close.
Source: `storage/__init__.py`, `Replay._close_replay` -/
def nativeCloseStep (i : ι) (code : ℤ) : Option (NativeTasks D ι) :=
  match s.calls i with
  | .closed d =>
      some (({ s with destroyed := if code = 0 then Function.update s.destroyed d true
        else s.destroyed }.unhold i d).goto i .idle)
  | _ => none

/-- A dispatcher without a reference is freed: no thread holds one, and it is in no ready queue. -/
def freeStep (d : D) : Option (NativeTasks D ι) :=
  if s.freed d = false ∧ s.holding d = [] ∧ d ∉ s.pool.ready ∧ d ∉ s.pool.putting ∧
      ∀ w, (s.pool.worker w).token ≠ some d then
    some { s with freed := Function.update s.freed d true }
  else none

/-- One step. -/
def step : TaskAction D ι → Option (NativeTasks D ι)
  | .dispatch i d gil => s.dispatchStep i d gil
  | .allocate i ok => s.allocateStep i ok
  | .lookUp i reached => s.lookUpStep i reached
  | .post i => s.postStep i
  | .release i => s.releaseStep i
  | .run w => s.runStep w
  | .destroy n => s.destroyStep n
  | .callback r => s.callbackStep r
  | .callbackEnd r => s.callbackEndStep r
  | .functionEnd r => s.functionEndStep r
  | .close i d => s.closeStep i d
  | .wake i => s.wakeStep i
  | .nativeClose i code => s.nativeCloseStep i code
  | .discard d => if s.freed d then none else s.poolStep (.discard d)
  | .handlerGone d => some { s with handlerGone := Function.update s.handlerGone d true }
  | .free d => s.freeStep d
  | .put d => s.poolStep (.put d)
  | .get w => s.poolStep (.get w)
  | .drainBegin w => (s.poolStep (.drainBegin w)).map fun t => t.setRun w .before
  | .drainEnd w => if s.runs w = .after then s.poolStep (.drainEnd w) else none
  | .reschedule w => s.poolStep (.reschedule w)

/-- The runs on fresh dispatchers of any capacities. -/
def machine (D ι : Type) [DecidableEq D] [DecidableEq ι] :
    Machine (NativeTasks D ι) (TaskAction D ι) where
  start s := ∃ (capacity : D → ℕ) (frameCapacity : D → Option ℕ),
    s = { pool := { dispatchers := fun d => .init (capacity d) (frameCapacity d) } }
  step := step

end NativeTasks

end Tirtc
