import Tirtc.Core.Calls
import Tirtc.Outputs.Bindings

/-!
# Who uses the native handle of a Connection

Any number of threads call `connect`, `disconnect`, `close` and the operations of one Connection,
and attach, detach and close Outputs on it; the Runtime and the pool run as in `Calls`. Every native
call with the handle of the Connection looks whether the handle has been destroyed.

* `Handle`: the record of `Calls` with its lock, the Outputs, and what becomes of the handle;
  `Handle.bindings` is what the calls of `Bindings` see of it.
* `HandlePc`, `HandleAction`: where a thread is, and what moves it.
* `operationBegin`, `operationEnd`: an operation, which holds the lock in its native call.
* `closeSection`, `callSection`, `outputSection`: the other calls, whose sections wait for it.
* `handleCalls`: all of it as a `Transition.Threads` system.

The Outputs have no other parent here, and threads inside a callback are left out.
-/

set_option autoImplicit false
set_option linter.unusedSectionVars false

namespace Tirtc.HandleUse

open Transition Outputs

/-! ## The record -/

/-- A Connection. `lock` is the thread that is in a native call under `_lock`. `closer` and
`remaining` are history: the thread that performs the teardown, and the Outputs of the snapshot that
it has still to detach. So are `destroyed`, that the native close of the handle has succeeded, and
`late`, that a native function has been called with the handle after that.
Source: `_core.py`, `Connection._create` -/
structure Handle (O ι : Type) where
  shared : Shared ι := {}
  lock : Option ι := none
  output : O → Output Unit ι := fun _ => {}
  outputs : Finset O := ∅
  closer : Option ι := none
  remaining : List O := []
  destroyed : Bool := false
  late : Bool := false

namespace Handle

variable {O ι : Type} (s : Handle O ι)

/-- The status of the close. -/
abbrev status : CloseStatus := s.shared.connection.close.status

/-- The Outputs and their one parent. -/
def bindings : Bindings O Unit ι where
  output := s.output
  parent _ :=
    { outputs := s.outputs
      close := s.shared.connection.close
      closer := s.closer
      remaining := s.remaining }

/-- The record after a step of the calls on the Outputs; they leave the close alone. -/
def withBindings (b : Bindings O Unit ι) : Handle O ι :=
  { s with
    output := b.output
    outputs := (b.parent ()).outputs
    remaining := (b.parent ()).remaining }

end Handle

/-! ## Where a thread is -/

/-- Where a thread is: in a call of `Calls` or between two calls, in a call on an Output (which the
close makes for each Output of its snapshot), or in the native call of an operation. -/
inductive HandlePc (O : Type)
  | call (pc : Pc)
  | output (pc : BindingPc O Unit)
  | operation
  deriving DecidableEq

/-- What moves a thread: what moves it in `Calls` or in `Bindings`, a close with the order of its
snapshot, an operation, or the result of its native call. -/
inductive HandleAction (O : Type)
  | call (act : CallAction)
  | output (act : BindingAction O Unit)
  | close (order : List O)
  | operate
  | operated (result : NativeResult)

/-- Where the close goes with the Outputs of its snapshot that are still to be detached: behind them
come its other children. -/
def detachNext {O : Type} (g : ℕ) : List O → HandlePc O
  | [] => .call (.close g .children)
  | rest => .output (.closeParent () g (.outputs rest))

/-- Where a step of a call in `Calls` takes the thread. -/
def afterCall {O : Type} (remaining : List O) : Pc → HandlePc O
  | .close g .children => detachNext g remaining
  | pc => .call pc

/-- Where a step of a call in `Bindings` takes the thread. -/
def afterOutput {O : Type} : BindingPc O Unit → HandlePc O
  | .idle raised => .call (.idle raised)
  | .closeParent _ g (.outputs rest) => detachNext g rest
  | .closeParent _ g (.fail e) => .call (.close g (.fail e))
  | pc => .output pc

/-- The step that comes next is a section under `Connection._lock`.
Source: `_core.py`, `Connection` -/
def locks : Pc → Bool
  | .idle _ | .closeJoin _ => true
  | .connect _ (.rollback _) | .connect _ .readCancelling | .connect _ .finishLock => true
  | .disconnect .write => true
  | .close _ (.read _) | .close _ (.state _) | .close _ (.succeed _) | .close _ (.fail _) => true
  | pc =>
      match pc.cancel? with
      | some (_, .enter) | some (_, .awaitDone) | some (_, .terminal) | some (_, .mark) => true
      | _ => false

/-- So it is in a call on an Output.
Source: `_core.py`, `Connection._attach`, `Connection._attach_failed` and `Connection._detach` -/
def locksOutput {O : Type} : BindingPc O Unit → Bool
  | .attach _ _ .add | .attach _ _ (.failed _) => true
  | .detach _ _ _ .leave | .closeOutput _ _ (some _) .leave => true
  | _ => false

/-- So it is for the Runtime and the pool.
Source: `_core.py`, `Connection._handle_event` and `Connection._managed_complete` -/
def locksEnvironment : Environment → Bool
  | .handle | .managedComplete _ _ => true
  | _ => false

/-- The native call here gets the handle of the Connection.
Source: `_core.py`, `Connection.connect`, `Connection.disconnect`, `Connection._cancel_connect` and
`Connection._close_connection` -/
def uses : Pc → Bool
  | .connect _ .starting | .disconnect .native => true
  | .close _ (.disconnect _) | .close _ (.destroy _) => true
  | pc =>
      match pc.cancel? with
      | some (_, .disconnect) => true
      | _ => false

/-- So does the native call of an `attach`.
Source: `_core.py`, `_OutputBase.attach` -/
def usesOutput {O : Type} : BindingPc O Unit → Bool
  | .attach _ _ .native => true
  | _ => false

/-- The native close of the handle succeeds.
Source: `_core.py`, `Connection._close_connection` -/
def destroys : Pc → CallAction → Bool
  | .close _ (.destroy _), .native (.code 0) => true
  | _, _ => false

/-! ## The calls -/

section Calls

variable {O ι : Type} [DecidableEq O] (errorName : ℤ → String) (mode : AuthMode) (s : Handle O ι)
  (i : ι)

/-- An operation up to its native call.
Source: `_core.py`, `Connection._native_operation` (`send_command`, `send_stream_message`, the
subscriptions and `request_video_keyframe`), `Connection.start_recording` and
`Connection.start_raw_dump` -/
def operationBegin : Option (Handle O ι × HandlePc O) :=
  if s.lock.isSome then none
  else match s.shared.connection.close.requireOpen with
    | some e => some (s, .call (.idle (some e)))
    | none => some ({ s with lock := some i }, .operation)

/-- The native call of an operation, which then gives the lock back.
Source: `_core.py`, `Connection._native_operation`, `Connection.start_recording` and
`Connection.start_raw_dump` -/
def operationEnd (r : NativeResult) : Option (Handle O ι × HandlePc O) :=
  some ({ s with lock := none, late := s.late || s.destroyed },
    .call (.idle (r.check errorName)))

/-- The first section of `_close_connection`, whose snapshot has the Outputs in some order.
Source: `_core.py`, `Connection._close_connection` -/
def closeSection (order : List O) : Option (Handle O ι × HandlePc O) :=
  if s.lock.isSome then none
  else if order.Nodup ∧ order.toFinset = s.outputs then
    let (shared, pc) := closeBegin s.shared
    match pc with
    | .close g stage =>
        some ({ s with shared := shared, closer := some i, remaining := order },
          afterCall order (.close g stage))
    | pc => some ({ s with shared := shared }, .call pc)
  else none

/-- A step of `connect`, `disconnect` and the other parts of `close`. -/
def callSection (pc : Pc) (act : CallAction) : Option (Handle O ι × HandlePc O) :=
  if locks pc && s.lock.isSome then none
  else (callStep errorName s.shared i mode pc act).map fun next =>
    ({ s with
        shared := next.1
        late := s.late || s.destroyed && uses pc
        destroyed := s.destroyed || destroys pc act },
      afterCall s.remaining next.2)

/-- A step of a call on an Output. -/
def outputSection (pc : BindingPc O Unit) (act : BindingAction O Unit) :
    Option (Handle O ι × HandlePc O) :=
  if locksOutput pc && s.lock.isSome then none
  else (bindingStep errorName s.bindings i pc act).map fun next =>
    ({ s.withBindings next.1 with late := s.late || s.destroyed && usesOutput pc },
      afterOutput next.2)

/-- A step of thread `i`. The lock of a Connection is never busy for an `attach`, which waits for
it. -/
def handleStep : HandlePc O → HandleAction O → Option (Handle O ι × HandlePc O)
  | .call (.idle _), .operate => operationBegin s i
  | .operation, .operated r => operationEnd errorName s r
  | .call (.idle _), .close order => closeSection s i order
  | .call (.idle _), .call .close => none
  | .call pc, .call act => callSection errorName mode s i pc act
  | .call (.idle raised), .output (.attach o p) =>
      outputSection errorName s i (.idle raised) (.attach o p)
  | .call (.idle raised), .output (.detach o callback) =>
      outputSection errorName s i (.idle raised) (.detach o callback)
  | .call (.idle raised), .output (.closeOutput o callback) =>
      outputSection errorName s i (.idle raised) (.closeOutput o callback)
  | .output _, .output (.add true) => none
  | .output pc, .output act => outputSection errorName s i pc act
  | _, _ => none

/-- A step of the Runtime or the pool. -/
def handleEnvironment (e : Environment) : Option (Handle O ι) :=
  if locksEnvironment e && s.lock.isSome then none
  else (environmentStep s.shared e).map fun shared => { s with shared := shared }

end Calls

/-- **The calls on one Connection and its Outputs**, of a Client in mode `mode`, from the creation
of the Connection on. -/
def handleCalls (O ι : Type) [DecidableEq O] (mode : AuthMode) (errorName : ℤ → String) :
    Threads ι (Handle O ι) (HandlePc O) (HandleAction O) Environment where
  start s := s = {}
  entry := .call (.idle none)
  step i s pc act := handleStep errorName mode s i pc act
  env := handleEnvironment

end Tirtc.HandleUse
