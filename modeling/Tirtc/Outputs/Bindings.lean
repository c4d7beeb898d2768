import Mathlib.Data.Finset.Basic
import Tirtc.Lib.Threads
import Tirtc.Lifecycle

/-!
# Outputs and the Connections and Replays they are bound to

Any number of threads attach, detach and close Outputs `O`, and close the parents `P` they are
attached to. The RTC and the storage classes run the same code on their own parents: a parent here
is a Connection or a Replay. A step is a lock-held section, a native call, or a wait; every result
that a native call can have is a label, and so is whether it is called from a callback.

* `Output`, `Parent`, `Bindings`: the records; each side of a binding is kept under its own lock.
* `AttachStage`, `DetachStage`, `OutputCloseStage`, `ParentCloseStage`, `BindingPc`: where a thread
  is.
* `attachBegin` to `closeParentStep`: the calls, as in the source. Arguments that the calls refuse
  at once are left out.
* `bindings`: all of it as a `Transition.Threads` system.
-/

set_option autoImplicit false
set_option linter.unusedSectionVars false

namespace Tirtc.Outputs

open Transition

/-! ## The records -/

/-- An Output. `attached` and `destroyed` are the Runtime's side of it. `closer` and `detacher` are
history: the thread that performs its teardown, and the one that has detached it natively and not
yet cleared `_bound`. So is `unpaired`: a native detach has met an Output that was not attached, or
had been destroyed. Source: `_core.py`, `_OutputBase._initialize_output` -/
structure Output (P ι : Type) where
  bound : Option P := none
  detaching : Bool := false
  nativeDetached : Bool := false
  close : CloseCoordinator := {}
  lock : Option ι := none
  attached : Option P := none
  destroyed : Bool := false
  closer : Option ι := none
  detacher : Option ι := none
  unpaired : Bool := false

/-- A Connection or a Replay. `closer` and `remaining` are history: the thread that performs its
teardown, and the Outputs of the snapshot that it has still to detach.
Source: `_core.py`, `Connection`; `storage/__init__.py`, `Replay._prepare` -/
structure Parent (O ι : Type) where
  outputs : Finset O := ∅
  close : CloseCoordinator := {}
  closer : Option ι := none
  remaining : List O := []

/-- All Outputs and all parents. -/
structure Bindings (O P ι : Type) where
  output : O → Output P ι := fun _ => {}
  parent : P → Parent O ι := fun _ => {}

/-- The Runtime detaches, and returns `r`. -/
def Output.nativeDetach {P ι : Type} (out : Output P ι) (r : NativeResult) : Output P ι :=
  { out with
    attached := if r = .code 0 then none else out.attached
    unpaired := out.unpaired || out.attached.isNone || out.destroyed }

namespace Bindings

variable {O P ι : Type} [DecidableEq O] [DecidableEq P] (s : Bindings O P ι)

/-- Output `o` becomes `out`. -/
def setOutput (o : O) (out : Output P ι) : Bindings O P ι :=
  { s with output := Function.update s.output o out }

/-- Parent `p` becomes `par`. -/
def setParent (p : P) (par : Parent O ι) : Bindings O P ι :=
  { s with parent := Function.update s.parent p par }

/-- `self._outputs.discard(output)`
Source: `_core.py`, `Connection._attach_failed` and `Connection._detach`; `storage/__init__.py`,
`Replay._attach_failed` and `Replay._detach` -/
def discard (p : P) (o : O) : Bindings O P ι :=
  s.setParent p { s.parent p with outputs := (s.parent p).outputs.erase o }

@[simp] theorem setOutput_output (o : O) (out : Output P ι) (q : O) :
    (s.setOutput o out).output q = if q = o then out else s.output q := by
  by_cases h : q = o
  · subst h
    simp [setOutput]
  · simp [setOutput, h]

@[simp] theorem setOutput_parent (o : O) (out : Output P ι) :
    (s.setOutput o out).parent = s.parent := rfl

@[simp] theorem setParent_output (p : P) (par : Parent O ι) :
    (s.setParent p par).output = s.output := rfl

@[simp] theorem setParent_parent (p : P) (par : Parent O ι) (q : P) :
    (s.setParent p par).parent q = if q = p then par else s.parent q := by
  by_cases h : q = p
  · subst h
    simp [setParent]
  · simp [setParent, h]

end Bindings

/-! ## Where a thread is -/

/-- The stages of `attach` under the lock of the Output. -/
inductive AttachStage
  | add | native
  | failed (error : PyError)
  | release (error : PyError)
  deriving DecidableEq

/-- The stages of a detach: in the native call under the lock of the Output, at the barrier, and
before the Output is taken out of the set of the parent. -/
inductive DetachStage
  | native | barrier | leave
  deriving DecidableEq

/-- The stages of `_close_output` in the thread that performs it. -/
inductive OutputCloseStage
  | dispatcher | detach | destroy | unbind | leave | succeed
  | fail (error : PyError)
  deriving DecidableEq

/-- The stages of the close of a parent in the thread that performs it, with the Outputs of the
snapshot that are still to be detached. -/
inductive ParentCloseStage (O : Type)
  | outputs (rest : List O)
  | succeed
  | fail (error : PyError)
  deriving DecidableEq

/-- Where a thread is: in no call, with what the last one raised, or in one of the calls. A detach
that the close of the parent makes goes back to it, with its generation and the rest of the
snapshot. -/
inductive BindingPc (O P : Type)
  | idle (raised : Option PyError)
  | attach (o : O) (p : P) (stage : AttachStage)
  | detach (o : O) (p : P) (origin : Option (ℕ × List O)) (stage : DetachStage)
  | joinOutput (o : O) (generation : ℕ)
  | closeOutput (o : O) (generation : ℕ) (bound : Option P) (stage : OutputCloseStage)
  | joinParent (p : P) (generation : ℕ)
  | closeParent (p : P) (generation : ℕ) (stage : ParentCloseStage O)
  deriving DecidableEq

/-- What moves a thread: a call; the parent's part of `attach`, refused if the lock of a Replay is
busy; the next Output of a teardown; a native call, and whether the time for its retries is over;
an exception in another part of a teardown; its end, with what a RawDump has raised; or the next
section or wait. -/
inductive BindingAction (O P : Type)
  | attach (o : O) (p : P)
  | detach (o : O) (callback : Bool)
  | closeOutput (o : O) (callback : Bool)
  | closeParent (p : P) (order : List O) (callback : Bool)
  | add (busy : Bool)
  | next (callback : Bool)
  | native (result : NativeResult) (timedOut : Bool)
  | other (error : PyError)
  | report (childError : Option PyError)
  | go

/-! ## The calls -/

section Calls

variable {O P ι : Type} [DecidableEq O] [DecidableEq P] (errorName : ℤ → String)
  (s : Bindings O P ι) (i : ι)

/-- `attach` up to the call of the parent.
Source: `_core.py`, `_OutputBase.attach`; `storage/__init__.py`, `_StorageOutputBase.attach` -/
def attachBegin (o : O) (p : P) : Option (Bindings O P ι × BindingPc O P) :=
  let out := s.output o
  if out.lock.isSome then none
  else match out.close.requireOpen with
    | some e => some (s, .idle (some e))
    | none =>
        if out.bound.isSome then some (s, .idle (some inUseError))
        else some (s.setOutput o { out with lock := some i }, .attach o p .add)

/-- A stage of `attach`. Nobody else comes to the Output until its lock is free.
Source: `_core.py`, `_OutputBase.attach` and `Connection._attach`; `storage/__init__.py`,
`_StorageOutputBase.attach` and `Replay._attach` -/
def attachStep (o : O) (p : P) :
    AttachStage → BindingAction O P → Option (Bindings O P ι × BindingPc O P)
  | .add, .add busy =>
      let par := s.parent p
      if busy then some (s, .attach o p (.release inUseError))
      else match par.close.requireOpen with
        | some e => some (s, .attach o p (.release e))
        | none =>
            some (s.setParent p { par with outputs := insert o par.outputs }, .attach o p .native)
  | .native, .native r _ =>
      match r.check errorName with
      | none =>
          some (s.setOutput o { s.output o with
            attached := some p
            bound := some p
            nativeDetached := false
            lock := none }, .idle none)
      | some e => some (s, .attach o p (.failed e))
  | .failed e, .go => some (s.discard p o, .attach o p (.release e))
  | .release e, .go => some (s.setOutput o { s.output o with lock := none }, .idle (some e))
  | _, _ => none

/-- `detach` up to the native call.
Source: `_core.py`, `_OutputBase.detach`; `storage/__init__.py`, `_StorageOutputBase.detach` -/
def detachBegin (o : O) (callback : Bool) : Option (Bindings O P ι × BindingPc O P) :=
  let out := s.output o
  if out.lock.isSome then none
  else match out.close.requireOpen with
    | some e => some (s, .idle (some e))
    | none =>
        match out.bound with
        | none => some (s, .idle (some (errorFromCode 6029 (errorName 6029))))
        | some p =>
            if out.detaching || callback then some (s, .idle (some inUseError))
            else some (s.setOutput o { out with lock := some i }, .detach o p none .native)

/-- `_detach_from_parent` up to the native call, on the next Output of a snapshot.
Source: `_core.py`, `_OutputBase._detach_from_parent`; `storage/__init__.py`,
`_StorageOutputBase._detach_from_parent` -/
def detachFromParent (p : P) (g : ℕ) (o : O) (rest : List O) (callback : Bool) :
    Option (Bindings O P ι × BindingPc O P) :=
  let out := s.output o
  if out.lock.isSome then none
  else if out.bound ≠ some p then
    some (s.setParent p { s.parent p with remaining := rest }, .closeParent p g (.outputs rest))
  else if out.detaching || callback then some (s, .closeParent p g (.fail inUseError))
  else some (s.setOutput o { out with lock := some i }, .detach o p (some (g, rest)) .native)

/-- Where a detach goes that raises. -/
def BindingPc.raised (p : P) : Option (ℕ × List O) → PyError → BindingPc O P
  | none, e => .idle (some e)
  | some (g, _), e => .closeParent p g (.fail e)

/-- Where a detach goes that returns. -/
def BindingPc.returned (p : P) : Option (ℕ × List O) → BindingPc O P
  | none => .idle none
  | some (g, rest) => .closeParent p g (.outputs rest)

/-- A stage of `detach` or `_detach_from_parent`. The native call is tried again while it returns
6026 and there is time.
Source: `_core.py`, `_OutputBase.detach` and `_OutputBase._detach_from_parent`;
`storage/__init__.py`, `_StorageOutputBase` -/
def detachStep (o : O) (p : P) (origin : Option (ℕ × List O)) :
    DetachStage → BindingAction O P → Option (Bindings O P ι × BindingPc O P)
  | .native, .native r timedOut =>
      let out := (s.output o).nativeDetach r
      if r = .code 6026 ∧ timedOut = false then
        some (s.setOutput o out, .detach o p origin .native)
      else match r.retryInUse errorName with
        | none =>
            some (s.setOutput o { out with detaching := true, lock := none, detacher := some i },
              .detach o p origin .barrier)
        | some e => some (s.setOutput o { out with lock := none }, .raised p origin e)
  | .barrier, .go =>
      let out := s.output o
      if out.lock.isSome then none
      else
        some (s.setOutput o { out with bound := none, detaching := false, detacher := none },
          .detach o p origin .leave)
  | .leave, .go =>
      let par := (s.discard p o).parent p
      let remaining := match origin with
        | none => par.remaining
        | some (_, rest) => rest
      some (s.setParent p { par with remaining := remaining }, .returned p origin)
  | _, _ => none

/-- The first section of `_close_output`.
Source: `_core.py`, `_OutputBase._close_output` -/
def closeOutputBegin (o : O) (callback : Bool) : Option (Bindings O P ι × BindingPc O P) :=
  let out := s.output o
  if out.lock.isSome then none
  else if out.detaching || callback then some (s, .idle (some inUseError))
  else
    let (result, close) := out.close.begin
    match result with
    | .join g => some (s.setOutput o { out with close := close }, .joinOutput o g)
    | .none => some (s, .idle none)
    | .inUse => some (s, .idle (some inUseError))
    | .perform g =>
        some (s.setOutput o { out with close := close, closer := some i },
          .closeOutput o g out.bound .dispatcher)

/-- A thread that joined a close in progress wakes with its outcome, under the lock again.
Source: `_lifecycle.py`, `_CloseCoordinator.begin` -/
def wakeOutput (o : O) (g : ℕ) : Option (Bindings O P ι × BindingPc O P) :=
  let out := s.output o
  if out.lock.isSome then none
  else (out.close.outcome? g).bind fun error =>
    (out.close.leave g).map fun close =>
      (s.setOutput o { out with close := close }, .idle (error.map copyError))

/-- A stage of `_close_output`, with `bound` as its first section has read it. Its native calls and
what it reads before them are not under the lock.
Source: `_core.py`, `_OutputBase._close_output` -/
def closeOutputStep (o : O) (g : ℕ) (bound : Option P) :
    OutputCloseStage → BindingAction O P → Option (Bindings O P ι × BindingPc O P)
  | .dispatcher, .go =>
      if bound.isSome && !(s.output o).nativeDetached then
        some (s, .closeOutput o g bound .detach)
      else some (s, .closeOutput o g bound .destroy)
  | .detach, .native r timedOut =>
      let out := (s.output o).nativeDetach r
      if r = .code 6026 ∧ timedOut = false then
        some (s.setOutput o out, .closeOutput o g bound .detach)
      else match r.retryInUse errorName with
        | none =>
            some (s.setOutput o { out with nativeDetached := true },
              .closeOutput o g bound .destroy)
        | some e => some (s.setOutput o out, .closeOutput o g bound (.fail e))
  | .destroy, .native r _ =>
      match r.retryInUse errorName with
      | none =>
          some (s.setOutput o { s.output o with destroyed := true },
            .closeOutput o g bound .unbind)
      | some e => some (s, .closeOutput o g bound (.fail e))
  | .unbind, .go =>
      let out := s.output o
      if out.lock.isSome then none
      else some (s.setOutput o { out with bound := none }, .closeOutput o g bound .leave)
  | .leave, .go =>
      match bound with
      | some p => some (s.discard p o, .closeOutput o g bound .succeed)
      | none => some (s, .closeOutput o g bound .succeed)
  | .succeed, .go =>
      let out := s.output o
      if out.lock.isSome then none
      else
        some (s.setOutput o { out with close := out.close.succeed g, closer := none }, .idle none)
  | .fail e, .go =>
      let out := s.output o
      if out.lock.isSome then none
      else
        some (s.setOutput o { out with close := out.close.fail g e, closer := none },
          .idle (some e))
  | _, _ => none

/-- The first section of the close of a parent, whose snapshot has the Outputs in some order.
Source: `_core.py`, `Connection._close_connection`; `storage/__init__.py`,
`Replay._close_replay` -/
def closeParentBegin (p : P) (order : List O) (callback : Bool) :
    Option (Bindings O P ι × BindingPc O P) :=
  let par := s.parent p
  if callback then some (s, .idle (some inUseError))
  else if order.Nodup ∧ order.toFinset = par.outputs then
    let (result, close) := par.close.begin
    match result with
    | .join g => some (s.setParent p { par with close := close }, .joinParent p g)
    | .none => some (s, .idle none)
    | .inUse => some (s, .idle (some inUseError))
    | .perform g =>
        some (s.setParent p { par with close := close, closer := some i, remaining := order },
          .closeParent p g (.outputs order))
  else none

/-- A thread that joined a close in progress wakes with its outcome.
Source: `_lifecycle.py`, `_CloseCoordinator.begin` -/
def wakeParent (p : P) (g : ℕ) : Option (Bindings O P ι × BindingPc O P) :=
  let par := s.parent p
  (par.close.outcome? g).bind fun error =>
    (par.close.leave g).map fun close =>
      (s.setParent p { par with close := close }, .idle (error.map copyError))

/-- A stage of the close of a parent. Its other parts (an attempt, the RawDumps, the RecordingTasks,
the dispatcher, a native stop or disconnect) come before or behind the Outputs, and may raise.
Source: `_core.py`, `Connection._close_connection`; `storage/__init__.py`,
`Replay._close_replay` -/
def closeParentStep (p : P) (g : ℕ) :
    ParentCloseStage O → BindingAction O P → Option (Bindings O P ι × BindingPc O P)
  | .outputs (o :: rest), .next callback => detachFromParent s i p g o rest callback
  | .outputs [], .native r _ =>
      match r.retryInUse errorName with
      | none => some (s, .closeParent p g .succeed)
      | some e => some (s, .closeParent p g (.fail e))
  | .outputs _, .other e => some (s, .closeParent p g (.fail e))
  | .succeed, .report childError =>
      let par := s.parent p
      some (s.setParent p { par with close := par.close.succeed g childError, closer := none },
        .idle childError)
  | .fail e, .go =>
      let par := s.parent p
      some (s.setParent p { par with close := par.close.fail g e, closer := none },
        .idle (some e))
  | _, _ => none

/-- A step of thread `i`. -/
def bindingStep : BindingPc O P → BindingAction O P → Option (Bindings O P ι × BindingPc O P)
  | .idle _, .attach o p => attachBegin s i o p
  | .idle _, .detach o callback => detachBegin errorName s i o callback
  | .idle _, .closeOutput o callback => closeOutputBegin s i o callback
  | .idle _, .closeParent p order callback => closeParentBegin s i p order callback
  | .attach o p stage, act => attachStep errorName s o p stage act
  | .detach o p origin stage, act => detachStep errorName s i o p origin stage act
  | .joinOutput o g, .go => wakeOutput s o g
  | .closeOutput o g bound stage, act => closeOutputStep errorName s o g bound stage act
  | .joinParent p g, .go => wakeParent s p g
  | .closeParent p g stage, act => closeParentStep errorName s i p g stage act
  | _, _ => none

end Calls

/-- **The attach, detach and close calls**, from the making of the Outputs and parents on. -/
def bindings (O P ι : Type) [DecidableEq O] [DecidableEq P] (errorName : ℤ → String) :
    Threads ι (Bindings O P ι) (BindingPc O P) (BindingAction O P) Empty where
  start s := s = {}
  entry := .idle none
  step i s pc act := bindingStep errorName s i pc act
  env _ e := nomatch e

end Tirtc.Outputs
