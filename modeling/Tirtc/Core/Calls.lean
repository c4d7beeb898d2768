import Tirtc.Core.Connection
import Tirtc.Lib.Threads

/-!
# Calls on one Connection

Any number of threads call `connect`, `disconnect` and `close` on one Connection, while the Runtime
posts events and completes managed attempts and the pool drains the dispatcher. A step is a
lock-held section, a native call or a wait; every result a native call can have is a label, and so
is a wait that times out.

* `Shared`: the record, the event in the handler, and per attempt its history (`Attempt`).
* `Pc`: where a thread is; `CancelStage`, `ConnectStage`, `DisconnectStage`, `CloseStage`: where in
  a call.
* `cancelStep`, `connectStep`, `disconnectStep`, `closeStep`: the calls, as in the source.
* `Environment`: the Runtime and the pool.
* `calls`: all of it as a `Transition.Threads` system.
-/

set_option autoImplicit false

namespace Tirtc

open Transition

/-! ## The shared state -/

/-- What wrote a terminal code: the state event with this number, the managed completion, or the
cancellation. -/
inductive Cause
  | event (tag : ℕ)
  | managed
  | cancelled
  deriving DecidableEq, Repr

/-- What `_finish_connect` saw and left. -/
structure FinishView where
  code : Option ℤ
  error : Option PyError
  state : ConnectionState
  deriving DecidableEq

/-- What `connect` raises behind `_finish_connect`, if anything.
Source: `_core.py`, `Connection._wait_connect` -/
def FinishView.raises (errorName : ℤ → String) (seen : FinishView) : Option PyError :=
  match seen.error, seen.code with
  | some e, _ => some (copyError e)
  | none, some code => if code = 0 then none else some (errorFromCode code (errorName code))
  | none, none => none

/-- The history of an attempt. -/
structure Attempt (ι : Type) where
  /-- The thread whose `connect` it is. -/
  owner : Option ι := none
  /-- The number of posts when it was made. -/
  bornAt : ℕ := 0
  /-- The number of posts when its native connect call returned. -/
  startedAt : Option ℕ := none
  /-- The thread whose cancellation was accepted. -/
  canceller : Option ι := none
  /-- The native connect call failed. -/
  startFailed : Bool := false
  /-- A native call of the cancellation failed. -/
  cancelFailed : Bool := false
  /-- Closing the attempt's native handle failed. -/
  closeFailed : Bool := false
  /-- The writes of the terminal code, the last one first. -/
  causes : List (Cause × ℤ) := []
  finishView : Option FinishView := none
  /-- How `connect` ended: what it raised, if anything. -/
  outcome : Option (Option PyError) := none
  deriving DecidableEq

/-- The record, the event that `_drain_one` has taken and not yet handled, the number of posts, and
the histories of the attempts. -/
structure Shared (ι : Type) where
  connection : Connection := {}
  delivering : Option ConnectionEvent := none
  clock : ℕ := 0
  history : ℕ → Attempt ι := fun _ => {}

namespace Shared

variable {ι : Type} (s : Shared ι)

/-- Attempt `a` itself. -/
abbrev attempt (a : ℕ) : ConnectState := s.connection.attempts a

/-- The history of attempt `a` becomes `f` of itself. -/
def note (a : ℕ) (f : Attempt ι → Attempt ι) : Shared ι :=
  { s with history := Function.update s.history a (f (s.history a)) }

/-- Attempt `a` becomes `f` of itself. -/
def modify (a : ℕ) (f : ConnectState → ConnectState) : Shared ι :=
  { s with connection := s.connection.modifyAttempt a f }

/-- Another record, where a new terminal code of attempt `a` is noted with its cause. -/
def settle (a : ℕ) (cause : Cause) (connection : Connection) : Shared ι :=
  match (connection.attempts a).terminalCode with
  | some code =>
      if (s.attempt a).terminalCode = some code then { s with connection := connection }
      else note { s with connection := connection } a fun history =>
        { history with causes := (cause, code) :: history.causes }
  | none => { s with connection := connection }

@[simp] theorem note_id (a : ℕ) : s.note a id = s := by
  simp [note]

@[simp] theorem modify_id (a : ℕ) : s.modify a id = s := by
  simp [modify, Connection.modifyAttempt]

/-- Nothing is noted when the terminal code stays. -/
theorem settle_same {s : Shared ι} {a : ℕ} {cause : Cause} {c : Connection}
    (h : (c.attempts a).terminalCode = (s.attempt a).terminalCode) :
    s.settle a cause c = { s with connection := c } := by
  unfold settle
  split
  · next code hc => rw [if_pos (h ▸ hc)]
  · rfl

/-- A new terminal code is noted. -/
theorem settle_new {s : Shared ι} {a : ℕ} {cause : Cause} {c : Connection} {code : ℤ}
    (h : (c.attempts a).terminalCode = some code) (hne : (s.attempt a).terminalCode ≠ some code) :
    s.settle a cause c = note { s with connection := c } a fun history =>
      { history with causes := (cause, code) :: history.causes } := by
  unfold settle
  rw [h]
  exact if_neg hne

end Shared

/-! ## Where a thread is -/

/-- The stages of `_cancel_connect`. -/
inductive CancelStage
  | enter | join | start | attemptCancel | awaitDone | disconnect | barrier | terminal | mark
  | leave (raised : Option PyError)
  deriving DecidableEq

/-- The stages of `connect` on its attempt. -/
inductive ConnectStage
  | starting
  | rollback (error : PyError)
  | startFinish (error : PyError)
  | waitDone
  | cancel (stage : CancelStage)
  | cancelRaised (error : PyError)
  | readCancelling | awaitCancel | checkCancel | closeHandle | finishBarrier | finishLock
  | fail (error : PyError)
  | result
  deriving DecidableEq

/-- The stages of `disconnect`. -/
inductive DisconnectStage
  | cancel (a : ℕ) (stage : CancelStage)
  | awaitFinished (a : ℕ)
  | native | barrier | write
  deriving DecidableEq

/-- The stages of `_close_connection` in the thread that performs it. -/
inductive CloseStage
  | cancel (a : ℕ) (stage : CancelStage)
  | awaitFinished (a : ℕ)
  | children
  | dispatcher (dumpError : Option PyError)
  | drain (dumpError : Option PyError)
  | read (dumpError : Option PyError)
  | decide (dumpError : Option PyError) (state : ConnectionState)
  | disconnect (dumpError : Option PyError)
  | destroy (dumpError : Option PyError)
  | state (dumpError : Option PyError)
  | succeed (dumpError : Option PyError)
  | fail (error : PyError)
  deriving DecidableEq

/-- Where a thread is: in no call, with what the last one raised, or in one of the calls. -/
inductive Pc
  | idle (raised : Option PyError)
  | connect (a : ℕ) (stage : ConnectStage)
  | disconnect (stage : DisconnectStage)
  | closeJoin (generation : ℕ)
  | close (generation : ℕ) (stage : CloseStage)
  deriving DecidableEq

/-- The attempt that a thread here cancels, and where in that it is. -/
def Pc.cancel? : Pc → Option (ℕ × CancelStage)
  | .connect a (.cancel stage) => some (a, stage)
  | .disconnect (.cancel a stage) => some (a, stage)
  | .close _ (.cancel a stage) => some (a, stage)
  | _ => none

/-- What moves a thread: a call, the next section or wait, a wait that times out, the result of a
native call, or what closing the outputs, dumps and tasks of the Connection gives. -/
inductive CallAction
  | connect | disconnect | close
  | go
  | timeout
  | native (result : NativeResult)
  | children (error : Option PyError) (dumpError : Option PyError)
  deriving DecidableEq

/-! ## The calls -/

section Calls

variable {ι : Type} (errorName : ℤ → String) (s : Shared ι) (i : ι)

/-- The error that `disconnect` and `close` cancel an attempt with. -/
def cancelledError : PyError := errorFromCode 6115 (errorName 6115)

/-- A stage of `_cancel_connect`, called by thread `i` for attempt `a`; on the right what it raises.
`cancel_error` is written just before `cancel_finished` is set, and read only behind a wait for
that, so both are one step.
Source: `_core.py`, `Connection._cancel_connect` -/
def cancelStep (a : ℕ) (error : PyError) :
    CancelStage → CallAction → Option (Shared ι × (CancelStage ⊕ Option PyError))
  | .enter, .go =>
      match s.connection.requestCancel a error with
      | (.over, _) => some (s, .inr none)
      | (.wait, _) => some (s, .inl .join)
      | (.perform, c) =>
          some (Shared.note { s with connection := c } a fun history =>
            { history with canceller := some i }, .inl .start)
  | .join, .go =>
      if (s.attempt a).cancelFinished then
        some (s, .inr ((s.attempt a).cancelError.map copyError))
      else none
  | .start, .go =>
      if (s.attempt a).nativeStarted then
        if (s.attempt a).finished then some (s, .inl (.leave none))
        else if (s.attempt a).managed then
          if (s.attempt a).managedHandle = none then some (s, .inl (.leave none))
          else some (s, .inl .attemptCancel)
        else some (s, .inl .disconnect)
      else none
  | .attemptCancel, .native r =>
      match r.check errorName with
      | none => some (s, .inl .awaitDone)
      | some e => some (s.note a fun history => { history with cancelFailed := true },
          .inl (.leave (some e)))
  | .awaitDone, .go =>
      if (s.attempt a).done then
        if (s.attempt a).terminalCode = some 0 then some (s, .inl .disconnect)
        else some (s, .inl .mark)
      else none
  | .disconnect, .native r =>
      match r.check errorName with
      | none => some (s, .inl .barrier)
      | some e => some (s.note a fun history => { history with cancelFailed := true },
          .inl (.leave (some e)))
  | .barrier, .go =>
      if s.connection.dispatcher.barrierDone then
        some (s, .inl (if (s.attempt a).managed then .mark else .terminal))
      else none
  | .terminal, .go => some (s.settle a .cancelled (s.connection.cancelTerminal a), .inl .mark)
  | .mark, .go =>
      some ({ s with connection := { s.connection with disconnectFinished := true } },
        .inl (.leave none))
  | .leave raised, .go =>
      some (s.modify a fun attempt =>
        { attempt with cancelError := raised <|> attempt.cancelError, cancelFinished := true },
        .inr raised)
  | _, _ => none

/-- `connect` ends: what it raises is noted. -/
def connectEnds (s : Shared ι) (a : ℕ) (raised : Option PyError) : Shared ι × Pc :=
  (s.note a fun history => { history with outcome := some raised }, .idle raised)

/-- A stage of `connect` on its attempt `a`, by thread `i`. The handle of a managed attempt is the
number of the attempt.
Source: `_core.py`, `Connection.connect` and `Connection._wait_connect` -/
def connectStep (a : ℕ) : ConnectStage → CallAction → Option (Shared ι × Pc)
  | .starting, .native r =>
      match r.check errorName with
      | none =>
          some ((s.modify a fun attempt =>
              { attempt with
                managedHandle := if attempt.managed then some a else none
                nativeStarted := true }).note a
            fun history => { history with startedAt := some s.clock }, .connect a .waitDone)
      | some e =>
          some ((s.modify a fun attempt => { attempt with nativeStarted := true }).note a
            fun history => { history with startFailed := true }, .connect a (.rollback e))
  | .rollback e, .go =>
      some ({ s with connection := s.connection.rollback a }, .connect a (.startFinish e))
  | .startFinish e, .go =>
      some (connectEnds (s.modify a fun attempt => { attempt with finished := true }) a (some e))
  | .waitDone, .go =>
      if (s.attempt a).done then some (s, .connect a .readCancelling) else none
  | .waitDone, .timeout => some (s, .connect a (.cancel .enter))
  | .cancel stage, act =>
      -- `_wait_connect` calls `_cancel_connect` outside its `try`
      (cancelStep errorName s i a timeoutError stage act).map fun
        | (s, .inl stage) => (s, .connect a (.cancel stage))
        | (s, .inr none) => (s, .connect a .readCancelling)
        | (s, .inr (some e)) => (s, .connect a (.cancelRaised e))
  | .cancelRaised e, .go => some (connectEnds s a (some e))
  | .readCancelling, .go =>
      some (s, .connect a (if (s.attempt a).cancelling then .awaitCancel else .checkCancel))
  | .awaitCancel, .go =>
      if (s.attempt a).cancelFinished then some (s, .connect a .checkCancel) else none
  | .checkCancel, .go =>
      match (s.attempt a).cancelError with
      | some e => some (s, .connect a (.fail (copyError e)))
      | none =>
          some (s, .connect a
            (if (s.attempt a).managedHandle = none then .finishBarrier else .closeHandle))
  | .closeHandle, .native r =>
      match r.retryInUse errorName with
      | none => some (s, .connect a .finishBarrier)
      | some e => some (s.note a fun history => { history with closeFailed := true },
          .connect a (.fail e))
  | .finishBarrier, .go =>
      if s.connection.dispatcher.barrierDone then some (s, .connect a .finishLock) else none
  | .finishLock, .go =>
      let c := s.connection.finishConnect a
      some (Shared.note { s with connection := c } a fun history =>
        { history with
          finishView := some ⟨(s.attempt a).terminalCode, (s.attempt a).error, c.state⟩ },
        .connect a .result)
  | .fail e, .go =>
      some (connectEnds (s.modify a fun attempt => { attempt with finished := true }) a (some e))
  | .result, .go =>
      match (s.attempt a).error, (s.attempt a).terminalCode with
      | some e, _ => some (connectEnds s a (some (copyError e)))
      | none, some code =>
          some (connectEnds s a
            (if code = 0 then none else some (errorFromCode code (errorName code))))
      | none, none => some (connectEnds s a none)
  | _, _ => none

/-- `connect` behind its argument checks.
Source: `_core.py`, `Connection.connect` and `Connection._begin_connect` -/
def connectBegin (mode : AuthMode) : Shared ι × Pc :=
  match s.connection.beginConnect mode mode with
  | .error e => (s, .idle (some e))
  | .ok (a, c) =>
      (Shared.note { s with connection := c } a fun _ => { owner := some i, bornAt := s.clock },
        .connect a .starting)

/-- The first section of `disconnect`.
Source: `_core.py`, `Connection.disconnect` -/
def disconnectBegin : Shared ι × Pc :=
  match s.connection.close.requireOpen with
  | some e => (s, .idle (some e))
  | none =>
      match s.connection.activeConnect with
      | some a => (s, .disconnect (.cancel a .enter))
      | none => (s, .disconnect .native)

/-- A stage of `disconnect`.
Source: `_core.py`, `Connection.disconnect` -/
def disconnectStep : DisconnectStage → CallAction → Option (Shared ι × Pc)
  | .cancel a stage, act =>
      (cancelStep errorName s i a (cancelledError errorName) stage act).map fun
        | (s, .inl stage) => (s, .disconnect (.cancel a stage))
        | (s, .inr none) => (s, .disconnect (.awaitFinished a))
        | (s, .inr (some e)) => (s, .idle (some e))
  | .awaitFinished a, .go =>
      if (s.attempt a).finished then
        some (s, .disconnect
          (if (s.attempt a).error = none ∧ (s.attempt a).terminalCode = some 0 then .native
          else .write))
      else none
  | .native, .native r =>
      match r.check errorName with
      | none => some (s, .disconnect .barrier)
      | some e => some (s, .idle (some e))
  | .barrier, .go =>
      if s.connection.dispatcher.barrierDone then some (s, .disconnect .write) else none
  | .write, .go =>
      some ({ s with connection := { s.connection with
        state := .disconnected, disconnectFinished := true } }, .idle none)
  | _, _ => none

/-- The first section of `_close_connection`.
Source: `_core.py`, `Connection._close_connection` -/
def closeBegin : Shared ι × Pc :=
  let (result, close) := s.connection.close.begin
  let s := { s with connection := { s.connection with close := close } }
  match result with
  | .join g => (s, .closeJoin g)
  | .none => (s, .idle none)
  | .inUse => (s, .idle (some inUseError))
  | .perform g =>
      match s.connection.activeConnect with
      | some a => (s, .close g (.cancel a .enter))
      | none => (s, .close g .children)

/-- A stage of `_close_connection`. Closing the children is one step, with the error that ends it or
the error of a dump that is only kept.
Source: `_core.py`, `Connection._close_connection` -/
def closeStep (g : ℕ) : CloseStage → CallAction → Option (Shared ι × Pc)
  | .cancel a stage, act =>
      (cancelStep errorName s i a (cancelledError errorName) stage act).map fun
        | (s, .inl stage) => (s, .close g (.cancel a stage))
        | (s, .inr none) => (s, .close g (.awaitFinished a))
        | (s, .inr (some e)) => (s, .close g (.fail e))
  | .awaitFinished a, .go =>
      if (s.attempt a).finished then some (s, .close g .children) else none
  | .children, .children error dumpError =>
      match error with
      | some e => some (s, .close g (.fail e))
      | none => some (s, .close g (.dispatcher dumpError))
  | .dispatcher dumpError, .go =>
      some ({ s with connection := { s.connection with
        dispatcher := s.connection.dispatcher.close } }, .close g (.drain dumpError))
  | .drain dumpError, .go =>
      if s.connection.dispatcher.closeDone then some (s, .close g (.read dumpError)) else none
  | .read dumpError, .go => some (s, .close g (.decide dumpError s.connection.state))
  | .decide dumpError state, .go =>
      some (s, .close g
        (if Connection.closeDisconnects { s.connection with state := state } then
          .disconnect dumpError
        else .destroy dumpError))
  | .disconnect dumpError, .native r =>
      match r.check errorName with
      | none =>
          some ({ s with connection := { s.connection with disconnectFinished := true } },
            .close g (.destroy dumpError))
      | some e => some (s, .close g (.fail e))
  | .destroy dumpError, .native r =>
      match r.retryInUse errorName with
      | none => some (s, .close g (.state dumpError))
      | some e => some (s, .close g (.fail e))
  | .state dumpError, .go =>
      some ({ s with connection := { s.connection with state := .disconnected } },
        .close g (.succeed dumpError))
  | .succeed dumpError, .go =>
      some ({ s with connection := { s.connection with
        close := s.connection.close.succeed g dumpError } }, .idle dumpError)
  | .fail e, .go =>
      some ({ s with connection := { s.connection with
        close := s.connection.close.fail g e } }, .idle (some e))
  | _, _ => none

/-- A thread that joined a close in progress wakes with its outcome.
Source: `_lifecycle.py`, `_CloseCoordinator.begin` -/
def closeWake (g : ℕ) : Option (Shared ι × Pc) :=
  (s.connection.close.outcome? g).bind fun error =>
    (s.connection.close.leave g).map fun close =>
      ({ s with connection := { s.connection with close := close } }, .idle (error.map copyError))

/-- A step of thread `i`. -/
def callStep (mode : AuthMode) : Pc → CallAction → Option (Shared ι × Pc)
  | .idle _, .connect => some (connectBegin s i mode)
  | .idle _, .disconnect => some (disconnectBegin s)
  | .idle _, .close => some (closeBegin s)
  | .connect a stage, act => connectStep errorName s i a stage act
  | .disconnect stage, act => disconnectStep errorName s i stage act
  | .closeJoin g, .go => closeWake s g
  | .close g stage, act => closeStep errorName s i g stage act
  | _, _ => none

end Calls

/-! ## The Runtime and the pool -/

/-- What the Runtime and the pool do: the sink is called, the completion of a managed attempt is
called, and the sections of `_drain_one` with the handler between them. -/
inductive Environment
  | post (kind : EventKind) (values : List PyValue)
  | managedComplete (a : ℕ) (code : ℤ)
  | drainBegin
  | handle
  | drainEnd
  deriving DecidableEq

/-- The sink is called.
Source: `_dispatch.py`, `_native_sink` -/
def postEvent {ι : Type} (s : Shared ι) (kind : EventKind) (values : List PyValue) : Shared ι :=
  { s with
    connection := { s.connection with
      dispatcher := (s.connection.dispatcher.nativeSink kind ⟨s.clock, values⟩).dispatcher }
    clock := s.clock + 1 }

/-- The handler is called with the event taken; a state event may settle the attempt in progress.
Source: `_core.py`, `Connection._handle_event` -/
def deliver {ι : Type} (s : Shared ι) (event : ConnectionEvent) : Shared ι :=
  let c := (s.connection.handleEvent event).1
  match s.connection.activeConnect with
  | some a => Shared.settle { s with delivering := none } a (.event event.values.tag) c
  | none => { s with delivering := none, connection := c }

/-- A step of the Runtime or the pool. -/
def environmentStep {ι : Type} (s : Shared ι) : Environment → Option (Shared ι)
  | .post kind values => some (postEvent s kind values)
  | .managedComplete a code =>
      if (s.attempt a).managed then
        some (s.settle a .managed (s.connection.managedComplete a code))
      else none
  | .drainBegin =>
      if s.connection.dispatcher.executing then none
      else
        let (event, d) := s.connection.dispatcher.drainBegin
        some { s with delivering := event, connection := { s.connection with dispatcher := d } }
  | .handle => s.delivering.map (deliver s)
  | .drainEnd =>
      if s.connection.dispatcher.executing && s.delivering.isNone then
        some { s with connection := { s.connection with
          dispatcher := s.connection.dispatcher.drainEnd.2 } }
      else none

/-- **The calls on one Connection** of a Client in mode `mode`, from its creation on. -/
def calls (ι : Type) (mode : AuthMode) (errorName : ℤ → String) :
    Threads ι (Shared ι) Pc CallAction Environment where
  start s := s = {}
  entry := .idle none
  step i s p act := callStep errorName s i mode p act
  env := environmentStep

end Tirtc
