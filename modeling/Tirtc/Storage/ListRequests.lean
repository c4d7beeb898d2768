import Tirtc.Lib.Threads
import Tirtc.Lifecycle

/-!
# List requests on one CloudStorage, and its close

Any number of threads call `CloudStorage._list` and `CloudStorage.close` on one CloudStorage, while
the Runtime completes requests. A step is a lock-held section, a native call, an event that is set,
or a wait; every result a native call can have is a label, and so is a wait that times out.

* `ListRequest`: the record of a request; `NativeRequest`: the Runtime's side of it.
* `Cloud`: the CloudStorage with all its requests, by number.
* `CancelStage`, `ListStage`, `CloudCloseStage`, `CloudPc`: where a thread is.
* `cancelStep`, `listStep`, `closeStep`: the calls, as in the source.
* `cloudCalls`: all of it as a `Transition.Threads` system.
-/

set_option autoImplicit false

namespace Tirtc.Storage

open Transition

/-! ## The shared state -/

/-- The handle of the Runtime is known by the number of the request: `handle` says that it is set.
Source: `storage/__init__.py`, `_ListRequest` -/
structure ListRequest where
  handle : Bool := false
  completed : Bool := false
  started : Bool := false
  finished : Bool := false
  cancelStarted : Bool := false
  cancelFinished : Bool := false
  deriving DecidableEq, Repr

/-- A request in the Runtime: not started, started, or closed by a native close that returned 0. -/
inductive NativeRequest
  | absent | live | destroyed
  deriving DecidableEq, Repr

/-- One CloudStorage. `owner` and `canceller` are history: the thread whose `_list` made a request,
and the thread that has decided to cancel it and not yet called the Runtime.
Source: `storage/__init__.py`, `CloudStorage._prepare` -/
structure Cloud (ι : Type) where
  close : CloseCoordinator := {}
  requests : List ℕ := []
  made : ℕ := 0
  request : ℕ → ListRequest := fun _ => {}
  native : ℕ → NativeRequest := fun _ => .absent
  destroyed : Bool := false
  owner : ℕ → Option ι := fun _ => none
  canceller : ℕ → Option ι := fun _ => none

namespace Cloud

variable {ι : Type} (s : Cloud ι)

/-- Request `n` becomes `f` of itself. -/
def modify (n : ℕ) (f : ListRequest → ListRequest) : Cloud ι :=
  { s with request := Function.update s.request n (f (s.request n)) }

/-- The Runtime's side of request `n`. -/
def setNative (n : ℕ) (native : NativeRequest) : Cloud ι :=
  { s with native := Function.update s.native n native }

/-- Who has still to cancel request `n`. -/
def setCanceller (n : ℕ) (canceller : Option ι) : Cloud ι :=
  { s with canceller := Function.update s.canceller n canceller }

end Cloud

/-! ## Where a thread is -/

/-- The stages of `_ListRequest.cancel`. -/
inductive CancelStage
  | awaitStarted | decide | awaitFinished | native
  | leave (raised : Option PyError)
  deriving DecidableEq

/-- The stages of `_list` on its request; on the way out, with what it raises. -/
inductive ListStage
  | start (timed : Bool)
  | startFailed (error : PyError)
  | setHandle (timed : Bool)
  | awaitCompleted (timed : Bool)
  | cancel (stage : CancelStage)
  | awaitCancelled
  | result (timedOut : Bool)
  | destroy (raised : Option PyError)
  | discard (raised : Option PyError)
  | finish (raised : Option PyError)
  deriving DecidableEq

/-- The stages of `_close_cloud` in the thread that performs it, with the requests of its snapshot
that are still to be cancelled. -/
inductive CloudCloseStage
  | next (rest : List ℕ)
  | cancel (n : ℕ) (rest : List ℕ) (stage : CancelStage)
  | awaitEnd (n : ℕ) (rest : List ℕ)
  | awaitFinished (n : ℕ) (rest : List ℕ)
  | children
  | destroy (childError : Option PyError)
  | succeed (childError : Option PyError)
  | fail (error : PyError)
  deriving DecidableEq

/-- Where a thread is: in no call, with what the last one raised, or in one of the calls. -/
inductive CloudPc
  | idle (raised : Option PyError)
  | list (n : ℕ) (stage : ListStage)
  | closeJoin (generation : ℕ)
  | close (generation : ℕ) (stage : CloudCloseStage)
  deriving DecidableEq

/-- The request whose native `request_cancel` is the next call of a thread here. -/
def CloudPc.cancels : CloudPc → Option ℕ
  | .list n (.cancel .native) => some n
  | .close _ (.cancel n _ .native) => some n
  | _ => none

/-- What moves a thread: a call, the next section or wait, a wait that times out, the result of a
native call, or what closing the Replays and ExportTasks gives. -/
inductive CloudAction
  | list (timed : Bool)
  | close
  | go
  | timeout
  | native (result : NativeResult)
  | children (error : Option PyError) (childError : Option PyError)
  deriving DecidableEq

/-! ## The calls -/

section Calls

variable {ι : Type} (errorName : ℤ → String) (s : Cloud ι) (i : ι)

/-- A stage of `cancel` on request `n`; on the right what it raises. The handle is read again by the
native call, but `set_handle` runs once only, before `started` is set.
Source: `storage/__init__.py`, `_ListRequest.cancel` -/
def cancelStep (n : ℕ) :
    CancelStage → CloudAction → Option (Cloud ι × (CancelStage ⊕ Option PyError))
  | .awaitStarted, .go => if (s.request n).started then some (s, .inl .decide) else none
  | .decide, .go =>
      if !(s.request n).handle || (s.request n).completed then some (s, .inr none)
      else if (s.request n).cancelStarted then some (s, .inl .awaitFinished)
      else
        some ((s.modify n fun request => { request with cancelStarted := true }).setCanceller n
          (some i), .inl .native)
  | .awaitFinished, .go => if (s.request n).cancelFinished then some (s, .inr none) else none
  | .native, .native r => some (s.setCanceller n none, .inl (.leave (r.check errorName)))
  | .leave raised, .go =>
      some (s.modify n fun request => { request with cancelFinished := true }, .inr raised)
  | _, _ => none

/-- The first section of `_list`: a request is made unless there is one.
Source: `storage/__init__.py`, `CloudStorage._list` -/
def listBegin (timed : Bool) : Cloud ι × CloudPc :=
  match s.close.requireOpen with
  | some e => (s, .idle (some e))
  | none =>
      if s.requests ≠ [] then (s, .idle (some inUseError))
      else
        ({ s with
          requests := [s.made]
          made := s.made + 1
          owner := Function.update s.owner s.made (some i) }, .list s.made (.start timed))

/-- A stage of `_list` on its request `n`.
Source: `storage/__init__.py`, `CloudStorage._list` -/
def listStep (n : ℕ) : ListStage → CloudAction → Option (Cloud ι × CloudPc)
  | .start timed, .native r =>
      match r.check errorName with
      | none => some (s.setNative n .live, .list n (.setHandle timed))
      | some e => some (s, .list n (.startFailed e))
  | .startFailed e, .go =>
      some (s.modify n fun request => { request with started := true },
        .list n (.destroy (some e)))
  | .setHandle timed, .go =>
      some (s.modify n fun request => { request with handle := true, started := true },
        .list n (.awaitCompleted timed))
  | .awaitCompleted _, .go =>
      if (s.request n).completed then some (s, .list n (.result false)) else none
  | .awaitCompleted timed, .timeout =>
      if timed then some (s, .list n (.cancel .awaitStarted)) else none
  | .cancel stage, act =>
      (cancelStep errorName s i n stage act).map fun
        | (s, .inl stage) => (s, .list n (.cancel stage))
        | (s, .inr none) => (s, .list n .awaitCancelled)
        | (s, .inr (some e)) => (s, .list n (.destroy (some e)))
  | .awaitCancelled, .go =>
      if (s.request n).completed then some (s, .list n (.result true)) else none
  | .result timedOut, .native r =>
      some (s, .list n (.destroy (match r with
        | .raised e => some e
        | .code c =>
            if timedOut then some timeoutError else NativeResult.check errorName (.code c))))
  | .destroy raised, .go =>
      -- there is no handle when the start has failed
      if (s.request n).handle then none else some (s, .list n (.discard raised))
  | .destroy raised, .native r =>
      if (s.request n).handle then
        match r.retryInUse errorName with
        | none => some (s.setNative n .destroyed, .list n (.discard raised))
        | some e => some (s, .list n (.discard (some e)))
      else none
  | .discard raised, .go =>
      some ({ s with requests := s.requests.erase n }, .list n (.finish raised))
  | .finish raised, .go =>
      some (s.modify n fun request => { request with finished := true }, .idle raised)
  | _, _ => none

/-- The first section of `_close_cloud`.
Source: `storage/__init__.py`, `CloudStorage._close_cloud` -/
def closeBegin : Cloud ι × CloudPc :=
  let (result, close) := s.close.begin
  let s := { s with close := close }
  match result with
  | .join g => (s, .closeJoin g)
  | .none => (s, .idle none)
  | .inUse => (s, .idle (some inUseError))
  | .perform g => (s, .close g (.next s.requests))

/-- A stage of `_close_cloud`. Closing the Replays and the ExportTasks is one step, with the error
that ends it or the child error that is only kept.
Source: `storage/__init__.py`, `CloudStorage._close_cloud` and `_ListRequest.cancel_and_wait` -/
def closeStep (g : ℕ) : CloudCloseStage → CloudAction → Option (Cloud ι × CloudPc)
  | .next [], .go => some (s, .close g .children)
  | .next (n :: rest), .go => some (s, .close g (.cancel n rest .awaitStarted))
  | .cancel n rest stage, act =>
      (cancelStep errorName s i n stage act).map fun
        | (s, .inl stage) => (s, .close g (.cancel n rest stage))
        | (s, .inr none) => (s, .close g (.awaitEnd n rest))
        | (s, .inr (some e)) => (s, .close g (.fail e))
  | .awaitEnd n rest, .go =>
      if (s.request n).completed || (s.request n).finished then
        some (s, .close g (.awaitFinished n rest))
      else none
  | .awaitFinished n rest, .go =>
      if (s.request n).finished then some (s, .close g (.next rest)) else none
  | .children, .children error childError =>
      match error with
      | some e => some (s, .close g (.fail e))
      | none => some (s, .close g (.destroy childError))
  | .destroy childError, .native r =>
      match r.retryInUse errorName with
      | none => some ({ s with destroyed := true }, .close g (.succeed childError))
      | some e => some (s, .close g (.fail e))
  | .succeed childError, .go =>
      some ({ s with close := s.close.succeed g childError }, .idle childError)
  | .fail e, .go => some ({ s with close := s.close.fail g e }, .idle (some e))
  | _, _ => none

/-- A thread that joined a close in progress wakes with its outcome.
Source: `_lifecycle.py`, `_CloseCoordinator.begin` -/
def closeWake (g : ℕ) : Option (Cloud ι × CloudPc) :=
  (s.close.outcome? g).bind fun error =>
    (s.close.leave g).map fun close =>
      ({ s with close := close }, .idle (error.map copyError))

/-- A step of thread `i`. -/
def cloudStep : CloudPc → CloudAction → Option (Cloud ι × CloudPc)
  | .idle _, .list timed => some (listBegin s i timed)
  | .idle _, .close => some (closeBegin s)
  | .list n stage, act => listStep errorName s i n stage act
  | .closeJoin g, .go => closeWake s g
  | .close g stage, act => closeStep errorName s i g stage act
  | _, _ => none

end Calls

/-- The Runtime completes a request between its start and its close. A completion that comes before
`storage_list_start` has returned is seen as one that comes right after it: before `set_handle`
nothing looks at it.
Source: `storage/__init__.py`, `_ListRequest.on_completed` -/
def completeStep {ι : Type} (s : Cloud ι) (n : ℕ) : Option (Cloud ι) :=
  if s.native n = .live then
    some (s.modify n fun request => { request with completed := true })
  else none

/-- **The list and close calls on one CloudStorage**, from its creation on. -/
def cloudCalls (ι : Type) (errorName : ℤ → String) : Threads ι (Cloud ι) CloudPc CloudAction ℕ where
  start s := s = {}
  entry := .idle none
  step i s p act := cloudStep errorName s i p act
  env := completeStep

end Tirtc.Storage
