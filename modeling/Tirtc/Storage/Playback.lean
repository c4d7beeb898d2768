import Mathlib.Data.Finset.Basic
import Tirtc.Lib.Threads
import Tirtc.Lifecycle
import Tirtc.Storage.TimeRanges

/-!
# The calls on a Replay

Any number of threads play, pause, seek, stop and close one Replay, from the application and from
its callbacks. An operation holds `_lock` through its native call; from a callback it does not wait
for the lock, and does not try again. Every result a native call can have is a label.

* `ReplaySpeed`, `replaySpeedToNative`, `replaySpeedFromNative`: the speeds and the two tables.
* `ReplayCall`, `Operation`, `prepare`: a call, and what it goes to the lock with.
* `Replay`, `PlaybackPc`, `PlaybackAction`: the record, where a thread is, and what moves it.
* `enterStep`, `nativeStep`, `assignStep`: an operation: the lock and the checks under it, the
  native call, and what is stored before the lock is given back.
* `closeBegin`, `wakeClose`, `closeStep`: the close.
* `CallbackSource`, `callbackBegin`, `callbackEnd`: the callbacks, from the queues and off them.
* `Posting`, `playback`: all of it as a `Transition.Threads` system, with the events that come in.

The children are closed in one step here, behind the barriers of the Outputs; their own locks are
left out. What an operation makes of a recording or a raw dump is left out, and so are the arguments
of the two. The Runtime calls back on threads of its own, not on one that is in a native call, and
an Output is neither bound nor unbound while its callback is in a call on the Replay; the destructor
of a Replay that nobody closes is left out.
-/

set_option autoImplicit false

namespace Tirtc.Playback

open Transition Storage Datetime

/-! ## The speeds -/

/-- Source: `storage/__init__.py`, `ReplaySpeed` -/
inductive ReplaySpeed
  | x0_125 | x0_25 | x0_5 | x1 | x2 | x4 | x8
  deriving DecidableEq, Repr

/-- Source: `storage/__init__.py`, `_REPLAY_SPEED_TO_NATIVE` -/
def replaySpeedToNative : ReplaySpeed → ℤ
  | .x0_125 => 6
  | .x0_25 => 5
  | .x0_5 => 4
  | .x1 => 0
  | .x2 => 1
  | .x4 => 2
  | .x8 => 3

/-- The keys of the table, in order. -/
def replaySpeeds : List ReplaySpeed := [.x0_125, .x0_25, .x0_5, .x1, .x2, .x4, .x8]

/-- The table the other way round; `none` is a missing key.
Source: `storage/__init__.py`, `_REPLAY_SPEED_FROM_NATIVE` -/
def replaySpeedFromNative (value : ℤ) : Option ReplaySpeed :=
  replaySpeeds.find? fun speed => replaySpeedToNative speed = value

/-- The Runtime's number of a speed stands for that speed only. -/
theorem replaySpeedFromNative_eq_some {value : ℤ} {speed : ReplaySpeed} :
    replaySpeedFromNative value = some speed ↔ replaySpeedToNative speed = value := by
  constructor
  · intro h
    simpa using List.find?_some h
  · rintro rfl
    cases speed <;> rfl

/-! ## The calls -/

/-- A call and its arguments. A speed that is not a `ReplaySpeed` is `none`.
Source: `storage/__init__.py`, `Replay` -/
inductive ReplayCall
  | play (startTime endTime : TimeArgument) (initialTime : Option TimeArgument)
  | pause
  | resume
  | seek (target : TimeArgument)
  | setSpeed (speed : Option ReplaySpeed)
  | speed
  | currentTime
  | stop
  | startRecording
  | startRawDump
  | close

/-- An operation, with its arguments as they go to the Runtime. -/
inductive Operation
  | play (range : ℤ × ℤ) (initial : ℤ)
  | pause
  | resume
  | seek (target : ℤ)
  | setSpeed (speed : ReplaySpeed)
  | speed
  | currentTime
  | stop
  | startRecording
  | startRawDump
  deriving DecidableEq

/-- What a call raises. -/
inductive Raised
  | sdk (error : PyError)
  | argument (error : TimeError)
  | keyError
  deriving DecidableEq

/-- What a call returns or raises. -/
inductive Returned
  | nothing
  | speed (value : ReplaySpeed)
  | time (value : Option DateTime)
  | raised (error : Raised)
  deriving DecidableEq

/-- The operations that `_reject_blocking_callback` keeps out of the callbacks.
Source: `storage/__init__.py`, `Replay.play`, `seek`, `stop` and `start_raw_dump` -/
def Operation.blocking : Operation → Bool
  | .play _ _ | .seek _ | .stop | .startRawDump => true
  | _ => false

/-- The operations that go through `_retry_in_use` outside the callbacks.
Source: `storage/__init__.py`, `Replay._operation`, `seek`, `set_speed` and `stop` -/
def Operation.retried : Operation → Bool
  | .pause | .resume | .seek _ | .setSpeed _ | .stop => true
  | _ => false

/-- What is checked before the lock. `related` is `_in_related_callback()`; `none` is `close`.
Source: `storage/__init__.py`, `Replay.play`, `seek`, `set_speed`, `stop`, `start_raw_dump` and
`close` -/
def prepare (related : Bool) : ReplayCall → Except Raised (Option Operation)
  | .play startTime endTime initialTime =>
      if related then .error (.sdk inUseError)
      else match playRange startTime endTime initialTime with
        | .ok (range, initial) => .ok (some (.play range initial))
        | .error e => .error (.argument e)
  | .pause => .ok (some .pause)
  | .resume => .ok (some .resume)
  | .seek target =>
      if related then .error (.sdk inUseError)
      else match datetimeMs target "target" with
        | .ok target => .ok (some (.seek target))
        | .error e => .error (.argument e)
  | .setSpeed speed =>
      match speed with
      | some speed => .ok (some (.setSpeed speed))
      | none => .error (.argument (.typeError "speed must be ReplaySpeed"))
  | .speed => .ok (some .speed)
  | .currentTime => .ok (some .currentTime)
  | .stop => if related then .error (.sdk inUseError) else .ok (some .stop)
  | .startRecording => .ok (some .startRecording)
  | .startRawDump => if related then .error (.sdk inUseError) else .ok (some .startRawDump)
  | .close => if related then .error (.sdk inUseError) else .ok none

/-- What is checked of the arguments under the lock. `range` is `_playback_range`.
Source: `storage/__init__.py`, `Replay.seek` -/
def Operation.refuse (range : Option (ℤ × ℤ)) : Operation → Option TimeError
  | .seek target =>
      match range with
      | none => none
      | some (start, finish) =>
          if target < start ∨ target ≥ finish then
            some (.valueError "target must be inside the playback range")
          else none
  | _ => none

/-! ## The record -/

/-- A Replay. `lock` is the thread that is in an operation under `_lock`. Of its dispatcher there
are the number of the events that wait, the thread in the callback of the one that has been taken,
and `_closed`; of the dispatchers of the Outputs in `_outputs`, until `outputsDetached`, the events
that wait and the threads in a callback. `directCallbacks` are the threads in a callback that no
close of the Replay waits for.

The other fields are history: the thread that performs the teardown; of the calls that the Runtime
accepted, the range of the newest play, whether the newest of the plays and stops is a stop, the
speed that was set last, and the stops that came from a close; that the native close has succeeded,
and that a native function has been called with the handle after that.
Source: `storage/__init__.py`, `Replay._prepare`; `_dispatch.py`, `_Dispatcher.__init__` -/
structure Replay (ι : Type) where
  lock : Option ι := none
  close : CloseCoordinator := {}
  speed : ReplaySpeed := .x1
  nativeStopped : Bool := false
  parentFinished : Bool := false
  playbackRange : Option (ℤ × ℤ) := none
  queued : ℕ := 0
  executing : Option ι := none
  dispatcherClosed : Bool := false
  directCallbacks : Finset ι := ∅
  outputsQueued : ℕ := 0
  outputCallbacks : Finset ι := ∅
  outputsDetached : Bool := false
  closer : Option ι := none
  played : Option (ℤ × ℤ) := none
  stopped : Bool := false
  nativeSpeed : ReplaySpeed := .x1
  closeStops : ℕ := 0
  destroyed : Bool := false
  late : Bool := false

namespace Replay

variable {ι : Type} [DecidableEq ι] (s : Replay ι)

/-- Source: `storage/__init__.py`, `Replay._in_related_callback` -/
def related (i : ι) : Bool :=
  decide (s.executing = some i ∨ i ∈ s.directCallbacks ∨ i ∈ s.outputCallbacks)

omit [DecidableEq ι] in
/-- A native function is called with the handle. -/
def touch : Replay ι := { s with late := s.late || s.destroyed }

omit [DecidableEq ι] in
/-- The Runtime accepts an operation. -/
def accept : Operation → Replay ι
  | .play range _ => { s with played := some range, stopped := false }
  | .setSpeed speed => { s with nativeSpeed := speed }
  | .stop => { s with stopped := true }
  | _ => s

omit [DecidableEq ι] in
/-- What the operation stores before it gives the lock back.
Source: `storage/__init__.py`, `Replay.play`, `set_speed`, `speed` and `stop` -/
def assign : Operation → Returned → Replay ι
  | .play range _, _ => { s with playbackRange := some range, nativeStopped := false }
  | .setSpeed speed, _ => { s with speed := speed }
  | .speed, .speed value => { s with speed := value }
  | .stop, _ => { s with nativeStopped := true }
  | _, _ => s

end Replay

/-! ## Where a thread is -/

/-- A close between its first section and its report. `dumpError` is what a raw dump has raised.
Source: `storage/__init__.py`, `Replay._close_replay` -/
inductive ReplayCloseStage
  | children
  | stop (dumpError : Option PyError)
  | dispatcher (dumpError : Option PyError)
  | drain (dumpError : Option PyError)
  | destroy (dumpError : Option PyError)
  | parent (dumpError : Option PyError)
  | succeed (dumpError : Option PyError)
  | fail (error : PyError)
  deriving DecidableEq

/-- Between two calls, before the lock, in the native call of an operation, behind it, before the
lock in a close, at the wait for another close, or in a close. -/
inductive PlaybackPc
  | idle (returned : Returned)
  | enter (op : Operation)
  | native (op : Operation)
  | assign (op : Operation) (returned : Returned)
  | enterClose
  | joining (generation : ℕ)
  | closing (generation : ℕ) (stage : ReplayCloseStage)
  deriving DecidableEq

/-- What a callback comes from: the queue of the Replay, a task of the Replay that is run off the
queue, an Output in its `_outputs`, or one that is bound to it although `_outputs` lacks it: a
`detach()` that ended behind the next `attach()` has taken it out.
Source: `_dispatch.py`, `_Dispatcher._drain_one` and `_native_task_sink`; `storage/__init__.py`,
`_StorageOutputBase.detach` -/
inductive CallbackSource
  | queue
  | direct
  | output
  | unlisted
  deriving DecidableEq

/-- What moves a thread: a call; the lock, which may be busy with a short section; what a native
function gives back, and whether the time for another try is over; the end of the children; and the
beginning and the end of a callback. -/
inductive PlaybackAction
  | call (call : ReplayCall)
  | enter (busy : Bool)
  | native (result : NativeResult) (timedOut : Bool)
  | speed (code value : ℤ)
  | time (code : ℤ) (present : Bool) (value : ℤ)
  | children (raised dumpError : Option PyError)
  | go
  | enterCallback (source : CallbackSource)
  | leaveCallback

/-! ## The steps -/

section Steps

variable {ι : Type} [DecidableEq ι] (errorName : ℤ → String) (s : Replay ι) (i : ι)

/-- A call up to the lock. -/
def callBegin (call : ReplayCall) : Option (Replay ι × PlaybackPc) :=
  match prepare (s.related i) call with
  | .error e => some (s, .idle (.raised e))
  | .ok (some op) => some (s, .enter op)
  | .ok none => some (s, .enterClose)

/-- `_operation_lock`, and the checks under it. A thread in a callback does not wait for the lock.
Source: `storage/__init__.py`, `Replay._operation_lock` and the operations -/
def enterStep (op : Operation) (busy : Bool) : Option (Replay ι × PlaybackPc) :=
  if s.lock.isSome || busy then
    if s.related i then some (s, .idle (.raised (.sdk inUseError))) else none
  else match s.close.requireOpen with
    | some e => some (s, .idle (.raised (.sdk e)))
    | none =>
        match op.refuse s.playbackRange with
        | some e => some (s, .idle (.raised (.argument e)))
        | none => some ({ s with lock := some i }, .native op)

/-- The operation raises, which gives the lock back. -/
def release (error : Raised) : Option (Replay ι × PlaybackPc) :=
  some ({ s with lock := none }, .idle (.raised error))

/-- What `current_time` makes of the answer of the Runtime.
Source: `storage/__init__.py`, `Replay.current_time` -/
def currentTime (code : ℤ) (present : Bool) (value : ℤ) : Returned :=
  match NativeResult.check errorName (.code code) with
  | some e => .raised (.sdk e)
  | none =>
      if present then
        match datetimeFromMs value with
        | .ok moment => .time (some moment)
        | .error e => .raised (.argument e)
      else .time none

/-- What `speed` makes of the answer of the Runtime.
Source: `storage/__init__.py`, `Replay.speed` -/
def readSpeed (code value : ℤ) : Option (Replay ι × PlaybackPc) :=
  match NativeResult.check errorName (.code code) with
  | some e => release s (.sdk e)
  | none =>
      match replaySpeedFromNative value with
      | some speed => some (s, .assign .speed (.speed speed))
      | none => release s .keyError

/-- The native function of an operation other than the two that read has returned `r`.
Source: `storage/__init__.py`, `Replay._operation` and the other operations -/
def operationResult (op : Operation) (r : NativeResult) (timedOut : Bool) :
    Option (Replay ι × PlaybackPc) :=
  if op.retried && !s.related i then
    if r = .code 6026 ∧ timedOut = false then some (s, .native op)
    else match r.retryInUse errorName with
      | some e => release s (.sdk e)
      | none => some (s.accept op, .assign op .nothing)
  else match r.check errorName with
    | some e => release s (.sdk e)
    | none => some (s.accept op, .assign op .nothing)

/-- The native call of an operation. -/
def nativeStep (op : Operation) (act : PlaybackAction) : Option (Replay ι × PlaybackPc) :=
  match op, act with
  | .speed, .speed code value => readSpeed errorName s.touch code value
  | .currentTime, .time code present value =>
      some (s.touch, .assign .currentTime (currentTime errorName code present value))
  | .speed, .native (.raised e) _ | .currentTime, .native (.raised e) _ =>
      release s.touch (.sdk e)
  | .speed, _ | .currentTime, _ => none
  | op, .native r timedOut => operationResult errorName s.touch i op r timedOut
  | _, _ => none

/-- The end of an operation, under the lock that it gives back. -/
def assignStep (op : Operation) (returned : Returned) : Option (Replay ι × PlaybackPc) :=
  some ({ s.assign op returned with lock := none }, .idle returned)

/-- What a close returns or raises. -/
def closeReturned : Option PyError → Returned
  | none => .nothing
  | some e => .raised (.sdk e)

/-- The first section of the close.
Source: `storage/__init__.py`, `Replay._close_replay` -/
def closeBegin : Option (Replay ι × PlaybackPc) :=
  if s.lock.isSome then none
  else match s.close.begin with
    | (.join g, c) => some ({ s with close := c }, .joining g)
    | (.none, _) => some (s, .idle .nothing)
    | (.inUse, _) => some (s, .idle (.raised (.sdk inUseError)))
    | (.perform g, c) => some ({ s with close := c, closer := some i }, .closing g .children)

/-- The wake of a thread that waits for another close. -/
def wakeClose (g : ℕ) : Option (Replay ι × PlaybackPc) :=
  if s.lock.isSome then none
  else (s.close.outcome? g).bind fun outcome =>
    (s.close.leave g).map fun c =>
      ({ s with close := c }, .idle (closeReturned (outcome.map copyError)))

/-- `_native_stopped` is looked at, and the playback stopped.
Source: `storage/__init__.py`, `Replay._close_replay` -/
def closeStop (g : ℕ) (dumpError : Option PyError) (act : PlaybackAction) :
    Option (Replay ι × PlaybackPc) :=
  match s.nativeStopped, act with
  | true, .go => some (s, .closing g (.dispatcher dumpError))
  | false, .native r timedOut =>
      if r = .code 6026 ∧ timedOut = false then some (s.touch, .closing g (.stop dumpError))
      else match r.retryInUse errorName with
        | some e => some (s.touch, .closing g (.fail e))
        | none =>
            some ({ s.touch with
                stopped := true
                nativeStopped := true
                closeStops := s.closeStops + 1 }, .closing g (.dispatcher dumpError))
  | _, _ => none

/-- The native close of the handle.
Source: `storage/__init__.py`, `Replay._close_replay` -/
def closeDestroy (g : ℕ) (dumpError : Option PyError) (r : NativeResult) (timedOut : Bool) :
    Option (Replay ι × PlaybackPc) :=
  if r = .code 6026 ∧ timedOut = false then some (s.touch, .closing g (.destroy dumpError))
  else match r.retryInUse errorName with
    | some e => some (s.touch, .closing g (.fail e))
    | none => some ({ s.touch with destroyed := true }, .closing g (.parent dumpError))

/-- The close behind its first section. The children are closed when no event waits at an Output in
`_outputs` and none of their callbacks runs. The dispatcher takes no event any more, and is closed
when it has none left and executes none.
Source: `storage/__init__.py`, `Replay._close_replay` and `_StorageOutputBase._detach_from_parent`;
`_dispatch.py`, `_Dispatcher.barrier` and `_Dispatcher.close` -/
def closeStep (g : ℕ) : ReplayCloseStage → PlaybackAction → Option (Replay ι × PlaybackPc)
  | .children, .children (some e) _ => some (s, .closing g (.fail e))
  | .children, .children none dumpError =>
      if s.outputCallbacks = ∅ ∧ s.outputsQueued = 0 then
        some ({ s with outputsDetached := true }, .closing g (.stop dumpError))
      else none
  | .stop dumpError, act => closeStop errorName s g dumpError act
  | .dispatcher dumpError, .go =>
      some ({ s with dispatcherClosed := true }, .closing g (.drain dumpError))
  | .drain dumpError, .go =>
      if s.executing = none ∧ s.queued = 0 then some (s, .closing g (.destroy dumpError)) else none
  | .destroy dumpError, .native r timedOut => closeDestroy errorName s g dumpError r timedOut
  | .parent dumpError, .go =>
      some ({ s with parentFinished := true }, .closing g (.succeed dumpError))
  | .succeed dumpError, .go =>
      if s.lock.isSome then none
      else some ({ s with close := s.close.succeed g dumpError, closer := none },
        .idle (closeReturned dumpError))
  | .fail e, .go =>
      if s.lock.isSome then none
      else some ({ s with close := s.close.fail g e, closer := none }, .idle (.raised (.sdk e)))
  | _, _ => none

/-- A callback begins on a thread that is in none: of the oldest event in the queue, when no other
one is executed; of a task off the queue at any time, for its sink does not look at `_closed`; of an
event at an Output in `_outputs`; and of an Output that `_outputs` lacks at any time, for no close
of the Replay detaches it.
Source: `_dispatch.py`, `_Dispatcher._drain_one` and `_native_task_sink` -/
def callbackBegin (returned : Returned) : CallbackSource → Option (Replay ι × PlaybackPc)
  | .queue =>
      if s.related i || s.executing.isSome || s.queued = 0 then none
      else some ({ s with queued := s.queued - 1, executing := some i }, .idle returned)
  | .direct | .unlisted =>
      if s.related i then none
      else some ({ s with directCallbacks := insert i s.directCallbacks }, .idle returned)
  | .output =>
      if s.related i || s.outputsQueued = 0 then none
      else some ({ s with
          outputsQueued := s.outputsQueued - 1
          outputCallbacks := insert i s.outputCallbacks }, .idle returned)

/-- A callback returns. -/
def callbackEnd (returned : Returned) : Option (Replay ι × PlaybackPc) :=
  if s.related i then
    some ({ s with
        executing := if s.executing = some i then none else s.executing
        directCallbacks := s.directCallbacks.erase i
        outputCallbacks := s.outputCallbacks.erase i }, .idle returned)
  else none

/-- A step of thread `i`. -/
def playbackStep : PlaybackPc → PlaybackAction → Option (Replay ι × PlaybackPc)
  | .idle _, .call call => callBegin s i call
  | .idle returned, .enterCallback source => callbackBegin s i returned source
  | .idle returned, .leaveCallback => callbackEnd s i returned
  | .enter op, .enter busy => enterStep s i op busy
  | .native op, act => nativeStep errorName s i op act
  | .assign op returned, .go => assignStep s op returned
  | .enterClose, .go => closeBegin s i
  | .joining g, .go => wakeClose s g
  | .closing g stage, act => closeStep errorName s g stage act
  | _, _ => none

end Steps

/-- An event of the Runtime comes into the queue of the Replay, or of an Output in `_outputs`.
Source: `_dispatch.py`, `_Dispatcher.post` and `post_native_task` -/
inductive Posting
  | post
  | output
  deriving DecidableEq

/-- An event comes in while the dispatcher is not closed, or the Outputs not detached; one that
takes the place of another leaves the number as it is. -/
def postingStep {ι : Type} (s : Replay ι) : Posting → Option (Replay ι)
  | .post => if s.dispatcherClosed then none else some { s with queued := s.queued + 1 }
  | .output =>
      if s.outputsDetached then none else some { s with outputsQueued := s.outputsQueued + 1 }

/-- **The calls on one Replay**, from its creation on. -/
def playback (ι : Type) [DecidableEq ι] (errorName : ℤ → String) :
    Threads ι (Replay ι) PlaybackPc PlaybackAction Posting where
  start s := s = {}
  entry := .idle .nothing
  step i s pc act := playbackStep errorName s i pc act
  env := postingStep

end Tirtc.Playback
