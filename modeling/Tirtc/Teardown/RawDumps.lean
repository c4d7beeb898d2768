import Tirtc.Errors
import Tirtc.Lib.Datetime
import Tirtc.Lib.Logs
import Tirtc.Lib.Machine

/-!
# One RawDump: stop, close, and the callback they run in

`stop()` and `close()` of a RawDump, one call after the other, with any results of the native calls
and in any callback. `close()` drops the parent; the callback guard goes on comparing with it.

* `RawDumpArchive`, `DumpValues`, `archiveOf`: the archive, and what it is made of.
* `RawDump`, `DumpEvent`: the RawDump, and what happens to it. The trace is history, with the newest
  event first.
* `CallbackOwner`, `RawDump.rejectBlockingCallback`, `RawDump.stop`, `RawDump.close`: as in the
  source.
* `DumpCall`, `rawDumps`: any sequence of calls, as a machine.
* `Allowed`: the lifecycle law, event by event.
* `lifecycle_law`: it holds in every run whose calls are `Harmless`; `closed_call_iff`: on a closed
  RawDump exactly the harmless calls keep it.
* `dump_close_refused`: a run that breaks it.
-/

set_option autoImplicit false
set_option linter.unusedSectionVars false

namespace Tirtc.RawDumps

open Datetime

/-! ## The archive -/

/-- Source: `_values.py`, `RawDumpStopReason` -/
inductive RawDumpStopReason
  | unknown | user | timeLimit | byteLimit | sourceClosed | resourceLimit | writeFailed
  deriving DecidableEq, Repr

/-- Source: `_values.py`, `_RAW_DUMP_STOP_REASONS` -/
def rawDumpStopReasons : ℤ → Option RawDumpStopReason
  | 0 => some .unknown
  | 1 => some .user
  | 2 => some .timeLimit
  | 3 => some .byteLimit
  | 4 => some .sourceClosed
  | 5 => some .resourceLimit
  | 6 => some .writeFailed
  | _ => none

/-- Source: `_values.py`, `RawDumpArchive` -/
structure RawDumpArchive where
  captureId : String
  path : String
  size : ℕ
  sha256 : String
  capturedDuration : TimeDelta
  captureComplete : Bool
  stopReason : RawDumpStopReason
  unsavedPacketCount : ℕ
  unsavedByteCount : ℕ
  empty : Bool
  deriving DecidableEq

/-- The tuple that `_native.raw_dump_stop` returns. Source: `extension.c`, `py_raw_dump_stop` -/
structure DumpValues where
  code : ℤ
  captureId : String := ""
  filePath : String := ""
  fileSize : ℕ := 0
  sha256 : String := ""
  capturedDurationMs : ℕ := 0
  captureComplete : Bool := false
  stopReason : ℤ := 0
  unsavedPacketCount : ℕ := 0
  unsavedByteCount : ℕ := 0
  empty : Bool := true
  deriving DecidableEq

/-- The archive that `stop` makes of the tuple; `overflow` is the `OverflowError` of `timedelta`.
Source: `_raw_dump.py`, `RawDump.stop` -/
def archiveOf (overflow : PyError) (values : DumpValues) : Except PyError RawDumpArchive :=
  match TimeDelta.ofMilliseconds values.capturedDurationMs with
  | none => .error overflow
  | some duration =>
      .ok
        { captureId := values.captureId
          path := values.filePath
          size := values.fileSize
          sha256 := values.sha256
          capturedDuration := duration
          captureComplete := values.captureComplete
          stopReason := (rawDumpStopReasons values.stopReason).getD .unknown
          unsavedPacketCount := values.unsavedPacketCount
          unsavedByteCount := values.unsavedByteCount
          empty := values.empty }

/-- What `_native.raw_dump_stop` does: it returns its tuple, or the wrapper raises. -/
inductive DumpAnswer
  | returned (values : DumpValues)
  | raised (error : PyError)
  deriving DecidableEq

/-- The Runtime has stopped the dump: the code is 0. -/
def DumpAnswer.Succeeded : DumpAnswer → Prop
  | .returned values => values.code = 0
  | .raised _ => False

/-! ## The RawDump -/

/-- What happens to a RawDump: a call of `_native.raw_dump_stop`, the calls of `_native.close` with
their retries and the last result, its removal from the parent, and what a call of `stop()` or
`close()` comes back with. -/
inductive DumpEvent
  | stopped (answer : DumpAnswer)
  | destroyed (result : NativeResult)
  | finished
  | stopReturned (result : Except PyError RawDumpArchive)
  | closeReturned (error : Option PyError)

/-- `registered` says that the parent has the RawDump in its `_dumps`.
Source: `_raw_dump.py`, `RawDump._create` -/
structure RawDump (O : Type) where
  parent : Option O
  archive : Option RawDumpArchive := none
  closed : Bool := false
  registered : Bool := true
  trace : List DumpEvent := []

/-- The object whose callback runs, and its `_bound`; `none` is `None` or no such attribute. -/
structure CallbackOwner (O : Type) where
  object : O
  bound : Option O
  deriving DecidableEq

namespace RawDump

variable {O : Type} [DecidableEq O] (errorName : ℤ → String) (overflow : PyError)

/-- One more event. -/
def emit (s : RawDump O) (event : DumpEvent) : RawDump O := { s with trace := event :: s.trace }

/-- `callback` is `_callback_owner()`. The result says that the call is refused.
Source: `_raw_dump.py`, `RawDump._reject_blocking_callback` -/
def rejectBlockingCallback (callback : Option (CallbackOwner O)) (s : RawDump O) : Bool :=
  match callback with
  | none => false
  | some owner => decide (some owner.object = s.parent) || decide (owner.bound = s.parent)

/-- Source: `_raw_dump.py`, `RawDump.stop` -/
def stop (callback : Option (CallbackOwner O)) (answer : DumpAnswer) (s : RawDump O) :
    Except PyError RawDumpArchive × RawDump O :=
  if s.rejectBlockingCallback callback then (.error inUseError, s)
  else if s.closed then (.error closedError, s)
  else
    match s.archive with
    | some archive => (.ok archive, s)
    | none =>
        let s := s.emit (.stopped answer)
        match answer with
        | .raised error => (.error error, s)
        | .returned values =>
            if values.code ≠ 0 then
              (.error (errorFromCode values.code (errorName values.code)), s)
            else
              match archiveOf overflow values with
              | .error error => (.error error, s)
              | .ok archive => (.ok archive, { s with archive := some archive })

/-- The error of the result, if it is one. -/
def raisedBy (result : Except PyError RawDumpArchive) : Option PyError :=
  match result with
  | .ok _ => none
  | .error error => some error

/-- `destroy` is the last result of `_native.close` with its retries. The parent is dropped under
the lock, and forgets the RawDump afterwards. Source: `_raw_dump.py`, `RawDump.close`; `_core.py`,
`Connection._finish_raw_dump` -/
def close (callback : Option (CallbackOwner O)) (answer : DumpAnswer) (destroy : NativeResult)
    (s : RawDump O) : Option PyError × RawDump O :=
  if s.rejectBlockingCallback callback then (some inUseError, s)
  else if s.closed then (none, s)
  else
    let (result, s) := s.stop errorName overflow callback answer
    let s := s.emit (.destroyed destroy)
    match destroy.retryInUse errorName with
    | some error => (some error, s)
    | none =>
        let parent := s.parent
        let s := { s with closed := true, parent := none }
        let s := if parent.isSome then { s with registered := false }.emit .finished else s
        (raisedBy result, s)

end RawDump

/-! ## Sequences of calls -/

/-- A call, the callback it is made in, and what the native calls answer if they are made. -/
inductive DumpCall (O : Type)
  | stop (callback : Option (CallbackOwner O)) (answer : DumpAnswer)
  | close (callback : Option (CallbackOwner O)) (answer : DumpAnswer) (destroy : NativeResult)

namespace DumpCall

variable {O : Type}

/-- The callback that the call is made in. -/
def callback : DumpCall O → Option (CallbackOwner O)
  | .stop callback _ => callback
  | .close callback _ _ => callback

/-- What `_native.raw_dump_stop` answers. -/
def answer : DumpCall O → DumpAnswer
  | .stop _ answer => answer
  | .close _ answer _ => answer

/-- The call is made outside callbacks, or the owner of the callback is neither the parent nor bound
to it. -/
def Unrelated (parent : O) (call : DumpCall O) : Prop :=
  ∀ owner, call.callback = some owner → owner.object ≠ parent ∧ owner.bound ≠ some parent

end DumpCall

/-- One RawDump of the parent `parent`, and any sequence of calls. -/
def rawDumps {O : Type} [DecidableEq O] (errorName : ℤ → String) (overflow : PyError) (parent : O) :
    Transition.Machine (RawDump O) (DumpCall O) where
  start s := s = { parent := some parent }
  step s
    | .stop callback answer =>
        let (result, s) := s.stop errorName overflow callback answer
        some (s.emit (.stopReturned result))
    | .close callback answer destroy =>
        let (error, s) := s.close errorName overflow callback answer destroy
        some (s.emit (.closeReturned error))

/-! ## The lifecycle law -/

/-- A `close()` has returned after the handle was destroyed. -/
def Over (older : List DumpEvent) : Prop :=
  ∃ error rest, (.closeReturned error :: rest) <:+ older ∧ .destroyed (.code 0) ∈ rest

/-- **The lifecycle law**: what may happen after the events `older`.

* `raw_dump_stop` is not called after it succeeded, nor after the handle was destroyed.
* The handle is destroyed once, and then the parent forgets the RawDump, once, before `close()`
  returns.
* A `stop()` that succeeds returns the archive that the others return.
* After the `close()` that destroyed the handle, every `close()` returns without error and every
  `stop()` raises `ClosedError`. -/
def Allowed (older : List DumpEvent) : DumpEvent → Prop
  | .stopped _ =>
      (∀ answer, answer.Succeeded → .stopped answer ∉ older) ∧ .destroyed (.code 0) ∉ older
  | .destroyed _ => .destroyed (.code 0) ∉ older
  | .finished => .destroyed (.code 0) ∈ older ∧ .finished ∉ older
  | .stopReturned result =>
      (∀ archive, result = .ok archive →
        ∀ other, .stopReturned (.ok other) ∈ older → other = archive) ∧
      (.destroyed (.code 0) ∈ older → result = .error closedError)
  | .closeReturned error =>
      (.destroyed (.code 0) ∈ older → .finished ∈ older) ∧ (Over older → error = none)

/-- Every event of the trace was allowed when it happened. -/
def Legal (trace : List DumpEvent) : Prop := Log.Legal Allowed trace

/-- **The calls that do no harm**: on a closed RawDump, none in a callback whose owner has no
binding; and a stop that succeeds reports a duration that `timedelta` has. -/
def Harmless {O : Type} (s : RawDump O) (call : DumpCall O) : Prop :=
  (s.closed = true → ∀ owner, call.callback = some owner → owner.bound ≠ none) ∧
  ∀ values, call.answer = .returned values → values.code = 0 →
    (TimeDelta.ofMilliseconds values.capturedDurationMs).isSome = true

/-! ## What a run knows -/

section Runs

variable {O : Type} [DecidableEq O] {errorName : ℤ → String} {overflow : PyError} {parent : O}

/-- **The invariant between two calls.** While it is open, the handle is not destroyed, and without
an archive no stop has succeeded; once closed, the handle is destroyed and the parent has forgotten
the RawDump. The archive, if there is one, is what every successful stop has returned. -/
structure Sound (parent : O) (s : RawDump O) : Prop where
  legal : Legal s.trace
  open_parent : s.closed = false → s.parent = some parent ∧ s.registered = true
  open_handle : s.closed = false → .destroyed (.code 0) ∉ s.trace ∧ .finished ∉ s.trace
  closed_parent : s.closed = true → s.parent = none ∧ s.registered = false
  closed_handle : s.closed = true → .destroyed (.code 0) ∈ s.trace ∧ .finished ∈ s.trace
  not_stopped : s.archive = none → s.closed = false →
    ∀ answer, answer.Succeeded → .stopped answer ∉ s.trace
  archive : ∀ archive, .stopReturned (.ok archive) ∈ s.trace → s.archive = some archive

/-- Nothing is over while the handle is not destroyed. -/
theorem not_over {older : List DumpEvent} (h : .destroyed (.code 0) ∉ older) : ¬ Over older := by
  rintro ⟨error, rest, hsuffix, hmem⟩
  exact h (hsuffix.subset (List.mem_cons_of_mem _ hmem))

/-- An unrelated callback of an open RawDump is let through. -/
theorem not_rejected_open {s : RawDump O} (h : Sound parent s) {call : DumpCall O}
    (hcall : call.Unrelated parent) (hopen : s.closed = false) :
    s.rejectBlockingCallback call.callback = false := by
  unfold RawDump.rejectBlockingCallback
  rw [(h.open_parent hopen).1]
  cases hcallback : call.callback with
  | none => rfl
  | some owner =>
      obtain ⟨hobject, hbound⟩ := hcall owner hcallback
      simp [hobject, hbound]

/-- On a closed RawDump the guard compares with `None`: it refuses exactly the callbacks whose owner
has no binding. -/
theorem rejected_closed_iff {s : RawDump O} (h : Sound parent s) (hclosed : s.closed = true)
    {callback : Option (CallbackOwner O)} :
    s.rejectBlockingCallback callback = true ↔
      ∃ owner, callback = some owner ∧ owner.bound = none := by
  unfold RawDump.rejectBlockingCallback
  rw [(h.closed_parent hclosed).1]
  cases callback with
  | none => simp
  | some owner => simp

/-- An event that is not the return of a `close()` ends nothing. -/
theorem not_over_cons {older : List DumpEvent} {event : DumpEvent} (h : ¬ Over older)
    (hevent : ∀ error, event ≠ .closeReturned error) : ¬ Over (event :: older) := by
  rintro ⟨error, rest, hsuffix, hmem⟩
  rcases List.suffix_cons_iff.mp hsuffix with heq | hrest
  · cases heq
    exact hevent error rfl
  · exact h ⟨error, rest, hrest, hmem⟩

/-- An event that stops, destroys and removes nothing keeps the invariant. -/
theorem sound_emit {s : RawDump O} (h : Sound parent s) {event : DumpEvent}
    (hallowed : Allowed s.trace event) (hstopped : ∀ answer, event ≠ .stopped answer)
    (hdestroyed : event ≠ .destroyed (.code 0)) (hfinished : event ≠ .finished)
    (harchive : ∀ archive, event = .stopReturned (.ok archive) → s.archive = some archive) :
    Sound parent (s.emit event) where
  legal := ⟨hallowed, h.legal⟩
  open_parent := h.open_parent
  open_handle := by
    intro hopen
    obtain ⟨hd, hf⟩ := h.open_handle hopen
    refine ⟨?_, ?_⟩
    · intro hmem
      rcases List.mem_cons.mp hmem with heq | hmem
      · exact hdestroyed heq.symm
      · exact hd hmem
    · intro hmem
      rcases List.mem_cons.mp hmem with heq | hmem
      · exact hfinished heq.symm
      · exact hf hmem
  closed_parent := h.closed_parent
  closed_handle := by
    intro hclosed
    obtain ⟨hd, hf⟩ := h.closed_handle hclosed
    exact ⟨List.mem_cons_of_mem _ hd, List.mem_cons_of_mem _ hf⟩
  not_stopped := by
    intro hnone hopen answer hanswer hmem
    rcases List.mem_cons.mp hmem with heq | hmem
    · exact hstopped answer heq.symm
    · exact h.not_stopped hnone hopen answer hanswer hmem
  archive := by
    intro archive hmem
    rcases List.mem_cons.mp hmem with heq | hmem
    · exact harchive archive heq.symm
    · exact h.archive archive hmem

/-- A `stop()` comes back: with the archive, or with an error, which on a closed RawDump is
`ClosedError`. -/
theorem sound_stopReturned {s : RawDump O} (h : Sound parent s)
    {result : Except PyError RawDumpArchive}
    (hok : ∀ archive, result = .ok archive → s.archive = some archive)
    (hclosed : s.closed = true → result = .error closedError) :
    Sound parent (s.emit (.stopReturned result)) := by
  refine sound_emit h ⟨?_, ?_⟩ ?_ ?_ ?_ ?_
  · intro archive hresult other hother
    have heq := (h.archive other hother).symm.trans (hok archive hresult)
    exact Option.some.inj heq
  · intro hdestroyed
    cases hstate : s.closed with
    | true => exact hclosed hstate
    | false => exact absurd hdestroyed (h.open_handle hstate).1
  · intro answer heq
    cases heq
  · intro heq
    cases heq
  · intro heq
    cases heq
  · intro archive heq
    cases heq
    exact hok archive rfl

/-- A `close()` comes back: with any error while the handle is not destroyed, and without one after
a `close()` that came back before. -/
theorem sound_closeReturned {s : RawDump O} (h : Sound parent s) {error : Option PyError}
    (hover : Over s.trace → error = none) : Sound parent (s.emit (.closeReturned error)) := by
  refine sound_emit h ⟨?_, hover⟩ ?_ ?_ ?_ ?_
  · intro hdestroyed
    cases hstate : s.closed with
    | true => exact (h.closed_handle hstate).2
    | false => exact absurd hdestroyed (h.open_handle hstate).1
  · intro answer heq
    cases heq
  · intro heq
    cases heq
  · intro heq
    cases heq
  · intro archive heq
    cases heq

/-! ## An open RawDump -/

/-- A call of `raw_dump_stop` on an open RawDump without an archive: the archive is known from then
on, or the stop did not succeed. -/
theorem sound_stopped {s : RawDump O} (h : Sound parent s) (hopen : s.closed = false)
    (hnone : s.archive = none) (answer : DumpAnswer) (archive : Option RawDumpArchive)
    (hknown : archive = none → ¬ answer.Succeeded) :
    Sound parent { s.emit (.stopped answer) with archive := archive } := by
  obtain ⟨hdestroyed, hfinished⟩ := h.open_handle hopen
  have hnew : ∀ event, event ∈ s.trace ∨ event = .stopped answer ↔
      event ∈ (DumpEvent.stopped answer :: s.trace) := by
    intro event
    rw [List.mem_cons, or_comm]
  refine ⟨⟨⟨h.not_stopped hnone hopen, hdestroyed⟩, h.legal⟩, h.open_parent, ?_, ?_, ?_, ?_, ?_⟩
  · intro _
    refine ⟨?_, ?_⟩
    · intro hmem
      rcases (hnew _).mpr hmem with hmem | heq
      · exact hdestroyed hmem
      · cases heq
    · intro hmem
      rcases (hnew _).mpr hmem with hmem | heq
      · exact hfinished hmem
      · cases heq
  · intro hclosed
    exact absurd (hopen.symm.trans hclosed) Bool.false_ne_true
  · intro hclosed
    exact absurd (hopen.symm.trans hclosed) Bool.false_ne_true
  · intro harchive _ other hother hmem
    rcases (hnew _).mpr hmem with hmem | heq
    · exact h.not_stopped hnone hopen other hother hmem
    · cases heq
      exact hknown harchive hother
  · intro other hmem
    rcases (hnew _).mpr hmem with hmem | heq
    · rw [h.archive other hmem] at hnone
      cases hnone
    · cases heq

variable (errorName overflow) in
/-- **`stop()` on an open RawDump**: it keeps the invariant, and what it returns is the archive. -/
theorem stop_open {s : RawDump O} (h : Sound parent s) (hopen : s.closed = false)
    {callback : Option (CallbackOwner O)} (hthrough : s.rejectBlockingCallback callback = false)
    {answer : DumpAnswer}
    (hduration : ∀ values, answer = .returned values → values.code = 0 →
      (TimeDelta.ofMilliseconds values.capturedDurationMs).isSome = true) :
    Sound parent (s.stop errorName overflow callback answer).2 ∧
      (s.stop errorName overflow callback answer).2.closed = false ∧
      ∀ archive, (s.stop errorName overflow callback answer).1 = .ok archive →
        (s.stop errorName overflow callback answer).2.archive = some archive := by
  unfold RawDump.stop
  simp only [hthrough, hopen, Bool.false_eq_true, if_false]
  cases harchive : s.archive with
  | some archive =>
      refine ⟨h, hopen, ?_⟩
      intro other hother
      cases hother
      exact harchive
  | none =>
      cases answer with
      | raised error =>
          have hsound := sound_stopped h hopen harchive (.raised error) none fun _ hf => hf
          rw [← harchive] at hsound
          exact ⟨hsound, hopen, fun _ hother => by cases hother⟩
      | returned values =>
          by_cases hcode : values.code = 0
          · obtain ⟨duration, hd⟩ := Option.isSome_iff_exists.mp (hduration values rfl hcode)
            simp only [hcode, archiveOf, hd, ne_eq, not_true_eq_false, if_false]
            refine ⟨?_, hopen, ?_⟩
            · exact sound_stopped h hopen harchive (.returned values) (some _)
                fun hnone => by cases hnone
            · intro other hother
              cases hother
              rfl
          · simp only [hcode, ne_eq, not_false_eq_true, if_true]
            have hsound := sound_stopped h hopen harchive (.returned values) none fun _ => hcode
            rw [← harchive] at hsound
            exact ⟨hsound, hopen, fun _ hother => by cases hother⟩

variable (errorName overflow) in
/-- **`close()` on an open RawDump**: it destroys the handle and has the parent forget the RawDump,
or it leaves it open. -/
theorem close_open {s : RawDump O} (h : Sound parent s) (hopen : s.closed = false)
    {callback : Option (CallbackOwner O)} (hthrough : s.rejectBlockingCallback callback = false)
    {answer : DumpAnswer} (destroy : NativeResult)
    (hduration : ∀ values, answer = .returned values → values.code = 0 →
      (TimeDelta.ofMilliseconds values.capturedDurationMs).isSome = true) :
    Sound parent (s.close errorName overflow callback answer destroy).2 ∧
      ¬ Over (s.close errorName overflow callback answer destroy).2.trace := by
  obtain ⟨hsound, hopen', -⟩ := stop_open errorName overflow h hopen hthrough hduration
  unfold RawDump.close
  simp only [hthrough, hopen, Bool.false_eq_true, if_false]
  generalize (s.stop errorName overflow callback answer).2 = t at hsound hopen'
  obtain ⟨hdestroyed, hfinished⟩ := hsound.open_handle hopen'
  cases hresult : destroy.retryInUse errorName with
  | some error =>
      have hfailed : destroy ≠ .code 0 := by
        intro heq
        rw [NativeResult.retryInUse_eq_none.mpr heq] at hresult
        cases hresult
      have hemitted : Sound parent (t.emit (.destroyed destroy)) := by
        refine sound_emit hsound hdestroyed ?_ ?_ ?_ ?_
        · intro _ heq
          cases heq
        · intro heq
          cases heq
          exact hfailed rfl
        · intro heq
          cases heq
        · intro _ heq
          cases heq
      exact ⟨hemitted, not_over (hemitted.open_handle hopen').1⟩
  | none =>
      have heq := NativeResult.retryInUse_eq_none.mp hresult
      subst heq
      have hparent : (t.emit (.destroyed (.code 0))).parent.isSome = true := by
        rw [RawDump.emit, (hsound.open_parent hopen').1]
        rfl
      simp only [hparent, if_true]
      refine ⟨⟨?_, ?_, ?_, ?_, ?_, ?_, ?_⟩, ?_⟩
      · refine ⟨⟨List.mem_cons_self, ?_⟩, hdestroyed, hsound.legal⟩
        intro hmem
        rcases List.mem_cons.mp hmem with heq | hmem
        · cases heq
        · exact hfinished hmem
      · intro hstate
        cases hstate
      · intro hstate
        cases hstate
      · exact fun _ => ⟨rfl, rfl⟩
      · exact fun _ => ⟨List.mem_cons_of_mem _ List.mem_cons_self, List.mem_cons_self⟩
      · intro _ hstate
        cases hstate
      · intro archive hmem
        rcases List.mem_cons.mp hmem with heq | hmem
        · cases heq
        · rcases List.mem_cons.mp hmem with heq | hmem
          · cases heq
          · exact hsound.archive archive hmem
      · refine not_over_cons (not_over_cons (not_over hdestroyed) ?_) ?_
        · intro _ heq
          cases heq
        · intro _ heq
          cases heq

/-! ## A closed RawDump -/

/-- A harmless call on a closed RawDump does nothing: `stop()` raises `ClosedError`, and `close()`
returns. -/
theorem closed_through {s : RawDump O} (h : Sound parent s) (hclosed : s.closed = true)
    {callback : Option (CallbackOwner O)}
    (hbound : ∀ owner, callback = some owner → owner.bound ≠ none) (answer : DumpAnswer)
    (destroy : NativeResult) :
    s.stop errorName overflow callback answer = (.error closedError, s) ∧
      s.close errorName overflow callback answer destroy = (none, s) := by
  have hthrough : s.rejectBlockingCallback callback = false := by
    rw [Bool.eq_false_iff, ne_eq, rejected_closed_iff h hclosed]
    rintro ⟨owner, howner, hnone⟩
    exact hbound owner howner hnone
  unfold RawDump.stop RawDump.close
  simp only [hthrough, hclosed, Bool.false_eq_true, if_false, if_true, and_self]

/-- In a callback whose owner has no binding, the guard of a closed RawDump refuses the call. -/
theorem closed_refused {s : RawDump O} (h : Sound parent s) (hclosed : s.closed = true)
    {callback : Option (CallbackOwner O)}
    (hbound : ∃ owner, callback = some owner ∧ owner.bound = none) (answer : DumpAnswer)
    (destroy : NativeResult) :
    s.stop errorName overflow callback answer = (.error inUseError, s) ∧
      s.close errorName overflow callback answer destroy = (some inUseError, s) := by
  have hrejected := (rejected_closed_iff h hclosed).mpr hbound
  unfold RawDump.stop RawDump.close
  simp only [hrejected, if_true, and_self]

/-! ## Runs -/

theorem step_stop (s : RawDump O) (callback : Option (CallbackOwner O)) (answer : DumpAnswer) :
    (rawDumps errorName overflow parent).step s (.stop callback answer) =
      some ((s.stop errorName overflow callback answer).2.emit
        (.stopReturned (s.stop errorName overflow callback answer).1)) := rfl

theorem step_close (s : RawDump O) (callback : Option (CallbackOwner O)) (answer : DumpAnswer)
    (destroy : NativeResult) :
    (rawDumps errorName overflow parent).step s (.close callback answer destroy) =
      some ((s.close errorName overflow callback answer destroy).2.emit
        (.closeReturned (s.close errorName overflow callback answer destroy).1)) := rfl

/-- **One harmless call keeps the invariant.** -/
theorem sound_step {s t : RawDump O} {call : DumpCall O} (h : Sound parent s)
    (hcall : call.Unrelated parent) (hharmless : Harmless s call)
    (hstep : (rawDumps errorName overflow parent).step s call = some t) : Sound parent t := by
  obtain ⟨hbound, hduration⟩ := hharmless
  cases hstate : s.closed with
  | false =>
      have hthrough := not_rejected_open h hcall hstate
      cases call with
      | stop callback answer =>
          rw [step_stop, Option.some.injEq] at hstep
          obtain ⟨hsound, hopen, hok⟩ := stop_open errorName overflow h hstate hthrough hduration
          subst hstep
          refine sound_stopReturned hsound hok ?_
          intro hclosed
          exact absurd (hopen.symm.trans hclosed) Bool.false_ne_true
      | close callback answer destroy =>
          rw [step_close, Option.some.injEq] at hstep
          obtain ⟨hsound, hover⟩ :=
            close_open errorName overflow h hstate hthrough destroy hduration
          subst hstep
          exact sound_closeReturned hsound fun hf => absurd hf hover
  | true =>
      cases call with
      | stop callback answer =>
          have hstop : s.stop errorName overflow callback answer = (.error closedError, s) :=
            (closed_through h hstate (hbound hstate) answer (.code 0)).1
          rw [step_stop, hstop, Option.some.injEq] at hstep
          subst hstep
          exact sound_stopReturned h (fun _ heq => by cases heq) fun _ => rfl
      | close callback answer destroy =>
          have hclose : s.close errorName overflow callback answer destroy = (none, s) :=
            (closed_through h hstate (hbound hstate) answer destroy).2
          rw [step_close, hclose, Option.some.injEq] at hstep
          subst hstep
          exact sound_closeReturned h fun _ => rfl

/-- The invariant holds in every run of harmless calls. -/
theorem sound_reach {s : RawDump O}
    (h : (rawDumps errorName overflow parent).ReachWith
      (fun s call => call.Unrelated parent ∧ Harmless s call) s) : Sound parent s := by
  apply h.invariant
  · rintro s rfl
    refine ⟨trivial, fun _ => ⟨rfl, rfl⟩, fun _ => ⟨?_, ?_⟩, ?_, ?_, ?_, ?_⟩
    · exact List.not_mem_nil
    · exact List.not_mem_nil
    · intro hclosed
      cases hclosed
    · intro hclosed
      cases hclosed
    · intro _ _ _ _
      exact List.not_mem_nil
    · intro _ hmem
      cases hmem
  · intro s call t hs hok hstep
    exact sound_step hs hok.1 hok.2 hstep

/-- **The lifecycle law of a RawDump.** In every sequence of harmless calls, outside callbacks or in
callbacks of unrelated owners, with any results of the native calls, every event is one that the law
allows; and once the handle is destroyed, the parent has forgotten the RawDump. -/
theorem lifecycle_law {s : RawDump O}
    (h : (rawDumps errorName overflow parent).ReachWith
      (fun s call => call.Unrelated parent ∧ Harmless s call) s) :
    Legal s.trace ∧ (.destroyed (.code 0) ∈ s.trace → s.registered = false) := by
  have hsound := sound_reach h
  refine ⟨hsound.legal, ?_⟩
  intro hdestroyed
  cases hstate : s.closed with
  | false => exact absurd hdestroyed (hsound.open_handle hstate).1
  | true => exact (hsound.closed_parent hstate).2

/-- **On a closed RawDump exactly the harmless callbacks keep the law**: after a `close()` that has
come back, one more call keeps it if and only if it is not made in a callback whose owner has no
binding. -/
theorem closed_call_iff {s t : RawDump O} {call : DumpCall O} (h : Sound parent s)
    (hclosed : s.closed = true) (hover : Over s.trace)
    (hstep : (rawDumps errorName overflow parent).step s call = some t) :
    Legal t.trace ↔ ∀ owner, call.callback = some owner → owner.bound ≠ none := by
  have hdestroyed := (h.closed_handle hclosed).1
  have hfinished := (h.closed_handle hclosed).2
  cases call with
  | stop callback answer =>
      constructor
      · intro hlegal owner howner hnone
        have hstop : s.stop errorName overflow callback answer = (.error inUseError, s) :=
          (closed_refused h hclosed ⟨owner, howner, hnone⟩ answer (.code 0)).1
        rw [step_stop, hstop, Option.some.injEq] at hstep
        subst hstep
        have herror := hlegal.1.2 hdestroyed
        cases herror
      · intro hbound
        have hstop : s.stop errorName overflow callback answer = (.error closedError, s) :=
          (closed_through h hclosed hbound answer (.code 0)).1
        rw [step_stop, hstop, Option.some.injEq] at hstep
        subst hstep
        exact ⟨⟨fun _ heq => (by cases heq), fun _ => rfl⟩, h.legal⟩
  | close callback answer destroy =>
      constructor
      · intro hlegal owner howner hnone
        have hclose : s.close errorName overflow callback answer destroy = (some inUseError, s) :=
          (closed_refused h hclosed ⟨owner, howner, hnone⟩ answer destroy).2
        rw [step_close, hclose, Option.some.injEq] at hstep
        subst hstep
        have herror := hlegal.1.2 hover
        cases herror
      · intro hbound
        have hclose : s.close errorName overflow callback answer destroy = (none, s) :=
          (closed_through h hclosed hbound answer destroy).2
        rw [step_close, hclose, Option.some.injEq] at hstep
        subst hstep
        exact ⟨⟨fun _ => hfinished, fun _ => rfl⟩, h.legal⟩

end Runs

/-- The law on a stop, a close, and another close in the callback of an Output that is bound to
another parent. -/
theorem lifecycle_law_closed_twice :
    ∃ s : RawDump ℕ, (rawDumps (fun _ => "") (.other 9) 1).ReachWith
        (fun s call => call.Unrelated 1 ∧ Harmless s call) s ∧
      s.closed = true ∧ Legal s.trace := by
  have hstart : (rawDumps (fun _ => "") (.other 9) 1).ReachWith
      (fun s call => call.Unrelated 1 ∧ Harmless s call) ({ parent := some 1 } : RawDump ℕ) :=
    .start rfl
  have hstopped := hstart.step (a := .stop none (.returned { code := 0 }))
    ⟨fun _ h => (by cases h), fun h => (by cases h), fun _ h _ => (by cases h; decide)⟩ rfl
  have hclosed := hstopped.step (a := .close none (.returned { code := 0 }) (.code 0))
    ⟨fun _ h => (by cases h), fun _ _ h => (by cases h), fun _ h _ => (by cases h; decide)⟩ rfl
  have hagain := hclosed.step
    (a := .close (some ⟨2, some 3⟩) (.returned { code := 0 }) (.code 0))
    ⟨fun _ h => (by cases h; decide), fun _ _ h => (by cases h; decide),
      fun _ h _ => (by cases h; decide)⟩ rfl
  exact ⟨_, hagain, rfl, (lifecycle_law hagain).1⟩

/-- **A second `close()` that is refused**: after a `close()`, another one in the callback of an
unrelated object without a binding raises `InUseError`. -/
theorem dump_close_refused :
    ¬ ∀ s : RawDump ℕ, (rawDumps (fun _ => "") (.other 9) 1).ReachWith
      (fun _ call => call.Unrelated 1) s → Legal s.trace := by
  intro hlaw
  have hstart : (rawDumps (fun _ => "") (.other 9) 1).ReachWith
      (fun _ call => call.Unrelated 1) ({ parent := some 1 } : RawDump ℕ) := .start rfl
  have hclosed := hstart.step (a := .close none (.returned { code := 0 }) (.code 0))
    (fun _ h => (by cases h)) rfl
  have hagain := hclosed.step
    (a := .close (some ⟨2, none⟩) (.returned { code := 0 }) (.code 0))
    (fun _ h => (by cases h; decide)) rfl
  have hallowed := (hlaw _ hagain).1.2
  have hover := hallowed ⟨none, _, List.suffix_refl _, List.mem_cons_of_mem _ List.mem_cons_self⟩
  cases hover

end Tirtc.RawDumps
