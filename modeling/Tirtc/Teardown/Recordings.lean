import Mathlib.Tactic.Common
import Tirtc.Lib.Datetime
import Tirtc.Lib.Logs
import Tirtc.Lib.Threads
import Tirtc.Lifecycle

/-!
# All callers of a RecordingTask's stop see one result

Any number of threads call `stop()` on one RecordingTask, from the application or from the close of
its parent, with any results of the native calls. The teardown stops the task, destroys its handle
and has the parent forget it; it may fail in between, and another call takes it up again. The
RecordingTasks of a Connection and of a Replay run the same code.

* `RecordingFile`, `RecordingTask`, `StopEvent`: the records. The trace is history, with the newest
  event first.
* `StopPc`, `stopStep`: where a call of `stop()` is, and its lock-held sections and native calls.
* `recordingCalls`: all of it as a `Transition.Threads` system.
* `TaskOk`, `At`, `Keeps`: the invariant, what a thread knows, and what a step leaves to the others.
* `begin_good` to `step_good`: each section keeps the invariant.
* `Allowed`, `one_result`: the law of the events, and that every run keeps it.
-/

set_option autoImplicit false
set_option linter.unusedSectionVars false

namespace Tirtc.Recordings

open Datetime Transition

/-! ## The records -/

/-- The tuple that `_native.recording_stop` returns. Source: `extension.c`, `py_recording_stop` -/
structure StopValues where
  code : ℤ
  path : String := ""
  durationMs : ℤ := 0
  deriving DecidableEq

/-- What `_native.recording_stop` does: it returns its tuple, or the wrapper raises. -/
inductive StopAnswer
  | returned (values : StopValues)
  | raised (error : PyError)
  deriving DecidableEq

/-- The answer is a result, and not that the task is in use. -/
def StopAnswer.Final : StopAnswer → Prop
  | .returned values => values.code ≠ 6026
  | .raised _ => False

/-- `ref` is the identity of the object. Source: `_core.py`, `RecordingFile` -/
structure RecordingFile where
  ref : ℕ
  path : String
  duration : TimeDelta
  deriving DecidableEq

/-- `overflow` is the `OverflowError` of `timedelta`. Source: `_core.py`, `RecordingFile._create` -/
def RecordingFile.create (overflow : PyError) (ref : ℕ) (path : String) (durationMs : ℤ) :
    Except PyError RecordingFile :=
  match TimeDelta.ofMilliseconds durationMs with
  | none => .error overflow
  | some duration => .ok ⟨ref, path, duration⟩

/-- What happens to a RecordingTask: one call of `_native.recording_stop`, one call of
`_native.close`, and what a call of `stop()` comes back with, which began before the task was closed
or `late`. -/
inductive StopEvent
  | stopped (answer : StopAnswer)
  | destroyed (result : NativeResult)
  | returned (late : Bool) (result : Except PyError RecordingFile)

/-- `made` counts the `RecordingFile` objects; `closer` is history, the thread that performs the
teardown. Source: `RecordingTask._prepare` in `_core.py` and in `storage/__init__.py` -/
structure RecordingTask (ι : Type) where
  close : CloseCoordinator := {}
  result : Option RecordingFile := none
  error : Option PyError := none
  stopped : Bool := false
  parentFinished : Bool := false
  made : ℕ := 0
  closer : Option ι := none
  trace : List StopEvent := []

namespace RecordingTask

variable {ι : Type} (errorName : ℤ → String) (overflow : PyError) (t : RecordingTask ι)

/-- One more event. -/
def emit (event : StopEvent) : RecordingTask ι := { t with trace := event :: t.trace }

/-- The end of `stop()`. Source: `RecordingTask.stop` -/
def resultOrError : Except PyError RecordingFile :=
  match t.error, t.result with
  | some e, _ => .error (copyError e)
  | none, some file => .ok file
  -- the assertion fails
  | none, none => .error (.other 0)

/-- The final result is remembered; on the right what that raises. Source: `RecordingTask.stop` -/
def store (values : StopValues) : RecordingTask ι × Option PyError :=
  if values.code ≠ 0 then
    ({ t with
        error := some (errorFromCode values.code (errorName values.code))
        result := none
        stopped := true }, none)
  else
    match RecordingFile.create overflow t.made values.path values.durationMs with
    | .error e => ({ t with error := none }, some e)
    | .ok file =>
        ({ t with error := none, result := some file, made := t.made + 1, stopped := true }, none)

end RecordingTask

/-! ## The calls -/

/-- Where a thread is in `stop()`, behind `begin` with the generation. `stopInUse` and
`destroyInUse` are the waits of the two retry loops. -/
inductive StopPc
  | idle
  | join (generation : ℕ)
  | stop (generation : ℕ)
  | nativeStop (generation : ℕ)
  | stopInUse (generation : ℕ)
  | store (generation : ℕ) (values : StopValues)
  | destroy (generation : ℕ)
  | destroyInUse (generation : ℕ)
  | finishParent (generation : ℕ)
  | succeed (generation : ℕ)
  | fail (generation : ℕ) (error : PyError)
  | result
  deriving DecidableEq

/-- What moves a thread: a call of `stop()` in a callback or outside, the next section, the deadline
of a retry loop, the answers of the native calls. -/
inductive StopAction (O : Type)
  | stop (callback : Option O)
  | go
  | timeout
  | answer (answer : StopAnswer)
  | native (result : NativeResult)
  deriving DecidableEq

section Calls

variable {O ι : Type} [DecidableEq O] (errorName : ℤ → String) (overflow : PyError) (parent : O)
  (t : RecordingTask ι) (i : ι)

/-- The first section of `stop()`. Source: `RecordingTask.stop` -/
def beginStop : RecordingTask ι × StopPc :=
  let late := decide (t.close.status = .closed)
  let (result, close) := t.close.begin
  let t := { t with close := close }
  match result with
  | .join g => (t, .join g)
  | .none => (t.emit (.returned late t.resultOrError), .idle)
  | .inUse => (t.emit (.returned late (.error inUseError)), .idle)
  | .perform g => ({ t with closer := some i }, .stop g)

/-- A step of thread `i`. A call in a callback of the parent is refused, and leaves no trace.
Source: `RecordingTask.stop` in `_core.py` and in `storage/__init__.py` -/
def stopStep : StopPc → StopAction O → Option (RecordingTask ι × StopPc)
  | .idle, .stop callback =>
      if callback = some parent then some (t, .idle) else some (beginStop t i)
  | .join g, .go =>
      (t.close.outcome? g).bind fun error =>
        (t.close.leave g).map fun close =>
          let t := { t with close := close }
          (t.emit (.returned false (match error with
            | some e => .error (copyError e)
            | none => t.resultOrError)), .idle)
  | .stop g, .go => some (t, if t.stopped then .destroy g else .nativeStop g)
  | .nativeStop g, .answer answer =>
      let t := t.emit (.stopped answer)
      match answer with
      | .raised e => some (t, .fail g e)
      | .returned values => some (t, if values.code = 6026 then .stopInUse g else .store g values)
  | .stopInUse g, .go => some (t, .nativeStop g)
  | .stopInUse g, .timeout => some (t, .fail g timeoutError)
  | .store g values, .go =>
      match t.store errorName overflow values with
      | (t, none) => some (t, .destroy g)
      | (t, some e) => some (t, .fail g e)
  | .destroy g, .native r =>
      let t := t.emit (.destroyed r)
      match r with
      | .raised e => some (t, .fail g e)
      | .code c =>
          if c = 6026 then some (t, .destroyInUse g)
          else
            match (NativeResult.code c).check errorName with
            | none => some (t, .finishParent g)
            | some e => some (t, .fail g e)
  | .destroyInUse g, .go => some (t, .destroy g)
  | .destroyInUse g, .timeout => some (t, .fail g timeoutError)
  | .finishParent g, .go => some ({ t with parentFinished := true }, .succeed g)
  | .succeed g, .go => some ({ t with close := t.close.succeed g t.error }, .result)
  | .fail g e, .go =>
      some ({ t with close := t.close.fail g e }.emit (.returned false (.error e)), .idle)
  | .result, .go => some (t.emit (.returned false t.resultOrError), .idle)
  | _, _ => none

end Calls

/-- **The calls of `stop()` on one RecordingTask** of the parent `parent`, from its creation on. -/
def recordingCalls (ι : Type) {O : Type} [DecidableEq O] (errorName : ℤ → String)
    (overflow : PyError) (parent : O) :
    Threads ι (RecordingTask ι) StopPc (StopAction O) Empty where
  start t := t = {}
  entry := .idle
  step i t p act := stopStep errorName overflow parent t i p act
  env _ e := nomatch e

/-! ## The law of the events -/

/-- What a call comes back with is the one result: it began late, or it returns normally. -/
def Settled (late : Bool) (result : Except PyError RecordingFile) : Prop :=
  late = true ∨ ∃ file, result = .ok file

/-- **The law of a RecordingTask**: what may happen after the events `older`.

* `recording_stop` is not called after it returned a final result, nor after the handle was
  destroyed.
* `_native.close` is not called after it succeeded.
* The calls that return normally return one object; those that begin late return it too, or they all
  raise one error. -/
def Allowed (older : List StopEvent) : StopEvent → Prop
  | .stopped _ =>
      (∀ answer, answer.Final → .stopped answer ∉ older) ∧ .destroyed (.code 0) ∉ older
  | .destroyed _ => .destroyed (.code 0) ∉ older
  | .returned late result => Settled late result →
      ∀ l other, .returned l other ∈ older → Settled l other → other = result

/-- Every event of the trace was allowed when it happened. -/
def Legal (trace : List StopEvent) : Prop := Log.Legal Allowed trace

/-- If the Runtime gives a file, `timedelta` has its duration. -/
def fits {O : Type} : StopAction O → Bool
  | .answer (.returned values) =>
      decide (values.code ≠ 0) || (TimeDelta.ofMilliseconds values.durationMs).isSome
  | _ => true

/-! ## The invariant -/

section Invariant

variable {O ι : Type} [DecidableEq O] {errorName : ℤ → String} {overflow : PyError} {parent : O}
  {t t' u : RecordingTask ι} {i : ι} {k : Option ι}

/-- Thread `i` performs the teardown. -/
def Closes (i : ι) (t : RecordingTask ι) : Prop := t.closer = some i ∧ t.close.status = .closing

/-- No call of `recording_stop` has returned a final result. -/
def NotStopped (t : RecordingTask ι) : Prop := ∀ answer, answer.Final → .stopped answer ∉ t.trace

/-- The handle is not destroyed. -/
def NotDestroyed (t : RecordingTask ι) : Prop := .destroyed (.code 0) ∉ t.trace

/-- A teardown may begin, or be taken up again. -/
def Ready (t : RecordingTask ι) : Prop :=
  NotDestroyed t ∧ (t.stopped = false → NotStopped t)

/-- **The invariant of a RecordingTask.** What the calls that count have come back with is the
result that is remembered. -/
structure TaskOk (t : RecordingTask ι) : Prop where
  legal : Legal t.trace
  set : t.stopped = true →
    (∃ file, t.result = some file ∧ t.error = none) ∨ ∃ e, t.result = none ∧ t.error = some e
  ready : t.close.status = .open ∨ t.close.status = .closeFailed → Ready t
  closed : t.close.status = .closed → t.stopped = true
  succeeded : ∀ g, t.close.outcomes g = some none → t.stopped = true
  answered : ∀ late result, .returned late result ∈ t.trace → Settled late result →
    t.stopped = true ∧ result = t.resultOrError

/-- What thread `i` knows at its place. -/
def At (i : ι) (t : RecordingTask ι) : StopPc → Prop
  | .idle | .join _ => True
  | .stop _ | .fail _ _ => Closes i t ∧ Ready t
  | .nativeStop _ | .stopInUse _ => Closes i t ∧ Ready t ∧ t.stopped = false
  | .store _ values => Closes i t ∧ NotDestroyed t ∧ t.stopped = false ∧
      (values.code = 0 → ∃ duration, TimeDelta.ofMilliseconds values.durationMs = some duration)
  | .destroy _ | .destroyInUse _ => Closes i t ∧ NotDestroyed t ∧ t.stopped = true
  | .finishParent _ | .succeed _ => Closes i t ∧ t.stopped = true
  | .result => t.stopped = true

/-- **What a step of `k` leaves to the others**: the result once it is there, the teardown to the
thread that performs it, and a task that is closed. -/
structure Keeps (k : Option ι) (t t' : RecordingTask ι) : Prop where
  result : t.stopped = true →
    t'.stopped = true ∧ t'.result = t.result ∧ t'.error = t.error
  closes : ∀ j, k ≠ some j → Closes j t → Closes j t' ∧ t'.stopped = t.stopped ∧
    (NotStopped t → NotStopped t') ∧ (NotDestroyed t → NotDestroyed t')
  closed : t.close.status = .closed → t'.close.status = .closed

theorem Keeps.refl (k : Option ι) (t : RecordingTask ι) : Keeps k t t where
  result h := ⟨h, rfl, rfl⟩
  closes _ _ h := ⟨h, rfl, id, id⟩
  closed h := h

theorem Keeps.trans (h : Keeps k t t') (h' : Keeps k t' u) : Keeps k t u where
  result hstopped := by
    obtain ⟨hstopped', hresult, herror⟩ := h.result hstopped
    obtain ⟨hstopped'', hresult', herror'⟩ := h'.result hstopped'
    exact ⟨hstopped'', hresult'.trans hresult, herror'.trans herror⟩
  closes j hj hcloses := by
    obtain ⟨hcloses', hsame, hstop, hdestroy⟩ := h.closes j hj hcloses
    obtain ⟨hcloses'', hsame', hstop', hdestroy'⟩ := h'.closes j hj hcloses'
    exact ⟨hcloses'', hsame'.trans hsame, fun hn => hstop' (hstop hn),
      fun hn => hdestroy' (hdestroy hn)⟩
  closed hclosed := h'.closed (h.closed hclosed)

/-- What a thread knows, the others leave alone. -/
theorem At.stable {j : ι} {p : StopPc} (hk : k ≠ some j) (h : Keeps k t t') (hA : At j t p) :
    At j t' p := by
  have hready : Closes j t → Ready t → Ready t' := by
    intro hcloses hready
    obtain ⟨-, hsame, hstop, hdestroy⟩ := h.closes j hk hcloses
    exact ⟨hdestroy hready.1, fun hn => hstop (hready.2 (hsame.symm.trans hn))⟩
  cases p with
  | idle | join _ => trivial
  | stop _ | fail _ _ =>
      obtain ⟨hcloses, hr⟩ := hA
      exact ⟨(h.closes j hk hcloses).1, hready hcloses hr⟩
  | nativeStop _ | stopInUse _ =>
      obtain ⟨hcloses, hr, hstopped⟩ := hA
      obtain ⟨hcloses', hsame, -, -⟩ := h.closes j hk hcloses
      exact ⟨hcloses', hready hcloses hr, hsame.trans hstopped⟩
  | store _ _ =>
      obtain ⟨hcloses, hlive, hstopped, hfits⟩ := hA
      obtain ⟨hcloses', hsame, -, hdestroy⟩ := h.closes j hk hcloses
      exact ⟨hcloses', hdestroy hlive, hsame.trans hstopped, hfits⟩
  | destroy _ | destroyInUse _ =>
      obtain ⟨hcloses, hlive, hstopped⟩ := hA
      obtain ⟨hcloses', hsame, -, hdestroy⟩ := h.closes j hk hcloses
      exact ⟨hcloses', hdestroy hlive, hsame.trans hstopped⟩
  | finishParent _ | succeed _ =>
      obtain ⟨hcloses, hstopped⟩ := hA
      obtain ⟨hcloses', hsame, -, -⟩ := h.closes j hk hcloses
      exact ⟨hcloses', hsame.trans hstopped⟩
  | result => exact (h.result hA).1

/-! ## Single sections -/

/-- What a section owes, but for the place it leads to. -/
structure Good (k : Option ι) (t t' : RecordingTask ι) : Prop where
  ok : TaskOk t'
  keeps : Keeps k t t'

theorem Good.refl (k : Option ι) (ht : TaskOk t) : Good k t t := ⟨ht, .refl k t⟩

theorem Good.trans (h : Good k t t') (h' : Good k t' u) : Good k t u :=
  ⟨h'.ok, h.keeps.trans h'.keeps⟩

/-- An event of another kind says nothing about `recording_stop` and `_native.close`. -/
theorem notStopped_returned {late : Bool} {result : Except PyError RecordingFile}
    (h : NotStopped t) : NotStopped (t.emit (.returned late result)) := by
  intro answer hfinal hmem
  rcases List.mem_cons.mp hmem with heq | hmem
  · cases heq
  · exact h answer hfinal hmem

theorem notDestroyed_returned {late : Bool} {result : Except PyError RecordingFile}
    (h : NotDestroyed t) : NotDestroyed (t.emit (.returned late result)) := by
  intro hmem
  rcases List.mem_cons.mp hmem with heq | hmem
  · cases heq
  · exact h hmem

/-- **A call comes back.** If what it comes back with counts, it is the remembered result. -/
theorem returned_good (ht : TaskOk t) (late : Bool) (result : Except PyError RecordingFile)
    (h : Settled late result → t.stopped = true ∧ result = t.resultOrError) :
    Good k t (t.emit (.returned late result)) where
  ok := by
    refine ⟨⟨?_, ht.legal⟩, ht.set, ?_, ht.closed, ht.succeeded, ?_⟩
    · intro hsettled l other hmem hother
      exact (ht.answered l other hmem hother).2.trans (h hsettled).2.symm
    · intro hidle
      obtain ⟨hlive, hstop⟩ := ht.ready hidle
      exact ⟨notDestroyed_returned hlive, fun hn => notStopped_returned (hstop hn)⟩
    · intro l other hmem hother
      rcases List.mem_cons.mp hmem with heq | hmem
      · cases heq
        exact h hother
      · exact ht.answered l other hmem hother
  keeps := ⟨fun hs => ⟨hs, rfl, rfl⟩,
    fun _ _ hc => ⟨hc, rfl, notStopped_returned, notDestroyed_returned⟩, id⟩

/-- A call that raises, and did not begin late. -/
theorem raised_good (ht : TaskOk t) (e : PyError) :
    Good k t (t.emit (.returned false (.error e))) := by
  apply returned_good ht
  rintro (hlate | ⟨file, hok⟩)
  · cases hlate
  · cases hok

/-- The coordinator goes on, without a change of the status. -/
theorem Good.close {close : CloseCoordinator} (ht : TaskOk t)
    (hstatus : close.status = t.close.status)
    (houtcomes : ∀ g, close.outcomes g = some none → t.close.outcomes g = some none) :
    Good k t { t with close := close } where
  ok := ⟨ht.legal, ht.set, fun h => ht.ready (by rwa [← hstatus]),
    fun h => ht.closed (hstatus.symm.trans h), fun g h => ht.succeeded g (houtcomes g h),
    ht.answered⟩
  keeps := ⟨fun h => ⟨h, rfl, rfl⟩, fun _ _ h => ⟨⟨h.1, hstatus.trans h.2⟩, rfl, id, id⟩,
    fun h => hstatus.trans h⟩

/-- **The first section of `stop()`**: it joins a teardown, gets the result, or performs the
teardown. -/
theorem begin_good (ht : TaskOk t) :
    Good (some i) t (beginStop t i).1 ∧ At i (beginStop t i).1 (beginStop t i).2 := by
  unfold beginStop
  rcases t.close.begin_cases false with ⟨hst, hb⟩ | ⟨hst, hb⟩ | ⟨hst, hb⟩ | ⟨hst, hb⟩
  · simp only [hb]
    exact ⟨.close ht rfl fun _ h => h, trivial⟩
  · simp only [hb]
    exact ⟨returned_good ht _ _ fun _ => ⟨ht.closed hst, rfl⟩, trivial⟩
  · simp only [hb, hst]
    exact ⟨raised_good ht _, trivial⟩
  · simp only [hb]
    have hidle : t.close.status ≠ .closing ∧ t.close.status ≠ .closed := by
      rcases hst with hst | hst
      · simp [hst]
      · simp [hst]
    refine ⟨⟨⟨ht.legal, ht.set, ?_, ?_, ht.succeeded, ht.answered⟩, ?_⟩, ⟨rfl, rfl⟩, ht.ready hst⟩
    · intro h
      rcases h with h | h
      · cases h
      · cases h
    · intro h
      cases h
    · exact ⟨fun h => ⟨h, rfl, rfl⟩, fun j _ h => absurd h.2 hidle.1, fun h => absurd h hidle.2⟩

/-- The performer calls a native function, or remembers a result. -/
theorem Good.performer (hcloses : Closes i t) (hclose : t'.close = t.close)
    (hlegal : Legal t'.trace)
    (hset : t'.stopped = true →
      (∃ file, t'.result = some file ∧ t'.error = none) ∨ ∃ e, t'.result = none ∧ t'.error = some e)
    (hresult : t.stopped = true → t'.stopped = true ∧ t'.result = t.result ∧ t'.error = t.error)
    (hanswered : ∀ late result, .returned late result ∈ t'.trace → Settled late result →
      t'.stopped = true ∧ result = t'.resultOrError)
    (hsucceeded : ∀ g, t.close.outcomes g = some none → t.stopped = true) :
    Good (some i) t t' where
  ok := by
    have hclosing : t'.close.status = .closing := hclose ▸ hcloses.2
    refine ⟨hlegal, hset, ?_, ?_, ?_, hanswered⟩
    · rw [hclosing]
      rintro (h | h)
      · cases h
      · cases h
    · rw [hclosing]
      intro h
      cases h
    · rw [hclose]
      exact fun g h => (hresult (hsucceeded g h)).1
  keeps := by
    refine ⟨hresult, ?_, ?_⟩
    · intro j hj h
      exact absurd (hcloses.1.symm.trans h.1) hj
    · intro h
      cases hcloses.2.symm.trans h

/-- **One native call**, of `recording_stop` or of `_native.close`. -/
theorem native_good (event : StopEvent) (ht : TaskOk t) (hcloses : Closes i t)
    (hallowed : Allowed t.trace event) (hevent : ∀ late result, event ≠ .returned late result) :
    Good (some i) t (t.emit event) := by
  refine .performer hcloses rfl ⟨hallowed, ht.legal⟩ ht.set (fun h => ⟨h, rfl, rfl⟩) ?_ ht.succeeded
  intro late result hmem hsettled
  rcases List.mem_cons.mp hmem with heq | hmem
  · exact absurd heq.symm (hevent late result)
  · exact ht.answered late result hmem hsettled

variable (errorName overflow) in
/-- **The final result is remembered**, and its duration is there. -/
theorem store_good {values : StopValues} (ht : TaskOk t) (hcloses : Closes i t)
    (hstopped : t.stopped = false)
    (hfits : values.code = 0 →
      ∃ duration, TimeDelta.ofMilliseconds values.durationMs = some duration) :
    ∃ t', t.store errorName overflow values = (t', none) ∧ Good (some i) t t' ∧ t'.close = t.close ∧
      t'.closer = t.closer ∧ t'.trace = t.trace ∧ t'.stopped = true := by
  have hnew : ∀ t' : RecordingTask ι, t'.close = t.close → t'.trace = t.trace →
      (t'.stopped = true → (∃ file, t'.result = some file ∧ t'.error = none) ∨
        ∃ e, t'.result = none ∧ t'.error = some e) → Good (some i) t t' := by
    intro t' hclose htrace hset
    refine .performer hcloses hclose (htrace ▸ ht.legal) hset ?_ ?_ ht.succeeded
    · intro h
      cases hstopped.symm.trans h
    · intro late result hmem hsettled
      rw [htrace] at hmem
      cases hstopped.symm.trans (ht.answered late result hmem hsettled).1
  unfold RecordingTask.store
  by_cases hcode : values.code = 0
  · obtain ⟨duration, hduration⟩ := hfits hcode
    rw [if_neg (not_not.mpr hcode)]
    simp only [RecordingFile.create, hduration]
    exact ⟨_, rfl, hnew _ rfl rfl fun _ => .inl ⟨_, rfl, rfl⟩, rfl, rfl, rfl, rfl⟩
  · rw [if_pos hcode]
    exact ⟨_, rfl, hnew _ rfl rfl fun _ => .inr ⟨_, rfl, rfl⟩, rfl, rfl, rfl, rfl⟩

/-- The performer reports how its teardown went. -/
theorem report_good {close : CloseCoordinator} (g : ℕ) (error : Option PyError) (ht : TaskOk t)
    (hcloses : Closes i t) (hrecord : close.outcomes = (t.close.record g error).outcomes)
    (hstatus : (close.status = .closeFailed ∧ Ready t ∧ error ≠ none) ∨
      (close.status = .closed ∧ t.stopped = true)) :
    Good (some i) t { t with close := close } where
  ok := by
    refine ⟨ht.legal, ht.set, ?_, ?_, ?_, ht.answered⟩
    · intro h
      rcases hstatus with ⟨-, hready, -⟩ | ⟨hst, -⟩
      · exact hready
      · rw [hst] at h
        rcases h with h | h
        · cases h
        · cases h
    · intro h
      rcases hstatus with ⟨hst, -⟩ | ⟨-, hstopped⟩
      · cases hst.symm.trans h
      · exact hstopped
    · intro k hk
      have hk : close.outcomes k = some none := hk
      rw [hrecord] at hk
      rcases t.close.record_outcome hk with hold | hnew
      · exact ht.succeeded k hold
      · rcases hstatus with ⟨-, -, herror⟩ | ⟨-, hstopped⟩
        · exact absurd hnew.symm herror
        · exact hstopped
  keeps := by
    refine ⟨fun h => ⟨h, rfl, rfl⟩, ?_, ?_⟩
    · intro j hj h
      exact absurd (hcloses.1.symm.trans h.1) hj
    · intro h
      cases hcloses.2.symm.trans h

/-- A waiter leaves the coordinator. -/
theorem leave_good {close : CloseCoordinator} {g : ℕ} (ht : TaskOk t)
    (h : t.close.leave g = some close) : Good k t { t with close := close } := by
  have hstatus := (t.close.leave_spec h).1
  exact .close ht hstatus fun j hj => t.close.leave_outcome h hj

/-- **A step of a thread keeps the invariant.** -/
theorem step_good {p p' : StopPc} {act : StopAction O} (ht : TaskOk t) (hA : At i t p)
    (hact : fits act = true) (h : stopStep errorName overflow parent t i p act = some (t', p')) :
    Good (some i) t t' ∧ At i t' p' := by
  unfold stopStep at h
  split at h
  · -- the first section
    split at h
    · cases h
      exact ⟨.refl _ ht, trivial⟩
    · obtain ⟨hgood, hplace⟩ := begin_good (i := i) ht
      rw [Option.some.inj h] at hgood hplace
      exact ⟨hgood, hplace⟩
  · -- a waiter wakes
    obtain ⟨error, houtcome, hwake⟩ := Option.bind_eq_some_iff.mp h
    obtain ⟨close, hleave, hnext⟩ := Option.map_eq_some_iff.mp hwake
    have hleft := leave_good (k := some i) ht hleave
    cases error with
    | some e =>
        cases hnext
        exact ⟨hleft.trans (raised_good hleft.ok _), trivial⟩
    | none =>
        have hstopped : t.stopped = true := ht.succeeded _ houtcome
        cases hnext
        exact ⟨hleft.trans (returned_good hleft.ok _ _ fun _ => ⟨hstopped, rfl⟩), trivial⟩
  · -- `if not self._stopped`
    obtain ⟨hcloses, hready⟩ := hA
    cases hstopped : t.stopped with
    | false =>
        rw [hstopped] at h
        cases h
        exact ⟨.refl _ ht, hcloses, hready, hstopped⟩
    | true =>
        rw [hstopped] at h
        cases h
        exact ⟨.refl _ ht, hcloses, hready.1, hstopped⟩
  · -- one call of `recording_stop`
    next g answer =>
      obtain ⟨hcloses, hready, hstopped⟩ := hA
      have hgood := native_good (.stopped answer) ht hcloses
        ⟨hready.2 hstopped, hready.1⟩ (fun _ _ heq => by cases heq)
      have hlive : NotDestroyed (t.emit (.stopped answer)) := by
        intro hmem
        rcases List.mem_cons.mp hmem with heq | hmem
        · cases heq
        · exact hready.1 hmem
      have hopen : ¬ answer.Final → Ready (t.emit (.stopped answer)) := by
        intro hnot
        refine ⟨hlive, fun _ => ?_⟩
        intro other hfinal hmem
        rcases List.mem_cons.mp hmem with heq | hmem
        · cases heq
          exact hnot hfinal
        · exact hready.2 hstopped other hfinal hmem
      cases answer with
      | raised e =>
          cases h
          exact ⟨hgood, hcloses, hopen id⟩
      | returned values =>
          by_cases hcode : values.code = 6026
          · simp only [hcode, if_true] at h
            cases h
            exact ⟨hgood, hcloses, hopen (fun hfinal => hfinal hcode), hstopped⟩
          · simp only [hcode, if_false] at h
            cases h
            refine ⟨hgood, hcloses, hlive, hstopped, ?_⟩
            intro hzero
            have hsome : (TimeDelta.ofMilliseconds values.durationMs).isSome = true := by
              simpa [fits, hzero] using hact
            exact Option.isSome_iff_exists.mp hsome
  · cases h
    exact ⟨.refl _ ht, hA⟩
  · cases h
    exact ⟨.refl _ ht, hA.1, hA.2.1⟩
  · -- the result is remembered
    next g values =>
      obtain ⟨hcloses, hlive, hstopped, hfits⟩ := hA
      obtain ⟨u, hstore, hgood, hclose, hcloser, htrace, hset⟩ :=
        store_good errorName overflow ht hcloses hstopped hfits
      rw [hstore] at h
      cases h
      refine ⟨hgood, ⟨hcloser.trans hcloses.1, hclose ▸ hcloses.2⟩, ?_, hset⟩
      intro hmem
      rw [htrace] at hmem
      exact hlive hmem
  · -- one call of `_native.close`
    next g r =>
      obtain ⟨hcloses, hlive, hstopped⟩ := hA
      have hgood := native_good (.destroyed r) ht hcloses hlive
        (fun _ _ heq => by cases heq)
      have hlive' : r ≠ .code 0 → NotDestroyed (t.emit (.destroyed r)) := by
        intro hr hmem
        rcases List.mem_cons.mp hmem with heq | hmem
        · cases heq
          exact hr rfl
        · exact hlive hmem
      have hready : r ≠ .code 0 → Ready (t.emit (.destroyed r)) := by
        intro hr
        refine ⟨hlive' hr, fun hn => ?_⟩
        cases hstopped.symm.trans hn
      cases r with
      | raised e =>
          cases h
          exact ⟨hgood, hcloses, hready (fun heq => by cases heq)⟩
      | code c =>
          by_cases hcode : c = 6026
          · subst hcode
            cases h
            exact ⟨hgood, hcloses, hlive' (by decide), hstopped⟩
          · simp only [hcode, if_false] at h
            cases hcheck : (NativeResult.code c).check errorName with
            | none =>
                rw [hcheck] at h
                cases h
                exact ⟨hgood, hcloses, hstopped⟩
            | some e =>
                rw [hcheck] at h
                cases h
                refine ⟨hgood, hcloses, hready ?_⟩
                intro heq
                rw [NativeResult.check_eq_none.mpr heq] at hcheck
                cases hcheck
  · cases h
    exact ⟨.refl _ ht, hA⟩
  · cases h
    obtain ⟨hcloses, hlive, hstopped⟩ := hA
    refine ⟨.refl _ ht, hcloses, hlive, fun hn => ?_⟩
    cases hstopped.symm.trans hn
  · -- the parent forgets the task
    cases h
    obtain ⟨hcloses, hstopped⟩ := hA
    exact ⟨.performer hcloses rfl ht.legal ht.set (fun h => ⟨h, rfl, rfl⟩) ht.answered ht.succeeded,
      hcloses, hstopped⟩
  · cases h
    obtain ⟨hcloses, hstopped⟩ := hA
    exact ⟨report_good _ _ ht hcloses rfl (.inr ⟨rfl, hstopped⟩), hstopped⟩
  · next g e =>
      cases h
      obtain ⟨hcloses, hready⟩ := hA
      have hfailed : Good (some i) t { t with close := t.close.fail g e } :=
        report_good g (some e) ht hcloses rfl (.inl ⟨rfl, hready, Option.some_ne_none e⟩)
      exact ⟨hfailed.trans (raised_good hfailed.ok e), trivial⟩
  · cases h
    exact ⟨returned_good ht _ _ fun _ => ⟨hA, rfl⟩, trivial⟩
  · cases h

/-! ## Runs -/

/-- **Any number of calls on one RecordingTask keep the invariant.** -/
theorem recording_rely_guarantee : Threads.RelyGuarantee
    (recordingCalls ι errorName overflow parent) (fun _ _ _ act => fits act = true)
    (fun _ _ => True) TaskOk At Keeps where
  start := by
    rintro t rfl
    refine ⟨⟨trivial, ?_, ?_, ?_, ?_, ?_⟩, fun i => trivial⟩
    · intro h
      cases h
    · intro _
      exact ⟨List.not_mem_nil, fun _ _ _ => List.not_mem_nil⟩
    · intro h
      cases h
    · intro g h
      cases h
    · intro _ _ h
      cases h
  thread i t p act t' p' ht hA hok hstep := by
    obtain ⟨hgood, hplace⟩ := step_good ht hA hok hstep
    exact ⟨hgood.ok, hplace, hgood.keeps⟩
  env t e := nomatch e
  stable j k t t' p hk _ _ hG hA := hA.stable hk hG

/-- A call begins only in a thread that is in no call. -/
theorem stop_idle {callback : Option O} {p p' : StopPc}
    (h : stopStep errorName overflow parent t i p (.stop callback) = some (t', p')) :
    p = .idle := by
  cases p with
  | idle => rfl
  | _ => cases h

variable [DecidableEq ι] {c : Config ι (RecordingTask ι) StopPc}

/-- **All callers of `stop()` see one result.** In every state that any number of calls on a
RecordingTask can reach, with any results of the native calls whose durations `timedelta` has:

1. every event is one that the law allows;
2. once the task is closed it stays so, and every `stop()` that begins then outside the callbacks of
   the parent comes back at once, with an event that began late.
Source: `_core.py`, `RecordingTask.stop`; `storage/__init__.py`, `RecordingTask.stop` -/
theorem one_result (hc : (recordingCalls ι errorName overflow parent).machine.ReachWith
      (Threads.guard (fun _ _ _ act => fits act = true) fun _ _ => True) c) :
    Legal c.shared.trace ∧
    (c.shared.close.status = .closed →
      (∀ l c', Threads.guard (fun _ _ _ act => fits act = true) (fun _ _ => True) c l →
        (recordingCalls ι errorName overflow parent).machine.step c l = some c' →
        c'.shared.close.status = .closed) ∧
      ∀ i callback c', callback ≠ some parent →
        (recordingCalls ι errorName overflow parent).machine.step c (.thread i (.stop callback)) =
          some c' →
        c'.pc i = .idle ∧
          ∃ result, c'.shared.trace = .returned true result :: c.shared.trace) := by
  obtain ⟨ht, -⟩ := recording_rely_guarantee.reach hc
  refine ⟨ht.legal, fun hclosed => ⟨?_, ?_⟩⟩
  · intro l c' hok hstep
    obtain ⟨k, hkeeps⟩ := recording_rely_guarantee.step hc hok hstep
    exact hkeeps.closed hclosed
  · intro i callback c' hcallback hstep
    obtain ⟨⟨t', p'⟩, hnext, rfl⟩ := Option.map_eq_some_iff.mp hstep
    have hidle := stop_idle hnext
    have hbegin : beginStop c.shared i =
        (c.shared.emit (.returned true c.shared.resultOrError), .idle) := by
      unfold beginStop
      simp [CloseCoordinator.begin, hclosed]
    simp only [recordingCalls, hidle, stopStep, if_neg hcallback, hbegin, Option.some.injEq,
      Prod.mk.injEq] at hnext
    obtain ⟨rfl, rfl⟩ := hnext
    refine ⟨?_, _, rfl⟩
    simp

end Invariant

/-- Thread `0` stops the recording, which is in use at first, and its native close runs out of time.
Thread `1` has waited for it, raises the timeout, and takes the teardown up again; then thread `0`
asks for the file. -/
def stopResumed : List (Label (Fin 2) (StopAction ℕ) Empty) :=
  [.thread 0 (.stop none), .thread 0 .go, .thread 0 (.answer (.returned { code := 6026 })),
    .thread 1 (.stop (some 8)), .thread 0 .go,
    .thread 0 (.answer (.returned { code := 0, path := "recording.mp4", durationMs := 2000 })),
    .thread 0 .go, .thread 0 (.native (.code 6026)), .thread 0 .timeout, .thread 0 .go,
    .thread 1 .go, .thread 1 (.stop none), .thread 1 .go, .thread 1 (.native (.code 0)),
    .thread 1 .go, .thread 1 .go, .thread 1 .go, .thread 0 (.stop none)]

/-- The same as a check of one step. -/
def fitsStep {O ι : Type} (_ : Config ι (RecordingTask ι) StopPc) :
    Label ι (StopAction O) Empty → Bool
  | .thread _ act => fits act
  | .env _ => true

/-- The calls of that run see one result. -/
theorem one_result_stopResumed :
    ∃ c, ((recordingCalls (Fin 2) (fun _ => "") (.other 9) 7).machine.guarded fitsStep).exec
        ⟨{}, fun _ => .idle⟩ stopResumed = some c ∧
      c.shared.close.status = .closed ∧ Legal c.shared.trace := by
  have hrun : (((recordingCalls (Fin 2) (fun _ => "") (.other 9) 7).machine.guarded fitsStep).exec
      ⟨{}, fun _ => .idle⟩ stopResumed).any
        (fun c => decide (c.shared.close.status = .closed)) = true := by
    decide +kernel
  obtain ⟨c, hexec, hclosed⟩ := (Option.any_eq_true _ _).mp hrun
  have hstart : (recordingCalls (Fin 2) (fun _ => "") (.other 9) 7).machine.start
      ⟨{}, fun _ => .idle⟩ := ⟨rfl, rfl⟩
  have hc := Machine.ReachWith.exec (.start hstart) hexec
  refine ⟨c, hexec, of_decide_eq_true hclosed, (one_result (hc.mono ?_)).1⟩
  rintro _ (⟨i, act⟩ | ⟨⟨⟩⟩) hok
  exact hok

end Tirtc.Recordings
