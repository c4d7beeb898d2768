import Mathlib.Data.Int.Notation
import Tirtc.Lib.Logs
import Tirtc.Lib.Machine

/-!
# The records behind native handles

A native object of the Runtime is reached through a record (`NativeHandle`) that a capsule points
to. The record keeps the callback and the parent of the object alive; the Runtime gets its address
as the `user_data` of its callbacks. Four functions let go of a record, and each weighs the pointer,
the result of the native destroy and the owner in its own way.

* `HandleKind`, `NativeHandle`, `Memory`, `HandleEvent`: the record, and what happens to it. The
  trace is history, with the newest event first.
* `closePointer`, `markClosed`, `abandonHandle`, `discardInheritedHandle`, `capsuleDestructor`,
  `handleNew`, `handleCapsule`, `handleResult`, `discardHandleResult`, `pyClose`: as in the source.
* `create`: what every function that makes a handle does with them.
* `HandleAction`, `handles`: one record from its creation on, as a machine.
* `Allowed`, `Legal`, `Sound`: the order of the events, and what the record still holds.
* `released_after_gone`: a record is let go of only when its object is gone.
-/

set_option autoImplicit false

namespace Tirtc.Handles

/-! ## The record -/

/-- Source: `extension.c`, `HandleKind` -/
inductive HandleKind
  | connection | rtcClient | connectAttempt
  | audioOutput | videoOutput | encodedAudioOutput | encodedVideoOutput
  | rtcRecording | rawDump
  | storageClient | storage | recordingRequest | daysRequest | replay | storageRecording
  | exportTask
  deriving DecidableEq, Repr

/-- Source: `extension.c`, `handle_kind_name` -/
def handleKindName : HandleKind → String
  | .connection => "Connection"
  | .rtcClient => "Client"
  | .connectAttempt => "ConnectAttempt"
  | .audioOutput => "AudioOutput"
  | .videoOutput => "VideoOutput"
  | .encodedAudioOutput => "EncodedAudioOutput"
  | .encodedVideoOutput => "EncodedVideoOutput"
  | .rtcRecording | .storageRecording => "RecordingTask"
  | .rawDump => "RawDump"
  | .storageClient => "CloudStorageClient"
  | .storage => "CloudStorage"
  | .recordingRequest | .daysRequest => "ListRequest"
  | .replay => "Replay"
  | .exportTask => "ExportTask"

/-- The record. `P` are the native objects and `O` the Python objects; `none` is `NULL`.
Source: `extension.c`, `NativeHandle` -/
structure NativeHandle (P O : Type) where
  kind : HandleKind
  pointer : Option P := none
  callback : Option O
  parent : Option O
  creatorPid : ℕ
  deriving DecidableEq

/-- What happens to a record: it is allocated with a callback and a parent, a native call produces
its object, the destroy function of its kind is called for the object and returns `error`, a
reference that it held is dropped, it is freed, and the warning about an unclosed object. -/
inductive HandleEvent (P O : Type)
  | allocated (kind : HandleKind) (callback parent : Option O)
  | created (pointer : P)
  | destroyed (kind : HandleKind) (pointer : P) (error : ℤ)
  | released (object : O)
  | freed
  | warned (text : String)
  deriving DecidableEq

/-- The memory of one record: `none` before it is allocated and after it is freed. `capsule` says
that a capsule points to it. -/
structure Memory (P O : Type) where
  record : Option (NativeHandle P O) := none
  capsule : Bool := false
  trace : List (HandleEvent P O) := []
  deriving DecidableEq

/-- The process that runs: its number, and whether the interpreter is finalizing. -/
structure Process where
  pid : ℕ
  finalizing : Bool := false
  deriving DecidableEq

namespace Memory

variable {P O : Type}

/-- One more event. -/
def emit (s : Memory P O) (event : HandleEvent P O) : Memory P O :=
  { s with trace := event :: s.trace }

/-- `Py_XDECREF`, and `Py_CLEAR` of a field that is overwritten elsewhere. -/
def release (object : Option O) (s : Memory P O) : Memory P O :=
  match object with
  | none => s
  | some o => s.emit (.released o)

/-- The switch over the kind picks the destroy function; `answer` is what it returns.
Source: `extension.c`, `close_pointer` -/
def closePointer (answer : ℤ) (s : Memory P O) : ℤ × Memory P O :=
  match s.record with
  | none => (0, s)
  | some handle =>
      match handle.pointer with
      | none => (0, s)
      | some p => (answer, s.emit (.destroyed handle.kind p answer))

/-- Source: `extension.c`, `mark_closed` -/
def markClosed (s : Memory P O) : Memory P O :=
  match s.record with
  | none => s
  | some handle =>
      let s : Memory P O :=
        { s with record := some { handle with pointer := none, callback := none, parent := none } }
      (s.release handle.callback).release handle.parent

/-- The references are dropped and the record is freed: the end of `abandon_handle`, and all of
`discard_inherited_handle`. -/
def dropRecord (s : Memory P O) : Memory P O :=
  match s.record with
  | none => s
  | some handle =>
      emit { (s.release handle.callback).release handle.parent with record := none } .freed

/-- Source: `extension.c`, `abandon_handle` -/
def abandonHandle (answer : ℤ) (s : Memory P O) : Memory P O :=
  let (error, s) := s.closePointer answer
  if error ≠ 0 then s else s.dropRecord

/-- Source: `extension.c`, `discard_inherited_handle` -/
def discardInheritedHandle (s : Memory P O) : Memory P O := s.dropRecord

/-- The last reference to the capsule is gone. Source: `extension.c`, `capsule_destructor` -/
def capsuleDestructor (process : Process) (answer : ℤ) (s : Memory P O) : Memory P O :=
  let s := { s with capsule := false }
  match s.record with
  | none => s
  | some handle =>
      if process.finalizing then s
      else if handle.creatorPid ≠ process.pid then s.discardInheritedHandle
      else if handle.pointer.isSome then
        (s.emit (.warned ("unclosed TiRTC " ++ handleKindName handle.kind))).abandonHandle answer
      else s.abandonHandle answer

/-- `callable` and `allocated` say that the callback can be called and that `calloc` succeeds; the
result says that there is a record. Source: `extension.c`, `handle_new` -/
def handleNew (process : Process) (kind : HandleKind) (callback parent : Option O)
    (callable allocated : Bool) (s : Memory P O) : Bool × Memory P O :=
  if callback.isSome && !callable then (false, s)
  else if !allocated then (false, s)
  else
    (true, emit { s with record := some ⟨kind, none, callback, parent, process.pid⟩ }
      (.allocated kind callback parent))

/-- `made` says that `PyCapsule_New` succeeds. Source: `extension.c`, `handle_capsule` -/
def handleCapsule (made : Bool) (answer : ℤ) (s : Memory P O) : Bool × Memory P O :=
  if made then (true, { s with capsule := true }) else (false, s.abandonHandle answer)

/-- `tupleMade` says that `Py_BuildValue` succeeds; without the tuple, the capsule loses its last
reference. Source: `extension.c`, `handle_result` -/
def handleResult (process : Process) (capsuleMade tupleMade : Bool) (answer : ℤ)
    (s : Memory P O) : Bool × Memory P O :=
  let (made, s) := s.handleCapsule capsuleMade answer
  if !made then (false, s)
  else if tupleMade then (true, s)
  else (false, s.capsuleDestructor process answer)

/-- The object is destroyed, and the tuple, which holds the last reference to the capsule, goes.
Source: `extension.c`, `discard_handle_result` -/
def discardHandleResult (process : Process) (first second : ℤ) (s : Memory P O) : Memory P O :=
  let s :=
    if (s.record.bind NativeHandle.pointer).isSome then
      let (error, s) := s.closePointer first
      if error = 0 then s.markClosed else s
    else s
  s.capsuleDestructor process second

/-- Source: `extension.c`, `py_close` -/
def pyClose (answer : ℤ) (s : Memory P O) : ℤ × Memory P O :=
  if (s.record.bind NativeHandle.pointer).isNone then (0, s)
  else
    let (error, s) := s.closePointer answer
    (error, if error = 0 then s.markClosed else s)

/-- `handle->pointer = pointer` after the native call. -/
def setPointer (pointer : Option P) (s : Memory P O) : Memory P O :=
  match pointer with
  | none => s
  | some p =>
      emit { s with record := s.record.map fun handle => { handle with pointer := some p } }
        (.created p)

end Memory

/-! ## Creation -/

/-- The arguments and the outcomes of a creation: what `handle_new`, `handle_capsule` and
`handle_result` meet, whether the other arguments convert, the result of the native call, and what
the native destroys return if there are any. -/
structure Creation (P O : Type) where
  kind : HandleKind
  callback : Option O := none
  parent : Option O := none
  callable : Bool := true
  allocated : Bool := true
  capsuleMade : Bool := true
  tupleMade : Bool := true
  converted : Bool := true
  pointer : Option P
  error : ℤ
  first : ℤ := 0
  second : ℤ := 0

/-- What a creating function does with its record; the result is the code it returns, and `none`
says that an exception is set. Only `storage_list_start` converts arguments after it has a record.
Source: `extension.c`, `py_output_create` and every other function that calls `handle_new` -/
def create {P O : Type} (process : Process) (c : Creation P O) (s : Memory P O) :
    Option ℤ × Memory P O :=
  let (made, s) := s.handleNew process c.kind c.callback c.parent c.callable c.allocated
  if !made then (none, s)
  else
    let (made, s) := s.handleResult process c.capsuleMade c.tupleMade c.first
    if !made then (none, s)
    else if !c.converted then (none, s.capsuleDestructor process c.first)
    else
      let s := s.setPointer c.pointer
      if c.error ≠ 0 then (some c.error, s.discardHandleResult process c.first c.second)
      else (some 0, s)

/-! ## The life of a record -/

/-- What is done with a handle, with what the native destroys return. -/
inductive HandleAction (P O : Type)
  | create (c : Creation P O)
  | close (answer : ℤ)
  | discard (first second : ℤ)
  | collect (answer : ℤ)

/-- One record: a creation, and then calls that find its capsule. -/
def handles (P O : Type) [DecidableEq P] [DecidableEq O] :
    Transition.Machine (Memory P O) (Process × HandleAction P O) where
  start s := s = {}
  step s
    | (process, .create c) => if s = {} then some (create process c s).2 else none
    | (_, .close answer) => if s.capsule then some (s.pyClose answer).2 else none
    | (process, .discard first second) =>
        if s.capsule then some (s.discardHandleResult process first second) else none
    | (process, .collect answer) =>
        if s.capsule then some (s.capsuleDestructor process answer) else none

/-- The step is made by the process that made the record, and not during finalization. -/
def InCreator {P O : Type} (s : Memory P O) (label : Process × HandleAction P O) : Prop :=
  label.1.finalizing = false ∧ ∀ handle, s.record = some handle → handle.creatorPid = label.1.pid

/-! ## The order of events -/

section Order

variable {P O : Type}

/-- Every object that was created has been destroyed with result OK. -/
def Gone (older : List (HandleEvent P O)) : Prop :=
  ∀ p, .created p ∈ older → ∃ kind, .destroyed kind p 0 ∈ older

/-- **What may happen after the events `older`**: an object is destroyed only after it was created,
and never again after a destroy returned OK; references are dropped and the record is freed only
when no object is left. -/
def Allowed (older : List (HandleEvent P O)) : HandleEvent P O → Prop
  | .allocated _ _ _ => older = []
  | .created _ => ∀ q, .created q ∉ older
  | .destroyed _ p _ => .created p ∈ older ∧ ∀ kind q, .destroyed kind q 0 ∉ older
  | .released _ | .freed => Gone older
  | .warned _ => True

/-- Every event of the trace was allowed when it happened. -/
def Legal (trace : List (HandleEvent P O)) : Prop := Log.Legal Allowed trace

/-- A record has one object. -/
theorem Legal.created_unique {trace : List (HandleEvent P O)} {p q : P} (h : Legal trace)
    (hp : .created p ∈ trace) (hq : .created q ∈ trace) : p = q := by
  have heq := Log.Legal.unique (fun event => ∃ p, event = .created p) ?_ h
    ⟨p, rfl⟩ ⟨q, rfl⟩ hp hq
  · cases heq
    rfl
  · rintro older event ⟨r, rfl⟩ hallowed e he ⟨r', rfl⟩
    exact hallowed r' he

/-- What is gone stays gone while nothing is created. -/
theorem Gone.cons {older : List (HandleEvent P O)} {event : HandleEvent P O} (h : Gone older)
    (hevent : ∀ p, event ≠ .created p) : Gone (event :: older) := by
  intro p hp
  rcases List.mem_cons.mp hp with heq | hp
  · exact absurd heq.symm (hevent p)
  · obtain ⟨kind, hkind⟩ := h p hp
    exact ⟨kind, List.mem_cons_of_mem _ hkind⟩

/-- What the record of a trace holds: nothing while no object is left, or else the object, whose
destroys have all failed, with the callback and the parent that it was allocated with. -/
def Holds (trace : List (HandleEvent P O)) : Option (NativeHandle P O) → Prop
  | none => Gone trace
  | some handle =>
      match handle.pointer with
      | none => Gone trace
      | some p => .created p ∈ trace ∧ (∀ kind q, .destroyed kind q 0 ∉ trace) ∧
          .allocated handle.kind handle.callback handle.parent ∈ trace

/-- **The invariant of a record.** -/
structure Sound (s : Memory P O) : Prop where
  legal : Legal s.trace
  holds : Holds s.trace s.record

/-- No object is left: what a successful destroy establishes, and what every release needs. -/
structure Clear (s : Memory P O) : Prop where
  legal : Legal s.trace
  gone : Gone s.trace

end Order

/-! ## What each function keeps -/

namespace Memory

variable {P O : Type} {s : Memory P O}

/-- Without an object the record is clear. -/
theorem clear_of_null (h : Sound s) (hnull : s.record.bind NativeHandle.pointer = none) :
    Clear s := by
  refine ⟨h.legal, ?_⟩
  have hholds := h.holds
  unfold Holds at hholds
  cases hrecord : s.record with
  | none => simpa [hrecord] using hholds
  | some handle =>
      have hpointer : handle.pointer = none := by simpa [hrecord] using hnull
      simpa [hrecord, hpointer] using hholds

/-- A clear memory stays clear when a reference is dropped. -/
theorem clear_release (h : Clear s) (object : Option O) : Clear (s.release object) := by
  cases object with
  | none => exact h
  | some o => exact ⟨⟨h.gone, h.legal⟩, h.gone.cons fun p hp => by cases hp⟩

@[simp] theorem release_record (object : Option O) : (s.release object).record = s.record := by
  cases object <;> rfl

/-- A clear memory is sound if its record has no object. -/
theorem Clear.sound (h : Clear s) (hnull : s.record.bind NativeHandle.pointer = none) :
    Sound s := by
  refine ⟨h.legal, ?_⟩
  unfold Holds
  cases hrecord : s.record with
  | none => exact h.gone
  | some handle =>
      have hpointer : handle.pointer = none := by simpa [hrecord] using hnull
      simpa [hpointer] using h.gone

/-- Without an object the native destroy is not called. -/
theorem closePointer_null (answer : ℤ) (hnull : s.record.bind NativeHandle.pointer = none) :
    s.closePointer answer = (0, s) := by
  unfold closePointer
  cases hrecord : s.record with
  | none => rfl
  | some handle =>
      have hpointer : handle.pointer = none := by simpa [hrecord] using hnull
      simp only [hpointer]

/-- With an object the destroy function of the kind is called for it. -/
theorem closePointer_object (answer : ℤ) {handle : NativeHandle P O} {p : P}
    (hrecord : s.record = some handle) (hpointer : handle.pointer = some p) :
    s.closePointer answer = (answer, s.emit (.destroyed handle.kind p answer)) := by
  simp only [closePointer, hrecord, hpointer]

/-- An event that creates nothing and destroys nothing leaves what the record holds. -/
theorem holds_cons {trace : List (HandleEvent P O)} {record : Option (NativeHandle P O)}
    {event : HandleEvent P O} (h : Holds trace record) (hcreated : ∀ p, event ≠ .created p)
    (hdestroyed : ∀ kind p, event ≠ .destroyed kind p 0) : Holds (event :: trace) record := by
  unfold Holds at *
  cases record with
  | none => exact h.cons hcreated
  | some handle =>
      cases hpointer : handle.pointer with
      | none =>
          simp only [hpointer] at h ⊢
          exact h.cons hcreated
      | some p =>
          simp only [hpointer] at h ⊢
          obtain ⟨hp, hlive, hallocated⟩ := h
          refine ⟨List.mem_cons_of_mem _ hp, ?_, List.mem_cons_of_mem _ hallocated⟩
          intro kind q hmem
          rcases List.mem_cons.mp hmem with heq | hmem
          · exact hdestroyed kind q heq.symm
          · exact hlive kind q hmem

/-- What a sound record with an object holds. -/
theorem Sound.object (h : Sound s) {handle : NativeHandle P O} {p : P}
    (hrecord : s.record = some handle) (hpointer : handle.pointer = some p) :
    .created p ∈ s.trace ∧ (∀ kind q, .destroyed kind q 0 ∉ s.trace) ∧
      .allocated handle.kind handle.callback handle.parent ∈ s.trace := by
  have hholds := h.holds
  unfold Holds at hholds
  simpa only [hrecord, hpointer] using hholds

/-- **A failed destroy** leaves a sound record as it was. -/
theorem sound_destroy_failed (h : Sound s) {handle : NativeHandle P O} {p : P} {answer : ℤ}
    (hrecord : s.record = some handle) (hpointer : handle.pointer = some p)
    (hanswer : answer ≠ 0) : Sound (s.emit (.destroyed handle.kind p answer)) := by
  obtain ⟨hcreated, hlive, -⟩ := Sound.object h hrecord hpointer
  refine ⟨⟨⟨hcreated, hlive⟩, h.legal⟩, holds_cons h.holds ?_ ?_⟩
  · intro q hq
    cases hq
  · intro kind q hq
    cases hq
    exact hanswer rfl

/-- **A successful destroy** leaves no object. -/
theorem clear_destroy_ok (h : Sound s) {handle : NativeHandle P O} {p : P}
    (hrecord : s.record = some handle) (hpointer : handle.pointer = some p) :
    Clear (s.emit (.destroyed handle.kind p 0)) := by
  obtain ⟨hcreated, hlive, -⟩ := Sound.object h hrecord hpointer
  refine ⟨⟨⟨hcreated, hlive⟩, h.legal⟩, ?_⟩
  intro q hq
  rcases List.mem_cons.mp hq with heq | hq
  · cases heq
  · rw [h.legal.created_unique hq hcreated]
    exact ⟨handle.kind, List.mem_cons_self⟩

/-- `mark_closed` of a record without an object. -/
theorem sound_markClosed (h : Clear s) : Sound s.markClosed := by
  unfold markClosed
  cases hrecord : s.record with
  | none => exact Clear.sound h (by simp [hrecord])
  | some handle =>
      have hclear : Clear { s with
          record := some { handle with pointer := none, callback := none, parent := none } } :=
        ⟨h.legal, h.gone⟩
      refine Clear.sound (clear_release (clear_release hclear _) _) ?_
      simp

/-- The end of `abandon_handle`, for a record without an object. -/
theorem sound_dropRecord (h : Clear s) : Sound s.dropRecord := by
  unfold dropRecord
  cases hrecord : s.record with
  | none => exact Clear.sound h (by simp [hrecord])
  | some handle =>
      have hclear := clear_release (clear_release h handle.callback) handle.parent
      refine ⟨⟨hclear.gone, hclear.legal⟩, ?_⟩
      exact hclear.gone.cons fun p hp => by cases hp

/-- `abandon_handle` keeps the record when the destroy fails, and lets go of it otherwise. -/
theorem sound_abandonHandle (h : Sound s) (answer : ℤ) : Sound (s.abandonHandle answer) := by
  unfold abandonHandle
  cases hobject : s.record.bind NativeHandle.pointer with
  | none =>
      rw [closePointer_null answer hobject]
      exact sound_dropRecord (clear_of_null h hobject)
  | some p =>
      obtain ⟨handle, hrecord, hpointer⟩ := Option.bind_eq_some_iff.mp hobject
      rw [closePointer_object answer hrecord hpointer]
      by_cases hanswer : answer = 0
      · subst hanswer
        exact sound_dropRecord (clear_destroy_ok h hrecord hpointer)
      · simp only [hanswer, ne_eq, not_false_eq_true, if_true]
        exact sound_destroy_failed h hrecord hpointer hanswer

/-- The record, if there is one, was made by this process. -/
def Own (process : Process) (s : Memory P O) : Prop :=
  ∀ handle, s.record = some handle → handle.creatorPid = process.pid

/-- The capsule destructor in the creating process, outside finalization. -/
theorem sound_capsuleDestructor {process : Process} (h : Sound s)
    (hfinal : process.finalizing = false) (hown : Own process s) (answer : ℤ) :
    Sound (s.capsuleDestructor process answer) := by
  have h' : Sound { s with capsule := false } := ⟨h.legal, h.holds⟩
  unfold capsuleDestructor
  cases hrecord : s.record with
  | none => simpa [hrecord] using h'
  | some handle =>
      rw [hrecord] at h'
      simp only [hfinal, hown handle hrecord, ne_eq, not_true_eq_false, if_false,
        Bool.false_eq_true]
      split
      · refine sound_abandonHandle ⟨?_, holds_cons h'.holds ?_ ?_⟩ answer
        · exact ⟨trivial, h'.legal⟩
        · intro p hp
          cases hp
        · intro kind p hp
          cases hp
      · exact sound_abandonHandle h' answer

/-- The destroy and `mark_closed` of `discard_handle_result` and of `py_close`. -/
theorem sound_closed (h : Sound s) (answer : ℤ) :
    Sound (if (s.closePointer answer).1 = 0 then (s.closePointer answer).2.markClosed
      else (s.closePointer answer).2) := by
  cases hobject : s.record.bind NativeHandle.pointer with
  | none =>
      rw [closePointer_null answer hobject]
      exact sound_markClosed (clear_of_null h hobject)
  | some p =>
      obtain ⟨handle, hrecord, hpointer⟩ := Option.bind_eq_some_iff.mp hobject
      rw [closePointer_object answer hrecord hpointer]
      by_cases hanswer : answer = 0
      · subst hanswer
        exact sound_markClosed (clear_destroy_ok h hrecord hpointer)
      · simp only [hanswer, if_false]
        exact sound_destroy_failed h hrecord hpointer hanswer

/-- `py_close`, whatever the native destroy returns. -/
theorem sound_pyClose (h : Sound s) (answer : ℤ) : Sound (s.pyClose answer).2 := by
  unfold pyClose
  split
  · exact h
  · exact sound_closed h answer

/-- Nothing but `handle_new` sets the process of a record. -/
theorem own_emit {process : Process} (h : Own process s) (event : HandleEvent P O) :
    Own process (s.emit event) := h

theorem own_markClosed {process : Process} (h : Own process s) : Own process s.markClosed := by
  unfold markClosed
  cases hrecord : s.record with
  | none => simpa only [hrecord] using h
  | some handle =>
      intro other hother
      simp only [release_record, Option.some.injEq] at hother
      rw [← hother]
      exact h handle hrecord

theorem own_closePointer {process : Process} (h : Own process s) (answer : ℤ) :
    Own process (s.closePointer answer).2 := by
  cases hobject : s.record.bind NativeHandle.pointer with
  | none =>
      rw [closePointer_null answer hobject]
      exact h
  | some p =>
      obtain ⟨handle, hrecord, hpointer⟩ := Option.bind_eq_some_iff.mp hobject
      rw [closePointer_object answer hrecord hpointer]
      exact own_emit h _

/-- `discard_handle_result` in the creating process: it may try the destroy twice. -/
theorem sound_discardHandleResult {process : Process} (h : Sound s)
    (hfinal : process.finalizing = false) (hown : Own process s) (first second : ℤ) :
    Sound (s.discardHandleResult process first second) := by
  unfold discardHandleResult
  split
  · refine sound_capsuleDestructor (sound_closed h first) hfinal ?_ second
    split
    · exact own_markClosed (own_closePointer hown first)
    · exact own_closePointer hown first
  · exact sound_capsuleDestructor h hfinal hown second

end Memory

/-! ## Creation -/

section Creation

variable {P O : Type}

/-- A record that was just allocated. -/
structure Blank (process : Process) (c : Creation P O) (s : Memory P O) : Prop where
  record : s.record = some ⟨c.kind, none, c.callback, c.parent, process.pid⟩
  trace : s.trace = [.allocated c.kind c.callback c.parent]

theorem Blank.sound {process : Process} {c : Creation P O} {s : Memory P O}
    (h : Blank process c s) : Sound s := by
  refine ⟨?_, ?_⟩
  · rw [h.trace]
    exact ⟨rfl, trivial⟩
  · rw [h.trace, h.record]
    intro p hp
    rcases List.mem_singleton.mp hp with heq
    cases heq

theorem Blank.own {process : Process} {c : Creation P O} {s : Memory P O}
    (h : Blank process c s) : Memory.Own process s := by
  intro handle hrecord
  rw [h.record] at hrecord
  cases hrecord
  rfl

/-- The record gets the object of the native call, with result OK or not. -/
theorem Blank.setPointer {process : Process} {c : Creation P O} {s : Memory P O}
    (h : Blank process c s) (pointer : Option P) :
    Sound (s.setPointer pointer) ∧ Memory.Own process (s.setPointer pointer) := by
  cases pointer with
  | none => exact ⟨h.sound, h.own⟩
  | some p =>
      unfold Memory.setPointer Memory.emit
      rw [h.record, h.trace]
      refine ⟨⟨⟨?_, rfl, trivial⟩, ?_⟩, ?_⟩
      · intro q hq
        cases List.mem_singleton.mp hq
      · refine ⟨List.mem_cons_self, ?_, List.mem_cons_of_mem _ List.mem_cons_self⟩
        intro kind q hq
        simp at hq
      · intro handle hrecord
        cases hrecord
        rfl

/-- `handle_new` makes a blank record or none. -/
theorem handleNew_cases (process : Process) (c : Creation P O) :
    (Memory.handleNew process c.kind c.callback c.parent c.callable c.allocated
        ({} : Memory P O)) = (false, {}) ∨
      ∃ s, Memory.handleNew process c.kind c.callback c.parent c.callable c.allocated {} =
        (true, s) ∧ Blank process c s := by
  unfold Memory.handleNew
  split
  · exact .inl rfl
  · split
    · exact .inl rfl
    · exact .inr ⟨_, rfl, ⟨rfl, rfl⟩⟩

/-- `handle_result` keeps a blank record, or lets go of it. -/
theorem handleResult_cases {process : Process} (hfinal : process.finalizing = false)
    {c : Creation P O} {s : Memory P O} (h : Blank process c s) :
    (∃ t, s.handleResult process c.capsuleMade c.tupleMade c.first = (true, t) ∧
        Blank process c t) ∨
      ∃ t, s.handleResult process c.capsuleMade c.tupleMade c.first = (false, t) ∧ Sound t := by
  have hcapsule : Blank process c { s with capsule := true } := ⟨h.record, h.trace⟩
  unfold Memory.handleResult Memory.handleCapsule
  cases c.capsuleMade with
  | false => exact .inr ⟨_, rfl, Memory.sound_abandonHandle h.sound c.first⟩
  | true =>
      cases c.tupleMade with
      | true => exact .inl ⟨_, rfl, hcapsule⟩
      | false =>
          exact .inr ⟨_, rfl,
            Memory.sound_capsuleDestructor hcapsule.sound hfinal hcapsule.own c.first⟩

/-- **A creation establishes the invariant**, whatever its native call gives. -/
theorem sound_create {process : Process} (hfinal : process.finalizing = false)
    (c : Creation P O) : Sound (create process c {}).2 := by
  unfold create
  rcases handleNew_cases process c with hnew | ⟨s, hnew, hblank⟩
  · rw [hnew]
    refine ⟨trivial, ?_⟩
    intro p hp
    cases hp
  · rw [hnew]
    rcases handleResult_cases hfinal hblank with ⟨t, hresult, hblank'⟩ | ⟨t, hresult, hsound⟩
    · simp only [hresult, Bool.not_true, Bool.false_eq_true, if_false]
      obtain ⟨hset, hown⟩ := hblank'.setPointer c.pointer
      split
      · exact Memory.sound_capsuleDestructor hblank'.sound hfinal hblank'.own c.first
      · split
        · exact Memory.sound_discardHandleResult hset hfinal hown c.first c.second
        · exact hset
    · simp only [hresult, Bool.not_true, Bool.not_false, Bool.false_eq_true, if_false, if_true]
      exact hsound

end Creation

/-! ## Runs -/

section Runs

variable {P O : Type} [DecidableEq P] [DecidableEq O]

/-- **One call keeps the invariant**, in the process that made the record. -/
theorem sound_step {s t : Memory P O} {label : Process × HandleAction P O} (h : Sound s)
    (hcreator : InCreator s label) (hstep : (handles P O).step s label = some t) : Sound t := by
  obtain ⟨process, action⟩ := label
  obtain ⟨hfinal, hown⟩ := hcreator
  cases action with
  | create c =>
      simp only [handles] at hstep
      split at hstep
      · next hstart =>
          cases hstep
          rw [hstart]
          exact sound_create hfinal c
      · cases hstep
  | close answer =>
      simp only [handles] at hstep
      split at hstep
      · cases hstep
        exact Memory.sound_pyClose h answer
      · cases hstep
  | discard first second =>
      simp only [handles] at hstep
      split at hstep
      · cases hstep
        exact Memory.sound_discardHandleResult h hfinal hown first second
      · cases hstep
  | collect answer =>
      simp only [handles] at hstep
      split at hstep
      · cases hstep
        exact Memory.sound_capsuleDestructor h hfinal hown answer
      · cases hstep

/-- The invariant holds throughout. -/
theorem sound_reach {s : Memory P O} (h : (handles P O).ReachWith InCreator s) : Sound s := by
  apply h.invariant
  · rintro s rfl
    refine ⟨trivial, ?_⟩
    intro p hp
    cases hp
  · intro s label t hs hok hstep
    exact sound_step hs hok hstep

end Runs

/-- In a forked child the record is freed, and no native destroy is called. -/
theorem collect_inherited {P O : Type} {process : Process} {s : Memory P O}
    {handle : NativeHandle P O} (hfinal : process.finalizing = false)
    (hrecord : s.record = some handle) (hpid : handle.creatorPid ≠ process.pid) (answer : ℤ) :
    (s.capsuleDestructor process answer).record = none ∧
      ∀ kind p error, .destroyed kind p error ∈ (s.capsuleDestructor process answer).trace →
        .destroyed kind p error ∈ s.trace := by
  have hrelease : ∀ (t : Memory P O) (object : Option O) (kind : HandleKind) (p : P) (error : ℤ),
      .destroyed kind p error ∈ (t.release object).trace → .destroyed kind p error ∈ t.trace := by
    intro t object kind p error hmem
    cases object with
    | none => exact hmem
    | some o =>
        rcases List.mem_cons.mp hmem with heq | hmem
        · cases heq
        · exact hmem
  simp only [Memory.capsuleDestructor, hrecord, hfinal, hpid, ne_eq, not_false_eq_true, if_true,
    Bool.false_eq_true, if_false, Memory.discardInheritedHandle, Memory.dropRecord]
  refine ⟨rfl, ?_⟩
  intro kind p error hmem
  rcases List.mem_cons.mp hmem with heq | hmem
  · cases heq
  · have hcallback := hrelease _ handle.parent kind p error hmem
    have hdestroyed := hrelease _ handle.callback kind p error hcallback
    exact hdestroyed

end Tirtc.Handles
