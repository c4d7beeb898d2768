import Mathlib.Data.Int.Notation
import Mathlib.Data.Nat.Notation
import Tirtc.Lib.Machine
import Tirtc.Lib.Replace

/-!
# The callback dispatcher

`_dispatch._Dispatcher` is the bounded event queue between the Runtime's threads and the user's
callbacks. This module holds the record and its lock-held sections as the source computes them.

* `EventKind`, `PyValue`, `Event`: what is posted. The queue never looks into the values, apart
  from the discontinuity mark of a frame (`FrameValues`), so it is generic in them; `Tagged`
  adds the number of the post to the values, for the proofs that speak about the order of posts.
* `Dispatcher`, `post`, `nativeSink`, `drainBegin`, `drainEnd`, `postNativeTask`, `close`,
  `discard`, and the wait conditions `barrierDone` and `closeDone`.
* `Posted`: the ways a post can end, `post_spec`: `post` is one of them.
* `Section`, `step`, `machine`: the sections as the labels of a machine.
-/

set_option autoImplicit false

namespace Tirtc

open ListEdit

/-- The kinds the native callbacks post. Source: `native/extension.c` -/
inductive EventKind
  | state | time | command | message | error | completed | gap | progress | nativeTask
  | audioFrame | videoFrame | encodedAudioFrame | encodedVideoFrame
  deriving DecidableEq, Repr

/-- `kind.endswith("_frame")` -/
def EventKind.isFrame : EventKind → Bool
  | .audioFrame | .videoFrame | .encodedAudioFrame | .encodedVideoFrame => true
  | _ => false

/-- `kind in {"completed", "error"}` -/
def EventKind.isTerminal : EventKind → Bool
  | .completed | .error => true
  | _ => false

/-- `kind in {"state", "time"}` -/
def EventKind.isLatest : EventKind → Bool
  | .state | .time => true
  | _ => false

/-- An event of a coalesced kind is neither a frame nor terminal. -/
theorem EventKind.latest_plain {kind : EventKind} (h : kind.isLatest = true) :
    kind.isFrame = false ∧ kind.isTerminal = false := by
  cases kind <;> first | exact ⟨rfl, rfl⟩ | cases h

/-- A positional value of an event. `object` is any other Python object, by identity. -/
inductive PyValue
  | int (value : ℤ)
  | bool (value : Bool)
  | bytes (value : List UInt8)
  | object (ref : ℕ)
  deriving DecidableEq, Repr

/-- The positional values of an event, as far as the queue touches them. -/
class FrameValues (V : Type) where
  /-- `(*values[:-1], True)` -/
  markDiscontinuity : V → V
  /-- `values[-1] is True` -/
  discontinuity : V → Bool
  discontinuity_mark : ∀ values, discontinuity (markDiscontinuity values) = true

instance : FrameValues (List PyValue) where
  markDiscontinuity values := values.dropLast ++ [.bool true]
  discontinuity values := values.getLast? == some (.bool true)
  discontinuity_mark values := by simp

/-- Values with the number of the post that brought them. -/
structure Tagged (V : Type) where
  tag : ℕ
  values : V
  deriving DecidableEq, Repr

instance (V : Type) [FrameValues V] : FrameValues (Tagged V) where
  markDiscontinuity v := { v with values := FrameValues.markDiscontinuity v.values }
  discontinuity v := FrameValues.discontinuity v.values
  discontinuity_mark v := FrameValues.discontinuity_mark v.values

/-- Marking keeps the number of the post. -/
@[simp] theorem Tagged.markDiscontinuity_tag {V : Type} [FrameValues V] (v : Tagged V) :
    (FrameValues.markDiscontinuity v).tag = v.tag := rfl

/-- A queue entry `(kind, values, frame, terminal)`. -/
structure Event (V : Type) where
  kind : EventKind
  values : V
  frame : Bool
  terminal : Bool
  deriving DecidableEq, Repr

/-- The event the sink of a dispatcher posts.
Source: `_dispatch.py`, `_native_sink` -/
def nativeEvent {V : Type} (kind : EventKind) (values : V) : Event V :=
  ⟨kind, values, kind.isFrame, kind.isTerminal⟩

/-- Source: `_dispatch.py`, `_Dispatcher` -/
structure Dispatcher (V : Type) where
  capacity : ℕ
  frameCapacity : ℕ
  closed : Bool := false
  droppedFrame : Bool := false
  events : List (Event V) := []
  executing : Bool := false
  frameCount : ℤ := 0
  scheduled : Bool := false
  deriving DecidableEq, Repr

/-- What `post` leaves, what it returns, and whether it calls `schedule` after the lock. -/
structure PostResult (V : Type) where
  dispatcher : Dispatcher V
  accepted : Bool
  schedule : Bool
  deriving DecidableEq, Repr

namespace Dispatcher

variable {V : Type}

/-- Source: `_dispatch.py`, `_Dispatcher.__init__` -/
def init (capacity : ℕ := 64) (frameCapacity : Option ℕ := none) : Dispatcher V where
  capacity := capacity
  frameCapacity := frameCapacity.getD capacity

/-! ## `post` -/

/-- The event of the same kind that a `latest` post overwrites, and the queue after it. -/
def coalesce (d : Dispatcher V) (event : Event V) : Option (List (Event V)) :=
  replaceLast? (fun current => current.kind = event.kind && !current.frame) event d.events

/-- A refused frame is remembered. -/
def dropFrame (d : Dispatcher V) : PostResult V :=
  ⟨{ d with droppedFrame := true }, false, false⟩

/-- The `for ... else` of a full queue: the first event that is not terminal goes; when all are
terminal, only a terminal event of a new kind is let in beyond the capacity. -/
def makeRoom (d : Dispatcher V) (event : Event V) : Option (Dispatcher V) :=
  match d.events.find? (fun current => !current.terminal) with
  | some victim =>
      some { d with
        events := d.events.eraseP fun current => !current.terminal
        frameCount := if victim.frame then d.frameCount - 1 else d.frameCount
        droppedFrame := victim.frame || d.droppedFrame }
  | none =>
      if !event.terminal ||
          d.events.any fun current => current.kind = event.kind && current.terminal then none
      else some d

/-- The end of `post`: the frame after a drop is marked, and the queue wants a token. -/
def enqueue [FrameValues V] (d : Dispatcher V) (event : Event V) : PostResult V :=
  let marked := event.frame && d.droppedFrame
  let values := if marked then FrameValues.markDiscontinuity event.values else event.values
  ⟨{ d with
      droppedFrame := !marked && d.droppedFrame
      events := d.events ++ [{ event with values := values }]
      frameCount := if event.frame then d.frameCount + 1 else d.frameCount
      scheduled := true }, true, !d.scheduled⟩

/-- Source: `_dispatch.py`, `_Dispatcher.post` -/
def post [FrameValues V] (d : Dispatcher V) (event : Event V) (latest : Bool := false) :
    PostResult V :=
  if d.closed then ⟨d, false, false⟩
  else
    match if latest then d.coalesce event else none with
    | some events => ⟨{ d with events := events }, true, false⟩
    | none =>
        if event.frame && decide (d.frameCapacity ≤ d.frameCount) then d.dropFrame
        else if d.capacity ≤ d.events.length then
          if event.frame then d.dropFrame
          else
            match d.makeRoom event with
            | none => ⟨d, false, false⟩
            | some room => room.enqueue event
        else d.enqueue event

/-- Source: `_dispatch.py`, `_native_sink` -/
def nativeSink [FrameValues V] (d : Dispatcher V) (kind : EventKind) (values : V) :
    PostResult V :=
  d.post (nativeEvent kind values) kind.isLatest

/-! ## The other sections -/

/-- The first section of `_drain_one`: nothing to do, or the event for the handler.
Source: `_dispatch.py`, `_Dispatcher._drain_one` -/
def drainBegin (d : Dispatcher V) : Option (Event V) × Dispatcher V :=
  match d.events with
  | [] => (none, { d with scheduled := false })
  | event :: events =>
      (some event, { d with
        events := events
        frameCount := if event.frame then d.frameCount - 1 else d.frameCount
        executing := true })

theorem drainBegin_nil {d : Dispatcher V} (h : d.events = []) :
    d.drainBegin = (none, { d with scheduled := false }) := by
  unfold drainBegin
  rw [h]

theorem drainBegin_cons {d : Dispatcher V} {event : Event V} {events : List (Event V)}
    (h : d.events = event :: events) :
    d.drainBegin = (some event, { d with
      events := events
      frameCount := if event.frame then d.frameCount - 1 else d.frameCount
      executing := true }) := by
  unfold drainBegin
  rw [h]

/-- The section of `_drain_one` after the handler; the flag says that it schedules again.
Source: `_dispatch.py`, `_Dispatcher._drain_one` -/
def drainEnd (d : Dispatcher V) : Bool × Dispatcher V :=
  let pending := !d.events.isEmpty
  (pending, { d with executing := false, scheduled := pending && d.scheduled })

/-- The section of `post_native_task` behind its wait; `none` while the call waits.
Source: `_dispatch.py`, `_Dispatcher.post_native_task` -/
def postNativeTask (d : Dispatcher V) (task : V) : Option (PostResult V) :=
  if d.closed then some ⟨d, false, false⟩
  else if d.capacity ≤ d.events.length then none
  else some ⟨{ d with
      events := d.events ++ [⟨.nativeTask, task, false, true⟩]
      scheduled := true }, true, !d.scheduled⟩

/-- `barrier` returns. Source: `_dispatch.py`, `_Dispatcher.barrier` -/
def barrierDone (d : Dispatcher V) : Bool := d.events.isEmpty && !d.executing && !d.scheduled

/-- The first section of `close`. Source: `_dispatch.py`, `_Dispatcher.close` -/
def close (d : Dispatcher V) : Dispatcher V := { d with closed := true }

/-- `close` returns. Source: `_dispatch.py`, `_Dispatcher.close` -/
def closeDone (d : Dispatcher V) : Bool := !d.executing && d.events.isEmpty

/-- Source: `_dispatch.py`, `_Dispatcher.discard` -/
def discard (d : Dispatcher V) : Dispatcher V :=
  let events := d.events.filter fun event => event.kind = .nativeTask
  { d with
    closed := true
    events := events
    frameCount := 0
    scheduled := !(events.isEmpty && !d.executing) && d.scheduled }

/-! ## The ways a post ends -/

/-- A `latest` post finds an event to overwrite. -/
def coalesces (d : Dispatcher V) (event : Event V) (latest : Bool) : Bool :=
  latest && d.events.any fun current => current.kind = event.kind && !current.frame

/-- The event that a post would evict from the queue as it is. -/
def victim? (d : Dispatcher V) (event : Event V) (latest : Bool) : Option (Event V) :=
  if d.closed || d.coalesces event latest || event.frame || d.events.length < d.capacity then none
  else d.events.find? fun current => !current.terminal

/-- The event as `enqueue` appends it. -/
def marked [FrameValues V] (d : Dispatcher V) (event : Event V) : Event V :=
  { event with values :=
      if event.frame && d.droppedFrame then FrameValues.markDiscontinuity event.values
      else event.values }

@[simp] theorem enqueue_events [FrameValues V] (d : Dispatcher V) (event : Event V) :
    (d.enqueue event).dispatcher.events = d.events ++ [d.marked event] := rfl

@[simp] theorem enqueue_closed [FrameValues V] (d : Dispatcher V) (event : Event V) :
    (d.enqueue event).dispatcher.closed = d.closed := rfl

@[simp] theorem marked_kind [FrameValues V] (d : Dispatcher V) (event : Event V) :
    (d.marked event).kind = event.kind := rfl

@[simp] theorem marked_frame [FrameValues V] (d : Dispatcher V) (event : Event V) :
    (d.marked event).frame = event.frame := rfl

@[simp] theorem marked_terminal [FrameValues V] (d : Dispatcher V) (event : Event V) :
    (d.marked event).terminal = event.terminal := rfl

/-- Only frames are marked. -/
theorem marked_of_not_frame [FrameValues V] (d : Dispatcher V) {event : Event V}
    (h : event.frame = false) : d.marked event = event := by
  have hvalues : (d.marked event).values = event.values := by simp [marked, h]
  exact congrArg (fun values => { event with values := values }) hvalues

/-- The dispatcher after its first non-terminal event has gone. -/
def without (d : Dispatcher V) (victim : Event V) (rest : List (Event V)) : Dispatcher V :=
  { d with
    events := rest
    frameCount := if victim.frame then d.frameCount - 1 else d.frameCount
    droppedFrame := victim.frame || d.droppedFrame }

/-- Only a `latest` post overwrites. -/
theorem latest_of_coalesces {d : Dispatcher V} {event : Event V} {latest : Bool}
    (h : d.coalesces event latest = true) : latest = true := by
  simp only [coalesces, Bool.and_eq_true] at h
  exact h.1

/-- A `latest` post that overwrites nothing finds nothing to overwrite. -/
theorem coalesces_eq_false {d : Dispatcher V} {event : Event V} {latest : Bool}
    (h : (if latest then d.coalesce event else none) = none) :
    d.coalesces event latest = false := by
  cases latest with
  | false => rfl
  | true =>
      rw [if_pos rfl] at h
      simp only [coalesces, Bool.true_and, List.any_eq_false]
      exact fun current hmem => Bool.not_eq_true _ ▸ replaceLast?_eq_none.mp h current hmem

section Posted

variable [FrameValues V]

/-- **The outcomes of `post event` on a dispatcher.** -/
inductive Posted (d : Dispatcher V) (event : Event V) (latest : Bool) : PostResult V → Prop
  | closed : d.closed = true → Posted d event latest ⟨d, false, false⟩
  | coalesced (xs : List (Event V)) (old : Event V) (ys : List (Event V)) :
      d.coalesces event latest = true → d.events = xs ++ old :: ys → old.kind = event.kind →
      old.frame = false → (∀ current ∈ ys, current.kind = event.kind → current.frame = true) →
      Posted d event latest ⟨{ d with events := xs ++ event :: ys }, true, false⟩
  | frameRefused : event.frame = true → Posted d event latest d.dropFrame
  | refused : d.coalesces event latest = false → event.frame = false →
      d.capacity ≤ d.events.length → (∀ current ∈ d.events, current.terminal = true) →
      Posted d event latest ⟨d, false, false⟩
  | evicted (xs : List (Event V)) (victim : Event V) (ys : List (Event V)) :
      d.coalesces event latest = false → event.frame = false → d.capacity ≤ d.events.length →
      d.events = xs ++ victim :: ys → (∀ current ∈ xs, current.terminal = true) →
      victim.terminal = false →
      Posted d event latest ((d.without victim (xs ++ ys)).enqueue event)
  | beyond : d.coalesces event latest = false → event.frame = false → event.terminal = true →
      d.capacity ≤ d.events.length → (∀ current ∈ d.events, current.terminal = true) →
      Posted d event latest (d.enqueue event)
  | appended : d.coalesces event latest = false → d.events.length < d.capacity →
      Posted d event latest (d.enqueue event)

/-- A closed dispatcher takes nothing. -/
theorem post_of_closed {d : Dispatcher V} (h : d.closed = true) (event : Event V)
    (latest : Bool) : d.post event latest = ⟨d, false, false⟩ :=
  if_pos h

/-- **`post` ends in one of these ways.** -/
theorem post_spec (d : Dispatcher V) (event : Event V) (latest : Bool) :
    Posted d event latest (d.post event latest) := by
  unfold post
  by_cases hclosed : d.closed = true
  · rw [if_pos hclosed]
    exact .closed hclosed
  rw [if_neg hclosed]
  cases hcoalesce : if latest then d.coalesce event else none with
  | some events =>
      have hlatest : latest = true := by
        cases latest with
        | true => rfl
        | false => simp at hcoalesce
      rw [if_pos hlatest] at hcoalesce
      obtain ⟨xs, old, ys, hsplit, hold, hys, rfl⟩ := replaceLast?_eq_some hcoalesce
      have hcoalesces : d.coalesces event latest = true := by
        simp only [coalesces, hlatest, Bool.true_and, List.any_eq_true]
        exact ⟨old, by simp [hsplit], hold⟩
      simp only [Bool.and_eq_true, decide_eq_true_eq, Bool.not_eq_true'] at hold
      refine .coalesced xs old ys hcoalesces hsplit hold.1 hold.2 ?_
      intro current hmem hkind
      simpa [hkind] using hys current hmem
  | none =>
      have hnot : d.coalesces event latest = false := coalesces_eq_false hcoalesce
      dsimp only
      by_cases hlimit : (event.frame && decide (d.frameCapacity ≤ d.frameCount)) = true
      · rw [if_pos hlimit]
        exact .frameRefused (Bool.and_eq_true _ _ ▸ hlimit).1
      rw [if_neg hlimit]
      by_cases hfull : d.capacity ≤ d.events.length
      · rw [if_pos hfull]
        by_cases hframe : event.frame = true
        · rw [if_pos hframe]
          exact .frameRefused hframe
        rw [if_neg hframe]
        have hframe : event.frame = false := by simpa using hframe
        unfold makeRoom
        cases hvictim : d.events.find? (fun current => !current.terminal) with
        | some victim =>
            obtain ⟨hv, xs, ys, hsplit, hxs⟩ := List.find?_eq_some_iff_append.mp hvictim
            have hxs' : ∀ current ∈ xs, current.terminal = true := by simpa using hxs
            have herase : d.events.eraseP (fun current => !current.terminal) = xs ++ ys := by
              rw [hsplit, List.eraseP_append_right _ (by simpa using hxs')]
              simp [hv]
            dsimp only
            rw [herase]
            exact .evicted xs victim ys hnot hframe hfull hsplit hxs' (by simpa using hv)
        | none =>
            have hall : ∀ current ∈ d.events, current.terminal = true := by
              simpa using List.find?_eq_none.mp hvictim
            dsimp only
            by_cases hroom : (!event.terminal || d.events.any fun current =>
                decide (current.kind = event.kind) && current.terminal) = true
            · rw [if_pos hroom]
              exact .refused hnot hframe hfull hall
            · rw [if_neg hroom]
              have hterminal : event.terminal = true := by
                cases ht : event.terminal with
                | true => rfl
                | false => simp [ht] at hroom
              exact .beyond hnot hframe hterminal hfull hall
      · rw [if_neg hfull]
        exact .appended hnot (Nat.lt_of_not_le hfull)

/-- A post leaves the handler alone. -/
theorem post_executing (d : Dispatcher V) (event : Event V) (latest : Bool) :
    (d.post event latest).dispatcher.executing = d.executing := by
  have hposted := d.post_spec event latest
  generalize d.post event latest = r at hposted
  cases hposted <;> rfl

end Posted

/-- A native task leaves the handler alone. -/
theorem postNativeTask_executing {d : Dispatcher V} {task : V} {r : PostResult V}
    (h : d.postNativeTask task = some r) : r.dispatcher.executing = d.executing := by
  unfold postNativeTask at h
  split at h
  · cases h
    rfl
  · split at h
    · cases h
    · cases h
      rfl

/-- The victim of a post on a queue as in `Posted.evicted`. -/
theorem victim?_eq_some {d : Dispatcher V} {event victim : Event V} {latest : Bool}
    {xs ys : List (Event V)} (hopen : d.closed = false)
    (hnot : d.coalesces event latest = false) (hframe : event.frame = false)
    (hfull : d.capacity ≤ d.events.length) (hsplit : d.events = xs ++ victim :: ys)
    (hxs : ∀ current ∈ xs, current.terminal = true) (hv : victim.terminal = false) :
    d.victim? event latest = some victim := by
  have hlt : ¬ d.events.length < d.capacity := Nat.not_lt.mpr hfull
  have hfind : d.events.find? (fun current => !current.terminal) = some victim :=
    List.find?_eq_some_iff_append.mpr ⟨by simp [hv], xs, ys, hsplit, by simpa using hxs⟩
  simp [victim?, hopen, hnot, hframe, hlt, hfind]

/-- Nothing is evicted when something is overwritten, when a frame is posted, when there is
room, or when every event is terminal. -/
theorem victim?_eq_none {d : Dispatcher V} {event : Event V} {latest : Bool}
    (h : d.coalesces event latest = true ∨ event.frame = true ∨
      d.events.length < d.capacity ∨ ∀ current ∈ d.events, current.terminal = true) :
    d.victim? event latest = none := by
  unfold victim?
  split
  · rfl
  · next hno =>
      rcases h with h | h | h | h
      · simp [h] at hno
      · simp [h] at hno
      · simp [h] at hno
      · exact List.find?_eq_none.mpr (by simpa using h)

/-! ## The sections as steps -/

/-- The lock-held sections other than the two waits, which change nothing. -/
inductive Section (V : Type)
  | post (event : Event V) (latest : Bool)
  | postNativeTask (task : V)
  | drainBegin
  | drainEnd
  | close
  | discard

/-- One section. A drain begins only when no handler runs: `Executor` proves that of the pool. -/
def step [FrameValues V] (d : Dispatcher V) : Section V → Option (Dispatcher V)
  | .post event latest => some (d.post event latest).dispatcher
  | .postNativeTask task => (d.postNativeTask task).map PostResult.dispatcher
  | .drainBegin => if d.executing then none else some d.drainBegin.2
  | .drainEnd => if d.executing then some d.drainEnd.2 else none
  | .close => some d.close
  | .discard => some d.discard

/-- The runs of one dispatcher. -/
def machine (V : Type) [FrameValues V] : Transition.Machine (Dispatcher V) (Section V) where
  start d := ∃ capacity frameCapacity, d = .init capacity frameCapacity
  step := step

end Dispatcher

end Tirtc
