import Tirtc.Dispatch.Hearing
import Tirtc.Outputs.FrameValues

/-!
# The frames that the application gets

A frame goes from the Runtime through the callback of the extension, the tuple of its values, the
queue of the dispatcher, which may drop frames and marks the next one, and the handler of the Output
to `on_frame`.

* `OutputCall`, `OutputCall.event`: what the Runtime tells an Output, and the events of it.
* `received`: what has become of the frames in the handler, in order.
* `Received`, `frames_received`: each is a frame that the Runtime has given, unchanged but for the
  mark, and they come in order.
-/

set_option autoImplicit false

namespace Tirtc.FrameTuples

open Transition Delivery

/-- What the Runtime tells an Output. -/
inductive OutputCall
  | frame (native : NativeFrame)
  | state (number : UInt32)
  | error (code : Int32)

namespace OutputCall

/-- Source: `extension.c`, `output_on_audio_frame`, `output_on_state_audio`, `output_error` -/
def event : OutputCall → EventKind × List FrameValue
  | .frame native => native.event
  | .state number => (.state, [.int number.toNat])
  | .error code => (.error, [.int code.toInt])

/-- The frame that the Runtime gives. -/
def frame? : OutputCall → Option NativeFrame
  | .frame native => some native
  | .state _ | .error _ => none

end OutputCall

/-- What the handler makes of an event. -/
def told (event : Event (Tagged (List FrameValue))) : Option (Except FrameError Frame) :=
  FrameTuples.frame event.kind event.values.values

/-- **What has become of the frames in the handler**, the first one first: `on_frame` has been
called with it, or making it has raised. -/
def received (s : Hearing OutputCall (List FrameValue)) : List (Except FrameError Frame) :=
  s.handing.handed.reverse.filterMap told

/-- The frame of the Runtime, or the same frame behind a gap, and nothing but what it says; none
where what it says has no meaning. -/
def Received (result : Except FrameError Frame) (native : NativeFrame) : Prop :=
  (∃ shown, (shown = native ∨ shown = native.marked) ∧
    ∀ frame, result = .ok frame ↔ shown.Shows frame) ∧
  ((∃ frame, result = .ok frame) ↔ native.Known)

/-- The handler makes the frame of the event, marked or not. -/
theorem received_of_frame {result : Except FrameError Frame} {native shown : NativeFrame}
    (hshown : shown = native ∨ shown = native.marked)
    (h : FrameTuples.frame shown.event.1 shown.event.2 = some result) :
    Received result native := by
  obtain ⟨result', hresult, hshows⟩ := frame_eq_ok shown
  obtain rfl : result' = result := Option.some.inj (hresult.symm.trans h)
  refine ⟨⟨shown, hshown, hshows⟩, ?_⟩
  have hknown : shown.Known ↔ native.Known := by
    rcases hshown with rfl | rfl
    · exact Iff.rfl
    · exact NativeFrame.known_marked
  rw [← hknown, ← known_iff]
  exact exists_congr hshows

/-- Only the event of a frame makes the handler call `on_frame`. -/
theorem told_isFrame {event : Event (Tagged (List FrameValue))}
    {result : Except FrameError Frame} (h : told event = some result) :
    event.kind.isFrame = true := by
  unfold told at h
  cases hkind : event.kind with
  | audioFrame | videoFrame | encodedAudioFrame | encodedVideoFrame => rfl
  | _ =>
      rw [hkind] at h
      cases h

/-- No frame takes over the place of another event. -/
theorem told_plain {event : Event (Tagged (List FrameValue))} {result : Except FrameError Frame}
    (h : told event = some result) : event.kind.isLatest = false := by
  by_contra hlatest
  have hplain := (EventKind.latest_plain (by simpa using hlatest)).1
  cases hplain.symm.trans (told_isFrame h)

/-- **The application gets the frames of the Runtime**: in every run of posts, drains, closes and
drops, and for every capacity of the queue, what comes to the handler are frames that the Runtime
has given, each at most once and in their order; each makes the record that shows what the Runtime
said, in all its fields, but that it may be marked as one behind a gap; and a frame makes no record
exactly when it has an enumerator that is not known, or a source time that no clock can show. -/
theorem frames_received {capacity : ℕ} {frameCapacity : Option ℕ}
    {s : Hearing OutputCall (List FrameValue)}
    (hs : (Hearing.machine OutputCall.event capacity frameCapacity).Reach s) :
    List.SublistForall₂ Received (received s) (s.calls.filterMap OutputCall.frame?) := by
  apply Hearing.heard_in_order hs
  · intro x y a b hx hy
    exact .inl ⟨told_plain hx, told_plain hy⟩
  · rintro call event result ⟨hkind, hvalues⟩ htold
    have hframe := told_isFrame htold
    rw [hkind] at hframe
    cases call with
    | frame native =>
        refine ⟨native, rfl, ?_⟩
        unfold told at htold
        rcases hvalues with hvalues | ⟨-, hvalues⟩
        · rw [hkind, hvalues] at htold
          exact received_of_frame (.inl rfl) htold
        · apply received_of_frame (.inr rfl)
          rw [hkind, hvalues] at htold
          rw [NativeFrame.event_marked]
          exact htold
    | state number => cases hframe
    | error code => cases hframe

/-- A video frame of one plane. -/
def smallFrame (pixelFormat : UInt32) : NativeFrame :=
  .video ⟨[(4, ⟨0, 16⟩)], 0, 0, false, pixelFormat, 4, 4, false⟩

/-- An Output with room for two frames gets three, the second of which has a pixel format that is
not known: it is refused the third, and makes a record of the first alone. -/
theorem frames_received_small :
    ∃ s, (Hearing.machine OutputCall.event 64 (some 2)).Reach s ∧ s.calls.length = 3 ∧
      ((received s).map fun result => (result.toOption.isSome : Bool)) = [true, false] ∧
      List.SublistForall₂ Received (received s) (s.calls.filterMap OutputCall.frame?) := by
  have hrun : ((Hearing.machine OutputCall.event 64 (some 2)).exec
      ⟨{ dispatcher := .init 64 (some 2) }, []⟩
      [.native (.frame (smallFrame 1)), .native (.frame (smallFrame 9)),
        .native (.frame (smallFrame 1)), .queue .drainBegin, .queue .lookUp, .queue .drainEnd,
        .queue .drainBegin, .queue .lookUp]).any (fun s => decide (s.calls.length = 3 ∧
          ((received s).map fun result => (result.toOption.isSome : Bool)) = [true, false])) =
      true := by
    decide +kernel
  obtain ⟨s, hs, htest⟩ := Machine.exists_reach (M := Hearing.machine OutputCall.event 64 (some 2))
    rfl hrun
  obtain ⟨hcalls, hresults⟩ := of_decide_eq_true htest
  exact ⟨s, hs, hcalls, hresults, frames_received hs⟩

end Tirtc.FrameTuples
