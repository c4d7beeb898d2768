import Tirtc.Dispatch.Hearing
import Tirtc.Util.Times

/-!
# The commands and messages that the application gets

A command or a stream message of the peer goes from the Runtime through the callback of the
extension and the queue of the dispatcher to `on_command` or `on_stream_message`.

* `ConnectionCall`, `ConnectionCall.event`: what the Runtime tells a Connection, and the events of
  it.
* `Callbacks`, `notice`, `notices`: what `_handle_event` makes of an event, and what it has made in
  a run.
* `Received`, `messages_received`: each is a command or a message that the Runtime has given,
  unchanged, and they come in order.
-/

set_option autoImplicit false

namespace Tirtc.Messages

open Datetime Transition Delivery

/-! ## The events -/

/-- What the Runtime tells a Connection. -/
inductive ConnectionCall
  | state (number : UInt32) (error : Int32)
  | command (command : UInt32) (data : List UInt8)
  | message (streamId : UInt8) (timestampMs : UInt32) (data : List UInt8)

/-- Source: `extension.c`, `conn_on_state`, `conn_on_command` and `conn_on_message` -/
def ConnectionCall.event : ConnectionCall → EventKind × List PyValue
  | .state number error => (.state, [.int number.toNat, .int error.toInt])
  | .command number data => (.command, [.int number.toNat, .bytes data])
  | .message streamId timestampMs data =>
      (.message, [.int streamId.toNat, .int timestampMs.toNat, .bytes data])

/-- What reading the values raises. -/
inductive ValueError
  | typeError | valueError | indexError | overflowError
  deriving DecidableEq, Repr

/-- `values[index]` -/
def item (values : List PyValue) (index : ℕ) : Except ValueError PyValue :=
  match values[index]? with
  | some value => .ok value
  | none => .error .indexError

/-- `int(value)`; a number stands wherever the callbacks are read so. -/
def toInt : PyValue → Except ValueError ℤ
  | .int value => .ok value
  | .bool value => .ok (if value then 1 else 0)
  | .bytes _ => .error .valueError
  | .object _ => .error .typeError

/-- `bytes(value)`; of a number it makes so many zeros. -/
def toBytes : PyValue → Except ValueError (List UInt8)
  | .bytes data => .ok data
  | .int value => if value < 0 then .error .valueError else .ok (List.replicate value.toNat 0)
  | .bool value => .ok (if value then [0] else [])
  | .object _ => .error .typeError

/-- `timedelta(milliseconds=value)` -/
def timedelta (value : ℤ) : Except ValueError TimeDelta :=
  match TimeDelta.ofMilliseconds value with
  | some duration => .ok duration
  | none => .error .overflowError

/-! ## The handler -/

/-- What the application hears. -/
inductive Notice
  | command (command : ℤ) (data : List UInt8)
  | message (streamId : ℤ) (timestamp : TimeDelta) (data : List UInt8)
  deriving DecidableEq

/-- Which of the callbacks the application has given. -/
structure Callbacks where
  onCommand : Bool
  onStreamMessage : Bool

/-- The arguments of `on_command`. -/
def commandNotice (values : List PyValue) : Except ValueError Notice := do
  let command ← toInt (← item values 0)
  let data ← toBytes (← item values 1)
  return .command command data

/-- The arguments of `on_stream_message`. -/
def messageNotice (values : List PyValue) : Except ValueError Notice := do
  let streamId ← toInt (← item values 0)
  let timestamp ← timedelta (← toInt (← item values 1))
  let data ← toBytes (← item values 2)
  return .message streamId timestamp data

/-- The command and message branches of `_handle_event`.
Source: `_core.py`, `Connection._handle_event` -/
def notice (callbacks : Callbacks) :
    EventKind → List PyValue → Option (Except ValueError Notice)
  | .command, values => if callbacks.onCommand then some (commandNotice values) else none
  | .message, values => if callbacks.onStreamMessage then some (messageNotice values) else none
  | _, _ => none

/-- What the handler makes of an event. -/
def told (callbacks : Callbacks) (event : Event (Tagged (List PyValue))) :
    Option (Except ValueError Notice) :=
  notice callbacks event.kind event.values.values

/-- **What has become of the commands and messages in the handler**, the first one first. -/
def notices (callbacks : Callbacks) (s : Hearing ConnectionCall (List PyValue)) :
    List (Except ValueError Notice) :=
  s.handing.handed.reverse.filterMap (told callbacks)

/-- The commands and messages of the Runtime for which there is a callback. -/
def ConnectionCall.wanted (callbacks : Callbacks) : ConnectionCall → Option ConnectionCall
  | .state _ _ => none
  | .command number data => if callbacks.onCommand then some (.command number data) else none
  | .message streamId timestampMs data =>
      if callbacks.onStreamMessage then some (.message streamId timestampMs data) else none

/-- The application hears what the Runtime has said. -/
def Received (result : Except ValueError Notice) : ConnectionCall → Prop
  | .state _ _ => False
  | .command number data => result = .ok (.command number.toNat data)
  | .message streamId timestampMs data =>
      ∃ timestamp : TimeDelta, timestamp.total = timestampMs.toNat * 1000 ∧
        result = .ok (.message streamId.toNat timestamp data)

/-! ## The runs -/

/-- Thirty-two bits of milliseconds are a duration. -/
theorem exists_timedelta (value : UInt32) :
    ∃ d : TimeDelta, d.total = value.toNat * 1000 ∧ timedelta value.toNat = .ok d := by
  have hlt := value.toNat_lt
  obtain ⟨d, hd⟩ : ∃ d : TimeDelta, d.total = value.toNat * 1000 := by
    apply Ranged.exists_total
    · omega
    · omega
  have hsome := TimeDelta.ofMilliseconds_eq_some.mpr hd
  exact ⟨d, hd, by simp [timedelta, hsome]⟩

/-- **Of the event of a call comes the notice of it.** -/
theorem notice_event {callbacks : Callbacks} {call : ConnectionCall}
    {result : Except ValueError Notice}
    (h : notice callbacks call.event.1 call.event.2 = some result) :
    call.wanted callbacks = some call ∧ Received result call := by
  cases call with
  | state number error => cases h
  | command number data =>
      have hread : commandNotice [.int number.toNat, .bytes data] =
          .ok (.command number.toNat data) := rfl
      simp only [ConnectionCall.event, notice, hread] at h
      split at h
      next hwanted =>
        cases h
        exact ⟨if_pos hwanted, rfl⟩
      next => cases h
  | message streamId timestampMs data =>
      obtain ⟨d, hd, htimedelta⟩ := exists_timedelta timestampMs
      have hread : messageNotice [.int streamId.toNat, .int timestampMs.toNat, .bytes data] =
          (timedelta timestampMs.toNat >>= fun timestamp =>
            .ok (.message streamId.toNat timestamp data)) := rfl
      simp only [ConnectionCall.event, notice, hread, htimedelta] at h
      split at h
      next hwanted =>
        cases h
        exact ⟨if_pos hwanted, d, hd, rfl⟩
      next => cases h

/-- Only commands and messages make the handler call one of the two. -/
theorem told_plain {callbacks : Callbacks} {event : Event (Tagged (List PyValue))}
    {result : Except ValueError Notice} (h : told callbacks event = some result) :
    event.kind.isFrame = false ∧ event.kind.isLatest = false := by
  unfold told at h
  cases hkind : event.kind with
  | command | message => exact ⟨rfl, rfl⟩
  | _ =>
      rw [hkind] at h
      cases h

/-- **The application gets the commands and messages of the Runtime**: in every run of posts,
drains, closes and drops, and for every capacity of the queue, what it hears are commands and stream
messages that the Runtime has given, each at most once, commands and messages together in their
order, and each with the number, the stream, the timestamp and the bytes that the Runtime has given;
none of them makes the handler raise. -/
theorem messages_received {callbacks : Callbacks} {capacity : ℕ} {frameCapacity : Option ℕ}
    {s : Hearing ConnectionCall (List PyValue)}
    (hs : (Hearing.machine ConnectionCall.event capacity frameCapacity).Reach s) :
    List.SublistForall₂ Received (notices callbacks s)
      (s.calls.filterMap (ConnectionCall.wanted callbacks)) := by
  apply Hearing.heard_in_order hs
  · intro x y a b hx hy
    exact .inl ⟨(told_plain hx).2, (told_plain hy).2⟩
  · rintro call event result ⟨hkind, hvalues⟩ htold
    have hplain := (told_plain htold).1
    unfold told at htold
    rcases hvalues with hvalues | ⟨hframe, -⟩
    · rw [hkind, hvalues] at htold
      obtain ⟨hwanted, hreceived⟩ := notice_event htold
      exact ⟨call, hwanted, hreceived⟩
    · rw [← hkind] at hframe
      cases hplain.symm.trans hframe

/-- Five milliseconds. -/
def fiveMs : TimeDelta := (TimeDelta.ofMilliseconds 5).get rfl

/-- A Connection is told a command, a state and a message, and the application hears the first and
the last. -/
theorem messages_received_both :
    ∃ s, (Hearing.machine ConnectionCall.event 64 none).Reach s ∧
      (notices ⟨true, true⟩ s).map Except.toOption =
        [some (.command 8193 [1]), some (.message 3 fiveMs [2])] ∧
      List.SublistForall₂ Received (notices ⟨true, true⟩ s)
        (s.calls.filterMap (ConnectionCall.wanted ⟨true, true⟩)) := by
  have hrun : ((Hearing.machine ConnectionCall.event 64 none).exec
      ⟨{ dispatcher := .init 64 none }, []⟩
      [.native (.command 8193 [1]), .native (.state 2 0), .native (.message 3 5 [2]),
        .queue .drainBegin, .queue .lookUp, .queue .drainEnd, .queue .drainBegin, .queue .lookUp,
        .queue .drainEnd, .queue .drainBegin, .queue .lookUp]).any (fun s => decide (
          (notices ⟨true, true⟩ s).map Except.toOption =
            [some (.command 8193 [1]), some (.message 3 fiveMs [2])])) = true := by
    decide +kernel
  obtain ⟨s, hs, htest⟩ := Machine.exists_reach (M := Hearing.machine ConnectionCall.event 64 none)
    rfl hrun
  exact ⟨s, hs, of_decide_eq_true htest, messages_received hs⟩

end Tirtc.Messages
