import Tirtc.Dispatch.Dispatcher
import Tirtc.Lib.Results
import Tirtc.Util.Times

/-!
# The values of a frame

The callbacks of the extension put what the Runtime says about a frame into a tuple, and the Output
makes an immutable record of the tuple again. Between the two the queue may put another value in the
last place.

* `FrameValue`, `FrameError`: the Python objects of such a tuple, and what reading them raises.
* `AudioFrameInfo` and the others, with `values`: what the Runtime says, and the tuple of it.
* `AudioFrame` and the others, `audioFrame` and the others: the records, and how they are made.
* `AudioFrameInfo.Shows` and the others: the record shows what the Runtime said.
* `audioFrame_eq_ok` and the others: of a tuple comes the record that shows it.
* `audioKnown_iff` and the others: there is one exactly when the enumerators are known, and a time
  is one that a clock can show.
* `NativeFrame`, `Frame`, `known_iff`, `frame_eq_ok`: the four together.
-/

set_option autoImplicit false

namespace Tirtc.FrameTuples

open Datetime Results

/-! ## The enumerations -/

/-- Source: `_values.py`, `AudioSampleFormat` -/
inductive AudioSampleFormat
  | none | int16LeInterleaved
  deriving DecidableEq, Repr

/-- Source: `_values.py`, `PixelFormat` -/
inductive PixelFormat
  | none | i420 | nv12 | rgba8888
  deriving DecidableEq, Repr

/-- Source: `_values.py`, `AudioCodec` -/
inductive AudioCodec
  | none | g711a | aac | pcm | opus | amr
  deriving DecidableEq, Repr

/-- Source: `_values.py`, `VideoCodec` -/
inductive VideoCodec
  | none | h264 | h265 | mjpeg
  deriving DecidableEq, Repr

/-- Source: `_values.py`, `AudioBitstreamFormat` -/
inductive AudioBitstreamFormat
  | none | g711aPacket | aacAdts | aacRawAccessUnit | pcmInt16LeInterleaved | opusPacket
  | amrNbFrame
  deriving DecidableEq, Repr

/-- Source: `_values.py`, `VideoBitstreamFormat` -/
inductive VideoBitstreamFormat
  | none | h264AnnexB | h265AnnexB | mjpegJfif
  deriving DecidableEq, Repr

/-- Source: `_values.py`, `_AUDIO_SAMPLE_FORMATS` -/
def audioSampleFormats : List AudioSampleFormat := [.none, .int16LeInterleaved]

/-- Source: `_values.py`, `_PIXEL_FORMATS` -/
def pixelFormats : List PixelFormat := [.none, .i420, .nv12, .rgba8888]

/-- Source: `_values.py`, `_AUDIO_CODECS` -/
def audioCodecs : List AudioCodec := [.none, .g711a, .aac, .pcm, .opus, .amr]

/-- Source: `_values.py`, `_VIDEO_CODECS_BY_NATIVE` -/
def videoCodecsByNative : ℤ → Option VideoCodec
  | 0 => some .none
  | 65 => some .h264
  | 66 => some .h265
  | 67 => some .mjpeg
  | _ => .none

/-- Source: `_values.py`, `_AUDIO_BITSTREAM_FORMATS` -/
def audioBitstreamFormats : List AudioBitstreamFormat :=
  [.none, .g711aPacket, .aacAdts, .aacRawAccessUnit, .pcmInt16LeInterleaved, .opusPacket,
    .amrNbFrame]

/-- Source: `_values.py`, `_VIDEO_BITSTREAM_FORMATS` -/
def videoBitstreamFormats : List VideoBitstreamFormat :=
  [.none, .h264AnnexB, .h265AnnexB, .mjpegJfif]

/-! ## The tuple -/

/-- A memoryview, by identity, with its length. -/
structure View where
  ref : ℕ
  size : ℕ
  deriving DecidableEq, Repr

/-- A positional value of a frame; `planes` is a tuple of pairs. -/
inductive FrameValue
  | int (value : ℤ)
  | bool (value : Bool)
  | view (view : View)
  | planes (planes : List (ℤ × View))
  deriving DecidableEq, Repr

instance : FrameValues (List FrameValue) where
  markDiscontinuity values := values.dropLast ++ [.bool true]
  discontinuity values := values.getLast? == some (.bool true)
  discontinuity_mark values := by simp

/-- What reading a tuple raises. -/
inductive FrameError
  | typeError
  | indexError
  | keyError (key : ℤ)
  | time (error : TimeError)
  deriving DecidableEq, Repr

/-- `values[index]` -/
def item (values : List FrameValue) (index : ℕ) : Except FrameError FrameValue :=
  match values[index]? with
  | some value => .ok value
  | none => .error .indexError

/-- `int(value)`; a number stands wherever the callbacks are read so. -/
def FrameValue.toInt : FrameValue → Except FrameError ℤ
  | .int value => .ok value
  | .bool value => .ok (if value then 1 else 0)
  | .view _ | .planes _ => .error .typeError

/-- `bool(value)` -/
def FrameValue.toBool : FrameValue → Bool
  | .int value => value != 0
  | .bool value => value
  | .view v => v.size != 0
  | .planes ps => !ps.isEmpty

/-- `int(values[index])` -/
def intItem (values : List FrameValue) (index : ℕ) : Except FrameError ℤ := do
  (← item values index).toInt

/-- `bool(values[index])` -/
def boolItem (values : List FrameValue) (index : ℕ) : Except FrameError Bool := do
  return (← item values index).toBool

/-- An element of a tuple of enumerators; a negative index counts from the end. -/
def member {α : Type} (table : List α) (index : ℤ) : Except FrameError α :=
  let place := if index < 0 then index + table.length else index
  match if place < 0 then none else table[place.toNat]? with
  | some value => .ok value
  | none => .error .indexError

/-- An element of a dictionary of enumerators. -/
def lookUp {α : Type} (table : ℤ → Option α) (key : ℤ) : Except FrameError α :=
  match table key with
  | some value => .ok value
  | none => .error (.keyError key)

/-- `timedelta(microseconds=value)` -/
def timedelta (value : ℤ) : Except FrameError TimeDelta :=
  match TimeDelta.ofMicroseconds value with
  | some duration => .ok duration
  | none => .error (.time .overflowError)

/-- `_datetime_from_us` of two values. -/
def sourceTime (value : ℤ) (present : Bool) : Except FrameError (Option DateTime) :=
  (datetimeFromUs value present).mapError .time

/-! ### What reading gives -/

/-- Two steps, of which the second gives the result. -/
theorem bind_eq_ok {ε α β : Type} {x : Except ε α} {f : α → Except ε β} {b : β} :
    (x >>= f) = .ok b ↔ ∃ a, x = .ok a ∧ f a = .ok b := by
  constructor
  · intro h
    cases x with
    | ok a => exact ⟨a, rfl, h⟩
    | error e => cases h
  · rintro ⟨a, rfl, h⟩
    exact h

/-- An unsigned number is a place from the front. -/
theorem member_eq_ok {α : Type} {table : List α} {n : ℕ} {a : α} :
    member table n = .ok a ↔ table[n]? = some a := by
  have hpos : ¬ (n : ℤ) < 0 := by omega
  simp only [member, if_neg hpos, Int.toNat_natCast]
  cases table[n]? with
  | some b => simp
  | none => simp

theorem lookUp_eq_ok {α : Type} {table : ℤ → Option α} {key : ℤ} {a : α} :
    lookUp table key = .ok a ↔ table key = some a := by
  unfold lookUp
  cases table key with
  | some b => simp
  | none => simp

theorem timedelta_eq_ok {value : ℤ} {d : TimeDelta} :
    timedelta value = .ok d ↔ d.total = value := by
  rw [← TimeDelta.ofMicroseconds_eq_some]
  unfold timedelta
  cases TimeDelta.ofMicroseconds value with
  | some duration => simp
  | none => simp

/-- Sixty-four bits of microseconds are a duration. -/
theorem exists_timedelta (value : Int64) : ∃ d : TimeDelta, d.total = value.toInt := by
  have hlo := value.le_toInt
  have hhi := value.toInt_lt
  apply Ranged.exists_total
  · omega
  · omega

/-- The source time of a frame, `none` where it has none. -/
def ShowsTime (value : Int64) (present : Bool) : Option DateTime → Prop
  | none => present = false
  | some moment => present = true ∧ ∃ r : Reading, moment = r.utc ∧ r.sinceEpoch = value.toInt

theorem sourceTime_eq_ok {value : Int64} {present : Bool} {moment : Option DateTime} :
    sourceTime value.toInt present = .ok moment ↔ ShowsTime value present moment := by
  cases present with
  | false =>
      have hnone : sourceTime value.toInt false = .ok none := rfl
      rw [hnone, Except.ok.injEq]
      cases moment with
      | none => simp [ShowsTime]
      | some moment => simp [ShowsTime]
  | true =>
      have hgiven : sourceTime value.toInt true = .ok moment ↔
          datetimeFromUs value.toInt true = .ok moment := by
        unfold sourceTime
        cases datetimeFromUs value.toInt true with
        | error e => simp [Except.mapError]
        | ok read => simp [Except.mapError]
      rw [hgiven]
      cases moment with
      | none =>
          simp only [datetimeFromUs, ShowsTime]
          cases sinceEpoch (TimeDelta.ofMicroseconds value.toInt) with
          | error e => simp [Except.map]
          | ok read => simp [Except.map]
      | some moment => simp [ShowsTime, datetimeFromUs_eq_ok]

/-- A clock can show the source time, if there is one. -/
def KnownTime (value : Int64) (present : Bool) : Prop :=
  present = true → Representable value.toInt

theorem exists_showsTime {value : Int64} {present : Bool} :
    (∃ moment, ShowsTime value present moment) ↔ KnownTime value present := by
  constructor
  · rintro ⟨moment, h⟩ rfl
    cases moment with
    | none => cases h
    | some moment =>
        obtain ⟨-, r, -, hr⟩ := h
        exact ⟨r, hr⟩
  · intro h
    cases present with
    | false => exact ⟨none, rfl⟩
    | true =>
        obtain ⟨r, hr⟩ := h rfl
        exact ⟨some r.utc, rfl, r, rfl, hr⟩

/-- A flag that is passed as a number comes back. -/
def flag (present : Bool) : FrameValue := .int (if present then 1 else 0)

@[simp] theorem toBool_flag (present : Bool) : (flag present).toBool = present := by
  cases present <;> rfl

/-! ## Decoded audio -/

/-- What the Runtime says of a frame. Source: `extension.c`, `output_on_audio_frame` -/
structure AudioFrameInfo where
  data : View
  ptsUs : Int64
  sourceTimeUtcUs : Int64
  hasSourceTime : Bool
  sampleFormat : UInt32
  sampleRateHz : UInt32
  channels : UInt32
  samplesPerChannel : UInt32
  discontinuity : Bool

/-- Source: `extension.c`, `output_on_audio_frame` -/
def AudioFrameInfo.values (info : AudioFrameInfo) : List FrameValue :=
  [.view info.data, .int info.ptsUs.toInt, .int info.sourceTimeUtcUs.toInt,
    flag info.hasSourceTime, .int info.sampleFormat.toNat, .int info.sampleRateHz.toNat,
    .int info.channels.toNat, .int info.samplesPerChannel.toNat, .bool info.discontinuity]

/-- Source: `_values.py`, `AudioFrame` -/
structure AudioFrame where
  data : FrameValue
  pts : TimeDelta
  sourceTime : Option DateTime
  sampleFormat : AudioSampleFormat
  sampleRateHz : ℤ
  channels : ℤ
  samplesPerChannel : ℤ
  discontinuity : Bool
  deriving DecidableEq

/-- Source: `_core.py`, `_OutputBase._audio_frame` -/
def audioFrame (values : List FrameValue) : Except FrameError AudioFrame := do
  let data ← item values 0
  let pts ← timedelta (← intItem values 1)
  let sourceTime ← sourceTime (← intItem values 2) (← boolItem values 3)
  let sampleFormat ← member audioSampleFormats (← intItem values 4)
  let sampleRateHz ← intItem values 5
  let channels ← intItem values 6
  let samplesPerChannel ← intItem values 7
  let discontinuity ← boolItem values 8
  return { data, pts, sourceTime, sampleFormat, sampleRateHz, channels, samplesPerChannel,
           discontinuity }

/-- **The record shows what the Runtime said.** -/
structure AudioFrameInfo.Shows (info : AudioFrameInfo) (frame : AudioFrame) : Prop where
  data : frame.data = .view info.data
  pts : frame.pts.total = info.ptsUs.toInt
  sourceTime : ShowsTime info.sourceTimeUtcUs info.hasSourceTime frame.sourceTime
  sampleFormat : audioSampleFormats[info.sampleFormat.toNat]? = some frame.sampleFormat
  sampleRateHz : frame.sampleRateHz = info.sampleRateHz.toNat
  channels : frame.channels = info.channels.toNat
  samplesPerChannel : frame.samplesPerChannel = info.samplesPerChannel.toNat
  discontinuity : frame.discontinuity = info.discontinuity

/-- **Of the tuple comes the record that shows what the Runtime said.** -/
theorem audioFrame_eq_ok {info : AudioFrameInfo} {frame : AudioFrame} :
    audioFrame info.values = .ok frame ↔ info.Shows frame := by
  have hread : audioFrame info.values =
      (timedelta info.ptsUs.toInt >>= fun pts =>
        sourceTime info.sourceTimeUtcUs.toInt (flag info.hasSourceTime).toBool >>= fun time =>
          member audioSampleFormats info.sampleFormat.toNat >>= fun format =>
            .ok ⟨.view info.data, pts, time, format, info.sampleRateHz.toNat,
              info.channels.toNat, info.samplesPerChannel.toNat, info.discontinuity⟩) := rfl
  simp only [hread, toBool_flag, bind_eq_ok, timedelta_eq_ok, sourceTime_eq_ok, member_eq_ok,
    Except.ok.injEq]
  constructor
  · rintro ⟨pts, hpts, time, htime, format, hformat, rfl⟩
    exact ⟨rfl, hpts, htime, hformat, rfl, rfl, rfl, rfl⟩
  · rintro ⟨hdata, hpts, htime, hformat, hrate, hchannels, hsamples, hdiscontinuity⟩
    refine ⟨frame.pts, hpts, frame.sourceTime, htime, frame.sampleFormat, hformat, ?_⟩
    rw [← hdata, ← hrate, ← hchannels, ← hsamples, ← hdiscontinuity]

/-- What the Runtime says has a meaning. -/
def AudioFrameInfo.Known (info : AudioFrameInfo) : Prop :=
  KnownTime info.sourceTimeUtcUs info.hasSourceTime ∧
    info.sampleFormat.toNat < audioSampleFormats.length

theorem audioKnown_iff {info : AudioFrameInfo} : (∃ frame, info.Shows frame) ↔ info.Known := by
  constructor
  · rintro ⟨frame, h⟩
    exact ⟨exists_showsTime.mp ⟨_, h.sourceTime⟩, (List.getElem?_eq_some_iff.mp h.sampleFormat).1⟩
  · rintro ⟨htime, hformat⟩
    obtain ⟨pts, hpts⟩ := exists_timedelta info.ptsUs
    obtain ⟨time, htime⟩ := exists_showsTime.mpr htime
    exact ⟨⟨_, pts, time, _, _, _, _, _⟩,
      ⟨rfl, hpts, htime, List.getElem?_eq_getElem hformat, rfl, rfl, rfl, rfl⟩⟩

/-! ## Decoded video -/

/-- What the Runtime says of a frame; a plane is its stride and its bytes.
Source: `extension.c`, `output_on_video_frame` -/
structure VideoFrameInfo where
  planes : List (UInt32 × View)
  ptsUs : Int64
  sourceTimeUtcUs : Int64
  hasSourceTime : Bool
  pixelFormat : UInt32
  width : UInt32
  height : UInt32
  discontinuity : Bool

/-- Source: `extension.c`, `output_on_video_frame` -/
def VideoFrameInfo.values (info : VideoFrameInfo) : List FrameValue :=
  [.planes (info.planes.map fun plane => (plane.1.toNat, plane.2)), .int info.ptsUs.toInt,
    .int info.sourceTimeUtcUs.toInt, flag info.hasSourceTime, .int info.pixelFormat.toNat,
    .int info.width.toNat, .int info.height.toNat, .bool info.discontinuity]

/-- Source: `_values.py`, `VideoPlane` -/
structure VideoPlane where
  stride : ℤ
  data : View
  deriving DecidableEq, Repr

/-- Source: `_values.py`, `VideoFrame` -/
structure VideoFrame where
  pts : TimeDelta
  sourceTime : Option DateTime
  pixelFormat : PixelFormat
  width : ℤ
  height : ℤ
  planes : List VideoPlane
  discontinuity : Bool
  deriving DecidableEq

/-- The planes of `values[0]`. -/
def videoPlanes : FrameValue → Except FrameError (List VideoPlane)
  | .planes ps => .ok (ps.map fun plane => ⟨plane.1, plane.2⟩)
  | .int _ | .bool _ | .view _ => .error .typeError

/-- Source: `_core.py`, `_OutputBase._video_frame` -/
def videoFrame (values : List FrameValue) : Except FrameError VideoFrame := do
  let planes ← videoPlanes (← item values 0)
  let pts ← timedelta (← intItem values 1)
  let sourceTime ← sourceTime (← intItem values 2) (← boolItem values 3)
  let pixelFormat ← member pixelFormats (← intItem values 4)
  let width ← intItem values 5
  let height ← intItem values 6
  let discontinuity ← boolItem values 7
  return { pts, sourceTime, pixelFormat, width, height, planes, discontinuity }

/-- **The record shows what the Runtime said**, with every plane in its place. -/
structure VideoFrameInfo.Shows (info : VideoFrameInfo) (frame : VideoFrame) : Prop where
  pts : frame.pts.total = info.ptsUs.toInt
  sourceTime : ShowsTime info.sourceTimeUtcUs info.hasSourceTime frame.sourceTime
  pixelFormat : pixelFormats[info.pixelFormat.toNat]? = some frame.pixelFormat
  width : frame.width = info.width.toNat
  height : frame.height = info.height.toNat
  planes : frame.planes = info.planes.map fun plane => ⟨plane.1.toNat, plane.2⟩
  discontinuity : frame.discontinuity = info.discontinuity

/-- **Of the tuple comes the record that shows what the Runtime said.** -/
theorem videoFrame_eq_ok {info : VideoFrameInfo} {frame : VideoFrame} :
    videoFrame info.values = .ok frame ↔ info.Shows frame := by
  have hplanes : (info.planes.map fun plane => ((plane.1.toNat : ℤ), plane.2)).map
      (fun plane => (⟨plane.1, plane.2⟩ : VideoPlane)) =
      info.planes.map fun plane => ⟨plane.1.toNat, plane.2⟩ := by
    rw [List.map_map]
    rfl
  have hread : videoFrame info.values =
      (timedelta info.ptsUs.toInt >>= fun pts =>
        sourceTime info.sourceTimeUtcUs.toInt (flag info.hasSourceTime).toBool >>= fun time =>
          member pixelFormats info.pixelFormat.toNat >>= fun format =>
            .ok ⟨pts, time, format, info.width.toNat, info.height.toNat,
              (info.planes.map fun plane => ((plane.1.toNat : ℤ), plane.2)).map
                (fun plane => (⟨plane.1, plane.2⟩ : VideoPlane)), info.discontinuity⟩) := rfl
  simp only [hread, hplanes, toBool_flag, bind_eq_ok, timedelta_eq_ok, sourceTime_eq_ok,
    member_eq_ok, Except.ok.injEq]
  constructor
  · rintro ⟨pts, hpts, time, htime, format, hformat, rfl⟩
    exact ⟨hpts, htime, hformat, rfl, rfl, rfl, rfl⟩
  · rintro ⟨hpts, htime, hformat, hwidth, hheight, hplanes, hdiscontinuity⟩
    refine ⟨frame.pts, hpts, frame.sourceTime, htime, frame.pixelFormat, hformat, ?_⟩
    rw [← hwidth, ← hheight, ← hplanes, ← hdiscontinuity]

/-- What the Runtime says has a meaning. -/
def VideoFrameInfo.Known (info : VideoFrameInfo) : Prop :=
  KnownTime info.sourceTimeUtcUs info.hasSourceTime ∧
    info.pixelFormat.toNat < pixelFormats.length

theorem videoKnown_iff {info : VideoFrameInfo} : (∃ frame, info.Shows frame) ↔ info.Known := by
  constructor
  · rintro ⟨frame, h⟩
    exact ⟨exists_showsTime.mp ⟨_, h.sourceTime⟩, (List.getElem?_eq_some_iff.mp h.pixelFormat).1⟩
  · rintro ⟨htime, hformat⟩
    obtain ⟨pts, hpts⟩ := exists_timedelta info.ptsUs
    obtain ⟨time, htime⟩ := exists_showsTime.mpr htime
    exact ⟨⟨pts, time, _, _, _, _, _⟩,
      ⟨hpts, htime, List.getElem?_eq_getElem hformat, rfl, rfl, rfl, rfl⟩⟩

/-! ## Encoded audio -/

/-- What the Runtime says of a frame.
Source: `extension.c`, `output_on_encoded_audio_frame` -/
structure EncodedAudioFrameInfo where
  data : View
  codecConfig : View
  ptsUs : Int64
  sourceTimeUtcUs : Int64
  hasSourceTime : Bool
  codec : UInt32
  bitstreamFormat : UInt32
  sampleRateHz : UInt32
  channels : UInt32
  discontinuity : Bool

/-- Source: `extension.c`, `output_on_encoded_audio_frame` -/
def EncodedAudioFrameInfo.values (info : EncodedAudioFrameInfo) : List FrameValue :=
  [.view info.data, .view info.codecConfig, .int info.ptsUs.toInt,
    .int info.sourceTimeUtcUs.toInt, flag info.hasSourceTime, .int info.codec.toNat,
    .int info.bitstreamFormat.toNat, .int info.sampleRateHz.toNat, .int info.channels.toNat,
    .bool info.discontinuity]

/-- Source: `_values.py`, `EncodedAudioFrame` -/
structure EncodedAudioFrame where
  data : FrameValue
  codecConfig : FrameValue
  pts : TimeDelta
  sourceTime : Option DateTime
  codec : AudioCodec
  bitstreamFormat : AudioBitstreamFormat
  sampleRateHz : ℤ
  channels : ℤ
  discontinuity : Bool
  deriving DecidableEq

/-- Source: `_core.py`, `_OutputBase._encoded_audio_frame` -/
def encodedAudioFrame (values : List FrameValue) : Except FrameError EncodedAudioFrame := do
  let data ← item values 0
  let codecConfig ← item values 1
  let pts ← timedelta (← intItem values 2)
  let sourceTime ← sourceTime (← intItem values 3) (← boolItem values 4)
  let codec ← member audioCodecs (← intItem values 5)
  let bitstreamFormat ← member audioBitstreamFormats (← intItem values 6)
  let sampleRateHz ← intItem values 7
  let channels ← intItem values 8
  let discontinuity ← boolItem values 9
  return { data, codecConfig, pts, sourceTime, codec, bitstreamFormat, sampleRateHz, channels,
           discontinuity }

/-- **The record shows what the Runtime said.** -/
structure EncodedAudioFrameInfo.Shows (info : EncodedAudioFrameInfo)
    (frame : EncodedAudioFrame) : Prop where
  data : frame.data = .view info.data
  codecConfig : frame.codecConfig = .view info.codecConfig
  pts : frame.pts.total = info.ptsUs.toInt
  sourceTime : ShowsTime info.sourceTimeUtcUs info.hasSourceTime frame.sourceTime
  codec : audioCodecs[info.codec.toNat]? = some frame.codec
  bitstreamFormat :
    audioBitstreamFormats[info.bitstreamFormat.toNat]? = some frame.bitstreamFormat
  sampleRateHz : frame.sampleRateHz = info.sampleRateHz.toNat
  channels : frame.channels = info.channels.toNat
  discontinuity : frame.discontinuity = info.discontinuity

/-- **Of the tuple comes the record that shows what the Runtime said.** -/
theorem encodedAudioFrame_eq_ok {info : EncodedAudioFrameInfo} {frame : EncodedAudioFrame} :
    encodedAudioFrame info.values = .ok frame ↔ info.Shows frame := by
  have hread : encodedAudioFrame info.values =
      (timedelta info.ptsUs.toInt >>= fun pts =>
        sourceTime info.sourceTimeUtcUs.toInt (flag info.hasSourceTime).toBool >>= fun time =>
          member audioCodecs info.codec.toNat >>= fun codec =>
            member audioBitstreamFormats info.bitstreamFormat.toNat >>= fun format =>
              .ok ⟨.view info.data, .view info.codecConfig, pts, time, codec, format,
                info.sampleRateHz.toNat, info.channels.toNat, info.discontinuity⟩) := rfl
  simp only [hread, toBool_flag, bind_eq_ok, timedelta_eq_ok, sourceTime_eq_ok, member_eq_ok,
    Except.ok.injEq]
  constructor
  · rintro ⟨pts, hpts, time, htime, codec, hcodec, format, hformat, rfl⟩
    exact ⟨rfl, rfl, hpts, htime, hcodec, hformat, rfl, rfl, rfl⟩
  · rintro ⟨hdata, hconfig, hpts, htime, hcodec, hformat, hrate, hchannels, hdiscontinuity⟩
    refine ⟨frame.pts, hpts, frame.sourceTime, htime, frame.codec, hcodec,
      frame.bitstreamFormat, hformat, ?_⟩
    rw [← hdata, ← hconfig, ← hrate, ← hchannels, ← hdiscontinuity]

/-- What the Runtime says has a meaning. -/
def EncodedAudioFrameInfo.Known (info : EncodedAudioFrameInfo) : Prop :=
  KnownTime info.sourceTimeUtcUs info.hasSourceTime ∧ info.codec.toNat < audioCodecs.length ∧
    info.bitstreamFormat.toNat < audioBitstreamFormats.length

theorem encodedAudioKnown_iff {info : EncodedAudioFrameInfo} :
    (∃ frame, info.Shows frame) ↔ info.Known := by
  constructor
  · rintro ⟨frame, h⟩
    exact ⟨exists_showsTime.mp ⟨_, h.sourceTime⟩, (List.getElem?_eq_some_iff.mp h.codec).1,
      (List.getElem?_eq_some_iff.mp h.bitstreamFormat).1⟩
  · rintro ⟨htime, hcodec, hformat⟩
    obtain ⟨pts, hpts⟩ := exists_timedelta info.ptsUs
    obtain ⟨time, htime⟩ := exists_showsTime.mpr htime
    exact ⟨⟨_, _, pts, time, _, _, _, _, _⟩,
      ⟨rfl, rfl, hpts, htime, List.getElem?_eq_getElem hcodec, List.getElem?_eq_getElem hformat,
        rfl, rfl, rfl⟩⟩

/-! ## Encoded video -/

/-- What the Runtime says of a frame.
Source: `extension.c`, `output_on_encoded_video_frame` -/
structure EncodedVideoFrameInfo where
  data : View
  codecConfig : View
  ptsUs : Int64
  sourceTimeUtcUs : Int64
  hasSourceTime : Bool
  codec : UInt32
  bitstreamFormat : UInt32
  width : UInt32
  height : UInt32
  keyFrame : Bool
  discontinuity : Bool

/-- Source: `extension.c`, `output_on_encoded_video_frame` -/
def EncodedVideoFrameInfo.values (info : EncodedVideoFrameInfo) : List FrameValue :=
  [.view info.data, .view info.codecConfig, .int info.ptsUs.toInt,
    .int info.sourceTimeUtcUs.toInt, flag info.hasSourceTime, .int info.codec.toNat,
    .int info.bitstreamFormat.toNat, .int info.width.toNat, .int info.height.toNat,
    .bool info.keyFrame, .bool info.discontinuity]

/-- Source: `_values.py`, `EncodedVideoFrame` -/
structure EncodedVideoFrame where
  data : FrameValue
  codecConfig : FrameValue
  pts : TimeDelta
  sourceTime : Option DateTime
  codec : VideoCodec
  bitstreamFormat : VideoBitstreamFormat
  width : ℤ
  height : ℤ
  keyFrame : Bool
  discontinuity : Bool
  deriving DecidableEq

/-- Source: `_core.py`, `_OutputBase._encoded_video_frame` -/
def encodedVideoFrame (values : List FrameValue) : Except FrameError EncodedVideoFrame := do
  let data ← item values 0
  let codecConfig ← item values 1
  let pts ← timedelta (← intItem values 2)
  let sourceTime ← sourceTime (← intItem values 3) (← boolItem values 4)
  let codec ← lookUp videoCodecsByNative (← intItem values 5)
  let bitstreamFormat ← member videoBitstreamFormats (← intItem values 6)
  let width ← intItem values 7
  let height ← intItem values 8
  let keyFrame ← boolItem values 9
  let discontinuity ← boolItem values 10
  return { data, codecConfig, pts, sourceTime, codec, bitstreamFormat, width, height, keyFrame,
           discontinuity }

/-- **The record shows what the Runtime said.** -/
structure EncodedVideoFrameInfo.Shows (info : EncodedVideoFrameInfo)
    (frame : EncodedVideoFrame) : Prop where
  data : frame.data = .view info.data
  codecConfig : frame.codecConfig = .view info.codecConfig
  pts : frame.pts.total = info.ptsUs.toInt
  sourceTime : ShowsTime info.sourceTimeUtcUs info.hasSourceTime frame.sourceTime
  codec : videoCodecsByNative info.codec.toNat = some frame.codec
  bitstreamFormat :
    videoBitstreamFormats[info.bitstreamFormat.toNat]? = some frame.bitstreamFormat
  width : frame.width = info.width.toNat
  height : frame.height = info.height.toNat
  keyFrame : frame.keyFrame = info.keyFrame
  discontinuity : frame.discontinuity = info.discontinuity

/-- **Of the tuple comes the record that shows what the Runtime said.** -/
theorem encodedVideoFrame_eq_ok {info : EncodedVideoFrameInfo} {frame : EncodedVideoFrame} :
    encodedVideoFrame info.values = .ok frame ↔ info.Shows frame := by
  have hread : encodedVideoFrame info.values =
      (timedelta info.ptsUs.toInt >>= fun pts =>
        sourceTime info.sourceTimeUtcUs.toInt (flag info.hasSourceTime).toBool >>= fun time =>
          lookUp videoCodecsByNative info.codec.toNat >>= fun codec =>
            member videoBitstreamFormats info.bitstreamFormat.toNat >>= fun format =>
              .ok ⟨.view info.data, .view info.codecConfig, pts, time, codec, format,
                info.width.toNat, info.height.toNat, info.keyFrame, info.discontinuity⟩) := rfl
  simp only [hread, toBool_flag, bind_eq_ok, timedelta_eq_ok, sourceTime_eq_ok, member_eq_ok,
    lookUp_eq_ok, Except.ok.injEq]
  constructor
  · rintro ⟨pts, hpts, time, htime, codec, hcodec, format, hformat, rfl⟩
    exact ⟨rfl, rfl, hpts, htime, hcodec, hformat, rfl, rfl, rfl, rfl⟩
  · rintro ⟨hdata, hconfig, hpts, htime, hcodec, hformat, hwidth, hheight, hkey, hdiscontinuity⟩
    refine ⟨frame.pts, hpts, frame.sourceTime, htime, frame.codec, hcodec,
      frame.bitstreamFormat, hformat, ?_⟩
    rw [← hdata, ← hconfig, ← hwidth, ← hheight, ← hkey, ← hdiscontinuity]

/-- What the Runtime says has a meaning. -/
def EncodedVideoFrameInfo.Known (info : EncodedVideoFrameInfo) : Prop :=
  KnownTime info.sourceTimeUtcUs info.hasSourceTime ∧
    (videoCodecsByNative info.codec.toNat).isSome = true ∧
    info.bitstreamFormat.toNat < videoBitstreamFormats.length

theorem encodedVideoKnown_iff {info : EncodedVideoFrameInfo} :
    (∃ frame, info.Shows frame) ↔ info.Known := by
  constructor
  · rintro ⟨frame, h⟩
    exact ⟨exists_showsTime.mp ⟨_, h.sourceTime⟩, Option.isSome_of_eq_some h.codec,
      (List.getElem?_eq_some_iff.mp h.bitstreamFormat).1⟩
  · rintro ⟨htime, hcodec, hformat⟩
    obtain ⟨pts, hpts⟩ := exists_timedelta info.ptsUs
    obtain ⟨time, htime⟩ := exists_showsTime.mpr htime
    obtain ⟨codec, hcodec⟩ := Option.isSome_iff_exists.mp hcodec
    exact ⟨⟨_, _, pts, time, codec, _, _, _, _, _⟩,
      ⟨rfl, rfl, hpts, htime, hcodec, List.getElem?_eq_getElem hformat, rfl, rfl, rfl, rfl⟩⟩

/-! ## The four together -/

/-- What the Runtime says of a frame. -/
inductive NativeFrame
  | audio (info : AudioFrameInfo)
  | video (info : VideoFrameInfo)
  | encodedAudio (info : EncodedAudioFrameInfo)
  | encodedVideo (info : EncodedVideoFrameInfo)

/-- What the application gets. -/
inductive Frame
  | audio (frame : AudioFrame)
  | video (frame : VideoFrame)
  | encodedAudio (frame : EncodedAudioFrame)
  | encodedVideo (frame : EncodedVideoFrame)
  deriving DecidableEq

namespace NativeFrame

/-- The event that the callback posts. -/
def event : NativeFrame → EventKind × List FrameValue
  | .audio info => (.audioFrame, info.values)
  | .video info => (.videoFrame, info.values)
  | .encodedAudio info => (.encodedAudioFrame, info.values)
  | .encodedVideo info => (.encodedVideoFrame, info.values)

/-- The same frame behind a gap. -/
def marked : NativeFrame → NativeFrame
  | .audio info => .audio { info with discontinuity := true }
  | .video info => .video { info with discontinuity := true }
  | .encodedAudio info => .encodedAudio { info with discontinuity := true }
  | .encodedVideo info => .encodedVideo { info with discontinuity := true }

/-- The frame shows what the Runtime said. -/
def Shows : NativeFrame → Frame → Prop
  | .audio info, .audio frame => info.Shows frame
  | .video info, .video frame => info.Shows frame
  | .encodedAudio info, .encodedAudio frame => info.Shows frame
  | .encodedVideo info, .encodedVideo frame => info.Shows frame
  | _, _ => False

/-- What the Runtime says has a meaning. -/
def Known : NativeFrame → Prop
  | .audio info => info.Known
  | .video info => info.Known
  | .encodedAudio info => info.Known
  | .encodedVideo info => info.Known

/-- **The queue's mark is the frame's own**, and is about nothing else. -/
theorem event_marked (native : NativeFrame) :
    native.marked.event = (native.event.1, FrameValues.markDiscontinuity native.event.2) := by
  cases native <;> rfl

/-- A frame behind a gap has as much meaning. -/
theorem known_marked {native : NativeFrame} : native.marked.Known ↔ native.Known := by
  cases native <;> exact Iff.rfl

end NativeFrame

/-- **There is a record exactly when what the Runtime says has a meaning.** -/
theorem known_iff {native : NativeFrame} : (∃ f, native.Shows f) ↔ native.Known := by
  cases native with
  | audio info =>
      rw [NativeFrame.Known, ← audioKnown_iff]
      constructor
      · rintro ⟨f, h⟩
        cases f with
        | audio frame => exact ⟨frame, h⟩
        | _ => exact h.elim
      · rintro ⟨frame, h⟩
        exact ⟨.audio frame, h⟩
  | video info =>
      rw [NativeFrame.Known, ← videoKnown_iff]
      constructor
      · rintro ⟨f, h⟩
        cases f with
        | video frame => exact ⟨frame, h⟩
        | _ => exact h.elim
      · rintro ⟨frame, h⟩
        exact ⟨.video frame, h⟩
  | encodedAudio info =>
      rw [NativeFrame.Known, ← encodedAudioKnown_iff]
      constructor
      · rintro ⟨f, h⟩
        cases f with
        | encodedAudio frame => exact ⟨frame, h⟩
        | _ => exact h.elim
      · rintro ⟨frame, h⟩
        exact ⟨.encodedAudio frame, h⟩
  | encodedVideo info =>
      rw [NativeFrame.Known, ← encodedVideoKnown_iff]
      constructor
      · rintro ⟨f, h⟩
        cases f with
        | encodedVideo frame => exact ⟨frame, h⟩
        | _ => exact h.elim
      · rintro ⟨frame, h⟩
        exact ⟨.encodedVideo frame, h⟩

/-- What `_handle_event` of an Output makes of an event, if it is one of a frame.
Source: `_core.py`, `_OutputBase._handle_event` -/
def frame : EventKind → List FrameValue → Option (Except FrameError Frame)
  | .audioFrame, values => some ((audioFrame values).map .audio)
  | .videoFrame, values => some ((videoFrame values).map .video)
  | .encodedAudioFrame, values => some ((encodedAudioFrame values).map .encodedAudio)
  | .encodedVideoFrame, values => some ((encodedVideoFrame values).map .encodedVideo)
  | _, _ => none

/-- A record of one of the four kinds. -/
theorem map_eq_ok {ε α β : Type} {x : Except ε α} {f : α → β} {b : β} :
    x.map f = .ok b ↔ ∃ a, x = .ok a ∧ f a = b := by
  cases x with
  | ok a => simp [Except.map]
  | error e => simp [Except.map]

/-- **Of the event of a frame comes the record that shows it**, and none where there is none. -/
theorem frame_eq_ok (native : NativeFrame) :
    ∃ result, frame native.event.1 native.event.2 = some result ∧
      ∀ f, result = .ok f ↔ native.Shows f := by
  cases native with
  | audio info =>
      refine ⟨_, rfl, fun f => ?_⟩
      rw [map_eq_ok]
      simp only [NativeFrame.event, audioFrame_eq_ok]
      cases f <;> simp [NativeFrame.Shows]
  | video info =>
      refine ⟨_, rfl, fun f => ?_⟩
      rw [map_eq_ok]
      simp only [NativeFrame.event, videoFrame_eq_ok]
      cases f <;> simp [NativeFrame.Shows]
  | encodedAudio info =>
      refine ⟨_, rfl, fun f => ?_⟩
      rw [map_eq_ok]
      simp only [NativeFrame.event, encodedAudioFrame_eq_ok]
      cases f <;> simp [NativeFrame.Shows]
  | encodedVideo info =>
      refine ⟨_, rfl, fun f => ?_⟩
      rw [map_eq_ok]
      simp only [NativeFrame.event, encodedVideoFrame_eq_ok]
      cases f <;> simp [NativeFrame.Shows]

end Tirtc.FrameTuples
