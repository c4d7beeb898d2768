import Tirtc.Storage.TimeRanges
import Tirtc.Util.Arguments

/-!
# The numbers of a call, on their way to the Runtime

A method checks the Python objects of a caller, the extension converts them to numbers of C, some
without a check of its own and some through a cast to a narrower type, and the Runtime gets what is
left.

* `LongWidth`, `formatI` to `formatLong`: the conversions of `PyArg_ParseTuple`, with the casts
  behind them.
* `NativeRequest`, `pyConnSendCommand` and the others: what the extension asks of the Runtime.
* `Call`, `sendCommand` and the others, `submit`: the methods.
* `Asks`: what a call asks for, in its own numbers.
* `submitted_exactly`: the Runtime is asked for that, or nothing.

A call is here what it is called with. Whether the object is open, bound or busy, and whether the
process and the callback allow the call, its method looks at as well; that is no matter of the
arguments.
-/

set_option autoImplicit false

namespace Tirtc.Arguments

open Datetime Storage

/-! ## The conversions of the extension -/

/-- How wide a `long` is: 32 bits on Windows, 64 elsewhere. -/
inductive LongWidth
  | bits32 | bits64
  deriving DecidableEq, Repr

/-- Format `I`: the lowest bits of an integer, unchecked. -/
def formatI (value : ℤ) : UInt32 := .ofInt value

/-- Format `k` and the cast to `uint32_t`: the lowest bits of an integer, unchecked. -/
def formatK : LongWidth → ℤ → UInt32
  | .bits32, value => .ofInt value
  | .bits64, value => (UInt64.ofInt value).toUInt32

/-- Format `i` and the cast to `int32_t`. -/
def formatInt (value : ℤ) : Except ArgumentError Int32 :=
  if -2 ^ 31 ≤ value ∧ value < 2 ^ 31 then .ok (.ofInt value) else .error .overflowError

/-- Format `L`, or `PyLong_AsLongLong`. -/
def formatLongLong (value : ℤ) : Except ArgumentError Int64 :=
  if -2 ^ 63 ≤ value ∧ value < 2 ^ 63 then .ok (.ofInt value) else .error .overflowError

/-- Format `l`, or `PyLong_AsLong`, and the cast to 32 bits. -/
def formatLong : LongWidth → ℤ → Except ArgumentError Int32
  | .bits32, value => formatInt value
  | .bits64, value => (formatLongLong value).map Int64.toInt32

/-! ## The requests -/

/-- The operations on a stream of a Connection. -/
inductive StreamOperation
  | subscribeAudio | unsubscribeAudio | subscribeVideo | unsubscribeVideo | requestVideoKeyframe
  deriving DecidableEq, Repr

/-- Source: `extension.c`, `make_buffer_options` -/
structure BufferOptions where
  strategy : UInt32
  maxBufferWatermarkMs : Option Int32
  deriving DecidableEq

/-- What the Runtime gets beside the handles and the callbacks. -/
inductive NativeRequest
  | sendCommand (command : UInt32) (data : List UInt8)
  | sendStreamMessage (streamId : UInt8) (timestampMs : UInt32) (data : List UInt8)
  | streamOperation (operation : StreamOperation) (streamId : UInt8)
  | rtcRecording (video audio : Int32)
  | rtcRawDump (audio video : List UInt8)
  | attachRtc (streamId : UInt8)
  | audioOutput (agc ans : UInt32) (buffer : BufferOptions)
  | videoOutput (decoder : UInt32) (buffer : BufferOptions)
  | attachStorage (channelId : UInt8)
  | storageRecording (video audio : Int32)
  | storageRawDump (audio video : List UInt8)
  | play (start finish initial : Int64)
  | seek (target : Int64)
  | exportRecording (start finish : Int64) (video audio : Int32)
  | listRecordings (start finish : Int64)
  | errorName (code : Int32)
  deriving DecidableEq

variable (w : LongWidth)

/-- Source: `extension.c`, `py_conn_send_command` -/
def pyConnSendCommand (commandId : ℤ) (payload : List UInt8) : NativeRequest :=
  .sendCommand (formatK w commandId) payload

/-- Source: `extension.c`, `py_conn_send_message` -/
def pyConnSendMessage (streamId timestampMs : ℤ) (payload : List UInt8) : NativeRequest :=
  .sendStreamMessage (formatI streamId).toUInt8 (formatK w timestampMs) payload

/-- Source: `extension.c`, `py_conn_stream_operation` -/
def pyConnStreamOperation (operation : StreamOperation) (streamId : ℤ) : NativeRequest :=
  .streamOperation operation (formatI streamId).toUInt8

/-- Source: `extension.c`, `py_rtc_recording_start` -/
def pyRtcRecordingStart (video audio : ℤ) : Except ArgumentError NativeRequest := do
  return .rtcRecording (← formatInt video) (← formatInt audio)

/-- Source: `extension.c`, `py_storage_recording_start` -/
def pyStorageRecordingStart (video audio : ℤ) : Except ArgumentError NativeRequest := do
  return .storageRecording (← formatInt video) (← formatInt audio)

/-- Source: `extension.c`, `py_output_attach_rtc` -/
def pyOutputAttachRtc (streamId : ℤ) : NativeRequest := .attachRtc (formatI streamId).toUInt8

/-- Source: `extension.c`, `py_output_attach_storage` -/
def pyOutputAttachStorage (channelId : ℤ) : NativeRequest :=
  .attachStorage (formatI channelId).toUInt8

/-- Source: `extension.c`, `make_buffer_options`; `py_output_create` reads the watermark -/
def makeBufferOptions (strategy watermarkMs : ℤ) : Except ArgumentError BufferOptions := do
  let watermark ← formatLong w watermarkMs
  return ⟨formatI strategy, if watermarkMs ≥ 0 then some watermark else none⟩

/-- The branch of an Output for decoded audio. Source: `extension.c`, `py_output_create` -/
def pyAudioOutputCreate (agc ans strategy watermarkMs : ℤ) :
    Except ArgumentError NativeRequest := do
  return .audioOutput (formatI agc) (formatI ans) (← makeBufferOptions w strategy watermarkMs)

/-- The branch of an Output for decoded video. Source: `extension.c`, `py_output_create` -/
def pyVideoOutputCreate (decoder strategy watermarkMs : ℤ) :
    Except ArgumentError NativeRequest := do
  return .videoOutput (formatI decoder) (← makeBufferOptions w strategy watermarkMs)

/-- Source: `extension.c`, `py_replay_play` -/
def pyReplayPlay (start finish initial : ℤ) : Except ArgumentError NativeRequest := do
  return .play (← formatLongLong start) (← formatLongLong finish) (← formatLongLong initial)

/-- Source: `extension.c`, `py_replay_seek` -/
def pyReplaySeek (target : ℤ) : Except ArgumentError NativeRequest := do
  return .seek (← formatLongLong target)

/-- Source: `extension.c`, `py_export_create` -/
def pyExportCreate (start finish video audio : ℤ) : Except ArgumentError NativeRequest := do
  return .exportRecording (← formatLongLong start) (← formatLongLong finish) (← formatInt video)
    (← formatInt audio)

/-- The branch of the recordings. Source: `extension.c`, `py_storage_list_start` -/
def pyStorageListStart (start finish : ℤ) : Except ArgumentError NativeRequest := do
  return .listRecordings (← formatLongLong start) (← formatLongLong finish)

/-- Source: `extension.c`, `py_error_name` -/
def pyErrorName (code : ℤ) : Except ArgumentError NativeRequest := do
  return .errorName (← formatLong w code)

/-! ## The methods -/

/-- Source: `_values.py`, `AudioProcessingLevel` -/
inductive AudioProcessingLevel
  | disabled | low | medium | high
  deriving DecidableEq, Repr

/-- Source: `_values.py`, `VideoDecoderPreference` -/
inductive VideoDecoderPreference
  | auto | software | hardware
  deriving DecidableEq, Repr

/-- Source: `_values.py`, `OutputBufferStrategy` -/
inductive OutputBufferStrategy
  | automatic | noBuffer
  deriving DecidableEq, Repr

/-- `list(AudioProcessingLevel).index(level)` -/
def AudioProcessingLevel.index : AudioProcessingLevel → ℤ
  | .disabled => 0
  | .low => 1
  | .medium => 2
  | .high => 3

/-- `list(VideoDecoderPreference).index(preference)` -/
def VideoDecoderPreference.index : VideoDecoderPreference → ℤ
  | .auto => 0
  | .software => 1
  | .hardware => 2

/-- `list(OutputBufferStrategy).index(strategy)` -/
def OutputBufferStrategy.index : OutputBufferStrategy → ℤ
  | .automatic => 0
  | .noBuffer => 1

/-- The calls whose arguments go to the Runtime as numbers, as far as the arguments go. -/
inductive Call
  | sendCommand (commandId data : Argument)
  | sendStreamMessage (streamId timestamp data : Argument)
  | streamOperation (operation : StreamOperation) (streamId : Argument)
  | startRtcRecording (videoStreamId audioStreamId : Argument)
  | startRtcRawDump (audioStreamIds videoStreamIds : Argument)
  | attachRtc (streamId : Argument)
  | audioOutput (agcLevel ansLevel : AudioProcessingLevel) (strategy : OutputBufferStrategy)
      (maxBufferWatermark : Argument)
  | videoOutput (decoderPreference : VideoDecoderPreference) (strategy : OutputBufferStrategy)
      (maxBufferWatermark : Argument)
  | attachStorage (channelId : Argument)
  | startStorageRecording (videoChannelId audioChannelId : Argument)
  | startStorageRawDump (audioChannelIds videoChannelIds : Argument)
  | play (startTime endTime : Argument) (initialTime : Option Argument)
  | seek (target : Argument) (playbackRange : Option (ℤ × ℤ))
  | exportRecording (startTime endTime videoChannelId audioChannelId : Argument)
  | listRecordings (startTime endTime : Argument)
  | errorName (code : Argument)

/-- A second id that may be missing. -/
def optionalId (check : Argument → Except ArgumentError ℤ) : Argument → Except ArgumentError ℤ
  | .none => .ok (-1)
  | value => check value

/-- `bytes(ids)` of a tuple of integers. -/
def toBytes (ids : List ℤ) : Except ArgumentError (List UInt8) :=
  ids.mapM fun id =>
    if 0 ≤ id ∧ id < 256 then .ok (.ofInt id)
    else .error (.valueError "bytes must be in range(0, 256)")

/-- Source: `_core.py`, `Connection.send_command` -/
def sendCommand (commandId data : Argument) : Except ArgumentError NativeRequest := do
  let commandId ← integer commandId "command_id" 0x2001 (2 ^ 32 - 1)
  let payload ← buffer data
  return pyConnSendCommand w commandId payload

/-- Source: `_core.py`, `Connection.send_stream_message` -/
def sendStreamMessage (stream timestamp data : Argument) : Except ArgumentError NativeRequest := do
  let stream ← streamId stream
  let timestampMs ← duration timestamp "timestamp"
  if timestampMs < 0 ∨ timestampMs > 2 ^ 32 - 1 then
    .error (.valueError "timestamp is outside the supported range")
  else
    let payload ← buffer data
    return pyConnSendMessage w stream timestampMs payload

/-- Source: `_core.py`, `Connection.subscribe_audio` and the four below it -/
def streamOperation (operation : StreamOperation) (stream : Argument) :
    Except ArgumentError NativeRequest := do
  return pyConnStreamOperation operation (← streamId stream)

/-- Source: `_core.py`, `Connection.start_recording` -/
def startRtcRecording (videoStreamId audioStreamId : Argument) :
    Except ArgumentError NativeRequest := do
  let video ← streamId videoStreamId "video_stream_id"
  let audio ← optionalId (streamId · "audio_stream_id") audioStreamId
  if audio = video then
    .error (.valueError "audio_stream_id must differ from video_stream_id")
  else pyRtcRecordingStart video audio

/-- Source: `_core.py`, `Connection.start_raw_dump` with the options of these ids -/
def startRtcRawDump (audio video : Argument) : Except ArgumentError NativeRequest := do
  let options ← connectionDumpOptions audio video
  return .rtcRawDump (← toBytes options.1) (← toBytes options.2)

/-- Source: `_core.py`, `_OutputBase.attach` -/
def attachRtc (stream : Argument) : Except ArgumentError NativeRequest := do
  return pyOutputAttachRtc (← streamId stream)

/-- The watermark in milliseconds; -1 is none.
Source: `_core.py`, `_OutputBase._initialize_output` -/
def watermarkMs (maxBufferWatermark : Argument) : Except ArgumentError ℤ :=
  match maxBufferWatermark with
  | .none => .ok (-1)
  | value => do
      let ms ← duration value "buffer.max_buffer_watermark"
      if ms ≤ 0 ∨ ms > 2 ^ 31 - 1 then
        .error (.valueError "buffer.max_buffer_watermark must be positive")
      else .ok ms

/-- Source: `_core.py`, `AudioOutput.__init__` and `_OutputBase._initialize_output` -/
def audioOutput (agcLevel ansLevel : AudioProcessingLevel) (strategy : OutputBufferStrategy)
    (maxBufferWatermark : Argument) : Except ArgumentError NativeRequest := do
  let watermark ← watermarkMs maxBufferWatermark
  pyAudioOutputCreate w agcLevel.index ansLevel.index strategy.index watermark

/-- Source: `_core.py`, `VideoOutput.__init__` and `_OutputBase._initialize_output` -/
def videoOutput (decoderPreference : VideoDecoderPreference) (strategy : OutputBufferStrategy)
    (maxBufferWatermark : Argument) : Except ArgumentError NativeRequest := do
  let watermark ← watermarkMs maxBufferWatermark
  pyVideoOutputCreate w decoderPreference.index strategy.index watermark

/-- Source: `storage/__init__.py`, `_StorageOutputBase.attach` -/
def attachStorage (channel : Argument) : Except ArgumentError NativeRequest := do
  return pyOutputAttachStorage (← channelId channel)

/-- Source: `storage/__init__.py`, `Replay.start_recording`; here the two may be the same -/
def startStorageRecording (videoChannelId audioChannelId : Argument) :
    Except ArgumentError NativeRequest := do
  let video ← channelId videoChannelId "video_channel_id"
  let audio ← optionalId (channelId · "audio_channel_id") audioChannelId
  pyStorageRecordingStart video audio

/-- Source: `storage/__init__.py`, `Replay.start_raw_dump` with the options of these ids -/
def startStorageRawDump (audio video : Argument) : Except ArgumentError NativeRequest := do
  let options ← replayDumpOptions audio video
  return .storageRawDump (← toBytes options.1) (← toBytes options.2)

/-- Source: `storage/__init__.py`, `Replay.play` -/
def play (startTime endTime : Argument) (initialTime : Option Argument) :
    Except ArgumentError NativeRequest := do
  let range ← (playRange startTime.time endTime.time (initialTime.map Argument.time)).mapError
    .ofTime
  pyReplayPlay range.1.1 range.1.2 range.2

/-- Source: `storage/__init__.py`, `Replay.seek` -/
def seek (target : Argument) (playbackRange : Option (ℤ × ℤ)) :
    Except ArgumentError NativeRequest := do
  let targetMs ← (seekTarget target.time playbackRange).mapError .ofTime
  pyReplaySeek targetMs

/-- Source: `storage/__init__.py`, `CloudStorage.export_recording` -/
def exportRecording (startTime endTime videoChannelId audioChannelId : Argument) :
    Except ArgumentError NativeRequest := do
  let range ← (requestedRange startTime.time endTime.time).mapError .ofTime
  let video ← channelId videoChannelId "video_channel_id"
  let audio ← optionalId (channelId · "audio_channel_id") audioChannelId
  pyExportCreate range.1 range.2 video audio

/-- Source: `storage/__init__.py`, `CloudStorage.list_recordings` -/
def listRecordings (startTime endTime : Argument) : Except ArgumentError NativeRequest := do
  let range ← (requestedRange startTime.time endTime.time).mapError .ofTime
  pyStorageListStart range.1 range.2

/-- Source: `_core.py`, `error_name` -/
def errorName (code : Argument) : Except ArgumentError NativeRequest := do
  let code ← integer code "code" (-(2 ^ 31)) (2 ^ 31 - 1)
  pyErrorName w code

/-- **What a call comes to** by its arguments: a request of the Runtime, or an error before there is
one. -/
def submit : Call → Except ArgumentError NativeRequest
  | .sendCommand commandId data => sendCommand w commandId data
  | .sendStreamMessage stream timestamp data => sendStreamMessage w stream timestamp data
  | .streamOperation operation stream => streamOperation operation stream
  | .startRtcRecording video audio => startRtcRecording video audio
  | .startRtcRawDump audio video => startRtcRawDump audio video
  | .attachRtc stream => attachRtc stream
  | .audioOutput agc ans strategy watermark => audioOutput w agc ans strategy watermark
  | .videoOutput decoder strategy watermark => videoOutput w decoder strategy watermark
  | .attachStorage channel => attachStorage channel
  | .startStorageRecording video audio => startStorageRecording video audio
  | .startStorageRawDump audio video => startStorageRawDump audio video
  | .play start finish initial => play start finish initial
  | .seek target range => seek target range
  | .exportRecording start finish video audio => exportRecording start finish video audio
  | .listRecordings start finish => listRecordings start finish
  | .errorName code => errorName w code

/-! ## What a call asks for -/

/-- The object is an integer from `minimum` to `maximum`, and stands for `n`. -/
def IsInt (value : Argument) (minimum maximum n : ℤ) : Prop :=
  value = .int n ∧ minimum ≤ n ∧ n ≤ maximum

/-- The object is missing, and `n` is -1; or it is an integer in the range. -/
def IsOptionalInt (value : Argument) (minimum maximum n : ℤ) : Prop :=
  (value = .none ∧ n = -1) ∨ IsInt value minimum maximum n

/-- The object is a duration of `n` whole milliseconds. -/
def IsDuration (value : Argument) (n : ℤ) : Prop :=
  ∃ d, value = .timedelta d ∧ d.total = n * 1000

/-- The object is a datetime at `n` whole milliseconds after the epoch. -/
def IsTime (value : Argument) (n : ℤ) : Prop := TimeAt value.time n

/-- The bytes are the ids of the object, each once, in the order of their first occurrences. -/
def IsSelection (value : Argument) (maximum : ℤ) (ids : List UInt8) : Prop :=
  Selects value maximum (ids.map fun id => (id.toNat : ℤ))

/-- The object is missing, and there is no watermark; or it is a duration from 1 millisecond to
2147483647 milliseconds. -/
def IsWatermark (value : Argument) : Option Int32 → Prop
  | none => value = .none
  | some ms => IsDuration value ms.toInt ∧ 0 < ms.toInt

/-- **What a call asks for**: the numbers of the request are those of the call. -/
def Asks : Call → NativeRequest → Prop
  | .sendCommand commandId data, .sendCommand command bytes =>
      IsInt commandId 0x2001 (2 ^ 32 - 1) command.toNat ∧ Bytes data bytes
  | .sendStreamMessage stream timestamp data, .sendStreamMessage streamId timestampMs bytes =>
      IsInt stream 0 15 streamId.toNat ∧ IsDuration timestamp timestampMs.toNat ∧
        Bytes data bytes
  | .streamOperation operation stream, .streamOperation operation' streamId =>
      operation' = operation ∧ IsInt stream 0 15 streamId.toNat
  | .startRtcRecording video audio, .rtcRecording v a =>
      IsInt video 0 15 v.toInt ∧ IsOptionalInt audio 0 15 a.toInt ∧ a ≠ v
  | .startRtcRawDump audio video, .rtcRawDump a v =>
      IsSelection audio 15 a ∧ IsSelection video 15 v ∧ (a ≠ [] ∨ v ≠ [])
  | .attachRtc stream, .attachRtc streamId => IsInt stream 0 15 streamId.toNat
  | .audioOutput agc ans strategy watermark, .audioOutput agc' ans' options =>
      agc'.toNat = agc.index ∧ ans'.toNat = ans.index ∧
        options.strategy.toNat = strategy.index ∧
        IsWatermark watermark options.maxBufferWatermarkMs
  | .videoOutput decoder strategy watermark, .videoOutput decoder' options =>
      decoder'.toNat = decoder.index ∧ options.strategy.toNat = strategy.index ∧
        IsWatermark watermark options.maxBufferWatermarkMs
  | .attachStorage channel, .attachStorage channelId => IsInt channel 0 255 channelId.toNat
  | .startStorageRecording video audio, .storageRecording v a =>
      IsInt video 0 255 v.toInt ∧ IsOptionalInt audio 0 255 a.toInt
  | .startStorageRawDump audio video, .storageRawDump a v =>
      IsSelection audio 255 a ∧ IsSelection video 255 v ∧ (a ≠ [] ∨ v ≠ [])
  | .play start finish initial, .play s f i =>
      IsTime start s.toInt ∧ IsTime finish f.toInt ∧ s.toInt ≤ i.toInt ∧ i.toInt < f.toInt ∧
        (initial = none → i = s) ∧ ∀ value, initial = some value → IsTime value i.toInt
  | .seek target range, .seek t =>
      IsTime target t.toInt ∧
        ∀ start finish, range = some (start, finish) → start ≤ t.toInt ∧ t.toInt < finish
  | .exportRecording start finish video audio, .exportRecording s f v a =>
      IsTime start s.toInt ∧ IsTime finish f.toInt ∧ s.toInt < f.toInt ∧
        IsInt video 0 255 v.toInt ∧ IsOptionalInt audio 0 255 a.toInt
  | .listRecordings start finish, .listRecordings s f =>
      IsTime start s.toInt ∧ IsTime finish f.toInt ∧ s.toInt < f.toInt
  | .errorName code, .errorName c => IsInt code (-(2 ^ 31)) (2 ^ 31 - 1) c.toInt
  | _, _ => False

end Tirtc.Arguments
