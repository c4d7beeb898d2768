import Tirtc.Native.Requests

/-!
# No number is cut on its way to the Runtime

The casts of the extension keep the lowest bits of whatever they get. What they get has passed the
checks of the methods, and so they keep all of it.

* `formatK_eq`, `formatI_toUInt8_eq`, `formatInt_eq_ok` and the others: each conversion, on what
  comes to it.
* `sendCommand_eq_ok` and the others: each method.
* `submitted_exactly`: all of them.
-/

set_option autoImplicit false

namespace Tirtc.Arguments

open Datetime Results Storage

/-! ## The conversions -/

/-- An unsigned conversion keeps what fits. -/
theorem toNat_ofInt {v : ℤ} (hlo : 0 ≤ v) (hhi : v < 2 ^ 32) :
    ((UInt32.ofInt v).toNat : ℤ) = v := by
  have hmod : (v % 2 ^ 32).toNat < 2 ^ 32 := by omega
  simp only [UInt32.ofInt, UInt32.toNat_ofNat', Nat.mod_eq_of_lt hmod]
  omega

/-- So it does through 64 bits. -/
theorem toNat_ofInt_toUInt32 {v : ℤ} (hlo : 0 ≤ v) (hhi : v < 2 ^ 32) :
    (((UInt64.ofInt v).toUInt32).toNat : ℤ) = v := by
  have hmod : (v % 2 ^ 64).toNat < 2 ^ 64 := by omega
  simp only [UInt64.ofInt, UInt64.toNat_toUInt32, UInt64.toNat_ofNat', Nat.mod_eq_of_lt hmod]
  omega

/-- **`k` and its cast**, whatever the width of a `long`. -/
theorem formatK_eq {w : LongWidth} {v : ℤ} {n : UInt32} (hlo : 0 ≤ v) (hhi : v < 2 ^ 32) :
    formatK w v = n ↔ v = n.toNat := by
  have hkept : ((formatK w v).toNat : ℤ) = v := by
    cases w with
    | bits32 => exact toNat_ofInt hlo hhi
    | bits64 => exact toNat_ofInt_toUInt32 hlo hhi
  constructor
  · rintro rfl
    exact hkept.symm
  · intro h
    apply UInt32.toNat_inj.mp
    omega

/-- **`I`** -/
theorem formatI_eq {v : ℤ} {n : UInt32} (hlo : 0 ≤ v) (hhi : v < 2 ^ 32) :
    formatI v = n ↔ v = n.toNat :=
  formatK_eq (w := .bits32) hlo hhi

/-- **`I` and the cast to a byte.** -/
theorem formatI_toUInt8_eq {v : ℤ} {n : UInt8} (hlo : 0 ≤ v) (hhi : v ≤ 255) :
    (formatI v).toUInt8 = n ↔ v = n.toNat := by
  have hkept : ((formatI v).toNat : ℤ) = v := toNat_ofInt hlo (by omega)
  constructor
  · rintro rfl
    rw [UInt32.toNat_toUInt8]
    omega
  · intro h
    apply UInt8.toNat_inj.mp
    rw [UInt32.toNat_toUInt8]
    omega

/-- **`i`** takes what fits, and nothing else. -/
theorem formatInt_eq_ok {v : ℤ} {n : Int32} : formatInt v = .ok n ↔ v = n.toInt := by
  unfold formatInt
  constructor
  · intro h
    split at h
    next hfits =>
      cases h
      exact (Int32.toInt_ofInt_of_le hfits.1 hfits.2).symm
    next => cases h
  · rintro rfl
    rw [if_pos ⟨n.le_toInt, n.toInt_lt⟩, Int32.ofInt_toInt]

/-- **`L`** takes what fits, and nothing else. -/
theorem formatLongLong_eq_ok {v : ℤ} {n : Int64} : formatLongLong v = .ok n ↔ v = n.toInt := by
  unfold formatLongLong
  constructor
  · intro h
    split at h
    next hfits =>
      cases h
      exact (Int64.toInt_ofInt_of_le hfits.1 hfits.2).symm
    next => cases h
  · rintro rfl
    rw [if_pos ⟨n.le_toInt, n.toInt_lt⟩, Int64.ofInt_toInt]

/-- **`l` and its cast**, whatever the width of a `long`. -/
theorem formatLong_eq_ok {w : LongWidth} {v : ℤ} {n : Int32} (hlo : -2 ^ 31 ≤ v)
    (hhi : v < 2 ^ 31) : formatLong w v = .ok n ↔ v = n.toInt := by
  cases w with
  | bits32 => exact formatInt_eq_ok
  | bits64 =>
      have hwide : formatLongLong v = .ok (.ofInt v) := by
        rw [formatLongLong, if_pos ⟨by omega, by omega⟩]
      have hnarrow : (Int64.ofInt v).toInt32 = Int32.ofInt v := by
        apply Int32.toInt_inj.mp
        rw [Int64.toInt_toInt32, Int64.toInt_ofInt_of_le (by omega) (by omega),
          Int32.toInt_ofInt]
      rw [formatLong, hwide, Except.map, hnarrow, ← formatInt_eq_ok, formatInt,
        if_pos ⟨hlo, hhi⟩]

/-! ## The checks in front of them -/

/-- The id of a stream. -/
theorem streamId_eq_ok {value : Argument} {name : String} {n : ℤ} :
    streamId value name = .ok n ↔ IsInt value 0 15 n :=
  integer_eq_ok

/-- The id of a channel. -/
theorem channelId_eq_ok {value : Argument} {name : String} {n : ℤ} :
    channelId value name = .ok n ↔ IsInt value 0 255 n :=
  integer_eq_ok

/-- A second id that may be missing. -/
theorem optionalId_eq_ok {check : Argument → Except ArgumentError ℤ} {value : Argument}
    {maximum n : ℤ} (hcheck : ∀ v, check value = .ok v ↔ IsInt value 0 maximum v) :
    optionalId check value = .ok n ↔ IsOptionalInt value 0 maximum n := by
  cases value with
  | none =>
      constructor
      · intro h
        cases h
        exact .inl ⟨rfl, rfl⟩
      · rintro (⟨-, rfl⟩ | ⟨hn, -⟩)
        · rfl
        · cases hn
  | _ =>
      rw [optionalId, hcheck n]
      · simp [IsOptionalInt]
      · simp

theorem optionalStream_eq_ok {value : Argument} {name : String} {n : ℤ} :
    optionalId (streamId · name) value = .ok n ↔ IsOptionalInt value 0 15 n :=
  optionalId_eq_ok fun _ => streamId_eq_ok

theorem optionalChannel_eq_ok {value : Argument} {name : String} {n : ℤ} :
    optionalId (channelId · name) value = .ok n ↔ IsOptionalInt value 0 255 n :=
  optionalId_eq_ok fun _ => channelId_eq_ok

/-- An error of another kind is an error. -/
theorem mapError_eq_ok {α : Type} {x : Except TimeError α} {a : α} :
    x.mapError ArgumentError.ofTime = .ok a ↔ x = .ok a := by
  cases x with
  | ok b => simp [Except.mapError]
  | error e => simp [Except.mapError]

/-- The ids of a selection are its bytes. -/
theorem toBytes_eq_ok {ids : List ℤ} {bytes : List UInt8} :
    toBytes ids = .ok bytes ↔ ids = bytes.map fun byte => (byte.toNat : ℤ) := by
  unfold toBytes
  induction ids generalizing bytes with
  | nil => cases bytes <;> simp [pure, Except.pure]
  | cons id rest ih =>
      rw [List.mapM_cons, bind_eq_ok]
      constructor
      · rintro ⟨byte, hbyte, h⟩
        obtain ⟨bytes', hbytes, h⟩ := bind_eq_ok.mp h
        cases h
        split at hbyte
        next hrange =>
          cases hbyte
          have hmod : (id % 2 ^ 8).toNat < 2 ^ 8 := by omega
          have hid : ((UInt8.ofInt id).toNat : ℤ) = id := by
            simp only [UInt8.ofInt, UInt8.toNat_ofNat', Nat.mod_eq_of_lt hmod]
            omega
          rw [List.map_cons, hid, ← ih.mp hbytes]
        next => cases hbyte
      · intro h
        cases bytes with
        | nil => cases h
        | cons byte bytes' =>
            rw [List.map_cons, List.cons.injEq] at h
            obtain ⟨rfl, hrest⟩ := h
            have hlt := byte.toNat_lt
            refine ⟨byte, ?_, bind_eq_ok.mpr ⟨bytes', ih.mpr hrest, rfl⟩⟩
            rw [if_pos ⟨by omega, by omega⟩]
            congr 1
            apply UInt8.toNat_inj.mp
            have hmod : ((byte.toNat : ℤ) % 2 ^ 8).toNat < 2 ^ 8 := by omega
            simp only [UInt8.ofInt, UInt8.toNat_ofNat', Nat.mod_eq_of_lt hmod]
            omega

/-! ## The methods -/

variable {w : LongWidth} {r : NativeRequest}

theorem sendCommand_eq_ok {commandId data : Argument} :
    sendCommand w commandId data = .ok r ↔ Asks (.sendCommand commandId data) r := by
  simp only [sendCommand, bind_eq_ok, integer_eq_ok, buffer_eq_ok]
  constructor
  · rintro ⟨id, ⟨hid, hlo, hhi⟩, bytes, hbytes, h⟩
    cases h
    have hkept := (formatK_eq (w := w) (by omega) (by omega)).mp (rfl : formatK w id = _)
    refine ⟨?_, hbytes⟩
    rw [← hkept]
    exact ⟨hid, hlo, hhi⟩
  · intro h
    cases r with
    | sendCommand command bytes =>
        obtain ⟨⟨hid, hlo, hhi⟩, hbytes⟩ := h
        refine ⟨_, ⟨hid, hlo, hhi⟩, bytes, hbytes, ?_⟩
        rw [pyConnSendCommand, (formatK_eq (by omega) (by omega)).mpr rfl]
        rfl
    | _ => exact h.elim

theorem sendStreamMessage_eq_ok {stream timestamp data : Argument} :
    sendStreamMessage w stream timestamp data = .ok r ↔
      Asks (.sendStreamMessage stream timestamp data) r := by
  simp only [sendStreamMessage, streamId, bind_eq_ok, integer_eq_ok, duration_eq_ok]
  constructor
  · rintro ⟨id, ⟨hid, hlo, hhi⟩, ms, hms, h⟩
    split at h
    · cases h
    next hrange =>
      obtain ⟨bytes, hbytes, h⟩ := bind_eq_ok.mp h
      cases h
      have hid' := (formatI_toUInt8_eq (by omega) (by omega)).mp (rfl : (formatI id).toUInt8 = _)
      have hms' := (formatK_eq (w := w) (by omega) (by omega)).mp (rfl : formatK w ms = _)
      refine ⟨?_, ?_, buffer_eq_ok.mp hbytes⟩
      · rw [← hid']
        exact ⟨hid, hlo, hhi⟩
      · rw [← hms']
        exact hms
  · intro h
    cases r with
    | sendStreamMessage streamId timestampMs bytes =>
        obtain ⟨⟨hid, hlo, hhi⟩, hms, hbytes⟩ := h
        have hlt := timestampMs.toNat_lt
        refine ⟨_, ⟨hid, hlo, hhi⟩, _, hms, ?_⟩
        rw [if_neg (by omega)]
        refine bind_eq_ok.mpr ⟨bytes, buffer_eq_ok.mpr hbytes, ?_⟩
        rw [pyConnSendMessage, (formatI_toUInt8_eq (by omega) (by omega)).mpr rfl,
          (formatK_eq (by omega) (by omega)).mpr rfl]
        rfl
    | _ => exact h.elim

theorem streamOperation_eq_ok {operation : StreamOperation} {stream : Argument} :
    streamOperation operation stream = .ok r ↔ Asks (.streamOperation operation stream) r := by
  simp only [streamOperation, streamId, bind_eq_ok, integer_eq_ok]
  constructor
  · rintro ⟨id, ⟨hid, hlo, hhi⟩, h⟩
    cases h
    have hkept := (formatI_toUInt8_eq (by omega) (by omega)).mp (rfl : (formatI id).toUInt8 = _)
    refine ⟨rfl, ?_⟩
    rw [← hkept]
    exact ⟨hid, hlo, hhi⟩
  · intro h
    cases r with
    | streamOperation operation' streamId =>
        obtain ⟨rfl, hid, hlo, hhi⟩ := h
        refine ⟨_, ⟨hid, hlo, hhi⟩, ?_⟩
        rw [pyConnStreamOperation, (formatI_toUInt8_eq (by omega) (by omega)).mpr rfl]
        rfl
    | _ => exact h.elim

theorem attachRtc_eq_ok {stream : Argument} :
    attachRtc stream = .ok r ↔ Asks (.attachRtc stream) r := by
  simp only [attachRtc, streamId, bind_eq_ok, integer_eq_ok]
  constructor
  · rintro ⟨id, ⟨hid, hlo, hhi⟩, h⟩
    cases h
    have hkept := (formatI_toUInt8_eq (by omega) (by omega)).mp (rfl : (formatI id).toUInt8 = _)
    show IsInt stream 0 15 _
    rw [← hkept]
    exact ⟨hid, hlo, hhi⟩
  · intro h
    cases r with
    | attachRtc streamId =>
        obtain ⟨hid, hlo, hhi⟩ := h
        refine ⟨_, ⟨hid, hlo, hhi⟩, ?_⟩
        rw [pyOutputAttachRtc, (formatI_toUInt8_eq (by omega) (by omega)).mpr rfl]
        rfl
    | _ => exact h.elim

theorem attachStorage_eq_ok {channel : Argument} :
    attachStorage channel = .ok r ↔ Asks (.attachStorage channel) r := by
  simp only [attachStorage, channelId, bind_eq_ok, integer_eq_ok]
  constructor
  · rintro ⟨id, ⟨hid, hlo, hhi⟩, h⟩
    cases h
    have hkept := (formatI_toUInt8_eq (by omega) (by omega)).mp (rfl : (formatI id).toUInt8 = _)
    show IsInt channel 0 255 _
    rw [← hkept]
    exact ⟨hid, hlo, hhi⟩
  · intro h
    cases r with
    | attachStorage channelId =>
        obtain ⟨hid, hlo, hhi⟩ := h
        refine ⟨_, ⟨hid, hlo, hhi⟩, ?_⟩
        rw [pyOutputAttachStorage, (formatI_toUInt8_eq (by omega) (by omega)).mpr rfl]
        rfl
    | _ => exact h.elim

theorem startRtcRecording_eq_ok {video audio : Argument} :
    startRtcRecording video audio = .ok r ↔ Asks (.startRtcRecording video audio) r := by
  simp only [startRtcRecording, bind_eq_ok, streamId_eq_ok, optionalStream_eq_ok]
  constructor
  · rintro ⟨v, hv, a, ha, h⟩
    split at h
    · cases h
    next hdiffer =>
      simp only [pyRtcRecordingStart, bind_eq_ok, formatInt_eq_ok] at h
      obtain ⟨v', rfl, a', rfl, h⟩ := h
      cases h
      exact ⟨hv, ha, fun h => hdiffer (congrArg Int32.toInt h)⟩
  · intro h
    cases r with
    | rtcRecording v a =>
        obtain ⟨hv, ha, hdiffer⟩ := h
        refine ⟨_, hv, _, ha, ?_⟩
        rw [if_neg fun h => hdiffer (Int32.toInt_inj.mp h)]
        simp only [pyRtcRecordingStart, bind_eq_ok, formatInt_eq_ok]
        exact ⟨v, rfl, a, rfl, rfl⟩
    | _ => exact h.elim

theorem startStorageRecording_eq_ok {video audio : Argument} :
    startStorageRecording video audio = .ok r ↔ Asks (.startStorageRecording video audio) r := by
  simp only [startStorageRecording, pyStorageRecordingStart, bind_eq_ok, channelId_eq_ok,
    optionalChannel_eq_ok, formatInt_eq_ok]
  constructor
  · rintro ⟨_, hv, _, ha, v, rfl, a, rfl, h⟩
    cases h
    exact ⟨hv, ha⟩
  · intro h
    cases r with
    | storageRecording v a => exact ⟨_, h.1, _, h.2, v, rfl, a, rfl, rfl⟩
    | _ => exact h.elim

theorem startRtcRawDump_eq_ok {audio video : Argument} :
    startRtcRawDump audio video = .ok r ↔ Asks (.startRtcRawDump audio video) r := by
  simp only [startRtcRawDump, connectionDumpOptions, bind_eq_ok, rawDumpOptions_eq_ok,
    toBytes_eq_ok]
  constructor
  · rintro ⟨⟨_, _⟩, ⟨ha, hv, hsome⟩, a, rfl, v, rfl, h⟩
    cases h
    exact ⟨ha, hv, by simpa using hsome⟩
  · intro h
    cases r with
    | rtcRawDump a v =>
        obtain ⟨ha, hv, hsome⟩ := h
        exact ⟨(_, _), ⟨ha, hv, by simpa using hsome⟩, a, rfl, v, rfl, rfl⟩
    | _ => exact h.elim

theorem startStorageRawDump_eq_ok {audio video : Argument} :
    startStorageRawDump audio video = .ok r ↔ Asks (.startStorageRawDump audio video) r := by
  simp only [startStorageRawDump, replayDumpOptions, bind_eq_ok, rawDumpOptions_eq_ok,
    toBytes_eq_ok]
  constructor
  · rintro ⟨⟨_, _⟩, ⟨ha, hv, hsome⟩, a, rfl, v, rfl, h⟩
    cases h
    exact ⟨ha, hv, by simpa using hsome⟩
  · intro h
    cases r with
    | storageRawDump a v =>
        obtain ⟨ha, hv, hsome⟩ := h
        exact ⟨(_, _), ⟨ha, hv, by simpa using hsome⟩, a, rfl, v, rfl, rfl⟩
    | _ => exact h.elim

/-- **The watermark of an Output**, as the Runtime gets it. -/
theorem bufferOptions_eq_ok {watermark : Argument} {strategy : ℤ} {options : BufferOptions}
    (hstrategy : 0 ≤ strategy ∧ strategy < 2 ^ 32) :
    (watermarkMs watermark >>= fun ms => makeBufferOptions w strategy ms) = .ok options ↔
      options.strategy.toNat = strategy ∧
        IsWatermark watermark options.maxBufferWatermarkMs := by
  have hmake : ∀ ms, -1 ≤ ms → ms < 2 ^ 31 → (makeBufferOptions w strategy ms = .ok options ↔
      options.strategy.toNat = strategy ∧ ∃ n : Int32, ms = n.toInt ∧
        options.maxBufferWatermarkMs = if ms ≥ 0 then some n else none) := by
    intro ms hlo hhi
    simp only [makeBufferOptions, bind_eq_ok, formatLong_eq_ok (w := w) (v := ms) (by omega) hhi]
    constructor
    · rintro ⟨n, hn, h⟩
      cases h
      exact ⟨((formatI_eq hstrategy.1 hstrategy.2).mp rfl).symm, n, hn, rfl⟩
    · rintro ⟨hs, n, hn, hwatermark⟩
      refine ⟨n, hn, ?_⟩
      rw [(formatI_eq hstrategy.1 hstrategy.2).mpr hs.symm, ← hwatermark]
      rfl
  rw [bind_eq_ok]
  cases watermark with
  | none =>
      constructor
      · rintro ⟨ms, hms, h⟩
        cases hms
        obtain ⟨hs, n, -, hnone⟩ := (hmake (-1) (by omega) (by omega)).mp h
        exact ⟨hs, by rw [hnone]; rfl⟩
      · rintro ⟨hs, hwatermark⟩
        refine ⟨-1, rfl, (hmake (-1) (by omega) (by omega)).mpr ⟨hs, -1, rfl, ?_⟩⟩
        cases hoptions : options.maxBufferWatermarkMs with
        | none => rfl
        | some ms =>
            rw [hoptions] at hwatermark
            obtain ⟨⟨d, hd, -⟩, -⟩ := hwatermark
            cases hd
  | _ =>
      simp only [watermarkMs, bind_eq_ok, duration_eq_ok]
      constructor
      · rintro ⟨ms, ⟨ms', hms, hrange⟩, h⟩
        split at hrange
        · cases hrange
        next hin =>
          cases hrange
          obtain ⟨hs, n, rfl, hsome⟩ := (hmake ms (by omega) (by omega)).mp h
          rw [if_pos (by omega)] at hsome
          exact ⟨hs, by rw [hsome]; exact ⟨hms, by omega⟩⟩
      · rintro ⟨hs, hwatermark⟩
        cases hoptions : options.maxBufferWatermarkMs with
        | none =>
            rw [hoptions] at hwatermark
            cases hwatermark
        | some n =>
            rw [hoptions] at hwatermark
            obtain ⟨hms, hpos⟩ := hwatermark
            have hlt := n.toInt_lt
            refine ⟨n.toInt, ⟨n.toInt, hms, if_neg (by omega)⟩,
              (hmake n.toInt (by omega) (by omega)).mpr ⟨hs, n, rfl, ?_⟩⟩
            rw [hoptions, if_pos (by omega)]

theorem audioOutput_eq_ok {agc ans : AudioProcessingLevel} {strategy : OutputBufferStrategy}
    {watermark : Argument} :
    audioOutput w agc ans strategy watermark = .ok r ↔
      Asks (.audioOutput agc ans strategy watermark) r := by
  have hlevel : ∀ (level : AudioProcessingLevel) (n : UInt32),
      formatI level.index = n ↔ n.toNat = level.index := by
    intro level n
    rw [formatI_eq (by cases level <;> decide) (by cases level <;> decide), eq_comm]
  have hstrategy : 0 ≤ strategy.index ∧ strategy.index < 2 ^ 32 := by
    cases strategy <;> decide
  have hread : audioOutput w agc ans strategy watermark =
      ((watermarkMs watermark >>= fun ms => makeBufferOptions w strategy.index ms) >>=
        fun options => .ok (.audioOutput (formatI agc.index) (formatI ans.index) options)) := by
    unfold audioOutput pyAudioOutputCreate
    cases watermarkMs watermark <;> rfl
  rw [hread, bind_eq_ok]
  constructor
  · rintro ⟨options, hoptions, h⟩
    cases h
    obtain ⟨hs, hwatermark⟩ := (bufferOptions_eq_ok hstrategy).mp hoptions
    exact ⟨(hlevel agc _).mp rfl, (hlevel ans _).mp rfl, hs, hwatermark⟩
  · intro h
    cases r with
    | audioOutput agc' ans' options =>
        obtain ⟨hagc, hans, hs, hwatermark⟩ := h
        refine ⟨options, (bufferOptions_eq_ok hstrategy).mpr ⟨hs, hwatermark⟩, ?_⟩
        rw [(hlevel agc agc').mpr hagc, (hlevel ans ans').mpr hans]
    | _ => exact h.elim

theorem videoOutput_eq_ok {decoder : VideoDecoderPreference} {strategy : OutputBufferStrategy}
    {watermark : Argument} :
    videoOutput w decoder strategy watermark = .ok r ↔
      Asks (.videoOutput decoder strategy watermark) r := by
  have hdecoder : ∀ n : UInt32, formatI decoder.index = n ↔ n.toNat = decoder.index := by
    intro n
    rw [formatI_eq (by cases decoder <;> decide) (by cases decoder <;> decide), eq_comm]
  have hstrategy : 0 ≤ strategy.index ∧ strategy.index < 2 ^ 32 := by
    cases strategy <;> decide
  have hread : videoOutput w decoder strategy watermark =
      ((watermarkMs watermark >>= fun ms => makeBufferOptions w strategy.index ms) >>=
        fun options => .ok (.videoOutput (formatI decoder.index) options)) := by
    unfold videoOutput pyVideoOutputCreate
    cases watermarkMs watermark <;> rfl
  rw [hread, bind_eq_ok]
  constructor
  · rintro ⟨options, hoptions, h⟩
    cases h
    obtain ⟨hs, hwatermark⟩ := (bufferOptions_eq_ok hstrategy).mp hoptions
    exact ⟨(hdecoder _).mp rfl, hs, hwatermark⟩
  · intro h
    cases r with
    | videoOutput decoder' options =>
        obtain ⟨hd, hs, hwatermark⟩ := h
        refine ⟨options, (bufferOptions_eq_ok hstrategy).mpr ⟨hs, hwatermark⟩, ?_⟩
        rw [(hdecoder decoder').mpr hd]
    | _ => exact h.elim

theorem play_eq_ok {startTime endTime : Argument} {initialTime : Option Argument} :
    play startTime endTime initialTime = .ok r ↔ Asks (.play startTime endTime initialTime) r := by
  simp only [play, pyReplayPlay, bind_eq_ok, mapError_eq_ok, formatLongLong_eq_ok]
  constructor
  · rintro ⟨⟨⟨_, _⟩, _⟩, hplay, s, rfl, f, rfl, i, rfl, h⟩
    cases h
    obtain ⟨hs, hf, hle, hlt, hinitial⟩ := playRange_eq_ok.mp hplay
    refine ⟨hs, hf, hle, hlt, ?_, ?_⟩
    · rintro rfl
      exact Int64.toInt_inj.mp hinitial
    · rintro value rfl
      exact hinitial
  · intro h
    cases r with
    | play s f i =>
        obtain ⟨hs, hf, hle, hlt, hnone, hsome⟩ := h
        refine ⟨((s.toInt, f.toInt), i.toInt), playRange_eq_ok.mpr ⟨hs, hf, hle, hlt, ?_⟩,
          s, rfl, f, rfl, i, rfl, rfl⟩
        cases initialTime with
        | none => exact congrArg Int64.toInt (hnone rfl)
        | some value => exact hsome value rfl
    | _ => exact h.elim

theorem seek_eq_ok {target : Argument} {range : Option (ℤ × ℤ)} :
    seek target range = .ok r ↔ Asks (.seek target range) r := by
  simp only [seek, pyReplaySeek, bind_eq_ok, mapError_eq_ok, formatLongLong_eq_ok, seekTarget_eq_ok]
  constructor
  · rintro ⟨_, hseek, t, rfl, h⟩
    cases h
    exact hseek
  · intro h
    cases r with
    | seek t => exact ⟨_, h, t, rfl, rfl⟩
    | _ => exact h.elim

theorem exportRecording_eq_ok {startTime endTime video audio : Argument} :
    exportRecording startTime endTime video audio = .ok r ↔
      Asks (.exportRecording startTime endTime video audio) r := by
  simp only [exportRecording, pyExportCreate, bind_eq_ok, mapError_eq_ok, channelId_eq_ok,
    optionalChannel_eq_ok, formatLongLong_eq_ok, formatInt_eq_ok]
  constructor
  · rintro ⟨⟨_, _⟩, hrange, _, hv, _, ha, s, rfl, f, rfl, v, rfl, a, rfl, h⟩
    cases h
    obtain ⟨hs, hf, hlt⟩ := requestedRange_eq_ok.mp hrange
    exact ⟨hs, hf, hlt, hv, ha⟩
  · intro h
    cases r with
    | exportRecording s f v a =>
        obtain ⟨hs, hf, hlt, hv, ha⟩ := h
        exact ⟨(s.toInt, f.toInt), requestedRange_eq_ok.mpr ⟨hs, hf, hlt⟩, _, hv, _, ha, s, rfl, f,
          rfl, v, rfl, a, rfl, rfl⟩
    | _ => exact h.elim

theorem listRecordings_eq_ok {startTime endTime : Argument} :
    listRecordings startTime endTime = .ok r ↔ Asks (.listRecordings startTime endTime) r := by
  simp only [listRecordings, pyStorageListStart, bind_eq_ok, mapError_eq_ok, formatLongLong_eq_ok]
  constructor
  · rintro ⟨⟨_, _⟩, hrange, s, rfl, f, rfl, h⟩
    cases h
    exact requestedRange_eq_ok.mp hrange
  · intro h
    cases r with
    | listRecordings s f =>
        exact ⟨(s.toInt, f.toInt), requestedRange_eq_ok.mpr h, s, rfl, f, rfl, rfl⟩
    | _ => exact h.elim

theorem errorName_eq_ok {code : Argument} :
    errorName w code = .ok r ↔ Asks (.errorName code) r := by
  simp only [errorName, pyErrorName, bind_eq_ok, integer_eq_ok]
  constructor
  · rintro ⟨v, ⟨hv, hlo, hhi⟩, n, hn, h⟩
    cases h
    obtain rfl := (formatLong_eq_ok (by omega) (by omega)).mp hn
    exact ⟨hv, hlo, hhi⟩
  · intro h
    cases r with
    | errorName n =>
        obtain ⟨hv, hlo, hhi⟩ := h
        exact ⟨_, ⟨hv, hlo, hhi⟩, n, (formatLong_eq_ok (by omega) (by omega)).mpr rfl, rfl⟩
    | _ => exact h.elim

/-- **The Runtime is asked for what the call asks for, or for nothing**: whatever Python objects a
method is called with, and however wide a `long` is, they come to a request exactly when each object
is of its type and in its range, and then every number of the request is the one of the call, the
bytes are those of the buffer, and the ids of a selection stand there once, in order. -/
theorem submitted_exactly (w : LongWidth) (call : Call) (r : NativeRequest) :
    submit w call = .ok r ↔ Asks call r := by
  cases call with
  | sendCommand commandId data => exact sendCommand_eq_ok
  | sendStreamMessage stream timestamp data => exact sendStreamMessage_eq_ok
  | streamOperation operation stream => exact streamOperation_eq_ok
  | startRtcRecording video audio => exact startRtcRecording_eq_ok
  | startRtcRawDump audio video => exact startRtcRawDump_eq_ok
  | attachRtc stream => exact attachRtc_eq_ok
  | audioOutput agc ans strategy watermark => exact audioOutput_eq_ok
  | videoOutput decoder strategy watermark => exact videoOutput_eq_ok
  | attachStorage channel => exact attachStorage_eq_ok
  | startStorageRecording video audio => exact startStorageRecording_eq_ok
  | startStorageRawDump audio video => exact startStorageRawDump_eq_ok
  | play start finish initial => exact play_eq_ok
  | seek target range => exact seek_eq_ok
  | exportRecording start finish video audio => exact exportRecording_eq_ok
  | listRecordings start finish => exact listRecordings_eq_ok
  | errorName code => exact errorName_eq_ok

end Tirtc.Arguments
