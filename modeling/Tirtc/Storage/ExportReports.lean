import Mathlib.Tactic.IntervalCases
import Tirtc.Errors
import Tirtc.Lib.Results
import Tirtc.Util.Times

/-!
# The report of an export, from the values of the Runtime

`_export_report_from_native` decodes a whole report at once: every time, every track kind, every gap
reason and the termination. The kinds, the reasons and the terminations are closed enumerations.

* `RecordingTrackKind`, `RecordingGapReason`, `ExportTermination`, `enumFromNative`: the
  enumerations.
* `NativeGap`, `NativeReport`: what the Runtime gives; `RecordingGap`, `ExportReport`: what it
  becomes.
* `recordingGapFromNative`, `exportReportFromNative`: the decoders.
* `Shown`, `NativeGap.Known`, `NativeReport.Known`: the values that have a meaning.
* `exportReportFromNative_succeeds`: a report is decoded exactly when all of its values have one.
-/

set_option autoImplicit false

namespace Tirtc.Exports

open Datetime Results

/-! ## The enumerations -/

/-- Source: `storage/__init__.py`, `RecordingTrackKind` -/
inductive RecordingTrackKind
  | video | audio
  deriving DecidableEq, Repr

/-- Source: `storage/__init__.py`, `RecordingGapReason` -/
inductive RecordingGapReason
  | unknown | notFound | downloadFailed | integrityFailed | mediaUnreadable | noKeyFrame
  | noRecording | decryptionFailed | unsupportedMedia | trackUnavailable
  deriving DecidableEq, Repr

/-- Source: `storage/__init__.py`, `ExportTermination` -/
inductive ExportTermination
  | exhausted | interrupted | cancelled | failed
  deriving DecidableEq, Repr

/-- The member with this value. -/
def RecordingTrackKind.ofValue : ℤ → Option RecordingTrackKind
  | 1 => some .video
  | 2 => some .audio
  | _ => none

/-- The member with this value. -/
def RecordingGapReason.ofValue : ℤ → Option RecordingGapReason
  | 0 => some .unknown
  | 1 => some .notFound
  | 2 => some .downloadFailed
  | 3 => some .integrityFailed
  | 4 => some .mediaUnreadable
  | 5 => some .noKeyFrame
  | 6 => some .noRecording
  | 7 => some .decryptionFailed
  | 8 => some .unsupportedMedia
  | 9 => some .trackUnavailable
  | _ => none

/-- The member with this value. -/
def ExportTermination.ofValue : ℤ → Option ExportTermination
  | 0 => some .exhausted
  | 1 => some .interrupted
  | 2 => some .cancelled
  | 3 => some .failed
  | _ => none

/-- A call of the class of an enumeration, named `name`. -/
def enumFromNative {α : Type} (name : String) (ofValue : ℤ → Option α) (value : ℤ) :
    Except TimeError α :=
  match ofValue value with
  | some member => .ok member
  | none => .error (.valueError (toString value ++ " is not a valid " ++ name))

/-! ## The records -/

/-- Source: `storage/__init__.py`, `RecordingRange` -/
structure RecordingRange where
  startTime : DateTime
  endTime : DateTime
  deriving DecidableEq

/-- Source: `storage/__init__.py`, `RecordingTrack` -/
structure RecordingTrack where
  kind : RecordingTrackKind
  channelId : ℤ
  deriving DecidableEq

/-- Source: `storage/__init__.py`, `RecordingGap` -/
structure RecordingGap where
  range : RecordingRange
  tracks : List RecordingTrack
  reasons : List RecordingGapReason
  deriving DecidableEq

/-- Source: `storage/__init__.py`, `ExportSegment` -/
structure ExportSegment where
  sourceRange : RecordingRange
  outputStartMs : ℤ
  outputEndMs : ℤ
  deriving DecidableEq

/-- Source: `storage/__init__.py`, `ExportReport` -/
structure ExportReport where
  requestedRange : RecordingRange
  coveredDurationMs : ℤ
  segments : List ExportSegment
  gaps : List RecordingGap
  unprocessedRanges : List RecordingRange
  complete : Bool
  termination : ExportTermination
  cause : Option PyError
  deriving DecidableEq

/-- A gap as the Runtime gives it; a track is a kind and a channel.
Source: `extension.c`, `recording_gap_value` -/
structure NativeGap where
  startMs : ℤ
  endMs : ℤ
  tracks : List (ℤ × ℤ)
  reasons : List ℤ
  deriving DecidableEq

/-- A segment as the Runtime gives it. Source: `extension.c`, `py_export_report` -/
structure NativeSegment where
  startMs : ℤ
  endMs : ℤ
  outputStartMs : ℤ
  outputEndMs : ℤ
  deriving DecidableEq

/-- A report as the Runtime gives it; an unprocessed range is a start and an end.
Source: `extension.c`, `py_export_report` -/
structure NativeReport where
  startMs : ℤ
  endMs : ℤ
  coveredMs : ℤ
  complete : Bool
  termination : ℤ
  cause : ℤ
  segments : List NativeSegment
  gaps : List NativeGap
  unprocessed : List (ℤ × ℤ)
  deriving DecidableEq

/-! ## The decoders -/

/-- `RecordingRange(_datetime_from_ms(start), _datetime_from_ms(end))` -/
def rangeFromNative (startMs endMs : ℤ) : Except TimeError RecordingRange := do
  let startTime ← datetimeFromMs startMs
  let endTime ← datetimeFromMs endMs
  .ok ⟨startTime, endTime⟩

/-- `RecordingTrack(RecordingTrackKind(kind), channel)` -/
def trackFromNative (track : ℤ × ℤ) : Except TimeError RecordingTrack := do
  let kind ← enumFromNative "RecordingTrackKind" RecordingTrackKind.ofValue track.1
  .ok ⟨kind, track.2⟩

/-- `RecordingGapReason(reason)` -/
def reasonFromNative (reason : ℤ) : Except TimeError RecordingGapReason :=
  enumFromNative "RecordingGapReason" RecordingGapReason.ofValue reason

/-- Source: `storage/__init__.py`, `_recording_gap_from_native` -/
def recordingGapFromNative (value : NativeGap) : Except TimeError RecordingGap := do
  let range ← rangeFromNative value.startMs value.endMs
  let tracks ← value.tracks.mapM trackFromNative
  let reasons ← value.reasons.mapM reasonFromNative
  .ok ⟨range, tracks, reasons⟩

/-- `ExportSegment(RecordingRange(...), ...)` -/
def segmentFromNative (value : NativeSegment) : Except TimeError ExportSegment := do
  let sourceRange ← rangeFromNative value.startMs value.endMs
  .ok ⟨sourceRange, value.outputStartMs, value.outputEndMs⟩

/-- Source: `storage/__init__.py`, `_export_report_from_native` -/
def exportReportFromNative (errorName : ℤ → String) (value : NativeReport) :
    Except TimeError ExportReport := do
  let requestedRange ← rangeFromNative value.startMs value.endMs
  let segments ← value.segments.mapM segmentFromNative
  let gaps ← value.gaps.mapM recordingGapFromNative
  let unprocessedRanges ← value.unprocessed.mapM fun range => rangeFromNative range.1 range.2
  let termination ←
    enumFromNative "ExportTermination" ExportTermination.ofValue value.termination
  .ok
    { requestedRange := requestedRange
      coveredDurationMs := value.coveredMs
      segments := segments
      gaps := gaps
      unprocessedRanges := unprocessedRanges
      complete := value.complete
      termination := termination
      cause :=
        if value.cause ≠ 0 then some (errorFromCode value.cause (errorName value.cause)) else none }

/-! ## The values that have a meaning -/

/-- A millisecond of the years 1 to 9999, counted from the epoch. -/
def Shown (ms : ℤ) : Prop := -62135596800000 ≤ ms ∧ ms < 253402300800000

instance (ms : ℤ) : Decidable (Shown ms) := inferInstanceAs (Decidable (_ ∧ _))

/-- Every value of the gap has a meaning: times, track kinds 1 and 2, reasons 0 to 9. -/
def NativeGap.Known (gap : NativeGap) : Prop :=
  (Shown gap.startMs ∧ Shown gap.endMs) ∧ (∀ track ∈ gap.tracks, track.1 = 1 ∨ track.1 = 2) ∧
    ∀ reason ∈ gap.reasons, 0 ≤ reason ∧ reason ≤ 9

instance (gap : NativeGap) : Decidable gap.Known := inferInstanceAs (Decidable (_ ∧ _ ∧ _))

/-- **Every value of the report has a meaning**: also the termination, from 0 to 3. -/
def NativeReport.Known (report : NativeReport) : Prop :=
  (Shown report.startMs ∧ Shown report.endMs) ∧
    (∀ segment ∈ report.segments, Shown segment.startMs ∧ Shown segment.endMs) ∧
    (∀ gap ∈ report.gaps, gap.Known) ∧
    (∀ range ∈ report.unprocessed, Shown range.1 ∧ Shown range.2) ∧
    0 ≤ report.termination ∧ report.termination ≤ 3

instance (report : NativeReport) : Decidable report.Known :=
  inferInstanceAs (Decidable (_ ∧ _ ∧ _ ∧ _ ∧ _))

/-- A time is decoded when it is in the years that a datetime has. -/
theorem datetimeFromMs_succeeds {ms : ℤ} : Succeeds (datetimeFromMs ms) ↔ Shown ms := by
  have hfirst : epoch.total = 719163 * 86400000000 := rfl
  unfold Shown
  constructor
  · rintro ⟨moment, h⟩
    obtain ⟨r, -, hsince⟩ := datetimeFromMs_eq_ok.mp h
    have hrange := r.total_range
    unfold Reading.sinceEpoch at hsince
    omega
  · intro h
    obtain ⟨r, hr⟩ : ∃ r : Reading, r.total = ms * 1000 + epoch.total :=
      Ranged.exists_total (by omega) (by omega)
    refine ⟨r.utc, datetimeFromMs_eq_ok.mpr ⟨r, rfl, ?_⟩⟩
    unfold Reading.sinceEpoch
    omega

/-- A member is found when the enumeration has its value. -/
theorem enumFromNative_succeeds {α : Type} {name : String} {ofValue : ℤ → Option α} {value : ℤ} :
    Succeeds (enumFromNative name ofValue value) ↔ (ofValue value).isSome = true := by
  unfold enumFromNative
  cases ofValue value with
  | some member => simp
  | none => simp

theorem trackKind_isSome {value : ℤ} :
    (RecordingTrackKind.ofValue value).isSome = true ↔ value = 1 ∨ value = 2 := by
  constructor
  · intro h
    unfold RecordingTrackKind.ofValue at h
    split at h
    · exact .inl rfl
    · exact .inr rfl
    · cases h
  · rintro (rfl | rfl)
    · rfl
    · rfl

theorem gapReason_isSome {value : ℤ} :
    (RecordingGapReason.ofValue value).isSome = true ↔ 0 ≤ value ∧ value ≤ 9 := by
  constructor
  · intro h
    unfold RecordingGapReason.ofValue at h
    split at h
    all_goals first | omega | cases h
  · rintro ⟨hlow, hhigh⟩
    interval_cases value
    all_goals rfl

theorem termination_isSome {value : ℤ} :
    (ExportTermination.ofValue value).isSome = true ↔ 0 ≤ value ∧ value ≤ 3 := by
  constructor
  · intro h
    unfold ExportTermination.ofValue at h
    split at h
    all_goals first | omega | cases h
  · rintro ⟨hlow, hhigh⟩
    interval_cases value
    all_goals rfl

theorem rangeFromNative_succeeds {startMs endMs : ℤ} :
    Succeeds (rangeFromNative startMs endMs) ↔ Shown startMs ∧ Shown endMs := by
  unfold rangeFromNative
  rw [succeeds_bind_of fun _ _ => succeeds_bind_of fun _ _ => iff_of_true (succeeds_ok _) trivial,
    datetimeFromMs_succeeds, datetimeFromMs_succeeds, and_true]

theorem trackFromNative_succeeds {track : ℤ × ℤ} :
    Succeeds (trackFromNative track) ↔ track.1 = 1 ∨ track.1 = 2 := by
  unfold trackFromNative
  rw [succeeds_bind_of fun _ _ => iff_of_true (succeeds_ok _) trivial, enumFromNative_succeeds,
    trackKind_isSome, and_true]

theorem reasonFromNative_succeeds {reason : ℤ} :
    Succeeds (reasonFromNative reason) ↔ 0 ≤ reason ∧ reason ≤ 9 :=
  enumFromNative_succeeds.trans gapReason_isSome

/-- **A gap is decoded exactly when all of its values have a meaning.** -/
theorem recordingGapFromNative_succeeds {value : NativeGap} :
    Succeeds (recordingGapFromNative value) ↔ value.Known := by
  unfold recordingGapFromNative NativeGap.Known
  rw [succeeds_bind_of fun _ _ => succeeds_bind_of fun _ _ => succeeds_bind_of fun _ _ =>
      iff_of_true (succeeds_ok _) trivial,
    rangeFromNative_succeeds, succeeds_mapM, succeeds_mapM, and_true]
  simp only [trackFromNative_succeeds, reasonFromNative_succeeds]

theorem segmentFromNative_succeeds {value : NativeSegment} :
    Succeeds (segmentFromNative value) ↔ Shown value.startMs ∧ Shown value.endMs := by
  unfold segmentFromNative
  rw [succeeds_bind_of fun _ _ => iff_of_true (succeeds_ok _) trivial, rangeFromNative_succeeds,
    and_true]

/-- **A report is decoded exactly when all of its values have a meaning.** -/
theorem exportReportFromNative_succeeds {errorName : ℤ → String} {value : NativeReport} :
    Succeeds (exportReportFromNative errorName value) ↔ value.Known := by
  unfold exportReportFromNative NativeReport.Known
  rw [succeeds_bind_of fun _ _ => succeeds_bind_of fun _ _ => succeeds_bind_of fun _ _ =>
      succeeds_bind_of fun _ _ => succeeds_bind_of fun _ _ => iff_of_true (succeeds_ok _) trivial,
    rangeFromNative_succeeds, succeeds_mapM, succeeds_mapM, succeeds_mapM, enumFromNative_succeeds,
    termination_isSome, and_true]
  simp only [segmentFromNative_succeeds, recordingGapFromNative_succeeds, rangeFromNative_succeeds]

end Tirtc.Exports
