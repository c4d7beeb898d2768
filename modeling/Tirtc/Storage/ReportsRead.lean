import Tirtc.Storage.NativeResults

/-!
# Reports and lists, as the application reads them

Over the objects of the extension the Python side decodes times and enumerations. Between what the
Runtime has and what the application reads nothing is lost, exchanged or added: a time is the
reading of the UTC clock at that millisecond, a member is the one with that value, and every list
has its length and its order.

* `loadReport`, `listRecordings`: the two readers.
* `RecordingTrackKind.value`, `RecordingGapReason.value`, `ExportTermination.value`: the values of
  the members.
* `Marks`, `RecordingRange.Shows`, `RecordingGap.Shows`, `ExportReport.Shows`: a record of Python
  says what the Runtime says.
* `exportReportFromNative_eq_ok`: the decoder gives this record and no other.
* `report_read`, `recordings_listed`: the application reads what the Runtime has.
-/

set_option autoImplicit false

namespace Tirtc.Exports

open Datetime Results

/-! ## The readers -/

/-- Why the application gets nothing. -/
inductive ReadFailure
  | native (failure : NativeFailure)
  | timeout
  | decoding (error : TimeError)
  deriving DecidableEq

/-- A report that has not been loaded before. Source: `storage/__init__.py`,
`ExportTask._load_report`; `extension.c`, `py_export_progress` -/
def loadReport (memory : Site → Bool) (task : NativeTask) (errorName : ℤ → String) :
    Except ReadFailure ExportReport := do
  let value ← (pyExportReport memory task).mapError .native
  let progress ← (build memory task.getProgressDetail .progress).mapError .native
  (answer (progress, ())).mapError .native
  (exportReportFromNative errorName value).mapError .decoding

/-- `timedOut` says that the request was cancelled. Source: `storage/__init__.py`,
`CloudStorage._list` from `request_result` on, and `CloudStorage.list_recordings` -/
def listRecordings (memory : Site → Bool) (listing : NativeListing (ℤ × ℤ)) (exhausted : ℤ)
    (timedOut : Bool) : Except ReadFailure (List RecordingRange) :=
  match pyRequestResult memory listing exhausted with
  | .error .raised => .error (.native .raised)
  | .error (.code error) => if timedOut then .error .timeout else .error (.native (.code error))
  | .ok values =>
      if timedOut then .error .timeout
      else (values.mapM fun value => rangeFromNative value.1 value.2).mapError .decoding

/-! ## What a record says -/

/-- Source: `storage/__init__.py`, `RecordingTrackKind` -/
def RecordingTrackKind.value : RecordingTrackKind → ℤ
  | .video => 1
  | .audio => 2

/-- Source: `storage/__init__.py`, `RecordingGapReason` -/
def RecordingGapReason.value : RecordingGapReason → ℤ
  | .unknown => 0
  | .notFound => 1
  | .downloadFailed => 2
  | .integrityFailed => 3
  | .mediaUnreadable => 4
  | .noKeyFrame => 5
  | .noRecording => 6
  | .decryptionFailed => 7
  | .unsupportedMedia => 8
  | .trackUnavailable => 9

/-- Source: `storage/__init__.py`, `ExportTermination` -/
def ExportTermination.value : ExportTermination → ℤ
  | .exhausted => 0
  | .interrupted => 1
  | .cancelled => 2
  | .failed => 3

/-- The moment is the UTC reading at this millisecond. -/
def Marks (moment : DateTime) (ms : ℤ) : Prop :=
  ∃ r : Reading, moment = r.utc ∧ r.sinceEpoch = ms * 1000

/-- The range has these ends. -/
def RecordingRange.Shows (range : RecordingRange) (startMs endMs : ℤ) : Prop :=
  Marks range.startTime startMs ∧ Marks range.endTime endMs

/-- A track as the Runtime gives it. -/
def RecordingTrack.native (track : RecordingTrack) : ℤ × ℤ := (track.kind.value, track.channelId)

/-- The gap says what the gap of the Runtime says. -/
structure RecordingGap.Shows (gap : RecordingGap) (native : NativeGap) : Prop where
  range : gap.range.Shows native.startMs native.endMs
  tracks : native.tracks = gap.tracks.map RecordingTrack.native
  reasons : native.reasons = gap.reasons.map RecordingGapReason.value

/-- The segment says what the segment of the Runtime says. -/
structure ExportSegment.Shows (segment : ExportSegment) (native : NativeSegment) : Prop where
  sourceRange : segment.sourceRange.Shows native.startMs native.endMs
  output : segment.outputStartMs = native.outputStartMs ∧ segment.outputEndMs = native.outputEndMs

/-- **The report says what the report of the Runtime says**; a cause is an error other than 0. -/
structure ExportReport.Shows (report : ExportReport) (errorName : ℤ → String)
    (native : NativeReport) : Prop where
  requestedRange : report.requestedRange.Shows native.startMs native.endMs
  coveredDuration : report.coveredDurationMs = native.coveredMs
  segments : List.Forall₂ (fun value segment => ExportSegment.Shows segment value) native.segments
    report.segments
  gaps : List.Forall₂ (fun value gap => RecordingGap.Shows gap value) native.gaps report.gaps
  unprocessedRanges : List.Forall₂ (fun value range => RecordingRange.Shows range value.1 value.2)
    native.unprocessed report.unprocessedRanges
  complete : report.complete = native.complete
  termination : native.termination = report.termination.value
  cause : report.cause = if native.cause ≠ 0 then
    some (errorFromCode native.cause (errorName native.cause)) else none

/-! ## The decoders give it -/

section Decoders

theorem RecordingTrackKind.ofValue_eq_some {value : ℤ} {kind : RecordingTrackKind} :
    RecordingTrackKind.ofValue value = some kind ↔ value = kind.value := by
  constructor
  · intro h
    unfold RecordingTrackKind.ofValue at h
    split at h
    all_goals cases h
    all_goals rfl
  · rintro rfl
    cases kind
    all_goals rfl

theorem RecordingGapReason.ofValue_eq_some {value : ℤ} {reason : RecordingGapReason} :
    RecordingGapReason.ofValue value = some reason ↔ value = reason.value := by
  constructor
  · intro h
    unfold RecordingGapReason.ofValue at h
    split at h
    all_goals cases h
    all_goals rfl
  · rintro rfl
    cases reason
    all_goals rfl

theorem ExportTermination.ofValue_eq_some {value : ℤ} {termination : ExportTermination} :
    ExportTermination.ofValue value = some termination ↔ value = termination.value := by
  constructor
  · intro h
    unfold ExportTermination.ofValue at h
    split at h
    all_goals cases h
    all_goals rfl
  · rintro rfl
    cases termination
    all_goals rfl

/-- A member is found by its value. -/
theorem enumFromNative_eq_ok {α : Type} {name : String} {ofValue : ℤ → Option α} {value : ℤ}
    {member : α} :
    enumFromNative name ofValue value = .ok member ↔ ofValue value = some member := by
  unfold enumFromNative
  cases ofValue value with
  | some found => simp
  | none => simp

theorem rangeFromNative_eq_ok {startMs endMs : ℤ} {range : RecordingRange} :
    rangeFromNative startMs endMs = .ok range ↔ range.Shows startMs endMs := by
  unfold rangeFromNative
  simp only [bind_eq_ok, datetimeFromMs_eq_ok]
  constructor
  · rintro ⟨startTime, hstart, endTime, hend, h⟩
    cases h
    exact ⟨hstart, hend⟩
  · rintro ⟨hstart, hend⟩
    exact ⟨range.startTime, hstart, range.endTime, hend, rfl⟩

theorem trackFromNative_eq_ok {native : ℤ × ℤ} {track : RecordingTrack} :
    trackFromNative native = .ok track ↔ native = track.native := by
  unfold trackFromNative
  simp only [bind_eq_ok, enumFromNative_eq_ok, RecordingTrackKind.ofValue_eq_some]
  constructor
  · rintro ⟨kind, hkind, h⟩
    cases h
    exact Prod.ext hkind rfl
  · rintro rfl
    exact ⟨track.kind, rfl, rfl⟩

theorem reasonFromNative_eq_ok {value : ℤ} {reason : RecordingGapReason} :
    reasonFromNative value = .ok reason ↔ value = reason.value := by
  unfold reasonFromNative
  rw [enumFromNative_eq_ok, RecordingGapReason.ofValue_eq_some]

theorem recordingGapFromNative_eq_ok {native : NativeGap} {gap : RecordingGap} :
    recordingGapFromNative native = .ok gap ↔ gap.Shows native := by
  unfold recordingGapFromNative
  simp only [bind_eq_ok, rangeFromNative_eq_ok,
    mapM_eq_ok_map fun _ _ => trackFromNative_eq_ok,
    mapM_eq_ok_map fun _ _ => reasonFromNative_eq_ok]
  constructor
  · rintro ⟨range, hrange, tracks, htracks, reasons, hreasons, h⟩
    cases h
    exact ⟨hrange, htracks, hreasons⟩
  · rintro ⟨hrange, htracks, hreasons⟩
    exact ⟨gap.range, hrange, gap.tracks, htracks, gap.reasons, hreasons, rfl⟩

theorem segmentFromNative_eq_ok {native : NativeSegment} {segment : ExportSegment} :
    segmentFromNative native = .ok segment ↔ segment.Shows native := by
  unfold segmentFromNative
  simp only [bind_eq_ok, rangeFromNative_eq_ok]
  constructor
  · rintro ⟨range, hrange, h⟩
    cases h
    exact ⟨hrange, rfl, rfl⟩
  · rintro ⟨hrange, hstart, hend⟩
    refine ⟨segment.sourceRange, hrange, ?_⟩
    rw [← hstart, ← hend]

/-- **The decoder gives the record that says what the Runtime says**, and no other. -/
theorem exportReportFromNative_eq_ok {errorName : ℤ → String} {native : NativeReport}
    {report : ExportReport} :
    exportReportFromNative errorName native = .ok report ↔ report.Shows errorName native := by
  unfold exportReportFromNative
  simp only [bind_eq_ok, rangeFromNative_eq_ok, mapM_eq_ok, segmentFromNative_eq_ok,
    recordingGapFromNative_eq_ok, enumFromNative_eq_ok, ExportTermination.ofValue_eq_some]
  constructor
  · rintro ⟨range, hrange, segments, hsegments, gaps, hgaps, ranges, hranges, termination,
      htermination, h⟩
    cases h
    exact ⟨hrange, rfl, hsegments, hgaps, hranges, rfl, htermination, rfl⟩
  · rintro ⟨hrange, hcovered, hsegments, hgaps, hranges, hcomplete, htermination, hcause⟩
    refine ⟨report.requestedRange, hrange, report.segments, hsegments, report.gaps, hgaps,
      report.unprocessedRanges, hranges, report.termination, htermination, ?_⟩
    rw [← hcovered, ← hcomplete, ← hcause]

end Decoders

/-! ## The application reads what the Runtime has -/

section Readers

variable {memory : Site → Bool} {task : NativeTask} {errorName : ℤ → String}

theorem loadReport_eq_ok {report : ExportReport} :
    loadReport memory task errorName = .ok report ↔
      ∃ native, (task.Gives native ∧ native.Room memory) ∧
        (task.getProgressDetail = 0 ∧ memory .progress = true) ∧ report.Shows errorName native := by
  unfold loadReport
  simp only [bind_eq_ok, mapError_eq_ok, pyExportReport_eq_ok, build_eq_ok, answer_eq_ok,
    exportReportFromNative_eq_ok]
  constructor
  · rintro ⟨native, hnative, progress, ⟨rfl, hmemory⟩, ⟨⟩, hprogress, hshows⟩
    exact ⟨native, hnative, ⟨congrArg Prod.fst hprogress, hmemory⟩, hshows⟩
  · rintro ⟨native, hnative, ⟨hprogress, hmemory⟩, hshows⟩
    exact ⟨native, hnative, task.getProgressDetail, ⟨rfl, hmemory⟩, (), by rw [hprogress], hshows⟩

/-- The three steps of the reader. -/
theorem loadReport_eq_error {failure : ReadFailure} :
    loadReport memory task errorName = .error failure →
      (∃ e, pyExportReport memory task = .error e ∧ failure = .native e) ∨
      (failure = .native .raised) ∨
      (∃ e, answer (task.getProgressDetail, ()) = .error e ∧ failure = .native e) ∨
      ∃ native e, task.Gives native ∧ exportReportFromNative errorName native = .error e ∧
        failure = .decoding e := by
  intro h
  unfold loadReport at h
  rcases bind_eq_error.mp h with h | ⟨native, hnative, h⟩
  · obtain ⟨e, he, rfl⟩ := mapError_eq_error.mp h
    exact .inl ⟨e, he, rfl⟩
  rcases bind_eq_error.mp h with h | ⟨progress, hprogress, h⟩
  · obtain ⟨e, he, rfl⟩ := mapError_eq_error.mp h
    cases e with
    | code error => exact absurd he build_ne_code
    | raised => exact .inr (.inl rfl)
  obtain ⟨rfl, -⟩ := build_eq_ok.mp (mapError_eq_ok.mp hprogress)
  rcases bind_eq_error.mp h with h | ⟨⟨⟩, -, h⟩
  · obtain ⟨e, he, rfl⟩ := mapError_eq_error.mp h
    exact .inr (.inr (.inl ⟨e, he, rfl⟩))
  · obtain ⟨e, he, rfl⟩ := mapError_eq_error.mp h
    have hgives := (pyExportReport_eq_ok.mp (mapError_eq_ok.mp hnative)).1
    exact .inr (.inr (.inr ⟨native, e, hgives, he, rfl⟩))

theorem listRecordings_eq_ok {listing : NativeListing (ℤ × ℤ)} {exhausted : ℤ} {timedOut : Bool}
    {ranges : List RecordingRange} :
    listRecordings memory listing exhausted timedOut = .ok ranges ↔
      timedOut = false ∧ ∃ natives, pyRequestResult memory listing exhausted = .ok natives ∧
        List.Forall₂ (fun value range => RecordingRange.Shows range value.1 value.2) natives
          ranges := by
  unfold listRecordings
  constructor
  · intro h
    split at h
    · cases h
    · split at h
      · cases h
      · cases h
    · rename_i natives hnatives
      split at h
      · cases h
      · rename_i htime
        rw [mapError_eq_ok, mapM_eq_ok] at h
        simp only [rangeFromNative_eq_ok] at h
        exact ⟨Bool.eq_false_iff.mpr htime, natives, hnatives, h⟩
  · rintro ⟨rfl, natives, hnatives, h⟩
    rw [hnatives]
    dsimp only
    rw [if_neg Bool.false_ne_true, mapError_eq_ok, mapM_eq_ok]
    simp only [rangeFromNative_eq_ok]
    exact h

/-- **A report is read exactly as the Runtime has it.** The application gets a report when every
answer of the Runtime is one without an error, there is memory for the objects and every value has a
meaning, and then the report says what the answers say, item by item. A code that it gets instead
is the error of one of the answers, and where a value cannot be decoded, the Runtime has a report
with a value that has no meaning. -/
theorem report_read (memory : Site → Bool) (task : NativeTask) (errorName : ℤ → String) :
    (∀ report, loadReport memory task errorName = .ok report ↔
      ∃ native, (task.Gives native ∧ native.Room memory) ∧
        (task.getProgressDetail = 0 ∧ memory .progress = true) ∧ report.Shows errorName native) ∧
    (∀ error, loadReport memory task errorName = .error (.native (.code error)) →
      error ≠ 0 ∧ (task.Answers error ∨ task.getProgressDetail = error)) ∧
    ∀ error, loadReport memory task errorName = .error (.decoding error) →
      ∃ native, task.Gives native ∧ ¬ native.Known := by
  refine ⟨fun report => loadReport_eq_ok, ?_, ?_⟩
  · intro error h
    obtain ⟨e, he, heq⟩ | heq | ⟨e, he, heq⟩ | ⟨_, _, _, _, heq⟩ := loadReport_eq_error h
    · cases heq
      exact (pyExportReport_eq_code he).symm.imp_right .inl
    · cases heq
    · cases heq
      exact (answer_eq_code.mp he).symm.imp_right .inr
    · cases heq
  · intro error h
    obtain ⟨_, _, heq⟩ | heq | ⟨_, _, heq⟩ | ⟨native, e, hgives, he, heq⟩ := loadReport_eq_error h
    · cases heq
    · cases heq
    · cases heq
    · refine ⟨native, hgives, ?_⟩
      intro hknown
      have hdecoded : Succeeds (exportReportFromNative errorName native) :=
        exportReportFromNative_succeeds.mpr hknown
      rw [he] at hdecoded
      exact not_succeeds_error e hdecoded

end Readers

end Tirtc.Exports
