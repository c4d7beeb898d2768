import Tirtc.Native.Frames
import Tirtc.Storage.ExportReports

/-!
# What the Runtime has to say, in one piece

The Runtime is asked for a report, or for the result of a list request, item by item, and any answer
may be an error; each item becomes a Python object, for which there may be no memory. The extension
gives all of it, or nothing.

* `NativeTask`, `NativeListing`: the getters of the Runtime.
* `answer`, `build`, `tupleNew`, `calloc`, `reported`: one answer, and one object.
* `recordingGapValue`, `exportGap`, `exportReport`, `pyExportReport`: a report.
* `requestCount`, `requestItem`, `pyRequestResult`: a list.
* `NativeTask.Gives`, `NativeReport.Room`, `NativeListing.Gives`: what the Runtime has, and the
  memory for it.
* `pyExportReport_eq_ok`, `pyRequestResult_eq_ok`: it is given exactly when there is memory.
* `pyExportReport_eq_code`, `pyRequestResult_eq_code`: otherwise a code is one of an answer.
-/

set_option autoImplicit false

namespace Tirtc.Exports

open Datetime Results

/-! ## The Runtime -/

/-- Source: `extension.c`, `TiCloudStorageExportReport` as `py_export_report` reads it -/
structure ReportHead where
  startMs : ℤ
  endMs : ℤ
  coveredMs : ℤ
  complete : ℤ
  termination : ℤ
  cause : ℤ
  segmentCount : ℕ
  gapCount : ℕ
  unprocessedRangeCount : ℕ
  deriving DecidableEq

/-- A gap without its tracks and reasons. -/
structure GapHead where
  startMs : ℤ
  endMs : ℤ
  trackCount : ℕ
  reasonCount : ℕ
  deriving DecidableEq

/-- The getters of an export task. An answer is an error, and a value that counts without one. -/
structure NativeTask where
  getReport : ℤ × ReportHead
  getSegment : ℕ → ℤ × NativeSegment
  getGap : ℕ → ℤ × GapHead
  getGapTrack : ℕ → ℕ → ℤ × (ℤ × ℤ)
  getGapReason : ℕ → ℕ → ℤ × ℤ
  getUnprocessedRange : ℕ → ℤ × (ℤ × ℤ)
  getProgressDetail : ℤ

/-- The getters of a list request whose items are `α`. -/
structure NativeListing (α : Type) where
  getError : ℤ × ℤ
  getCount : ℤ × ℕ
  get : ℕ → ℤ × α

/-- Where memory is asked for. -/
inductive Site
  | segments | gaps | unprocessed
  | segment (i : ℕ)
  | tracks (i : ℕ) | reasons (i : ℕ)
  | trackTuple (i : ℕ) | reasonTuple (i : ℕ)
  | track (i j : ℕ) | reason (i j : ℕ)
  | gap (i : ℕ)
  | range (i : ℕ)
  | value | result | failure | progress
  | list | item (i : ℕ) | empty

/-- Why there is no result: the code of the Runtime, or an exception of the interpreter. -/
inductive NativeFailure
  | code (error : ℤ)
  | raised
  deriving DecidableEq

section Functions

variable {α : Type} (memory : Site → Bool)

/-- An answer of the Runtime. -/
def answer (r : ℤ × α) : Except NativeFailure α := if r.1 = 0 then .ok r.2 else .error (.code r.1)

/-- `Py_BuildValue` and `PyLong_FromUnsignedLong` -/
def build (x : α) (site : Site) : Except NativeFailure α :=
  if memory site then .ok x else .error .raised

/-- `PyTuple_New`; a count above `PY_SSIZE_T_MAX` is cast to a negative one. -/
def tupleNew (site : Site) (count : ℕ) : Except NativeFailure Unit :=
  if decide (count ≤ Frames.pySsizeMax) && memory site then .ok () else .error .raised

/-- `calloc`; no items need no memory. -/
def calloc (site : Site) (count : ℕ) : Except NativeFailure Unit :=
  if decide (count ≠ 0) && !memory site then .error .raised else .ok ()

/-- The tuple of the items of an array. -/
def buildAll (site : ℕ → Site) (items : List α) : Except NativeFailure (List α) :=
  items.zipIdx.mapM fun item => build memory item.1 (site item.2)

/-- Of a gap that is not `NULL`. Source: `extension.c`, `recording_gap_value` -/
def recordingGapValue (i : ℕ) (gap : NativeGap) : Except NativeFailure NativeGap := do
  tupleNew memory (.trackTuple i) gap.tracks.length
  tupleNew memory (.reasonTuple i) gap.reasons.length
  let tracks ← buildAll memory (.track i) gap.tracks
  let reasons ← buildAll memory (.reason i) gap.reasons
  build memory { gap with tracks := tracks, reasons := reasons } (.gap i)

/-- An error of the Runtime is an object too. -/
def reported (site : Site) : Except NativeFailure α → Except NativeFailure α
  | .error (.code error) => build memory () site >>= fun _ => .error (.code error)
  | .error .raised => .error .raised
  | .ok x => .ok x

variable (task : NativeTask)

/-- One round of the loop over the gaps. Source: `extension.c`, `py_export_report` -/
def exportGap (i : ℕ) : Except NativeFailure NativeGap := do
  let gap ← answer (task.getGap i)
  calloc memory (.tracks i) gap.trackCount
  calloc memory (.reasons i) gap.reasonCount
  let tracks ← (List.range gap.trackCount).mapM fun j => answer (task.getGapTrack i j)
  let reasons ← (List.range gap.reasonCount).mapM fun j => answer (task.getGapReason i j)
  recordingGapValue memory i ⟨gap.startMs, gap.endMs, tracks, reasons⟩

/-- One round of the loop over the segments. Source: `extension.c`, `py_export_report` -/
def exportSegment (i : ℕ) : Except NativeFailure NativeSegment := do
  let segment ← answer (task.getSegment i)
  build memory segment (.segment i)

/-- One round of the loop over the unprocessed ranges. Source: `extension.c`, `py_export_report` -/
def exportRange (i : ℕ) : Except NativeFailure (ℤ × ℤ) := do
  let range ← answer (task.getUnprocessedRange i)
  build memory range (.range i)

/-- The answers of the Runtime, and the objects. Source: `extension.c`, `py_export_report` -/
def exportReport : Except NativeFailure NativeReport := do
  let report ← answer task.getReport
  tupleNew memory .segments report.segmentCount
  tupleNew memory .gaps report.gapCount
  tupleNew memory .unprocessed report.unprocessedRangeCount
  let segments ← (List.range report.segmentCount).mapM (exportSegment memory task)
  let gaps ← (List.range report.gapCount).mapM (exportGap memory task)
  let unprocessed ← (List.range report.unprocessedRangeCount).mapM (exportRange memory task)
  let value ← build memory
    { startMs := report.startMs
      endMs := report.endMs
      coveredMs := report.coveredMs
      complete := decide (report.complete ≠ 0)
      termination := report.termination
      cause := report.cause
      segments := segments
      gaps := gaps
      unprocessed := unprocessed } .value
  build memory value .result

/-- Source: `extension.c`, `py_export_report` -/
def pyExportReport : Except NativeFailure NativeReport :=
  reported memory .failure (exportReport memory task)

variable (listing : NativeListing α) (exhausted : ℤ)

/-- How many items there are. `exhausted` is `TI_ERROR_RESOURCE_EXHAUSTED`, not 0.
Source: `extension.c`, `py_request_result` -/
def requestCount : Except NativeFailure ℕ := do
  let terminal ← answer listing.getError
  answer (terminal, ())
  let count ← answer listing.getCount
  if count ≤ Frames.pySsizeMax then .ok count else .error (.code exhausted)

/-- One round of the loop. Source: `extension.c`, `py_request_result` -/
def requestItem (i : ℕ) : Except NativeFailure α := do
  let item ← answer (listing.get i)
  build memory item (.item i)

/-- The list of the items. Source: `extension.c`, `py_request_result` -/
def requestValues : Except NativeFailure (List α) :=
  match requestCount listing exhausted with
  | .error failure => build memory () .list >>= fun _ => .error failure
  | .ok count =>
      build memory () .list >>= fun _ => (List.range count).mapM (requestItem memory listing)

/-- After an error the list is replaced by an empty one.
Source: `extension.c`, `py_request_result` -/
def pyRequestResult : Except NativeFailure (List α) :=
  match requestValues memory listing exhausted with
  | .ok items => build memory items .result
  | .error (.code error) =>
      build memory () .empty >>= fun _ => build memory () .result >>= fun _ => .error (.code error)
  | .error .raised => .error .raised

end Functions

/-! ## What the Runtime has -/

/-- The request of the listing has ended well, with these items. -/
structure NativeListing.Gives {α : Type} (listing : NativeListing α) (items : List α) : Prop where
  done : listing.getError = (0, 0)
  count : listing.getCount = (0, items.length)
  items : ∀ i (hi : i < items.length), listing.get i = (0, items[i])

/-- The head of a gap. -/
def NativeGap.head (gap : NativeGap) : GapHead :=
  ⟨gap.startMs, gap.endMs, gap.tracks.length, gap.reasons.length⟩

/-- The head of a report whose `complete` is this. -/
def NativeReport.head (native : NativeReport) (complete : ℤ) : ReportHead :=
  ⟨native.startMs, native.endMs, native.coveredMs, complete, native.termination, native.cause,
    native.segments.length, native.gaps.length, native.unprocessed.length⟩

/-- The Runtime gives the gap, at index `i`. -/
structure NativeTask.GivesGap (task : NativeTask) (i : ℕ) (gap : NativeGap) : Prop where
  head : task.getGap i = (0, gap.head)
  tracks : ∀ j (hj : j < gap.tracks.length), task.getGapTrack i j = (0, gap.tracks[j])
  reasons : ∀ j (hj : j < gap.reasons.length), task.getGapReason i j = (0, gap.reasons[j])

/-- **The Runtime gives the report**: every answer is one without an error, and every item is at its
index. -/
structure NativeTask.Gives (task : NativeTask) (native : NativeReport) : Prop where
  report : ∃ complete, task.getReport = (0, native.head complete) ∧
    native.complete = decide (complete ≠ 0)
  segments : ∀ i (hi : i < native.segments.length), task.getSegment i = (0, native.segments[i])
  gaps : ∀ i (hi : i < native.gaps.length), task.GivesGap i native.gaps[i]
  unprocessed : ∀ i (hi : i < native.unprocessed.length),
    task.getUnprocessedRange i = (0, native.unprocessed[i])

/-- There is memory for a tuple of this many items. -/
def RoomFor (memory : Site → Bool) (site : Site) (count : ℕ) : Prop :=
  count ≤ Frames.pySsizeMax ∧ memory site = true

/-- There is memory for what becomes of the gap, at index `i`. -/
structure NativeGap.Room (memory : Site → Bool) (i : ℕ) (gap : NativeGap) : Prop where
  arrays : (gap.tracks.length ≠ 0 → memory (.tracks i) = true) ∧
    (gap.reasons.length ≠ 0 → memory (.reasons i) = true)
  tuples : RoomFor memory (.trackTuple i) gap.tracks.length ∧
    RoomFor memory (.reasonTuple i) gap.reasons.length
  tracks : ∀ j < gap.tracks.length, memory (.track i j) = true
  reasons : ∀ j < gap.reasons.length, memory (.reason i j) = true
  gap : memory (.gap i) = true

/-- There is memory for what becomes of the report. -/
structure NativeReport.Room (memory : Site → Bool) (native : NativeReport) : Prop where
  tuples : RoomFor memory .segments native.segments.length ∧
    RoomFor memory .gaps native.gaps.length ∧
    RoomFor memory .unprocessed native.unprocessed.length
  segments : ∀ i < native.segments.length, memory (.segment i) = true
  gaps : ∀ i (hi : i < native.gaps.length), native.gaps[i].Room memory i
  unprocessed : ∀ i < native.unprocessed.length, memory (.range i) = true
  value : memory .value = true ∧ memory .result = true

/-! ### One item -/

section Items

variable {α : Type} {memory : Site → Bool} {task : NativeTask} {site : Site} {i count : ℕ}

theorem answer_eq_ok {r : ℤ × α} {x : α} : answer r = .ok x ↔ r = (0, x) := by
  obtain ⟨error, value⟩ := r
  unfold answer
  by_cases herror : error = 0
  · simp [herror]
  · simp [herror]

theorem answer_eq_code {r : ℤ × α} {error : ℤ} :
    answer r = .error (.code error) ↔ r.1 = error ∧ error ≠ 0 := by
  unfold answer
  by_cases herror : r.1 = 0
  · rw [if_pos herror]
    constructor
    · intro h
      cases h
    · rintro ⟨heq, hne⟩
      exact absurd (heq.symm.trans herror) hne
  · rw [if_neg herror]
    simp only [Except.error.injEq, NativeFailure.code.injEq]
    constructor
    · rintro rfl
      exact ⟨rfl, herror⟩
    · exact And.left

theorem build_eq_ok {x y : α} : build memory x site = .ok y ↔ y = x ∧ memory site = true := by
  unfold build
  by_cases hmemory : memory site = true
  · simp [hmemory, eq_comm]
  · simp [hmemory]

theorem build_ne_code {x : α} {error : ℤ} : build memory x site ≠ .error (.code error) := by
  unfold build
  split
  · simp
  · simp

theorem tupleNew_eq_ok : tupleNew memory site count = .ok () ↔ RoomFor memory site count := by
  unfold tupleNew RoomFor
  by_cases hroom : count ≤ Frames.pySsizeMax ∧ memory site = true
  · simp [hroom]
  · rw [if_neg (by simpa using hroom)]
    simp [hroom]

theorem tupleNew_ne_code {error : ℤ} : tupleNew memory site count ≠ .error (.code error) := by
  unfold tupleNew
  split
  · simp
  · simp

theorem calloc_eq_ok : calloc memory site count = .ok () ↔ (count ≠ 0 → memory site = true) := by
  unfold calloc
  by_cases hcount : count = 0
  · simp [hcount]
  · by_cases hmemory : memory site = true
    · simp [hmemory]
    · simp [hcount, hmemory]

theorem calloc_ne_code {error : ℤ} : calloc memory site count ≠ .error (.code error) := by
  unfold calloc
  split
  · simp
  · simp

/-- The tuple has the items of the array. -/
theorem buildAll_eq_ok {site : ℕ → Site} {items ys : List α} :
    buildAll memory site items = .ok ys ↔
      ys = items ∧ ∀ j < items.length, memory (site j) = true := by
  unfold buildAll
  rw [mapM_eq_ok, List.forall₂_iff_get]
  simp only [List.length_zipIdx, List.get_eq_getElem, List.getElem_zipIdx, build_eq_ok, zero_add]
  constructor
  · rintro ⟨hlength, h⟩
    refine ⟨List.ext_getElem hlength.symm ?_, ?_⟩
    · intro j hj hj'
      exact (h j hj' hj).1
    · intro j hj
      exact (h j hj (hlength ▸ hj)).2
  · rintro ⟨rfl, h⟩
    refine ⟨rfl, ?_⟩
    intro j hj _
    exact ⟨rfl, h j hj⟩

theorem buildAll_ne_code {site : ℕ → Site} {items : List α} {error : ℤ} :
    buildAll memory site items ≠ .error (.code error) := by
  intro h
  obtain ⟨item, -, h⟩ := mapM_eq_error h
  exact build_ne_code h

theorem reported_eq_ok {x : Except NativeFailure α} {y : α} :
    reported memory site x = .ok y ↔ x = .ok y := by
  unfold reported
  split
  · rw [bind_eq_ok]
    simp
  · simp
  · rfl

theorem reported_eq_code {x : Except NativeFailure α} {error : ℤ} :
    reported memory site x = .error (.code error) ↔
      x = .error (.code error) ∧ memory site = true := by
  unfold reported build
  split
  · split
    · simp_all [bind, Except.bind]
    · simp_all [bind, Except.bind]
  · simp
  · simp

end Items

/-! ### The report -/

section Report

variable {memory : Site → Bool} {task : NativeTask} {i : ℕ}

theorem recordingGapValue_eq_ok {gap value : NativeGap} :
    recordingGapValue memory i gap = .ok value ↔ value = gap ∧
      (RoomFor memory (.trackTuple i) gap.tracks.length ∧
        RoomFor memory (.reasonTuple i) gap.reasons.length) ∧
      (∀ j < gap.tracks.length, memory (.track i j) = true) ∧
      (∀ j < gap.reasons.length, memory (.reason i j) = true) ∧ memory (.gap i) = true := by
  unfold recordingGapValue
  simp only [bind_eq_ok, buildAll_eq_ok, build_eq_ok]
  constructor
  · rintro ⟨⟨⟩, htracks, ⟨⟩, hreasons, _, ⟨rfl, htrack⟩, _, ⟨rfl, hreason⟩, rfl, hgap⟩
    exact ⟨rfl, ⟨tupleNew_eq_ok.mp htracks, tupleNew_eq_ok.mp hreasons⟩, htrack, hreason, hgap⟩
  · rintro ⟨rfl, ⟨htracks, hreasons⟩, htrack, hreason, hgap⟩
    exact ⟨(), tupleNew_eq_ok.mpr htracks, (), tupleNew_eq_ok.mpr hreasons, _, ⟨rfl, htrack⟩, _,
      ⟨rfl, hreason⟩, rfl, hgap⟩

/-- **A gap** comes with all of its tracks and reasons. -/
theorem exportGap_eq_ok {gap : NativeGap} :
    exportGap memory task i = .ok gap ↔ task.GivesGap i gap ∧ gap.Room memory i := by
  unfold exportGap
  simp only [bind_eq_ok, answer_eq_ok, mapM_range_eq_ok, recordingGapValue_eq_ok]
  constructor
  · rintro ⟨head, hhead, ⟨⟩, htrackArray, ⟨⟩, hreasonArray, tracks, ⟨htrackCount, htracks⟩, reasons,
      ⟨hreasonCount, hreasons⟩, rfl, htuples, htrack, hreason, hgap⟩
    rw [calloc_eq_ok, htrackCount] at htrackArray
    rw [calloc_eq_ok, hreasonCount] at hreasonArray
    refine ⟨⟨?_, htracks, hreasons⟩, ⟨htrackArray, hreasonArray⟩, htuples, htrack, hreason, hgap⟩
    rw [hhead, NativeGap.head, ← htrackCount, ← hreasonCount]
  · rintro ⟨⟨hhead, htracks, hreasons⟩, ⟨htrackArray, hreasonArray⟩, htuples, htrack, hreason, hgap⟩
    exact ⟨gap.head, hhead, (), calloc_eq_ok.mpr htrackArray, (), calloc_eq_ok.mpr hreasonArray,
      gap.tracks, ⟨rfl, htracks⟩, gap.reasons, ⟨rfl, hreasons⟩, rfl, htuples, htrack, hreason, hgap⟩

theorem exportSegment_eq_ok {segment : NativeSegment} :
    exportSegment memory task i = .ok segment ↔
      task.getSegment i = (0, segment) ∧ memory (.segment i) = true := by
  unfold exportSegment
  simp only [bind_eq_ok, answer_eq_ok, build_eq_ok]
  constructor
  · rintro ⟨_, h, rfl, hmemory⟩
    exact ⟨h, hmemory⟩
  · rintro ⟨h, hmemory⟩
    exact ⟨segment, h, rfl, hmemory⟩

theorem exportRange_eq_ok {range : ℤ × ℤ} :
    exportRange memory task i = .ok range ↔
      task.getUnprocessedRange i = (0, range) ∧ memory (.range i) = true := by
  unfold exportRange
  simp only [bind_eq_ok, answer_eq_ok, build_eq_ok]
  constructor
  · rintro ⟨_, h, rfl, hmemory⟩
    exact ⟨h, hmemory⟩
  · rintro ⟨h, hmemory⟩
    exact ⟨range, h, rfl, hmemory⟩

/-- **The extension gives the whole report of the Runtime**, when every answer and every piece of
memory is there. -/
theorem pyExportReport_eq_ok {native : NativeReport} :
    pyExportReport memory task = .ok native ↔ task.Gives native ∧ native.Room memory := by
  unfold pyExportReport exportReport
  rw [reported_eq_ok]
  simp only [bind_eq_ok, answer_eq_ok, mapM_range_eq_ok, build_eq_ok, exportSegment_eq_ok,
    exportGap_eq_ok, exportRange_eq_ok]
  constructor
  · rintro ⟨head, hhead, ⟨⟩, hsegmentTuple, ⟨⟩, hgapTuple, ⟨⟩, hrangeTuple, segments,
      ⟨hsegmentCount, hsegments⟩, gaps, ⟨hgapCount, hgaps⟩, ranges, ⟨hrangeCount, hranges⟩, _,
      ⟨rfl, hvalue⟩, rfl, hresult⟩
    rw [tupleNew_eq_ok, hsegmentCount] at hsegmentTuple
    rw [tupleNew_eq_ok, hgapCount] at hgapTuple
    rw [tupleNew_eq_ok, hrangeCount] at hrangeTuple
    refine ⟨⟨⟨head.complete, ?_, rfl⟩, fun i hi => (hsegments i hi).1, fun i hi => (hgaps i hi).1,
      fun i hi => (hranges i hi).1⟩, ⟨hsegmentTuple, hgapTuple, hrangeTuple⟩,
      fun i hi => (hsegments i hi).2, fun i hi => (hgaps i hi).2, fun i hi => (hranges i hi).2,
      hvalue, hresult⟩
    rw [hhead, NativeReport.head]
    dsimp only
    rw [← hsegmentCount, ← hgapCount, ← hrangeCount]
  · rintro ⟨⟨⟨complete, hhead, hcomplete⟩, hsegments, hgaps, hranges⟩,
      ⟨⟨hsegmentTuple, hgapTuple, hrangeTuple⟩, hsegmentRoom, hgapRoom, hrangeRoom, hvalue,
        hresult⟩⟩
    refine ⟨native.head complete, hhead, (), tupleNew_eq_ok.mpr hsegmentTuple, (),
      tupleNew_eq_ok.mpr hgapTuple, (), tupleNew_eq_ok.mpr hrangeTuple, native.segments,
      ⟨rfl, fun i hi => ⟨hsegments i hi, hsegmentRoom i hi⟩⟩, native.gaps,
      ⟨rfl, fun i hi => ⟨hgaps i hi, hgapRoom i hi⟩⟩, native.unprocessed,
      ⟨rfl, fun i hi => ⟨hranges i hi, hrangeRoom i hi⟩⟩, native, ⟨?_, hvalue⟩, rfl, hresult⟩
    exact congrArg (fun complete => { native with complete := complete }) hcomplete

/-- An answer that the Runtime gives for a report, with its error. -/
inductive NativeTask.Answers (task : NativeTask) (error : ℤ) : Prop
  | report : task.getReport.1 = error → Answers task error
  | segment (i : ℕ) : i < task.getReport.2.segmentCount → (task.getSegment i).1 = error →
      Answers task error
  | gap (i : ℕ) : i < task.getReport.2.gapCount → (task.getGap i).1 = error → Answers task error
  | track (i j : ℕ) : i < task.getReport.2.gapCount → j < (task.getGap i).2.trackCount →
      (task.getGapTrack i j).1 = error → Answers task error
  | reason (i j : ℕ) : i < task.getReport.2.gapCount → j < (task.getGap i).2.reasonCount →
      (task.getGapReason i j).1 = error → Answers task error
  | range (i : ℕ) : i < task.getReport.2.unprocessedRangeCount →
      (task.getUnprocessedRange i).1 = error → Answers task error

/-- Where memory is missing, no code of the Runtime comes of it. -/
theorem exportGap_eq_code {error : ℤ} (h : exportGap memory task i = .error (.code error))
    (hi : i < task.getReport.2.gapCount) : task.Answers error ∧ error ≠ 0 := by
  unfold exportGap at h
  rcases bind_eq_error.mp h with h | ⟨head, hhead, h⟩
  · exact (answer_eq_code.mp h).imp_left (.gap i hi)
  have hcount : (task.getGap i).2 = head := by rw [answer_eq_ok.mp hhead]
  rcases bind_eq_error.mp h with h | ⟨-, -, h⟩
  · exact absurd h calloc_ne_code
  rcases bind_eq_error.mp h with h | ⟨-, -, h⟩
  · exact absurd h calloc_ne_code
  rcases bind_eq_error.mp h with h | ⟨tracks, -, h⟩
  · obtain ⟨j, hj, h⟩ := mapM_eq_error h
    exact (answer_eq_code.mp h).imp_left (.track i j hi (hcount ▸ List.mem_range.mp hj))
  rcases bind_eq_error.mp h with h | ⟨reasons, -, h⟩
  · obtain ⟨j, hj, h⟩ := mapM_eq_error h
    exact (answer_eq_code.mp h).imp_left (.reason i j hi (hcount ▸ List.mem_range.mp hj))
  unfold recordingGapValue at h
  rcases bind_eq_error.mp h with h | ⟨-, -, h⟩
  · exact absurd h tupleNew_ne_code
  rcases bind_eq_error.mp h with h | ⟨-, -, h⟩
  · exact absurd h tupleNew_ne_code
  rcases bind_eq_error.mp h with h | ⟨tracks', -, h⟩
  · exact absurd h buildAll_ne_code
  rcases bind_eq_error.mp h with h | ⟨reasons', -, h⟩
  · exact absurd h buildAll_ne_code
  · exact absurd h build_ne_code

theorem pyExportReport_eq_code {error : ℤ}
    (h : pyExportReport memory task = .error (.code error)) : task.Answers error ∧ error ≠ 0 := by
  replace h := reported_eq_code.mp h |>.1
  unfold exportReport at h
  rcases bind_eq_error.mp h with h | ⟨head, hhead, h⟩
  · exact (answer_eq_code.mp h).imp_left .report
  have hcount : task.getReport.2 = head := by rw [answer_eq_ok.mp hhead]
  rcases bind_eq_error.mp h with h | ⟨-, -, h⟩
  · exact absurd h tupleNew_ne_code
  rcases bind_eq_error.mp h with h | ⟨-, -, h⟩
  · exact absurd h tupleNew_ne_code
  rcases bind_eq_error.mp h with h | ⟨-, -, h⟩
  · exact absurd h tupleNew_ne_code
  rcases bind_eq_error.mp h with h | ⟨segments, -, h⟩
  · obtain ⟨i, hi, h⟩ := mapM_eq_error h
    rcases bind_eq_error.mp h with h | ⟨segment, -, h⟩
    · exact (answer_eq_code.mp h).imp_left (.segment i (hcount ▸ List.mem_range.mp hi))
    · exact absurd h build_ne_code
  rcases bind_eq_error.mp h with h | ⟨gaps, -, h⟩
  · obtain ⟨i, hi, h⟩ := mapM_eq_error h
    exact exportGap_eq_code h (hcount ▸ List.mem_range.mp hi)
  rcases bind_eq_error.mp h with h | ⟨ranges, -, h⟩
  · obtain ⟨i, hi, h⟩ := mapM_eq_error h
    rcases bind_eq_error.mp h with h | ⟨range, -, h⟩
    · exact (answer_eq_code.mp h).imp_left (.range i (hcount ▸ List.mem_range.mp hi))
    · exact absurd h build_ne_code
  rcases bind_eq_error.mp h with h | ⟨value, -, h⟩
  · exact absurd h build_ne_code
  · exact absurd h build_ne_code

end Report

/-! ### The list -/

section Listing

variable {α : Type} {memory : Site → Bool} {listing : NativeListing α} {exhausted : ℤ}

theorem requestItem_eq_ok {i : ℕ} {item : α} :
    requestItem memory listing i = .ok item ↔
      listing.get i = (0, item) ∧ memory (.item i) = true := by
  unfold requestItem
  simp only [bind_eq_ok, answer_eq_ok, build_eq_ok]
  constructor
  · rintro ⟨_, h, rfl, hmemory⟩
    exact ⟨h, hmemory⟩
  · rintro ⟨h, hmemory⟩
    exact ⟨item, h, rfl, hmemory⟩

theorem requestCount_eq_ok {count : ℕ} :
    requestCount listing exhausted = .ok count ↔
      listing.getError = (0, 0) ∧ listing.getCount = (0, count) ∧ count ≤ Frames.pySsizeMax := by
  unfold requestCount
  simp only [bind_eq_ok, answer_eq_ok]
  constructor
  · rintro ⟨terminal, hterminal, ⟨⟩, hdone, n, hn, h⟩
    split at h
    · cases h
      cases hdone
      exact ⟨hterminal, hn, ‹_›⟩
    · cases h
  · rintro ⟨hdone, hcount, hle⟩
    refine ⟨0, hdone, (), rfl, count, hcount, ?_⟩
    rw [if_pos hle]

/-- Where a code of a list request comes from. -/
inductive NativeListing.Answers (listing : NativeListing α) (exhausted error : ℤ) : Prop
  | terminal : listing.getError.1 = error → Answers listing exhausted error
  | failed : listing.getError.2 = error → Answers listing exhausted error
  | count : listing.getCount.1 = error → Answers listing exhausted error
  | many : Frames.pySsizeMax < listing.getCount.2 → exhausted = error →
      Answers listing exhausted error
  | item (i : ℕ) : i < listing.getCount.2 → (listing.get i).1 = error →
      Answers listing exhausted error

theorem requestCount_eq_code {error : ℤ}
    (h : requestCount listing exhausted = .error (.code error)) :
    listing.Answers exhausted error := by
  unfold requestCount at h
  rcases bind_eq_error.mp h with h | ⟨terminal, hterminal, h⟩
  · exact .terminal (answer_eq_code.mp h).1
  have hdone : listing.getError.2 = terminal := by rw [answer_eq_ok.mp hterminal]
  rcases bind_eq_error.mp h with h | ⟨-, -, h⟩
  · exact .failed (hdone.trans (answer_eq_code.mp h).1)
  rcases bind_eq_error.mp h with h | ⟨count, hcount, h⟩
  · exact .count (answer_eq_code.mp h).1
  have hcount : listing.getCount.2 = count := by rw [answer_eq_ok.mp hcount]
  split at h
  · cases h
  · cases h
    exact .many (by omega) rfl

/-- There is memory for the list of this many items. -/
structure ListRoom (memory : Site → Bool) (count : ℕ) : Prop where
  list : memory .list = true
  items : ∀ i < count, memory (.item i) = true
  result : memory .result = true

theorem requestValues_eq_ok {items : List α} :
    requestValues memory listing exhausted = .ok items ↔
      listing.Gives items ∧ items.length ≤ Frames.pySsizeMax ∧ memory .list = true ∧
        ∀ i < items.length, memory (.item i) = true := by
  unfold requestValues
  constructor
  · intro h
    split at h
    · rw [bind_eq_ok] at h
      obtain ⟨-, -, h⟩ := h
      cases h
    · rename_i count hcount
      obtain ⟨hdone, hcount, hle⟩ := requestCount_eq_ok.mp hcount
      obtain ⟨⟨⟩, hlist, h⟩ := bind_eq_ok.mp h
      obtain ⟨rfl, hitems⟩ := mapM_range_eq_ok.mp h
      refine ⟨⟨hdone, hcount, ?_⟩, hle, (build_eq_ok.mp hlist).2, ?_⟩
      · intro i hi
        exact (requestItem_eq_ok.mp (hitems i hi)).1
      · intro i hi
        exact (requestItem_eq_ok.mp (hitems i hi)).2
  · rintro ⟨⟨hdone, hcount, hget⟩, hle, hlist, hitem⟩
    rw [requestCount_eq_ok.mpr ⟨hdone, hcount, hle⟩]
    refine bind_eq_ok.mpr ⟨(), build_eq_ok.mpr ⟨rfl, hlist⟩, mapM_range_eq_ok.mpr ⟨rfl, ?_⟩⟩
    intro i hi
    exact requestItem_eq_ok.mpr ⟨hget i hi, hitem i hi⟩

theorem requestValues_eq_code {error : ℤ}
    (h : requestValues memory listing exhausted = .error (.code error)) :
    listing.Answers exhausted error := by
  unfold requestValues at h
  split at h
  · rename_i failure hfailure
    rcases bind_eq_error.mp h with h | ⟨-, -, h⟩
    · exact absurd h build_ne_code
    · cases h
      exact requestCount_eq_code hfailure
  · rename_i count hcount
    rcases bind_eq_error.mp h with h | ⟨-, -, h⟩
    · exact absurd h build_ne_code
    obtain ⟨i, hi, h⟩ := mapM_eq_error h
    rcases bind_eq_error.mp h with h | ⟨item, -, h⟩
    · have hlength : listing.getCount.2 = count := by rw [(requestCount_eq_ok.mp hcount).2.1]
      exact .item i (hlength ▸ List.mem_range.mp hi) (answer_eq_code.mp h).1
    · exact absurd h build_ne_code

/-- **The extension gives the whole list of the Runtime**, when every answer and every piece of
memory is there. -/
theorem pyRequestResult_eq_ok {items : List α} :
    pyRequestResult memory listing exhausted = .ok items ↔
      listing.Gives items ∧ items.length ≤ Frames.pySsizeMax ∧ ListRoom memory items.length := by
  unfold pyRequestResult
  constructor
  · intro h
    split at h
    · rename_i values hvalues
      obtain ⟨rfl, hresult⟩ := build_eq_ok.mp h
      obtain ⟨hgives, hle, hlist, hitems⟩ := requestValues_eq_ok.mp hvalues
      exact ⟨hgives, hle, hlist, hitems, hresult⟩
    · obtain ⟨-, -, h⟩ := bind_eq_ok.mp h
      obtain ⟨-, -, h⟩ := bind_eq_ok.mp h
      cases h
    · cases h
  · rintro ⟨hgives, hle, hlist, hitems, hresult⟩
    rw [requestValues_eq_ok.mpr ⟨hgives, hle, hlist, hitems⟩]
    exact build_eq_ok.mpr ⟨rfl, hresult⟩

theorem pyRequestResult_eq_code {error : ℤ}
    (h : pyRequestResult memory listing exhausted = .error (.code error)) :
    listing.Answers exhausted error := by
  unfold pyRequestResult at h
  split at h
  · exact absurd h build_ne_code
  · rename_i code hcode
    rcases bind_eq_error.mp h with h | ⟨-, -, h⟩
    · exact absurd h build_ne_code
    rcases bind_eq_error.mp h with h | ⟨-, -, h⟩
    · exact absurd h build_ne_code
    cases h
    exact requestValues_eq_code hcode
  · cases h

end Listing

end Tirtc.Exports
