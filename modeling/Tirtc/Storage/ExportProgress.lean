import Mathlib.Tactic.Common
import Mathlib.Algebra.Order.Ring.Rat
import Tirtc.Storage.FinishedExports

/-!
# The progress of an export, as it is seen

Three places write the progress of an ExportTask: an event of the Runtime, a read of
`progress_detail`, and the load of the report. The read clamps the fraction and never lowers it; the
event does not clamp, and the load does neither.

* `clamp`, `ExportTask.progressDetail`, `ExportTask.accepted`: the sections.
* `ProgressTask`, `progressCalls`: the calls on an ExportTask again, with the reads, and with
  `on_progress` behind the lock. What has been read and what has been heard is history, with the
  newest first.
* `ProgressCheck`: the condition on the fractions of the Runtime.
* `progress_cases`, `environment_progress_cases`: what a step does to the progress.
* `Steady`, `Seen`: fractions that never go back, and the invariant.
* `check_iff`: the condition is exact in every step.
* `progress_steady`: in every run under the condition nothing goes back or leaves the range.
* `progress_leaves`: a run in which it does.
-/

set_option autoImplicit false
set_option linter.unusedSectionVars false

namespace Tirtc.Exports

open Transition

/-! ## The sections -/

/-- `min(max(fraction, 0.0), 1.0)` -/
def clamp (fraction : ℚ) : ℚ := min (max fraction 0) 1

theorem clamp_range (fraction : ℚ) : 0 ≤ clamp fraction ∧ clamp fraction ≤ 1 :=
  ⟨le_min (le_max_right _ _) zero_le_one, min_le_right _ _⟩

namespace ExportTask

variable {ι : Type} (errorName : ℤ → String) (t : ExportTask ι)

/-- `result` and `value` are what `export_progress` gives, if it is called.
Source: `storage/__init__.py`, `ExportTask.progress_detail` -/
def progressDetail (result : NativeResult) (value : ExportProgress) :
    ExportTask ι × Except PyError ExportProgress :=
  if t.close.status = .open then
    match result.check errorName with
    | some e => (t, .error e)
    | none =>
        let current : ExportProgress := ⟨clamp value.fraction, value.coveredMs⟩
        let t :=
          if current.fraction ≥ t.progress.fraction then { t with progress := current } else t
        (t, .ok t.progress)
  else (t, .ok t.progress)

/-- The fraction of the event that is being delivered, if it is stored.
Source: `storage/__init__.py`, `ExportTask._handle_event` -/
def accepted : Option ℚ :=
  match t.delivering with
  | some (.progress fraction _) =>
      if t.terminal || decide (fraction < t.progress.fraction) then none else some fraction
  | _ => none

/-- The section of `_load_report` goes on to store the progress.
Source: `storage/__init__.py`, `ExportTask._load_report` -/
def loads (report progress : NativeResult) : Prop :=
  t.report = false ∧ report = .code 0 ∧ progress = .code 0

end ExportTask

/-! ## The calls -/

/-- An ExportTask with what has been seen of its progress. `notify` is the fraction with which the
pool thread calls `on_progress` next. -/
structure ProgressTask (ι : Type) where
  task : ExportTask ι := {}
  notify : Option ℚ := none
  reads : List ℚ := []
  heard : List ℚ := []

/-- A call or a step of it, or a read of `progress` or `progress_detail`. -/
inductive ProgressAction
  | call (act : ExportAction)
  | progressDetail (result : NativeResult) (value : ExportProgress)
  deriving DecidableEq

/-- A step of the Runtime or the pool, or the call of `on_progress`. -/
inductive ProgressEnvironment
  | environment (e : ExportEnvironment)
  | onProgress
  deriving DecidableEq

section Calls

variable {ι : Type} (errorName : ℤ → String) (overflow : PyError) (listens : Bool)
  (s : ProgressTask ι) (i : ι)

/-- A step of thread `i`. -/
def progressStep : ExportPc → ProgressAction → Option (ProgressTask ι × ExportPc)
  | .idle _, .progressDetail result value =>
      match s.task.progressDetail errorName result value with
      | (t, .ok progress) =>
          some ({ s with task := t, reads := progress.fraction :: s.reads }, .idle .none)
      | (t, .error e) => some ({ s with task := t }, .idle (.raised e))
  | p, .call act =>
      (deliverStep errorName overflow s.task i p act).map fun next =>
        ({ s with task := next.1 }, next.2)
  | _, _ => none

/-- A step of the Runtime or the pool. The pool thread that calls `on_progress` does nothing else;
`listens` says that there is such a callback.
Source: `storage/__init__.py`, `ExportTask._handle_event` -/
def progressEnvironment : ProgressEnvironment → Option (ProgressTask ι)
  | .environment (.post event) =>
      (deliverEnvironment errorName s.task (.post event)).map fun t => { s with task := t }
  | .environment .handle =>
      if s.notify.isSome then none
      else
        (deliverEnvironment errorName s.task .handle).map fun t =>
          { s with task := t, notify := if listens then s.task.accepted else none }
  | .environment e =>
      if s.notify.isSome then none
      else (deliverEnvironment errorName s.task e).map fun t => { s with task := t }
  | .onProgress =>
      s.notify.map fun fraction => { s with notify := none, heard := fraction :: s.heard }

end Calls

/-- **The calls on one ExportTask**, with all that is seen of its progress. -/
def progressCalls (ι : Type) (errorName : ℤ → String) (overflow : PyError) (listens : Bool) :
    Threads ι (ProgressTask ι) ExportPc ProgressAction ProgressEnvironment where
  start s := s = {}
  entry := .idle .none
  step i s p act := progressStep errorName overflow s i p act
  env s e := progressEnvironment errorName listens s e

/-! ## The condition -/

/-- **The condition on the fractions of the Runtime**: an event that is stored has at most 1, and a
load that stores its progress has between the present one and 1. -/
def ProgressCheck {ι : Type} (c : Config ι (ProgressTask ι) ExportPc) :
    Label ι ProgressAction ProgressEnvironment → Prop
  | .thread _ (.call (.loaded report progress value _)) =>
      c.shared.task.loads report progress →
        c.shared.task.progress.fraction ≤ value.fraction ∧ value.fraction ≤ 1
  | .env (.environment .handle) => ∀ fraction, c.shared.task.accepted = some fraction → fraction ≤ 1
  | _ => True

/-! ## What a step does to the progress -/

section Progress

variable {ι : Type} {errorName : ℤ → String} {overflow : PyError} {listens : Bool}
  {t t' : ExportTask ι} {s s' : ProgressTask ι} {i : ι}

variable (errorName t) in
/-- The load of the report stores the progress, or leaves it. -/
theorem load_progress (report progress : NativeResult) (value : ExportProgress)
    (convert : Option PyError) :
    (t.loads report progress ∧
        (t.loadReport errorName report progress value convert).1.progress = value) ∨
      (¬ t.loads report progress ∧
        (t.loadReport errorName report progress value convert).1.progress = t.progress) := by
  unfold ExportTask.loadReport ExportTask.loads
  split
  next hreport => exact .inr ⟨fun h => by simp [hreport] at h, rfl⟩
  next hreport =>
    split
    next e hr => exact .inr ⟨fun h => by simp [h.2.1, NativeResult.check] at hr, rfl⟩
    next e _ hp => exact .inr ⟨fun h => by simp [h.2.2, NativeResult.check] at hp, rfl⟩
    next hr hp =>
      have hloads : t.report = false ∧ report = .code 0 ∧ progress = .code 0 :=
        ⟨Bool.eq_false_iff.mpr hreport, NativeResult.check_eq_none.mp hr,
          NativeResult.check_eq_none.mp hp⟩
      split
      · exact .inl ⟨hloads, rfl⟩
      · exact .inl ⟨hloads, rfl⟩

theorem complete_progress (code durationMs : ℤ) (path : String) :
    (t.complete errorName code path durationMs).progress = t.progress := by
  unfold ExportTask.complete
  split
  · rfl
  · rfl

theorem begin_progress (stops : Bool) : (beginCall t i stops).1.progress = t.progress := by
  unfold beginCall
  rcases t.close.begin_cases false with ⟨-, hb⟩ | ⟨-, hb⟩ | ⟨-, hb⟩ | ⟨-, hb⟩
  all_goals
    simp only [hb]

/-- A step writes the progress of a load, or none. -/
def Writes (t t' : ExportTask ι) (act : ExportAction) : Prop :=
  (∃ report progress value convert, act = .loaded report progress value convert ∧
    t.loads report progress ∧ t'.progress = value) ∨
  ((∀ report progress value convert, act = .loaded report progress value convert →
    ¬ t.loads report progress) ∧ t'.progress = t.progress)

theorem Writes.none {act : ExportAction} (hact : ∀ report progress value convert,
    act ≠ .loaded report progress value convert) (h : t'.progress = t.progress) :
    Writes t t' act :=
  .inr ⟨fun report progress value convert heq => absurd heq (hact report progress value convert), h⟩

variable (errorName t) in
theorem Writes.load (report progress : NativeResult) (value : ExportProgress)
    (convert : Option PyError) :
    Writes t (t.loadReport errorName report progress value convert).1
      (.loaded report progress value convert) := by
  rcases load_progress errorName t report progress value convert with
    ⟨hloads, hvalue⟩ | ⟨hnot, hsame⟩
  · exact .inl ⟨report, progress, value, convert, rfl, hloads, hvalue⟩
  · refine .inr ⟨?_, hsame⟩
    intro r p v k heq
    cases heq
    exact hnot

/-- A stage of `stop()` or `wait()`. -/
theorem call_writes {stage : CallStage} {act : ExportAction}
    {next : CallStage ⊕ Except PyError RecordingFile}
    (h : callStep errorName t i stage act = some (t', next)) : Writes t t' act := by
  cases callStep_cases h with
  | begins => exact .none (by simp) (begin_progress false)
  | completes g code path durationMs => exact .none (by simp) (complete_progress _ _ _)
  | loads g report progress value convert u hload =>
      have hwrites := Writes.load errorName t report progress value convert
      rw [hload] at hwrites
      exact hwrites
  | loadFails g report progress value convert u e hload =>
      have hwrites := Writes.load errorName t report progress value convert
      rw [hload] at hwrites
      exact hwrites
  | _ => exact .none (by simp) rfl

/-- **What a step of a thread does to the progress.** -/
theorem progress_cases {p p' : ExportPc} {act : ExportAction}
    (h : deliverStep errorName overflow t i p act = some (t', p')) : Writes t t' act := by
  rcases deliverStep_cases h with hmoves | ⟨g, code, path, durationMs, rfl, rfl, rfl, rfl⟩
  · cases hmoves with
    | begins last => exact .none (by simp) (begin_progress true)
    | reads report progress value convert => exact .load errorName t report progress value convert
    | calls stage act t' next hcall => exact call_writes hcall
    | parentCalls stage act t' next hcall => exact call_writes hcall
    | cancels p p' act hcall hnone hp' =>
        rcases hcall with rfl | rfl
        · exact .none (by simp) rfl
        · exact .none (by simp) rfl
    | quiet p p' act hother hp' hcancel => exact .none hother rfl
    | _ => exact .none (by simp) rfl
  · exact .none (by simp) rfl

/-- **What a step of the Runtime or the pool does to it**: the event that is accepted is stored. -/
theorem environment_progress_cases {e : ExportEnvironment}
    (h : deliverEnvironment errorName t e = some t') :
    (e = .handle ∧ ∃ fraction, t.accepted = some fraction ∧ t.progress.fraction ≤ fraction ∧
      t'.progress.fraction = fraction) ∨
    ((e = .handle → t.accepted = none) ∧ t'.progress = t.progress) := by
  cases e with
  | post event =>
      obtain ⟨r, -, rfl⟩ := Option.map_eq_some_iff.mp h
      exact .inr ⟨fun heq => (by cases heq), rfl⟩
  | drainBegin =>
      simp only [deliverEnvironment, environmentStep] at h
      split at h
      · cases h
      · cases h
        exact .inr ⟨fun heq => (by cases heq), rfl⟩
  | handle =>
      simp only [deliverEnvironment] at h
      split at h
      · next code path durationMs hdelivering =>
          have hnone : t.accepted = none := by simp [ExportTask.accepted, hdelivering]
          split at h
          · cases h
            exact .inr ⟨fun _ => hnone, rfl⟩
          · cases h
            exact .inr ⟨fun _ => hnone, complete_progress code durationMs path⟩
      · obtain ⟨event, hdelivering, rfl⟩ := Option.map_eq_some_iff.mp h
        cases event with
        | progress fraction coveredMs =>
            simp only [ExportTask.handleEvent, ExportTask.accepted, hdelivering]
            split
            · exact .inr ⟨fun _ => rfl, rfl⟩
            next hstored =>
              simp only [Bool.or_eq_true, decide_eq_true_eq, not_or, not_lt] at hstored
              exact .inl ⟨trivial, fraction, rfl, hstored.2, rfl⟩
        | gap => exact .inr ⟨fun _ => by simp [ExportTask.accepted, hdelivering], rfl⟩
        | completed code path durationMs =>
            next hother => exact absurd hdelivering (hother code path durationMs)
  | drainEnd =>
      simp only [deliverEnvironment, environmentStep] at h
      split at h
      · cases h
        exact .inr ⟨fun heq => (by cases heq), rfl⟩
      · cases h

variable (errorName) in
/-- **What a read does to it**: it stores nothing that is lower or not in range, and returns what is
stored then. -/
theorem progressDetail_cases (result : NativeResult) (value : ExportProgress)
    (hrange : t.progress.fraction ≤ 1) :
    ∃ u answer, t.progressDetail errorName result value = (u, answer) ∧
      t.progress.fraction ≤ u.progress.fraction ∧ u.progress.fraction ≤ 1 ∧
      ∀ progress, answer = .ok progress → progress = u.progress := by
  have hsame : ∀ answer : Except PyError ExportProgress,
      (∀ progress, answer = .ok progress → progress = t.progress) →
      t.progressDetail errorName result value = (t, answer) →
      ∃ u answer, t.progressDetail errorName result value = (u, answer) ∧
        t.progress.fraction ≤ u.progress.fraction ∧ u.progress.fraction ≤ 1 ∧
        ∀ progress, answer = .ok progress → progress = u.progress := by
    intro answer hanswer heq
    exact ⟨t, answer, heq, le_refl _, hrange, hanswer⟩
  by_cases hopen : t.close.status = .open
  · unfold ExportTask.progressDetail at *
    rw [if_pos hopen] at *
    cases hcheck : result.check errorName with
    | some e =>
        rw [hcheck] at hsame
        exact hsame (.error e) (fun _ heq => by cases heq) rfl
    | none =>
        rw [hcheck] at hsame
        by_cases hlower : t.progress.fraction ≤ clamp value.fraction
        · refine ⟨{ t with progress := ⟨clamp value.fraction, value.coveredMs⟩ },
            .ok ⟨clamp value.fraction, value.coveredMs⟩, ?_, hlower, (clamp_range _).2, ?_⟩
          · simp only [ge_iff_le, if_pos hlower]
          · intro progress heq
            cases heq
            rfl
        · refine hsame (.ok t.progress) (fun _ heq => by cases heq; rfl) ?_
          simp only [ge_iff_le, if_neg hlower]
  · refine hsame (.ok t.progress) (fun _ heq => by cases heq; rfl) ?_
    unfold ExportTask.progressDetail
    rw [if_neg hopen]

/-! ## What is seen -/

/-- The fractions, with the newest first, never go back, and lie between 0 and 1. -/
def Steady (fractions : List ℚ) : Prop :=
  fractions.Pairwise (fun newer older => older ≤ newer) ∧
    ∀ fraction ∈ fractions, 0 ≤ fraction ∧ fraction ≤ 1

/-- One more fraction, not below the others. -/
theorem Steady.cons {fractions : List ℚ} {fraction : ℚ} (h : Steady fractions)
    (hlast : ∀ older ∈ fractions, older ≤ fraction) (hrange : 0 ≤ fraction ∧ fraction ≤ 1) :
    Steady (fraction :: fractions) := by
  refine ⟨List.pairwise_cons.mpr ⟨hlast, h.1⟩, ?_⟩
  intro other hmem
  rcases List.mem_cons.mp hmem with rfl | hmem
  · exact hrange
  · exact h.2 other hmem

/-- **The invariant of what is seen**: nothing that was read or heard is above the present progress,
and nothing that was heard is above what comes next. -/
structure Seen (s : ProgressTask ι) : Prop where
  range : 0 ≤ s.task.progress.fraction ∧ s.task.progress.fraction ≤ 1
  reads : Steady s.reads
  heard : Steady s.heard
  last : ∀ fraction ∈ s.reads ++ s.heard, fraction ≤ s.task.progress.fraction
  next : ∀ fraction, s.notify = some fraction →
    (∀ older ∈ s.heard, older ≤ fraction) ∧ 0 ≤ fraction ∧ fraction ≤ s.task.progress.fraction

/-- The progress grows, and nothing is seen of it yet. -/
theorem Seen.grow {t : ExportTask ι} (h : Seen s)
    (hgrow : s.task.progress.fraction ≤ t.progress.fraction) (hrange : t.progress.fraction ≤ 1) :
    Seen { s with task := t } where
  range := ⟨h.range.1.trans hgrow, hrange⟩
  reads := h.reads
  heard := h.heard
  last fraction hmem := (h.last fraction hmem).trans hgrow
  next fraction hnotify := by
    obtain ⟨holder, hzero, hle⟩ := h.next fraction hnotify
    exact ⟨holder, hzero, hle.trans hgrow⟩

/-- A read returns the present progress. -/
theorem Seen.read (h : Seen s) :
    Seen { s with reads := s.task.progress.fraction :: s.reads } where
  range := h.range
  reads := h.reads.cons (fun older hmem => h.last older (List.mem_append_left _ hmem)) h.range
  heard := h.heard
  last fraction hmem := by
    rcases List.mem_cons.mp hmem with rfl | hmem
    · exact le_refl _
    · exact h.last fraction hmem
  next := h.next

/-- `on_progress` is called. -/
theorem Seen.hear {fraction : ℚ} (h : Seen s) (hnotify : s.notify = some fraction) :
    Seen { s with notify := none, heard := fraction :: s.heard } where
  range := h.range
  reads := h.reads
  heard := by
    obtain ⟨holder, hzero, hle⟩ := h.next fraction hnotify
    exact h.heard.cons holder ⟨hzero, hle.trans h.range.2⟩
  last other hmem := by
    rcases List.mem_append.mp hmem with hread | hheard
    · exact h.last other (List.mem_append_left _ hread)
    · rcases List.mem_cons.mp hheard with rfl | hheard
      · exact (h.next other hnotify).2.2
      · exact h.last other (List.mem_append_right _ hheard)
  next other hnone := by cases hnone

/-- An event is stored, and `on_progress` comes next. -/
theorem Seen.store {t : ExportTask ι} {notify : Option ℚ} (h : Seen s)
    (hgrow : s.task.progress.fraction ≤ t.progress.fraction) (hrange : t.progress.fraction ≤ 1)
    (hnotify : ∀ fraction, notify = some fraction → fraction = t.progress.fraction) :
    Seen { s with task := t, notify := notify } where
  range := ⟨h.range.1.trans hgrow, hrange⟩
  reads := h.reads
  heard := h.heard
  last fraction hmem := (h.last fraction hmem).trans hgrow
  next fraction hnext := by
    obtain rfl := hnotify fraction hnext
    exact ⟨fun older hmem => (h.last older (List.mem_append_right _ hmem)).trans hgrow,
      h.range.1.trans hgrow, le_refl _⟩

/-- The progress does not go back, and is at most 1 then. -/
def Grows (s s' : ProgressTask ι) : Prop :=
  s.task.progress.fraction ≤ s'.task.progress.fraction ∧ s'.task.progress.fraction ≤ 1

/-- A step that leaves the progress as it is. -/
theorem Grows.same (hrange : s.task.progress.fraction ≤ 1)
    (h : s'.task.progress = s.task.progress) : Grows s s' := by
  unfold Grows
  rw [h]
  exact ⟨le_refl _, hrange⟩

/-- A step of a thread that does not lower the progress. -/
theorem seen_thread {p p' : ExportPc} {act : ProgressAction} (h : Seen s) (hgrows : Grows s s')
    (hstep : progressStep errorName overflow s i p act = some (s', p')) : Seen s' := by
  unfold progressStep at hstep
  split at hstep
  · next result value =>
      obtain ⟨u, answer, hread, hgrow, hrange, hanswer⟩ :=
        progressDetail_cases errorName result value h.range.2
      rw [hread] at hstep
      cases answer with
      | ok progress =>
          obtain rfl := hanswer progress rfl
          cases hstep
          exact (h.grow hgrow hrange).read
      | error e =>
          cases hstep
          exact h.grow hgrow hrange
  · obtain ⟨⟨t, next⟩, -, hnext⟩ := Option.map_eq_some_iff.mp hstep
    cases hnext
    exact h.grow hgrows.1 hgrows.2
  · cases hstep

/-- A step of the Runtime or the pool that does not lower it. -/
theorem seen_environment {e : ProgressEnvironment} (h : Seen s) (hgrows : Grows s s')
    (hstep : progressEnvironment errorName listens s e = some s') : Seen s' := by
  unfold progressEnvironment at hstep
  split at hstep
  · obtain ⟨t, -, rfl⟩ := Option.map_eq_some_iff.mp hstep
    exact h.grow hgrows.1 hgrows.2
  · split at hstep
    · cases hstep
    · obtain ⟨t, henv, rfl⟩ := Option.map_eq_some_iff.mp hstep
      refine h.store hgrows.1 hgrows.2 ?_
      intro fraction hnotify
      split at hnotify
      · rcases environment_progress_cases henv with
          ⟨-, stored, haccepted, -, hvalue⟩ | ⟨hnone, -⟩
        · rw [haccepted] at hnotify
          rw [hvalue]
          exact (Option.some.inj hnotify).symm
        · rw [hnone rfl] at hnotify
          cases hnotify
      · cases hnotify
  · split at hstep
    · cases hstep
    · obtain ⟨t, -, rfl⟩ := Option.map_eq_some_iff.mp hstep
      exact h.grow hgrows.1 hgrows.2
  · obtain ⟨fraction, hnotify, rfl⟩ := Option.map_eq_some_iff.mp hstep
    exact h.hear hnotify

/-- **The condition is exact**, for a step of a thread. -/
theorem check_thread {pc : ι → ExportPc} {p p' : ExportPc} {act : ProgressAction}
    (hrange : s.task.progress.fraction ≤ 1)
    (hstep : progressStep errorName overflow s i p act = some (s', p')) :
    ProgressCheck ⟨s, pc⟩ (.thread i act) ↔ Grows s s' := by
  unfold progressStep at hstep
  split at hstep
  · next result value =>
      obtain ⟨u, answer, hread, hgrow, hle, -⟩ :=
        progressDetail_cases errorName result value hrange
      rw [hread] at hstep
      refine ⟨fun _ => ?_, fun _ => trivial⟩
      cases answer with
      | ok progress =>
          cases hstep
          exact ⟨hgrow, hle⟩
      | error e =>
          cases hstep
          exact ⟨hgrow, hle⟩
  · obtain ⟨⟨t, next⟩, hcall, hnext⟩ := Option.map_eq_some_iff.mp hstep
    cases hnext
    rcases progress_cases hcall with ⟨report, progress, value, convert, rfl, hloads, hvalue⟩ |
      ⟨hnot, hsame⟩
    · unfold Grows
      rw [hvalue]
      exact ⟨fun hok => hok hloads, fun hgrows _ => hgrows⟩
    · refine ⟨fun _ => .same hrange hsame, fun _ => ?_⟩
      unfold ProgressCheck
      split
      · next heq =>
          cases heq
          intro hloads
          exact absurd hloads (hnot _ _ _ _ rfl)
      · next heq => cases heq
      · trivial
  · cases hstep

/-- **The condition is exact**, for a step of the Runtime or the pool. -/
theorem check_environment {pc : ι → ExportPc} {e : ProgressEnvironment}
    (hrange : s.task.progress.fraction ≤ 1)
    (hstep : progressEnvironment errorName listens s e = some s') :
    ProgressCheck ⟨s, pc⟩ (.env e) ↔ Grows s s' := by
  have hother : ∀ {e t}, deliverEnvironment errorName s.task e = some t → e ≠ .handle →
      t.progress = s.task.progress := by
    intro e t henv hne
    rcases environment_progress_cases henv with ⟨heq, -⟩ | ⟨-, hsame⟩
    · exact absurd heq hne
    · exact hsame
  unfold progressEnvironment at hstep
  split at hstep
  · obtain ⟨t, henv, rfl⟩ := Option.map_eq_some_iff.mp hstep
    exact ⟨fun _ => .same hrange (hother henv (by simp)), fun _ => trivial⟩
  · split at hstep
    · cases hstep
    · obtain ⟨t, henv, rfl⟩ := Option.map_eq_some_iff.mp hstep
      rcases environment_progress_cases henv with
        ⟨-, fraction, haccepted, hlower, hvalue⟩ | ⟨hnone, hsame⟩
      · unfold Grows
        rw [hvalue]
        refine ⟨fun hok => ⟨hlower, hok fraction haccepted⟩, ?_⟩
        rintro ⟨-, hle⟩ other hother
        rw [haccepted] at hother
        rw [← Option.some.inj hother]
        exact hle
      · refine ⟨fun _ => .same hrange hsame, ?_⟩
        intro _ other hother
        rw [hnone rfl] at hother
        cases hother
  · next e _ hne =>
      split at hstep
      · cases hstep
      · obtain ⟨t, henv, rfl⟩ := Option.map_eq_some_iff.mp hstep
        refine ⟨fun _ => .same hrange (hother henv hne), fun _ => ?_⟩
        unfold ProgressCheck
        split
        · trivial
        · next heq =>
            cases heq
            exact absurd rfl hne
        · trivial
  · obtain ⟨fraction, -, rfl⟩ := Option.map_eq_some_iff.mp hstep
    exact ⟨fun _ => .same hrange rfl, fun _ => trivial⟩

end Progress

/-! ## Runs -/

section Runs

variable {ι : Type} [DecidableEq ι] {errorName : ℤ → String} {overflow : PyError} {listens : Bool}
  {c c' : Config ι (ProgressTask ι) ExportPc}

/-- The condition is exact in every step. -/
theorem check_iff {l : Label ι ProgressAction ProgressEnvironment}
    (hrange : c.shared.task.progress.fraction ≤ 1)
    (hstep : (progressCalls ι errorName overflow listens).machine.step c l = some c') :
    ProgressCheck c l ↔ Grows c.shared c'.shared := by
  rcases l with ⟨i, act⟩ | ⟨e⟩
  · obtain ⟨⟨s', p'⟩, hnext, rfl⟩ := Option.map_eq_some_iff.mp hstep
    exact check_thread hrange hnext
  · obtain ⟨s', hnext, rfl⟩ := Option.map_eq_some_iff.mp hstep
    exact check_environment hrange hnext

/-- A step under the condition keeps the invariant. -/
theorem seen_step {l : Label ι ProgressAction ProgressEnvironment} (h : Seen c.shared)
    (hok : ProgressCheck c l)
    (hstep : (progressCalls ι errorName overflow listens).machine.step c l = some c') :
    Seen c'.shared := by
  have hgrows := (check_iff h.range.2 hstep).mp hok
  rcases l with ⟨i, act⟩ | ⟨e⟩
  · obtain ⟨⟨s', p'⟩, hnext, rfl⟩ := Option.map_eq_some_iff.mp hstep
    exact seen_thread h hgrows hnext
  · obtain ⟨s', hnext, rfl⟩ := Option.map_eq_some_iff.mp hstep
    exact seen_environment h hgrows hnext

/-- So the invariant holds in every run under the condition. -/
theorem seen_reach
    (hc : (progressCalls ι errorName overflow listens).machine.ReachWith ProgressCheck c) :
    Seen c.shared := by
  refine hc.invariant (I := fun c => Seen c.shared) ?_ ?_
  · rintro c ⟨hstart, -⟩
    have hstart : c.shared = {} := hstart
    rw [hstart]
    exact
      { range := ⟨le_refl _, zero_le_one⟩
        reads := ⟨List.Pairwise.nil, fun _ hmem => absurd hmem (List.not_mem_nil)⟩
        heard := ⟨List.Pairwise.nil, fun _ hmem => absurd hmem (List.not_mem_nil)⟩
        last := fun _ hmem => absurd hmem (List.not_mem_nil)
        next := fun _ hnotify => by cases hnotify }
  · intro c l c' h hok hstep
    exact seen_step h hok hstep

/-- **Progress does not go back, and stays in range**, in every run of the calls whose steps all
meet the condition: neither what is stored, nor what is read, nor what `on_progress` hears. And the
condition is exact: a step that does not meet it lowers the progress or takes it above 1. -/
theorem progress_steady
    (hc : (progressCalls ι errorName overflow listens).machine.ReachWith ProgressCheck c) :
    (Steady c.shared.reads ∧ Steady c.shared.heard ∧
      0 ≤ c.shared.task.progress.fraction ∧ c.shared.task.progress.fraction ≤ 1) ∧
    ∀ l c', (progressCalls ι errorName overflow listens).machine.step c l = some c' →
      (ProgressCheck c l ↔
        c.shared.task.progress.fraction ≤ c'.shared.task.progress.fraction ∧
          c'.shared.task.progress.fraction ≤ 1) := by
  have hseen := seen_reach hc
  refine ⟨⟨hseen.reads, hseen.heard, hseen.range⟩, ?_⟩
  intro l c' hstep
  exact check_iff hseen.range.2 hstep

end Runs

/-! ## Two runs -/

instance {ι : Type} (t : ExportTask ι) (report progress : NativeResult) :
    Decidable (t.loads report progress) :=
  inferInstanceAs (Decidable (_ ∧ _))

instance {ι : Type} (c : Config ι (ProgressTask ι) ExportPc) :
    (l : Label ι ProgressAction ProgressEnvironment) → Decidable (ProgressCheck c l)
  | .thread _ (.call (.loaded _ _ _ _)) => inferInstanceAs (Decidable (_ → _))
  | .env (.environment .handle) =>
      decidable_of_iff (∀ fraction ∈ c.shared.task.accepted, fraction ≤ 1) Iff.rfl
  | .thread _ (.progressDetail _ _) => isTrue trivial
  | .thread _ (.call .stop) | .thread _ (.call (.wait _)) => isTrue trivial
  | .thread _ (.call .cancel) | .thread _ (.call .report) => isTrue trivial
  | .thread _ (.call .closeFromParent) => isTrue trivial
  | .thread _ (.call .go) | .thread _ (.call .timeout) => isTrue trivial
  | .thread _ (.call (.native _)) | .thread _ (.call (.stopped _ _ _)) => isTrue trivial
  | .env (.environment (.post _)) | .env (.environment .drainBegin) => isTrue trivial
  | .env (.environment .drainEnd) | .env .onProgress => isTrue trivial

/-- An event brings `1 / 2`, a read `3 / 4`; then the export is completed, the report brings `1`,
and a read `3 / 2`. -/
def halfway : List (Label (Fin 1) ProgressAction ProgressEnvironment) :=
  [.env (.environment (.post (.progress (1 / 2) 10))), .env (.environment .drainBegin),
    .env (.environment .handle), .env .onProgress, .env (.environment .drainEnd),
    .thread 0 (.progressDetail (.code 0) ⟨3 / 4, 15⟩),
    .env (.environment (.post (.completed 0 "export.mp4" 20))), .env (.environment .drainBegin),
    .env (.environment .handle), .env (.environment .drainEnd), .thread 0 (.call .report),
    .thread 0 (.call (.loaded (.code 0) (.code 0) ⟨1, 20⟩ none)),
    .thread 0 (.progressDetail (.code 0) ⟨3 / 2, 20⟩)]

theorem progress_steady_halfway :
    ∃ c, (progressCalls (Fin 1) (fun _ => "") (.other 8) true).machine.ReachWith ProgressCheck c ∧
      c.shared.reads = [1, 3 / 4] ∧ c.shared.heard = [1 / 2] ∧
      Steady c.shared.reads ∧ Steady c.shared.heard := by
  have hrun : (((progressCalls (Fin 1) (fun _ => "") (.other 8) true).machine.guarded
      fun c l => decide (ProgressCheck c l)).exec ⟨{}, fun _ => .idle .none⟩ halfway).any
        (fun c => decide (c.shared.reads = [1, 3 / 4] ∧ c.shared.heard = [1 / 2])) = true := by
    decide +kernel
  have hstart : (progressCalls (Fin 1) (fun _ => "") (.other 8) true).machine.start
      ⟨{}, fun _ => .idle .none⟩ := ⟨rfl, rfl⟩
  obtain ⟨c, hc, hseen⟩ := Machine.exists_reachWith hstart hrun
  obtain ⟨hreads, hheard⟩ := of_decide_eq_true hseen
  have hsteady := (progress_steady hc).1
  exact ⟨c, hc, hreads, hheard, hsteady.1, hsteady.2.1⟩

/-- **Progress that leaves its range and goes back**: an event brings `3 / 2`, and then the load of
the report brings `1 / 2`. -/
theorem progress_leaves :
    ∃ c, (progressCalls (Fin 1) (fun _ => "") (.other 8) true).machine.Reach c ∧
      ¬ Steady c.shared.heard ∧ ¬ c.shared.reads.Pairwise fun newer older => older ≤ newer := by
  have hrun : ((progressCalls (Fin 1) (fun _ => "") (.other 8) true).machine.exec
      ⟨{}, fun _ => .idle .none⟩
      [.env (.environment (.post (.progress (3 / 2) 10))), .env (.environment .drainBegin),
        .env (.environment .handle), .env .onProgress, .env (.environment .drainEnd),
        .env (.environment (.post (.completed 0 "export.mp4" 20))), .env (.environment .drainBegin),
        .env (.environment .handle), .env (.environment .drainEnd),
        .thread 0 (.progressDetail (.code 0) ⟨1, 10⟩), .thread 0 (.call .report),
        .thread 0 (.call (.loaded (.code 0) (.code 0) ⟨1 / 2, 20⟩ none)),
        .thread 0 (.progressDetail (.code 0) ⟨1 / 2, 20⟩)]).any
        (fun c => decide (c.shared.reads = [1 / 2, 3 / 2] ∧ c.shared.heard = [3 / 2])) = true := by
    decide +kernel
  have hstart : (progressCalls (Fin 1) (fun _ => "") (.other 8) true).machine.start
      ⟨{}, fun _ => .idle .none⟩ := ⟨rfl, rfl⟩
  obtain ⟨c, hc, hseen⟩ := Machine.exists_reach hstart hrun
  obtain ⟨hreads, hheard⟩ := of_decide_eq_true hseen
  refine ⟨c, hc, ?_, ?_⟩
  · rintro ⟨-, hrange⟩
    have hle := (hrange (3 / 2) (by simp [hheard])).2
    revert hle
    decide +kernel
  · rw [hreads]
    decide +kernel

end Tirtc.Exports
