import Mathlib.Tactic.Common
import Tirtc.Storage.ExportReports
import Tirtc.Storage.ExportOutcome

/-!
# A finished export, and the calls on it

The Runtime has finished an export. `wait()` decodes the whole report before it destroys the handle
and hands out the file, and every further try decodes it again; the file itself is made when the
outcome comes.

* `Outcome`, `Outcome.result`: what the Runtime delivers, and what `wait()` has to end with.
* `ExportTask.overflows`, `deliverStep`, `deliverEnvironment`, `deliveries`: the calls on an
  ExportTask again, with the durations that `timedelta` does not have.
* `Brings`: the Runtime brings this outcome and this report; `Delivers`: moreover every native call
  succeeds; `Alone`: moreover only one thread moves.
* `Yields`: what the export promises.
* `Brought`, `brought_rely_guarantee`: what holds when the duration fits.
* `Unfailed`, `unfailed_reach`: what holds besides while every native call succeeds.
* `ends_with_outcome`: then a call that ends, ends with the outcome.
-/

set_option autoImplicit false
set_option linter.unusedSectionVars false

namespace Tirtc.Exports

open Datetime Transition Results

/-! ## The outcome, and the calls -/

/-- How the Runtime ends an export: the code, and the file if the code is 0. -/
@[ext] structure Outcome where
  code : ℤ
  path : String
  durationMs : ℤ
  deriving DecidableEq

namespace Outcome

variable (errorName : ℤ → String) (o : Outcome)

/-- The file of this outcome. -/
def file : Option RecordingFile := if o.code = 0 then some ⟨o.path, o.durationMs⟩ else none

/-- The error of this outcome. -/
def error : Option PyError :=
  if o.code ≠ 0 then some (errorFromCode o.code (errorName o.code)) else none

/-- What `wait()` has to return or raise. -/
def result : Except PyError RecordingFile :=
  if o.code = 0 then .ok ⟨o.path, o.durationMs⟩
  else .error (errorFromCode o.code (errorName o.code))

/-- With an error it is raised. -/
theorem result_of_error {errorName : ℤ → String} {e : PyError} (h : o.error errorName = some e) :
    o.result errorName = .error e := by
  unfold error at h
  unfold result
  by_cases hcode : o.code = 0
  · rw [if_neg (not_not.mpr hcode)] at h
    cases h
  · rw [if_pos hcode] at h
    rw [if_neg hcode, Option.some.inj h]

/-- If there is a file, `timedelta` has its duration. -/
def Fits : Prop := o.code = 0 → ∃ duration, TimeDelta.ofMilliseconds o.durationMs = some duration

end Outcome

section Calls

variable {ι : Type} (errorName : ℤ → String) (overflow : PyError) (t : ExportTask ι) (i : ι)

/-- The outcome would be set now, and `RecordingFile._create` raises.
Source: `storage/__init__.py`, `ExportTask._handle_event` and `ExportTask.stop` -/
def ExportTask.overflows (code durationMs : ℤ) : Bool :=
  !t.terminal && decide (code = 0) && (TimeDelta.ofMilliseconds durationMs).isNone

/-- A step of thread `i`. In `stop()` the file may raise, with `_terminal` already set.
Source: `storage/__init__.py`, `ExportTask.stop` -/
def deliverStep : ExportPc → ExportAction → Option (ExportTask ι × ExportPc)
  | .call (.stopped g code path durationMs), .go =>
      if t.overflows code durationMs then
        some ({ t with terminal := true }, .call (.fail g overflow))
      else exportStep errorName t i (.call (.stopped g code path durationMs)) .go
  | p, act => exportStep errorName t i p act

/-- A step of the Runtime or the pool. So it may in the callback, and the dispatcher goes on.
Source: `storage/__init__.py`, `ExportTask._handle_event` -/
def deliverEnvironment : ExportEnvironment → Option (ExportTask ι)
  | .handle =>
      match t.delivering with
      | some (.completed code path durationMs) =>
          if t.overflows code durationMs then some { t with terminal := true, delivering := none }
          else some { t.complete errorName code path durationMs with delivering := none }
      | _ => environmentStep errorName t .handle
  | e => environmentStep errorName t e

variable {errorName overflow t i} in
/-- **Inversion of a step of a thread**: as before, or `stop()` fails with the file. -/
theorem deliverStep_cases {t' : ExportTask ι} {p p' : ExportPc} {act : ExportAction}
    (h : deliverStep errorName overflow t i p act = some (t', p')) :
    ExportMoves errorName t i p act t' p' ∨
      ∃ g code path durationMs, p = .call (.stopped g code path durationMs) ∧ act = .go ∧
        t' = { t with terminal := true } ∧ p' = .call (.fail g overflow) := by
  unfold deliverStep at h
  split at h
  next g code path durationMs =>
    split at h
    · cases h
      exact .inr ⟨g, code, path, durationMs, rfl, rfl, rfl, rfl⟩
    · exact .inl (exportStep_cases h)
  · exact .inl (exportStep_cases h)

end Calls

/-- **The calls on one ExportTask**, with any durations. -/
def deliveries (ι : Type) (errorName : ℤ → String) (overflow : PyError) :
    Threads ι (ExportTask ι) ExportPc ExportAction ExportEnvironment where
  start t := t = {}
  entry := .idle .none
  step i t p act := deliverStep errorName overflow t i p act
  env := deliverEnvironment errorName

/-! ## The promise -/

section Promise

variable {ι : Type} [DecidableEq ι] (errorName : ℤ → String) (overflow : PyError)
  (thrown : TimeError → PyError) (o : Outcome) (report : NativeReport) (i : ι)

/-- What decoding the report raises, if it does. -/
def conversionError : Option PyError :=
  match exportReportFromNative errorName report with
  | .ok _ => none
  | .error e => some (thrown e)

/-- An event of the Runtime that brings no other outcome. -/
def Matches : ExportEvent → Prop
  | .completed code path durationMs => (⟨code, path, durationMs⟩ : Outcome) = o
  | _ => True

/-- What a native call of a thread gives, if it does not fail: `export_stop` the outcome,
`export_report` the report. -/
def ExportAction.brings : ExportAction → Prop
  | .stopped r path durationMs =>
      ∀ code, r = .code code → code ≠ 6026 → (⟨code, path, durationMs⟩ : Outcome) = o
  | .loaded r progress _ convert =>
      r = .code 0 → progress = .code 0 → convert = conversionError errorName thrown report
  | _ => True

/-- A native call that does not fail, and a wait that does not time out. -/
def ExportAction.succeeds : ExportAction → Prop
  | .native r => r = .code 0
  | .stopped r _ _ => ∃ code, r = .code code ∧ code ≠ 6026
  | .loaded r progress _ _ => r = .code 0 ∧ progress = .code 0
  | .timeout => False
  | _ => True

/-- The Runtime brings no other outcome. -/
def ExportEnvironment.brings : ExportEnvironment → Prop
  | .post event => Matches o event
  | _ => True

/-- **The Runtime ends the export with this outcome, and has this report.** Its calls may fail. -/
def Brings : Config ι (ExportTask ι) ExportPc → Label ι ExportAction ExportEnvironment → Prop :=
  Threads.guard (fun _ _ _ act => act.brings errorName thrown o report) fun _ e => e.brings o

/-- **Moreover every call succeeds.** -/
def Delivers : Config ι (ExportTask ι) ExportPc → Label ι ExportAction ExportEnvironment → Prop :=
  Threads.guard (fun _ _ _ act => act.brings errorName thrown o report ∧ act.succeeds)
    fun _ e => e.brings o

/-- The action begins a call. -/
def ExportAction.begins : ExportAction → Bool
  | .stop | .wait _ | .cancel | .report | .closeFromParent => true
  | _ => false

/-- Thread `i` goes on with its call, and the pool with its work; nobody else moves. -/
def Alone (c : Config ι (ExportTask ι) ExportPc) (l : Label ι ExportAction ExportEnvironment) :
    Prop :=
  Delivers errorName thrown o report c l ∧ ∀ j act, l = .thread j act → j = i ∧ act.begins = false

/-- The call of thread `i` has ended with the outcome, and the task is closed and removed from its
CloudStorage. -/
def Ended (c : Config ι (ExportTask ι) ExportPc) : Prop :=
  c.pc i = .idle (.of (o.result errorName)) ∧ c.shared.close.status = .closed ∧
    c.shared.parentFinished = true

/-- **The promise of a finished export** to a thread `i`, in any interleaving of calls.

1. While every native call succeeds, a call of `wait()` or `stop()` that ends, ends with the
   outcome.
2. On a terminal task that nobody tears down, whatever has failed before, `wait()` comes to its end
   when every native call succeeds. -/
def Yields : Prop :=
  (∀ c, (deliveries ι errorName overflow).machine.ReachWith
      (Delivers errorName thrown o report) c →
    ∀ stage act c' last, c.pc i = .call stage →
      Delivers errorName thrown o report c (.thread i act) →
      (deliveries ι errorName overflow).machine.step c (.thread i act) = some c' →
      c'.pc i = .idle last → Ended errorName o i c') ∧
  ∀ c, (deliveries ι errorName overflow).machine.ReachWith (Brings errorName thrown o report) c →
    c.shared.terminal = true → c.shared.close.status ≠ .closing → (∃ last, c.pc i = .idle last) →
      ∃ c₁, (deliveries ι errorName overflow).machine.step c (.thread i (.wait false)) = some c₁ ∧
        ∃ c', ((deliveries ι errorName overflow).machine.after c₁).ReachWith
          (Alone errorName thrown o report i) c' ∧ Ended errorName o i c'

end Promise

/-! ## What holds when the duration fits -/

section Brought

variable {ι : Type} {errorName : ℤ → String} {overflow : PyError} {thrown : TimeError → PyError}
  {o : Outcome} {report : NativeReport} {t t' : ExportTask ι} {i : ι}

/-- **No other outcome is there or on its way**, and a task that is closed has been removed from its
CloudStorage. -/
structure Brought (errorName : ℤ → String) (o : Outcome) (t : ExportTask ι) : Prop where
  outcome : t.terminal = true → t.file = o.file ∧ t.error = o.error errorName
  queue : ∀ event ∈ t.dispatcher.events, Matches o event.values
  delivering : ∀ event, t.delivering = some event → Matches o event
  finished : t.close.status = .closed → t.parentFinished = true

/-- What a thread knows besides in `stop()` or `wait()`. -/
def BroughtAt (o : Outcome) (t : ExportTask ι) : CallStage → Prop
  | .stopped _ code path durationMs => (⟨code, path, durationMs⟩ : Outcome) = o
  | .succeed _ => t.parentFinished = true
  | .result => t.close.status = .closed
  | _ => True

/-- What a thread knows besides at its place. -/
def PlaceAt (o : Outcome) (t : ExportTask ι) : ExportPc → Prop
  | .call stage | .parent (.call stage) => BroughtAt o t stage
  | _ => True

/-- What a step leaves to the others. -/
structure Goes (k : Option ι) (t t' : ExportTask ι) : Prop where
  keeps : Keeps k t t'
  finished : t.parentFinished = true → t'.parentFinished = true

theorem PlaceAt.goes {k : Option ι} {p : ExportPc} (h : Goes k t t') (hA : PlaceAt o t p) :
    PlaceAt o t' p := by
  have hstage : ∀ stage, BroughtAt o t stage → BroughtAt o t' stage := by
    intro stage hA
    cases stage with
    | stopped _ _ _ _ => exact hA
    | succeed _ => exact h.finished hA
    | result => exact h.keeps.closed hA
    | _ => trivial
  cases p with
  | call stage => exact hstage stage hA
  | parent stage =>
      cases stage with
      | call stage => exact hstage stage hA
      | _ => trivial
  | _ => trivial

/-- The outcome that is there, as `wait()` hands it out. -/
theorem Brought.resultOrError (h : Brought errorName o t) (hterminal : t.terminal = true) :
    t.resultOrError = o.result errorName := by
  obtain ⟨hfile, herror⟩ := h.outcome hterminal
  unfold ExportTask.resultOrError Outcome.result
  rw [hfile, herror]
  unfold Outcome.file Outcome.error
  by_cases hcode : o.code = 0
  · simp [hcode]
  · simp [hcode]

/-- A file of this outcome does not raise. -/
theorem Outcome.Fits.not_overflows (h : o.Fits) {code durationMs : ℤ} {path : String}
    (hmatch : (⟨code, path, durationMs⟩ : Outcome) = o) : t.overflows code durationMs = false := by
  subst hmatch
  unfold ExportTask.overflows
  by_cases hcode : code = 0
  · obtain ⟨duration, hduration⟩ := h hcode
    simp [hduration]
  · simp [hcode]

/-- The outcome is set, if it is not there. -/
theorem complete_brought (h : Brought errorName o t) {code durationMs : ℤ} {path : String}
    (hmatch : (⟨code, path, durationMs⟩ : Outcome) = o) :
    Brought errorName o (t.complete errorName code path durationMs) ∧
      (t.complete errorName code path durationMs).parentFinished = t.parentFinished := by
  unfold ExportTask.complete
  split
  · exact ⟨h, rfl⟩
  · subst hmatch
    exact ⟨⟨fun _ => ⟨rfl, rfl⟩, h.queue, h.delivering, h.finished⟩, rfl⟩

variable (errorName t) in
/-- The outcome leaves the teardown and the report alone. -/
theorem complete_frame (code durationMs : ℤ) (path : String) :
    (t.complete errorName code path durationMs).close = t.close ∧
      (t.complete errorName code path durationMs).report = t.report ∧
      (t.complete errorName code path durationMs).destroys = t.destroys ∧
      (t.complete errorName code path durationMs).closer = t.closer := by
  unfold ExportTask.complete
  split
  · exact ⟨rfl, rfl, rfl, rfl⟩
  · exact ⟨rfl, rfl, rfl, rfl⟩

/-- A step that leaves the outcome and the queue alone. -/
theorem Brought.same (h : Brought errorName o t) (hterminal : t'.terminal = t.terminal)
    (hfile : t'.file = t.file) (herror : t'.error = t.error)
    (hqueue : t'.dispatcher.events = t.dispatcher.events)
    (hdelivering : t'.delivering = t.delivering)
    (hfinished : t'.close.status = .closed → t'.parentFinished = true) :
    Brought errorName o t' := by
  refine ⟨?_, ?_, ?_, hfinished⟩
  · rw [hterminal, hfile, herror]
    exact h.outcome
  · rw [hqueue]
    exact h.queue
  · rw [hdelivering]
    exact h.delivering

/-- The report is loaded, or the section raises. -/
theorem load_brought (h : Brought errorName o t) (r progress : NativeResult)
    (value : ExportProgress) (convert : Option PyError) :
    Brought errorName o (t.loadReport errorName r progress value convert).1 ∧
      (t.loadReport errorName r progress value convert).1.parentFinished = t.parentFinished := by
  unfold ExportTask.loadReport
  split
  · exact ⟨h, rfl⟩
  · split
    · exact ⟨h, rfl⟩
    · exact ⟨h, rfl⟩
    · split
      · exact ⟨h.same rfl rfl rfl rfl rfl h.finished, rfl⟩
      · exact ⟨h.same rfl rfl rfl rfl rfl h.finished, rfl⟩

/-- What the next stage knows, if there is one. -/
def StageAt (o : Outcome) (t : ExportTask ι) : CallStage ⊕ Except PyError RecordingFile → Prop
  | .inl stage => BroughtAt o t stage
  | .inr _ => True

theorem placeAt_ofCall {next : CallStage ⊕ Except PyError RecordingFile} (h : StageAt o t next) :
    PlaceAt o t (.ofCall next) := by
  cases next with
  | inl stage => exact h
  | inr result => trivial

theorem placeAt_ofParentCall {next : CallStage ⊕ Except PyError RecordingFile}
    (h : StageAt o t next) : PlaceAt o t (.ofParentCall next) := by
  rcases next with stage | (_ | _) | file
  · exact h
  · trivial
  · trivial
  · trivial

theorem placeAt_quiet {p : ExportPc} (h : p.quiet = true) : PlaceAt o t p := by
  rcases p with _ | _ | _ | _ | (_ | _ | _ | _ | _ | _)
  all_goals
    trivial

/-- The first section of `stop()`, or of `_finish()`. -/
theorem begin_brought (h : Brought errorName o t) (stops : Bool) :
    Brought errorName o (beginCall t i stops).1 ∧
      (beginCall t i stops).1.parentFinished = t.parentFinished ∧
      StageAt o (beginCall t i stops).1 (beginCall t i stops).2 := by
  unfold beginCall
  rcases t.close.begin_cases false with ⟨hst, hb⟩ | ⟨hst, hb⟩ | ⟨hst, hb⟩ | ⟨hst, hb⟩
  · simp only [hb]
    exact ⟨h.same rfl rfl rfl rfl rfl h.finished, trivial, trivial⟩
  · simp only [hb]
    exact ⟨h, trivial, trivial⟩
  · simp only [hb]
    exact ⟨h, trivial, trivial⟩
  · simp only [hb]
    refine ⟨h.same rfl rfl rfl rfl rfl fun hclosed => (by cases hclosed), trivial, ?_⟩
    cases stops with
    | false => trivial
    | true => cases t.terminal <;> trivial

/-- **A stage of `stop()` or `wait()`.** -/
theorem call_brought {stage : CallStage} {act : ExportAction}
    {next : CallStage ⊕ Except PyError RecordingFile} (h : Brought errorName o t)
    (hA : BroughtAt o t stage)
    (hact : act.brings errorName thrown o report)
    (hstep : callStep errorName t i stage act = some (t', next)) :
    Brought errorName o t' ∧ (t.parentFinished = true → t'.parentFinished = true) ∧
      StageAt o t' next := by
  cases callStep_cases hstep with
  | ready timed hdone => exact ⟨h, id, trivial⟩
  | timedOut => exact ⟨h, id, trivial⟩
  | begins =>
      obtain ⟨hbrought, hparent, hnext⟩ := begin_brought (i := i) h false
      exact ⟨hbrought, fun hf => hparent.trans hf, hnext⟩
  | wakes g close error houtcome hleave =>
      have hstatus := (t.close.leave_spec hleave).1
      exact ⟨h.same rfl rfl rfl rfl rfl fun hclosed => h.finished (hstatus.symm.trans hclosed), id,
        trivial⟩
  | stopFails g r path durationMs e hr => exact ⟨h, id, trivial⟩
  | stopReturns g r path durationMs code hr =>
      obtain ⟨rfl, hcode⟩ := Teardown.retryInUseResult_eq_ok.mp hr
      exact ⟨h, id, hact code rfl hcode⟩
  | completes g code path durationMs =>
      obtain ⟨hbrought, hparent⟩ := complete_brought h hA
      exact ⟨hbrought, fun hf => hparent.trans hf, trivial⟩
  | loads g r progress value convert u hload =>
      have hsection := load_brought h r progress value convert
      rw [hload] at hsection
      exact ⟨hsection.1, fun hf => hsection.2.trans hf, trivial⟩
  | loadFails g r progress value convert u e hload =>
      have hsection := load_brought h r progress value convert
      rw [hload] at hsection
      exact ⟨hsection.1, fun hf => hsection.2.trans hf, trivial⟩
  | closesDispatcher g => exact ⟨h.same rfl rfl rfl rfl rfl h.finished, id, trivial⟩
  | drained g hdone => exact ⟨h, id, trivial⟩
  | destroys g r hr => exact ⟨h.same rfl rfl rfl rfl rfl h.finished, id, trivial⟩
  | destroyFails g r e hr => exact ⟨h, id, trivial⟩
  | finishesParent g => exact ⟨h.same rfl rfl rfl rfl rfl fun _ => rfl, fun _ => rfl, rfl⟩
  | succeeds g => exact ⟨h.same rfl rfl rfl rfl rfl fun _ => hA, id, rfl⟩
  | fails g e =>
      exact ⟨h.same rfl rfl rfl rfl rfl fun hclosed => (by cases hclosed), id, trivial⟩
  | results => exact ⟨h, id, trivial⟩

/-- A call of `wait()` begins. -/
theorem broughtAt_waitBegin (t : ExportTask ι) (timed : Bool) :
    BroughtAt o t (waitBegin t timed) := by
  unfold waitBegin
  split
  · trivial
  · trivial

/-- **A step of a thread.** -/
theorem thread_brought {p p' : ExportPc} {act : ExportAction} (hfits : o.Fits)
    (h : Brought errorName o t) (hP : PlaceAt o t p) (hact : act.brings errorName thrown o report)
    (hstep : deliverStep errorName overflow t i p act = some (t', p')) :
    exportStep errorName t i p act = some (t', p') ∧ Brought errorName o t' ∧
      (t.parentFinished = true → t'.parentFinished = true) ∧ PlaceAt o t' p' := by
  have hsame : exportStep errorName t i p act = some (t', p') := by
    unfold deliverStep at hstep
    split at hstep
    · have hnot := hfits.not_overflows (t := t) hP
      rw [hnot] at hstep
      exact hstep
    · exact hstep
  refine ⟨hsame, ?_⟩
  cases exportStep_cases hsame with
  | begins last =>
      obtain ⟨hbrought, hparent, hnext⟩ := begin_brought (i := i) h true
      exact ⟨hbrought, fun hf => hparent.trans hf, placeAt_ofCall hnext⟩
  | waits last timed => exact ⟨h, id, broughtAt_waitBegin t timed⟩
  | parentWaits => exact ⟨h, id, broughtAt_waitBegin t false⟩
  | cancels p p' act hcall hnone hp' =>
      refine ⟨h, id, ?_⟩
      rcases hp' with rfl | rfl
      · trivial
      · trivial
  | reads r progress value convert =>
      obtain ⟨hbrought, hparent⟩ := load_brought h r progress value convert
      exact ⟨hbrought, fun hf => hparent.trans hf, trivial⟩
  | calls stage act t' next hcall =>
      obtain ⟨hbrought, hparent, hstage⟩ := call_brought h hP hact hcall
      exact ⟨hbrought, hparent, placeAt_ofCall hstage⟩
  | parentCalls stage act t' next hcall =>
      obtain ⟨hbrought, hparent, hstage⟩ := call_brought h hP hact hcall
      exact ⟨hbrought, hparent, placeAt_ofParentCall hstage⟩
  | quiet p p' act hother hp' hcancel => exact ⟨h, id, placeAt_quiet hp'⟩

/-- **A step of the Runtime or the pool.** -/
theorem environment_brought {e : ExportEnvironment} (hfits : o.Fits) (h : Brought errorName o t)
    (he : e.brings o) (hstep : deliverEnvironment errorName t e = some t') :
    environmentStep errorName t e = some t' ∧ Brought errorName o t' ∧
      t'.parentFinished = t.parentFinished := by
  cases e with
  | post event =>
      refine ⟨hstep, ?_⟩
      obtain ⟨r, hpost, rfl⟩ := Option.map_eq_some_iff.mp hstep
      refine ⟨⟨h.outcome, ?_, h.delivering, h.finished⟩, rfl⟩
      unfold Dispatcher.postNativeTask at hpost
      split at hpost
      · cases hpost
        exact h.queue
      · split at hpost
        · cases hpost
        · cases hpost
          intro queued hmem
          rcases List.mem_append.mp hmem with hold | hnew
          · exact h.queue queued hold
          · obtain rfl := List.mem_singleton.mp hnew
            exact he
  | drainBegin =>
      refine ⟨hstep, ?_⟩
      simp only [deliverEnvironment, environmentStep] at hstep
      split at hstep
      · cases hstep
      · cases hevents : t.dispatcher.events with
        | nil =>
            rw [Dispatcher.drainBegin_nil hevents] at hstep
            cases hstep
            exact ⟨⟨h.outcome, h.queue, fun _ hnone => (by cases hnone), h.finished⟩, rfl⟩
        | cons event rest =>
            rw [Dispatcher.drainBegin_cons hevents] at hstep
            have hqueue := h.queue
            rw [hevents] at hqueue
            cases hstep
            refine ⟨⟨h.outcome, ?_, ?_, h.finished⟩, rfl⟩
            · exact fun queued hmem => hqueue queued (List.mem_cons_of_mem _ hmem)
            · intro values hvalues
              cases hvalues
              exact hqueue event List.mem_cons_self
  | handle =>
      simp only [deliverEnvironment] at hstep
      split at hstep
      · next code path durationMs hdelivering =>
          have hmatch : (⟨code, path, durationMs⟩ : Outcome) = o := h.delivering _ hdelivering
          rw [hfits.not_overflows hmatch] at hstep
          cases hstep
          obtain ⟨hbrought, hparent⟩ := complete_brought h hmatch
          refine ⟨by simp [environmentStep, hdelivering, ExportTask.handleEvent], ?_, hparent⟩
          exact ⟨hbrought.outcome, hbrought.queue, fun _ hnone => (by cases hnone),
            hbrought.finished⟩
      · refine ⟨hstep, ?_⟩
        obtain ⟨event, hdelivering, rfl⟩ := Option.map_eq_some_iff.mp hstep
        have hclear : ∀ u : ExportTask ι, Brought errorName o u →
            Brought errorName o { u with delivering := none } := fun u hu =>
          ⟨hu.outcome, hu.queue, fun _ hnone => (by cases hnone), hu.finished⟩
        cases event with
        | progress fraction coveredMs =>
            simp only [ExportTask.handleEvent]
            split
            · exact ⟨hclear _ h, rfl⟩
            · exact ⟨hclear _ (h.same rfl rfl rfl rfl rfl h.finished), rfl⟩
        | gap => exact ⟨hclear _ h, rfl⟩
        | completed code path durationMs =>
            next hother => exact absurd hdelivering (hother code path durationMs)
  | drainEnd =>
      refine ⟨hstep, ?_⟩
      simp only [deliverEnvironment, environmentStep] at hstep
      split at hstep
      · cases hstep
        exact ⟨h.same rfl rfl rfl rfl rfl h.finished, rfl⟩
      · cases hstep

/-- **While the duration fits**, the calls keep both invariants. -/
theorem brought_rely_guarantee (hfits : o.Fits) : Threads.RelyGuarantee
    (deliveries ι errorName overflow) (fun _ _ _ act => act.brings errorName thrown o report)
    (fun _ e => e.brings o) (fun t => TaskOk t ∧ Brought errorName o t)
    (fun i t p => At i t p ∧ PlaceAt o t p) Goes where
  start := by
    rintro t rfl
    obtain ⟨hok, hat⟩ := (export_rely_guarantee :
      Threads.RelyGuarantee (exportCalls ι errorName) _ _ _ _ _).start _ rfl
    refine ⟨⟨hok, ?_, ?_, ?_, ?_⟩, fun i => ⟨hat i, trivial⟩⟩
    · intro h
      cases h
    · intro _ hmem
      cases hmem
    · intro _ h
      cases h
    · intro h
      cases h
  thread i t p act t' p' ht hA hact hstep := by
    obtain ⟨hsame, hbrought, hparent, hplace⟩ := thread_brought hfits ht.2 hA.2 hact hstep
    obtain ⟨hgood, hat⟩ := step_good ht.1 hA.1 hsame
    exact ⟨⟨hgood.ok, hbrought⟩, ⟨hat, hplace⟩, hgood.keeps, hparent⟩
  env t e t' ht he hstep := by
    obtain ⟨hsame, hbrought, hparent⟩ := environment_brought hfits ht.2 he hstep
    have hgood := environment_good ht.1 hsame
    exact ⟨⟨hgood.ok, hbrought⟩, hgood.keeps, fun h => hparent.trans h⟩
  stable j k t t' p hk ht _ hG hA := ⟨hA.1.stable hk ht.1 hG.keeps, hA.2.goes hG⟩

/-! ## While every native call succeeds -/

/-- No teardown has failed: the outcome that waiters find is that of the export. -/
def Unfailed (errorName : ℤ → String) (o : Outcome) (t : ExportTask ι) : Prop :=
  ∀ g x, t.close.outcomes g = some x → x = o.error errorName ∧ t.close.status = .closed

/-- The teardown has failed, and has yet to say so. -/
def CallStage.fails : CallStage → Bool
  | .fail _ _ => true
  | _ => false

/-- The thread is at such a place. -/
def ExportPc.fails : ExportPc → Bool
  | .call stage | .parent (.call stage) => stage.fails
  | _ => false

/-- A call goes on without a failure, or ends with the outcome on a closed task. -/
def EndAt (errorName : ℤ → String) (o : Outcome) (t : ExportTask ι) :
    CallStage ⊕ Except PyError RecordingFile → Prop
  | .inl stage => stage.fails = false
  | .inr result => result = o.result errorName ∧ t.close.status = .closed

/-- A step that leaves the coordinator alone. -/
theorem Unfailed.same (hu : Unfailed errorName o t) (hclose : t'.close = t.close) :
    Unfailed errorName o t' := by
  intro g x hx
  rw [hclose] at hx ⊢
  exact hu g x hx

variable (errorName thrown) in
/-- The report is decoded. -/
theorem conversionError_known (hknown : report.Known) :
    conversionError errorName thrown report = none := by
  have hsucceeds : Results.Succeeds (exportReportFromNative errorName report) :=
    exportReportFromNative_succeeds.mpr hknown
  obtain ⟨decoded, hdecoded⟩ := hsucceeds
  unfold conversionError
  rw [hdecoded]

variable (errorName) in
/-- The report is loaded. -/
theorem load_succeeds (t : ExportTask ι) {r progress : NativeResult} (value : ExportProgress)
    {convert : Option PyError} (hr : r = .code 0) (hprogress : progress = .code 0)
    (hconvert : convert = none) :
    (t.loadReport errorName r progress value convert).2 = none ∧
      (t.loadReport errorName r progress value convert).1.close = t.close := by
  subst hr hprogress hconvert
  unfold ExportTask.loadReport
  split
  · exact ⟨rfl, rfl⟩
  · exact ⟨rfl, rfl⟩

/-- The first section of `stop()`, or of `_finish()`. -/
theorem begin_ends (ht : TaskOk t) (h : Brought errorName o t) (hu : Unfailed errorName o t)
    (stops : Bool) :
    Unfailed errorName o (beginCall t i stops).1 ∧
      EndAt errorName o (beginCall t i stops).1 (beginCall t i stops).2 := by
  unfold beginCall
  rcases t.close.begin_cases false with ⟨hst, hb⟩ | ⟨hst, hb⟩ | ⟨hst, hb⟩ | ⟨hst, hb⟩
  · simp only [hb]
    exact ⟨hu, rfl⟩
  · simp only [hb]
    exact ⟨hu, h.resultOrError (ht.closed hst), hst⟩
  · rw [t.close.begin_of_idle (.inl hst)] at hb
    cases hb
  · simp only [hb]
    refine ⟨?_, ?_⟩
    · intro g x hx
      have hclosed := (hu g x hx).2
      rw [hclosed] at hst
      rcases hst with hst | hst
      · cases hst
      · cases hst
    · cases stops with
      | false => rfl
      | true => cases t.terminal <;> rfl

/-- **A stage of `stop()` or `wait()`, while every native call succeeds.** -/
theorem call_ends {stage : CallStage} {act : ExportAction}
    {next : CallStage ⊕ Except PyError RecordingFile} (hknown : report.Known) (ht : TaskOk t)
    (h : Brought errorName o t) (hu : Unfailed errorName o t) (hC : CallAt i t stage)
    (hA : BroughtAt o t stage) (hfails : stage.fails = false)
    (hact : act.brings errorName thrown o report) (hsucceeds : act.succeeds)
    (hstep : callStep errorName t i stage act = some (t', next)) :
    Unfailed errorName o t' ∧ EndAt errorName o t' next := by
  cases callStep_cases hstep with
  | ready timed hdone => exact ⟨hu, rfl⟩
  | timedOut => cases hsucceeds
  | begins => exact begin_ends ht h hu false
  | wakes g close error houtcome hleave =>
      have hstatus := (t.close.leave_spec hleave).1
      obtain ⟨herror, hclosed⟩ := hu g error houtcome
      have hunfailed : Unfailed errorName o { t with close := close } := fun k x hx =>
        ⟨(hu k x (t.close.leave_outcome hleave hx)).1, hstatus.trans hclosed⟩
      refine ⟨hunfailed, ?_, hstatus.trans hclosed⟩
      cases error with
      | some e => exact (congrArg _ (copyError_eq e)).trans (o.result_of_error herror.symm).symm
      | none => exact h.resultOrError (ht.closed hclosed)
  | stopFails g r path durationMs e hr =>
      obtain ⟨c, rfl, hcode⟩ := hsucceeds
      cases (Teardown.retryInUseResult_eq_ok.mpr ⟨rfl, hcode⟩).symm.trans hr
  | stopReturns g r path durationMs code hr => exact ⟨hu, rfl⟩
  | completes g code path durationMs =>
      exact ⟨hu.same (complete_frame errorName t code durationMs path).1, rfl⟩
  | loads g r progress value convert u hload =>
      obtain ⟨hr, hprogress⟩ := hsucceeds
      have hconvert : convert = none :=
        (hact hr hprogress).trans (conversionError_known errorName thrown hknown)
      have hloaded := load_succeeds errorName t value hr hprogress hconvert
      rw [hload] at hloaded
      exact ⟨hu.same hloaded.2, rfl⟩
  | loadFails g r progress value convert u e hload =>
      obtain ⟨hr, hprogress⟩ := hsucceeds
      have hconvert : convert = none :=
        (hact hr hprogress).trans (conversionError_known errorName thrown hknown)
      have hloaded := load_succeeds errorName t value hr hprogress hconvert
      rw [hload] at hloaded
      cases hloaded.1
  | closesDispatcher g => exact ⟨hu, rfl⟩
  | drained g hdone => exact ⟨hu, rfl⟩
  | destroys g r hr => exact ⟨hu, rfl⟩
  | destroyFails g r e hr =>
      cases (NativeResult.retryInUse_eq_none.mpr hsucceeds).symm.trans hr
  | finishesParent g => exact ⟨hu, rfl⟩
  | succeeds g =>
      refine ⟨?_, rfl⟩
      intro k x hx
      refine ⟨?_, rfl⟩
      rcases t.close.record_outcome hx with hold | hnew
      · exact (hu k x hold).1
      · exact hnew.trans (h.outcome hC.2.1).2
  | fails g e => cases hfails
  | results => exact ⟨hu, h.resultOrError hC, hA⟩

theorem fails_ofCall {next : CallStage ⊕ Except PyError RecordingFile}
    (h : EndAt errorName o t next) : (ExportPc.ofCall next).fails = false := by
  cases next with
  | inl stage => exact h
  | inr result => rfl

theorem fails_ofParentCall {next : CallStage ⊕ Except PyError RecordingFile}
    (h : EndAt errorName o t next) : (ExportPc.ofParentCall next).fails = false := by
  rcases next with stage | (_ | _) | file
  · exact h
  · rfl
  · rfl
  · rfl

theorem fails_quiet {p : ExportPc} (h : p.quiet = true) : p.fails = false := by
  rcases p with _ | _ | _ | _ | (_ | _ | _ | _ | _ | _)
  all_goals
    first
    | rfl
    | cases h

theorem fails_waitBegin (t : ExportTask ι) (timed : Bool) : (waitBegin t timed).fails = false := by
  unfold waitBegin
  split
  · rfl
  · rfl

/-- **A step of a thread, while every native call succeeds.** -/
theorem thread_unfailed {p p' : ExportPc} {act : ExportAction} (hknown : report.Known)
    (ht : TaskOk t) (h : Brought errorName o t) (hu : Unfailed errorName o t) (hA : At i t p)
    (hP : PlaceAt o t p) (hfails : p.fails = false) (hact : act.brings errorName thrown o report)
    (hsucceeds : act.succeeds) (hstep : exportStep errorName t i p act = some (t', p')) :
    Unfailed errorName o t' ∧ p'.fails = false := by
  cases exportStep_cases hstep with
  | begins last =>
      obtain ⟨hunfailed, hend⟩ := begin_ends (i := i) ht h hu true
      exact ⟨hunfailed, fails_ofCall hend⟩
  | waits last timed => exact ⟨hu, fails_waitBegin t timed⟩
  | parentWaits => exact ⟨hu, fails_waitBegin t false⟩
  | cancels p p' act hcall hnone hp' =>
      refine ⟨hu, ?_⟩
      rcases hp' with rfl | rfl
      · rfl
      · rfl
  | reads r progress value convert =>
      obtain ⟨hr, hprogress⟩ := hsucceeds
      have hconvert : convert = none :=
        (hact hr hprogress).trans (conversionError_known errorName thrown hknown)
      exact ⟨hu.same (load_succeeds errorName t value hr hprogress hconvert).2, rfl⟩
  | calls stage act t' next hcall =>
      obtain ⟨hunfailed, hend⟩ := call_ends hknown ht h hu hA hP hfails hact hsucceeds hcall
      exact ⟨hunfailed, fails_ofCall hend⟩
  | parentCalls stage act t' next hcall =>
      obtain ⟨hunfailed, hend⟩ := call_ends hknown ht h hu hA hP hfails hact hsucceeds hcall
      exact ⟨hunfailed, fails_ofParentCall hend⟩
  | quiet p p' act hother hp' hcancel => exact ⟨hu, fails_quiet hp'⟩

/-- The Runtime and the pool leave the teardown and the report alone. -/
theorem environment_frame {e : ExportEnvironment}
    (h : deliverEnvironment errorName t e = some t') :
    t'.close = t.close ∧ t'.report = t.report ∧ t'.destroys = t.destroys ∧
      t'.closer = t.closer := by
  cases e with
  | post event =>
      obtain ⟨r, -, rfl⟩ := Option.map_eq_some_iff.mp h
      exact ⟨rfl, rfl, rfl, rfl⟩
  | drainBegin =>
      simp only [deliverEnvironment, environmentStep] at h
      split at h
      · cases h
      · cases h
        exact ⟨rfl, rfl, rfl, rfl⟩
  | handle =>
      simp only [deliverEnvironment] at h
      split at h
      · split at h
        · cases h
          exact ⟨rfl, rfl, rfl, rfl⟩
        · cases h
          exact complete_frame errorName t _ _ _
      · obtain ⟨event, -, rfl⟩ := Option.map_eq_some_iff.mp h
        cases event with
        | progress fraction coveredMs =>
            simp only [ExportTask.handleEvent]
            split
            · exact ⟨rfl, rfl, rfl, rfl⟩
            · exact ⟨rfl, rfl, rfl, rfl⟩
        | gap => exact ⟨rfl, rfl, rfl, rfl⟩
        | completed code path durationMs => exact complete_frame errorName t _ _ _
  | drainEnd =>
      simp only [deliverEnvironment, environmentStep] at h
      split at h
      · cases h
        exact ⟨rfl, rfl, rfl, rfl⟩
      · cases h

variable [DecidableEq ι] {c c' : Config ι (ExportTask ι) ExportPc}

/-- Both invariants, in every state that is reached. -/
theorem brought_reach (hfits : o.Fits) (hc : (deliveries ι errorName overflow).machine.ReachWith
      (Brings errorName thrown o report) c) :
    (TaskOk c.shared ∧ Brought errorName o c.shared) ∧
      ∀ j, At j c.shared (c.pc j) ∧ PlaceAt o c.shared (c.pc j) :=
  (brought_rely_guarantee hfits).reach hc

/-- A step in which every call succeeds is one that brings the outcome. -/
theorem Delivers.brings {l : Label ι ExportAction ExportEnvironment}
    (h : Delivers errorName thrown o report c l) : Brings errorName thrown o report c l := by
  rcases l with ⟨j, act⟩ | ⟨e⟩
  · exact h.1
  · exact h

/-- **No teardown fails.** -/
theorem unfailed_reach (hfits : o.Fits) (hknown : report.Known)
    (hc : (deliveries ι errorName overflow).machine.ReachWith
      (Delivers errorName thrown o report) c) :
    Unfailed errorName o c.shared ∧ ∀ j, (c.pc j).fails = false := by
  refine hc.invariant_of (I := fun c => Unfailed errorName o c.shared ∧ ∀ j, (c.pc j).fails = false)
    (fun c hc => brought_reach hfits (hc.mono fun _ _ h => h.brings)) ?_ ?_
  · rintro ⟨t, pc⟩ ⟨hstart, hpc⟩ -
    have hstart : t = {} := hstart
    subst hstart
    refine ⟨fun _ _ hx => (by cases hx), fun j => ?_⟩
    have hpc : pc = fun _ => .idle .none := hpc
    rw [hpc]
    rfl
  · rintro c (⟨k, act⟩ | ⟨e⟩) c' ⟨⟨ht, hb⟩, hat⟩ - ⟨hu, hfails⟩ hok hstep
    · obtain ⟨⟨t', p'⟩, hnext, rfl⟩ := Option.map_eq_some_iff.mp hstep
      obtain ⟨hsame, -⟩ := thread_brought hfits hb (hat k).2 hok.1 hnext
      obtain ⟨hunfailed, hfails'⟩ := thread_unfailed hknown ht hb hu (hat k).1 (hat k).2 (hfails k)
        hok.1 hok.2 hsame
      refine ⟨hunfailed, fun j => ?_⟩
      by_cases hjk : j = k
      · subst hjk
        simpa using hfails'
      · simpa [hjk] using hfails j
    · obtain ⟨t', hnext, rfl⟩ := Option.map_eq_some_iff.mp hstep
      exact ⟨hu.same (environment_frame hnext).1, hfails⟩

/-- **A call that ends, ends with the outcome.** -/
theorem ends_with_outcome (hfits : o.Fits) (hknown : report.Known)
    (hc : (deliveries ι errorName overflow).machine.ReachWith
      (Delivers errorName thrown o report) c) {stage : CallStage} {act : ExportAction}
    {last : Returned} (hi : c.pc i = .call stage)
    (hok : Delivers errorName thrown o report c (.thread i act))
    (hstep : (deliveries ι errorName overflow).machine.step c (.thread i act) = some c')
    (hlast : c'.pc i = .idle last) : Ended errorName o i c' := by
  obtain ⟨⟨ht, hb⟩, hat⟩ := brought_reach hfits (hc.mono fun _ _ h => h.brings)
  obtain ⟨hu, hfails⟩ := unfailed_reach hfits hknown hc
  obtain ⟨⟨t', p'⟩, hnext, rfl⟩ := Option.map_eq_some_iff.mp hstep
  obtain ⟨hA, hP⟩ := hat i
  have hfail := hfails i
  rw [hi] at hA hP hfail hnext
  obtain ⟨hsame, hb', -⟩ := thread_brought hfits hb hP hok.1 hnext
  obtain ⟨⟨u, next⟩, hcall, heq⟩ := Option.map_eq_some_iff.mp hsame
  cases heq
  obtain ⟨-, hend⟩ := call_ends hknown ht hb hu hA hP hfail hok.1 hok.2 hcall
  have hlast : ExportPc.ofCall next = .idle last := by simpa using hlast
  cases next with
  | inl stage' => cases hlast
  | inr result =>
      obtain ⟨hresult, hclosed⟩ := hend
      refine ⟨?_, hclosed, hb'.finished hclosed⟩
      rw [hresult]
      simp [ExportPc.ofCall]

end Brought

end Tirtc.Exports
