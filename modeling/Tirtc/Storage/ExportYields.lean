import Tirtc.Storage.FinishedExports

/-!
# When a finished export yields its outcome

Every value of the report and the duration of the file have to have a meaning: one that has none is
enough that no `wait()` hands out the file, and that the task is never closed.

* `drains`, `CanEnd`, `wait_ends`: the pool empties the queue, and a `wait()` comes to its end.
* `never_closed`, `never_done`: what goes wrong otherwise, for good.
* `delivered`, `Yields.known`: the outcome may come before any call, so a promise that is kept has a
  meaning.
* `yields_iff`: exactly the outcomes and reports for which the promise is kept.
* `unknown_reason_refused`: a report for which it is not.
-/

set_option autoImplicit false
set_option linter.unusedSectionVars false

namespace Tirtc.Exports

open Datetime Transition Results

section Yielding

variable {ι : Type} [DecidableEq ι] {errorName : ℤ → String} {overflow : PyError}
  {thrown : TimeError → PyError} {o : Outcome} {report : NativeReport} {t t' : ExportTask ι} {i : ι}
  {c c' : Config ι (ExportTask ι) ExportPc}

/-! ## A `wait()` comes to its end -/

/-- A callback task on a terminal task changes nothing. -/
theorem handle_terminal {event : ExportEvent} (hterminal : t.terminal = true)
    (hdelivering : t.delivering = some event) :
    deliverEnvironment errorName t .handle = some { t with delivering := none } := by
  cases event with
  | progress fraction coveredMs =>
      simp [deliverEnvironment, environmentStep, hdelivering, ExportTask.handleEvent, hterminal]
  | gap => simp [deliverEnvironment, environmentStep, hdelivering, ExportTask.handleEvent]
  | completed code path durationMs =>
      simp [deliverEnvironment, hdelivering, ExportTask.overflows, ExportTask.complete, hterminal]

variable (errorName overflow thrown o report i) in
/-- One step of the pool. -/
theorem pool_step (e : ExportEnvironment) {u : ExportTask ι} (he : e.brings o)
    (h : deliverEnvironment errorName c.shared e = some u) :
    ((deliveries ι errorName overflow).machine.after c).ReachWith
      (Alone errorName thrown o report i) ⟨u, c.pc⟩ := by
  refine .one (a := .env e) ⟨he, fun j act hl => by cases hl⟩ ?_
  exact congrArg (Option.map fun t => (⟨t, c.pc⟩ : Config ι (ExportTask ι) ExportPc)) h

variable (errorName overflow thrown o report i) in
/-- The pool ends the callback task that it runs. -/
theorem settles (hterminal : c.shared.terminal = true) :
    ∃ d e, d.executing = false ∧ d.events = c.shared.dispatcher.events ∧
      ((deliveries ι errorName overflow).machine.after c).ReachWith
        (Alone errorName thrown o report i)
        ⟨{ c.shared with dispatcher := d, delivering := e }, c.pc⟩ := by
  cases hexecuting : c.shared.dispatcher.executing with
  | false => exact ⟨_, _, hexecuting, rfl, .start rfl⟩
  | true =>
      have hend : ∀ c : Config ι (ExportTask ι) ExportPc, c.shared.dispatcher.executing = true →
          c.shared.delivering = none →
          ((deliveries ι errorName overflow).machine.after c).ReachWith
            (Alone errorName thrown o report i)
            ⟨{ c.shared with dispatcher := c.shared.dispatcher.drainEnd.2 }, c.pc⟩ := by
        intro c hexecuting hnone
        refine pool_step errorName overflow thrown o report i .drainEnd trivial ?_
        simp [deliverEnvironment, environmentStep, hexecuting, hnone]
      cases hdelivering : c.shared.delivering with
      | none =>
          have hrun := hend c hexecuting hdelivering
          exact ⟨c.shared.dispatcher.drainEnd.2, c.shared.delivering, rfl, rfl, hrun⟩
      | some event =>
          have hhandle := pool_step errorName overflow thrown o report i .handle trivial
            (handle_terminal hterminal hdelivering)
          have hrun := hend ⟨{ c.shared with delivering := none }, c.pc⟩ hexecuting rfl
          exact ⟨c.shared.dispatcher.drainEnd.2, none, rfl, rfl, hhandle.after hrun⟩

variable (errorName overflow thrown o report i) in
/-- **The pool empties the queue.** -/
theorem drains (hterminal : c.shared.terminal = true) :
    ∃ d e, d.closeDone = true ∧
      ((deliveries ι errorName overflow).machine.after c).ReachWith
        (Alone errorName thrown o report i)
        ⟨{ c.shared with dispatcher := d, delivering := e }, c.pc⟩ := by
  generalize hevents : c.shared.dispatcher.events = events
  induction events generalizing c with
  | nil =>
      obtain ⟨d, e, hexecuting, hsame, hrun⟩ := settles errorName overflow thrown o report i
        hterminal
      refine ⟨d, e, ?_, hrun⟩
      simp [Dispatcher.closeDone, hexecuting, hsame, hevents]
  | cons event rest ih =>
      obtain ⟨d, e, hexecuting, hsame, hrun⟩ := settles errorName overflow thrown o report i
        hterminal
      have hcons : d.events = event :: rest := hsame.trans hevents
      have hbegin := pool_step errorName overflow thrown o report i .drainBegin
        (c := ⟨{ c.shared with dispatcher := d, delivering := e }, c.pc⟩)
        (u := { c.shared with dispatcher := d.drainBegin.2, delivering := some event.values })
        trivial (by simp [deliverEnvironment, environmentStep, hexecuting,
          Dispatcher.drainBegin_cons hcons])
      obtain ⟨d', e', hdone, hrest⟩ := ih (c := ⟨{ c.shared with
        dispatcher := d.drainBegin.2, delivering := some event.values }, c.pc⟩) hterminal
        (by rw [Dispatcher.drainBegin_cons hcons])
      exact ⟨d', e', hdone, (hrun.after hbegin).after hrest⟩

section Ends

variable (errorName overflow thrown o report i) in
/-- Thread `i` can go on until its call has ended with the outcome. -/
def CanEnd (c : Config ι (ExportTask ι) ExportPc) : Prop :=
  ∃ c', ((deliveries ι errorName overflow).machine.after c).ReachWith
    (Alone errorName thrown o report i) c' ∧ Ended errorName o i c'

/-- What a thread does alone is a run of the whole. -/
theorem brings_alone (hc : (deliveries ι errorName overflow).machine.ReachWith
      (Brings errorName thrown o report) c)
    (h : ((deliveries ι errorName overflow).machine.after c).ReachWith
      (Alone errorName thrown o report i) c') :
    (deliveries ι errorName overflow).machine.ReachWith (Brings errorName thrown o report) c' :=
  hc.trans (h.mono fun _ _ halone => halone.1.brings)

/-- One step of the call. -/
theorem canEnd_step (act : ExportAction) {u : ExportTask ι} (p' : ExportPc)
    (hc : (deliveries ι errorName overflow).machine.ReachWith
      (Brings errorName thrown o report) c)
    (hact : act.brings errorName thrown o report) (hsucceeds : act.succeeds)
    (hbegins : act.begins = false)
    (hstep : deliverStep errorName overflow c.shared i (c.pc i) act = some (u, p'))
    (hnext : ∀ c', (deliveries ι errorName overflow).machine.ReachWith
      (Brings errorName thrown o report) c' → c'.pc i = p' →
      CanEnd errorName overflow thrown o report i c') :
    CanEnd errorName overflow thrown o report i c := by
  have hrun : ((deliveries ι errorName overflow).machine.after c).ReachWith
      (Alone errorName thrown o report i) ⟨u, Function.update c.pc i p'⟩ := by
    refine .one (a := .thread i act) ⟨⟨hact, hsucceeds⟩, ?_⟩ ?_
    · intro j act' hl
      cases hl
      exact ⟨rfl, hbegins⟩
    · exact congrArg (Option.map fun next : ExportTask ι × ExportPc =>
        (⟨next.1, Function.update c.pc i next.2⟩ : Config ι (ExportTask ι) ExportPc)) hstep
  obtain ⟨c', hrest, hended⟩ := hnext _ (brings_alone hc hrun) (Function.update_self i p' c.pc)
  exact ⟨c', hrun.after hrest, hended⟩

/-- The call hands out the result. -/
theorem canEnd_result (hfits : o.Fits) {stage : CallStage}
    (hc : (deliveries ι errorName overflow).machine.ReachWith
      (Brings errorName thrown o report) c) (hi : c.pc i = .call stage)
    (hclosed : c.shared.close.status = .closed)
    (hstep : callStep errorName c.shared i stage .go =
      some (c.shared, .inr c.shared.resultOrError))
    (hdeliver : deliverStep errorName overflow c.shared i (.call stage) .go =
      exportStep errorName c.shared i (.call stage) .go) :
    CanEnd errorName overflow thrown o report i c := by
  obtain ⟨⟨ht, hb⟩, -⟩ := brought_reach hfits hc
  have hresult := hb.resultOrError (ht.closed hclosed)
  refine ⟨⟨c.shared, Function.update c.pc i (.idle (.of c.shared.resultOrError))⟩, ?_, ?_, hclosed,
    hb.finished hclosed⟩
  · refine .one (a := .thread i .go) ⟨⟨trivial, trivial⟩, ?_⟩ ?_
    · intro j act' hl
      cases hl
      exact ⟨rfl, rfl⟩
    · simp [Threads.machine, deliveries, hi, hdeliver, exportStep, hstep, ExportPc.ofCall]
  · rw [← hresult]
    simp

/-- From the native destroy on. -/
theorem canEnd_destroy (hfits : o.Fits) {g : ℕ}
    (hc : (deliveries ι errorName overflow).machine.ReachWith
      (Brings errorName thrown o report) c) (hi : c.pc i = .call (.destroy g)) :
    CanEnd errorName overflow thrown o report i c := by
  refine canEnd_step (.native (.code 0)) (.call (.finishParent g)) hc trivial rfl rfl
    (by rw [hi]; rfl) ?_
  intro c₁ hc₁ hi₁
  refine canEnd_step .go (.call (.succeed g)) hc₁ trivial trivial rfl
    (by rw [hi₁]; rfl) ?_
  intro c₂ hc₂ hi₂
  refine canEnd_step .go (.call .result) hc₂ trivial trivial rfl
    (by rw [hi₂]; rfl) ?_
  intro c₃ hc₃ hi₃
  have hclosed := ((brought_reach hfits hc₃).2 i).2
  rw [hi₃] at hclosed
  exact canEnd_result hfits hc₃ hi₃ hclosed rfl rfl

/-- From the close of the dispatcher on: the pool empties its queue first. -/
theorem canEnd_closeDispatcher (hfits : o.Fits) {g : ℕ}
    (hc : (deliveries ι errorName overflow).machine.ReachWith
      (Brings errorName thrown o report) c) (hi : c.pc i = .call (.closeDispatcher g)) :
    CanEnd errorName overflow thrown o report i c := by
  refine canEnd_step .go (.call (.drain g)) hc trivial trivial rfl
    (by rw [hi]; rfl) ?_
  intro c₁ hc₁ hi₁
  obtain ⟨hA, -⟩ := (brought_reach hfits hc₁).2 i
  rw [hi₁] at hA
  have hterminal : c₁.shared.terminal = true := hA.2.1
  obtain ⟨d, e, hdone, hrun⟩ := drains errorName overflow thrown o report i hterminal
  have hrest : CanEnd errorName overflow thrown o report i
      ⟨{ c₁.shared with dispatcher := d, delivering := e }, c₁.pc⟩ := by
    refine canEnd_step .go (.call (.destroy g))
      (u := { c₁.shared with dispatcher := d, delivering := e }) (brings_alone hc₁ hrun) trivial
      trivial rfl (by simp [hi₁, deliverStep, exportStep, callStep, hdone, ExportPc.ofCall]) ?_
    intro c₂ hc₂ hi₂
    exact canEnd_destroy hfits hc₂ hi₂
  obtain ⟨c', hrun', hended⟩ := hrest
  exact ⟨c', hrun.after hrun', hended⟩

/-- From the load of the report on. -/
theorem canEnd_load (hfits : o.Fits) (hknown : report.Known) {g : ℕ}
    (hc : (deliveries ι errorName overflow).machine.ReachWith
      (Brings errorName thrown o report) c) (hi : c.pc i = .call (.load g)) :
    CanEnd errorName overflow thrown o report i c := by
  have hnone := conversionError_known errorName thrown hknown
  obtain ⟨hloaded, -⟩ := load_succeeds errorName c.shared {} rfl rfl hnone
  refine canEnd_step (.loaded (.code 0) (.code 0) {} (conversionError errorName thrown report))
    (.call (.closeDispatcher g))
    (u := (c.shared.loadReport errorName (.code 0) (.code 0) {}
      (conversionError errorName thrown report)).1)
    hc (fun _ _ => rfl) ⟨rfl, rfl⟩ rfl ?_ ?_
  · rw [hi]
    rcases hresult : c.shared.loadReport errorName (.code 0) (.code 0) {}
      (conversionError errorName thrown report) with ⟨u, raised⟩
    rw [hresult] at hloaded
    obtain rfl : raised = none := hloaded
    simp [deliverStep, exportStep, callStep, hresult, ExportPc.ofCall]
  · intro c₁ hc₁ hi₁
    exact canEnd_closeDispatcher hfits hc₁ hi₁

/-- **From the call of `_finish()` on**, if nobody else tears the task down. -/
theorem canEnd_finish (hfits : o.Fits) (hknown : report.Known)
    (hc : (deliveries ι errorName overflow).machine.ReachWith
      (Brings errorName thrown o report) c) (hi : c.pc i = .call .finish)
    (hstatus : c.shared.close.status ≠ .closing) :
    CanEnd errorName overflow thrown o report i c := by
  rcases c.shared.close.begin_cases false with ⟨hst, -⟩ | ⟨hst, -⟩ | ⟨hst, hb'⟩ | ⟨hst, hb'⟩
  · exact absurd hst hstatus
  · exact canEnd_result hfits hc hi hst (congrArg some (begin_closed hst false)) rfl
  · rw [c.shared.close.begin_of_idle (.inl hst)] at hb'
    cases hb'
  · refine canEnd_step .go (.call (.load (c.shared.close.generation + 1)))
      (u := (beginCall c.shared i false).1) hc trivial trivial rfl ?_ ?_
    · rw [hi]
      simp only [deliverStep, exportStep, callStep, beginCall, hb', Option.map_some]
      rfl
    · intro c₁ hc₁ hi₁
      exact canEnd_load hfits hknown hc₁ hi₁

end Ends

/-- **On a terminal task that nobody tears down, `wait()` comes to its end.** -/
theorem wait_ends (hfits : o.Fits) (hknown : report.Known)
    (hc : (deliveries ι errorName overflow).machine.ReachWith
      (Brings errorName thrown o report) c) (hterminal : c.shared.terminal = true)
    (hstatus : c.shared.close.status ≠ .closing) {last : Returned} (hi : c.pc i = .idle last) :
    ∃ c₁, (deliveries ι errorName overflow).machine.step c (.thread i (.wait false)) = some c₁ ∧
      CanEnd errorName overflow thrown o report i c₁ := by
  obtain ⟨⟨ht, -⟩, -⟩ := brought_reach hfits hc
  have hdone : c.shared.done = true := ht.done.trans hterminal
  have hstep : (deliveries ι errorName overflow).machine.step c (.thread i (.wait false)) =
      some ⟨c.shared, Function.update c.pc i (.call .finish)⟩ := by
    simp [Threads.machine, deliveries, hi, deliverStep, exportStep, waitBegin, hdone]
  refine ⟨_, hstep, canEnd_finish hfits hknown (.step hc ?_ hstep) ?_ hstatus⟩
  · trivial
  · simp

/-! ## Without a meaning -/

variable (errorName thrown) in
/-- A report with a value that has none is not decoded. -/
theorem conversionError_unknown (hunknown : ¬ report.Known) :
    ∃ e, conversionError errorName thrown report = some e := by
  have hnot : ¬ Results.Succeeds (exportReportFromNative errorName report) := fun h =>
    hunknown (exportReportFromNative_succeeds.mp h)
  obtain ⟨e, he⟩ := raises_of_not_succeeds hnot
  refine ⟨thrown e, ?_⟩
  unfold conversionError
  rw [he]

/-- The stages behind the load of the report. -/
def CallStage.loaded : CallStage → Bool
  | .closeDispatcher _ | .drain _ | .destroy _ | .finishParent _ | .succeed _ | .result => true
  | _ => false

/-- The thread is at such a stage. -/
def ExportPc.loaded : ExportPc → Bool
  | .call stage | .parent (.call stage) => stage.loaded
  | _ => false

/-- The report is not there, and the task is not closed. -/
def Unloaded (t : ExportTask ι) : Prop := t.report = false ∧ t.close.status ≠ .closed

/-- A call goes on before the load of the report, or ends. -/
def BeforeLoad : CallStage ⊕ Except PyError RecordingFile → Prop
  | .inl stage => stage.loaded = false
  | .inr _ => True

theorem loaded_ofCall {next : CallStage ⊕ Except PyError RecordingFile} (h : BeforeLoad next) :
    (ExportPc.ofCall next).loaded = false := by
  cases next with
  | inl stage => exact h
  | inr result => rfl

theorem loaded_ofParentCall {next : CallStage ⊕ Except PyError RecordingFile}
    (h : BeforeLoad next) : (ExportPc.ofParentCall next).loaded = false := by
  rcases next with stage | (_ | _) | file
  · exact h
  · rfl
  · rfl
  · rfl

theorem loaded_quiet {p : ExportPc} (h : p.quiet = true) : p.loaded = false := by
  rcases p with _ | _ | _ | _ | (_ | _ | _ | _ | _ | _)
  all_goals
    first
    | rfl
    | cases h

theorem loaded_waitBegin (t : ExportTask ι) (timed : Bool) :
    (waitBegin t timed).loaded = false := by
  unfold waitBegin
  split
  · rfl
  · rfl

/-- The report is not loaded. -/
theorem load_unloaded {r progress : NativeResult} {value : ExportProgress}
    {convert : Option PyError} (hunknown : ¬ report.Known) (h : Unloaded t)
    (hact : (ExportAction.loaded r progress value convert).brings errorName thrown o report) :
    Unloaded (t.loadReport errorName r progress value convert).1 ∧
      ∃ e, (t.loadReport errorName r progress value convert).2 = some e := by
  unfold ExportTask.loadReport
  rw [h.1]
  simp only [Bool.false_eq_true, if_false]
  split
  · exact ⟨h, _, rfl⟩
  · exact ⟨h, _, rfl⟩
  next hr hprogress =>
    obtain ⟨e, he⟩ := conversionError_unknown errorName thrown hunknown
    obtain rfl := (hact (NativeResult.check_eq_none.mp hr)
      (NativeResult.check_eq_none.mp hprogress)).trans he
    exact ⟨⟨rfl, h.2⟩, e, rfl⟩

/-- The first section of `stop()`, or of `_finish()`. -/
theorem begin_unloaded (h : Unloaded t) (stops : Bool) :
    Unloaded (beginCall t i stops).1 ∧ BeforeLoad (beginCall t i stops).2 := by
  unfold beginCall
  rcases t.close.begin_cases false with ⟨hst, hb⟩ | ⟨hst, hb⟩ | ⟨hst, hb⟩ | ⟨hst, hb⟩
  · simp only [hb]
    exact ⟨h, rfl⟩
  · exact absurd hst h.2
  · simp only [hb]
    exact ⟨h, trivial⟩
  · simp only [hb]
    refine ⟨⟨h.1, fun hclosed => (by cases hclosed)⟩, ?_⟩
    cases stops with
    | false => rfl
    | true => cases t.terminal <;> rfl

/-- **A stage of `stop()` or `wait()` that does not get the report.** -/
theorem call_unloaded {stage : CallStage} {act : ExportAction}
    {next : CallStage ⊕ Except PyError RecordingFile} (hunknown : ¬ report.Known) (h : Unloaded t)
    (hstage : stage.loaded = false) (hact : act.brings errorName thrown o report)
    (hstep : callStep errorName t i stage act = some (t', next)) :
    Unloaded t' ∧ BeforeLoad next := by
  cases callStep_cases hstep with
  | ready timed hdone => exact ⟨h, rfl⟩
  | timedOut => exact ⟨h, trivial⟩
  | begins => exact begin_unloaded h false
  | wakes g close error houtcome hleave =>
      have hstatus := (t.close.leave_spec hleave).1
      exact ⟨⟨h.1, fun hclosed => h.2 (hstatus.symm.trans hclosed)⟩, trivial⟩
  | stopFails g r path durationMs e hr => exact ⟨h, rfl⟩
  | stopReturns g r path durationMs code hr => exact ⟨h, rfl⟩
  | completes g code path durationMs =>
      obtain ⟨hclose, hreport, -, -⟩ := complete_frame errorName t code durationMs path
      exact ⟨⟨hreport.trans h.1, fun hclosed => h.2 (hclose ▸ hclosed)⟩, rfl⟩
  | loads g r progress value convert u hload =>
      -- the conversion raises
      obtain ⟨-, e, he⟩ := load_unloaded (t := t) hunknown h hact
      rw [hload] at he
      cases he
  | loadFails g r progress value convert u e hload =>
      obtain ⟨hunloaded, -⟩ := load_unloaded (t := t) hunknown h hact
      rw [hload] at hunloaded
      exact ⟨hunloaded, rfl⟩
  | fails g e => exact ⟨⟨h.1, fun hclosed => (by cases hclosed)⟩, trivial⟩
  | _ => cases hstage

/-- **A step of a thread.** -/
theorem thread_unloaded {p p' : ExportPc} {act : ExportAction} (hunknown : ¬ report.Known)
    (h : Unloaded t) (hp : p.loaded = false) (hact : act.brings errorName thrown o report)
    (hstep : deliverStep errorName overflow t i p act = some (t', p')) :
    Unloaded t' ∧ p'.loaded = false := by
  rcases deliverStep_cases hstep with hmoves | ⟨g, code, path, durationMs, rfl, rfl, rfl, rfl⟩
  · cases hmoves with
    | begins last =>
        obtain ⟨hunloaded, hnext⟩ := begin_unloaded (i := i) h true
        exact ⟨hunloaded, loaded_ofCall hnext⟩
    | waits last timed => exact ⟨h, loaded_waitBegin t timed⟩
    | parentWaits => exact ⟨h, loaded_waitBegin t false⟩
    | cancels p p' act hcall hnone hp' =>
        refine ⟨h, ?_⟩
        rcases hp' with rfl | rfl
        · rfl
        · rfl
    | reads r progress value convert => exact ⟨(load_unloaded (t := t) hunknown h hact).1, rfl⟩
    | calls stage act t' next hcall =>
        obtain ⟨hunloaded, hbefore⟩ := call_unloaded hunknown h hp hact hcall
        exact ⟨hunloaded, loaded_ofCall hbefore⟩
    | parentCalls stage act t' next hcall =>
        obtain ⟨hunloaded, hbefore⟩ := call_unloaded hunknown h hp hact hcall
        exact ⟨hunloaded, loaded_ofParentCall hbefore⟩
    | quiet p p' act hother hp' hcancel => exact ⟨h, loaded_quiet hp'⟩
  · exact ⟨h, rfl⟩

/-- **With such a report the task is never closed**, however often one tries. -/
theorem never_closed (hunknown : ¬ report.Known)
    (hc : (deliveries ι errorName overflow).machine.ReachWith
      (Brings errorName thrown o report) c) : c.shared.close.status ≠ .closed := by
  have hguarantee : Threads.RelyGuarantee (deliveries ι errorName overflow)
      (fun _ _ _ act => act.brings errorName thrown o report) (fun _ e => e.brings o) Unloaded
      (fun _ _ p => p.loaded = false) (fun _ _ _ => True) := by
    constructor
    · rintro t rfl
      exact ⟨⟨rfl, fun h => (by cases h)⟩, fun _ => rfl⟩
    · intro i t p act t' p' h hp hact hstep
      obtain ⟨hunloaded, hp'⟩ := thread_unloaded hunknown h hp hact hstep
      exact ⟨hunloaded, hp', trivial⟩
    · intro t e t' h _ hstep
      obtain ⟨hclose, hreport, -, -⟩ := environment_frame hstep
      exact ⟨⟨hreport.trans h.1, hclose ▸ h.2⟩, trivial⟩
    · exact fun _ _ _ _ _ _ _ _ _ hp => hp
  exact (hguarantee.reach hc).1.2

/-- A `wait()` on a task whose `_done` is not set though it is terminal. -/
theorem never_done (hi : c.pc i = .call (.waiting false)) (hdone : c.shared.done = false)
    (hterminal : c.shared.terminal = true)
    (h : ((deliveries ι errorName overflow).machine.after c).ReachWith
      (Alone errorName thrown o report i) c') : c'.pc i = .call (.waiting false) := by
  have hinvariant : c'.pc i = .call (.waiting false) ∧ c'.shared.done = false ∧
      c'.shared.terminal = true := by
    refine h.invariant (I := fun c => c.pc i = .call (.waiting false) ∧ c.shared.done = false ∧
      c.shared.terminal = true) ?_ ?_
    · rintro _ rfl
      exact ⟨hi, hdone, hterminal⟩
    · rintro s (⟨j, act⟩ | ⟨e⟩) s' ⟨hs, hundone, hend⟩ ⟨hok, halone⟩ hstep
      · obtain ⟨rfl, -⟩ := halone j act rfl
        obtain ⟨⟨t', p'⟩, hnext, -⟩ := Option.map_eq_some_iff.mp hstep
        rw [hs] at hnext
        cases act with
        | go => simp [deliveries, deliverStep, exportStep, callStep, hundone] at hnext
        | timeout => simp [deliveries, deliverStep, exportStep, callStep] at hnext
        | _ => cases hnext
      · obtain ⟨t', hnext, rfl⟩ := Option.map_eq_some_iff.mp hstep
        have hnext : deliverEnvironment errorName s.shared e = some t' := hnext
        refine ⟨hs, ?_⟩
        cases e with
        | post event =>
            obtain ⟨r, -, rfl⟩ := Option.map_eq_some_iff.mp hnext
            exact ⟨hundone, hend⟩
        | drainBegin =>
            simp only [deliverEnvironment, environmentStep] at hnext
            split at hnext
            · cases hnext
            · cases hnext
              exact ⟨hundone, hend⟩
        | handle =>
            cases hdelivering : s.shared.delivering with
            | none => simp [deliverEnvironment, environmentStep, hdelivering] at hnext
            | some event =>
                rw [handle_terminal hend hdelivering] at hnext
                cases hnext
                exact ⟨hundone, hend⟩
        | drainEnd =>
            simp only [deliverEnvironment, environmentStep] at hnext
            split at hnext
            · cases hnext
              exact ⟨hundone, hend⟩
            · cases hnext
  exact hinvariant.1

/-- A step of the Runtime or the pool that brings the outcome. -/
theorem brings_environment {e : ExportEnvironment} {u : ExportTask ι}
    (hc : (deliveries ι errorName overflow).machine.ReachWith
      (Brings errorName thrown o report) c)
    (he : e.brings o) (h : deliverEnvironment errorName c.shared e = some u) :
    (deliveries ι errorName overflow).machine.ReachWith
      (Brings errorName thrown o report) ⟨u, c.pc⟩ :=
  hc.step (a := .env e) he
    (congrArg (Option.map fun t => (⟨t, c.pc⟩ : Config ι (ExportTask ι) ExportPc)) h)

variable (ι errorName overflow thrown o report) in
/-- **The outcome comes**, and no thread has called yet. -/
theorem delivered : ∃ t : ExportTask ι, t.terminal = true ∧ t.close.status = .open ∧
    (¬ o.Fits → t.done = false) ∧ (deliveries ι errorName overflow).machine.ReachWith
      (Brings errorName thrown o report) ⟨t, fun _ => .idle .none⟩ := by
  have hstart : (deliveries ι errorName overflow).machine.ReachWith
      (Brings errorName thrown o report) ⟨{}, fun _ => .idle .none⟩ := .start ⟨rfl, rfl⟩
  have hposted := brings_environment hstart
    (e := .post (.completed o.code o.path o.durationMs)) rfl rfl
  have htaken := brings_environment hposted (e := .drainBegin) trivial rfl
  cases hoverflows : ({} : ExportTask ι).overflows o.code o.durationMs with
  | true => exact ⟨_, rfl, rfl, fun _ => rfl,
      brings_environment htaken (e := .handle) trivial (if_pos hoverflows)⟩
  | false =>
      refine ⟨_, rfl, rfl, fun hnot => ?_, brings_environment htaken (e := .handle) trivial
        (if_neg (Bool.eq_false_iff.mp hoverflows))⟩
      exfalso
      apply hnot
      intro hcode
      rw [← Option.isSome_iff_exists, ← Option.not_isNone]
      simpa [ExportTask.overflows, hcode] using hoverflows

/-! ## Exactly when the promise is kept -/

/-- An export that keeps its promise has a duration that fits, and a report with a meaning. -/
theorem Yields.known (h : Yields errorName overflow thrown o report i) : o.Fits ∧ report.Known := by
  obtain ⟨t, hterminal, hopen, hundone, hc⟩ := delivered ι errorName overflow thrown o report
  have hstatus : t.close.status ≠ .closing := by
    rw [hopen]
    intro hclosing
    cases hclosing
  obtain ⟨c₁, hwait, c', hrun, hidle, hclosed, -⟩ := h.2 _ hc hterminal hstatus ⟨_, rfl⟩
  constructor
  · by_contra hnot
    have hstep : (deliveries ι errorName overflow).machine.step ⟨t, fun _ => .idle .none⟩
        (.thread i (.wait false)) =
        some ⟨t, Function.update (fun _ => .idle .none) i (.call (.waiting false))⟩ := by
      simp [Threads.machine, deliveries, deliverStep, exportStep, waitBegin, hundone hnot]
    cases hstep.symm.trans hwait
    have hwaiting := never_done (by simp) (hundone hnot) hterminal hrun
    cases hidle.symm.trans hwaiting
  · by_contra hnot
    have hbrings : Brings errorName thrown o report ⟨t, fun _ => .idle .none⟩
        (.thread i (.wait false)) := trivial
    have hc₁ := hc.step hbrings hwait
    exact never_closed hnot (brings_alone hc₁ hrun) hclosed

variable (errorName overflow thrown o report i) in
/-- **A finished export yields its outcome exactly when all of its values have a meaning**: when the
code is 0 `timedelta` has the duration of the file; the times of the report are in the years 1 to
9999, its track kinds are 1 or 2, its gap reasons from 0 to 9, its termination from 0 to 3.
Source: `storage/__init__.py`, `_export_report_from_native` and `ExportTask._finish` -/
theorem yields_iff : Yields errorName overflow thrown o report i ↔ o.Fits ∧ report.Known := by
  constructor
  · exact Yields.known
  · rintro ⟨hfits, hknown⟩
    refine ⟨?_, ?_⟩
    · intro c hc stage act c' last hi hok hstep hlast
      exact ends_with_outcome hfits hknown hc hi hok hstep hlast
    · rintro c hc hterminal hstatus ⟨last, hi⟩
      exact wait_ends hfits hknown hc hterminal hstatus hi

end Yielding

/-- A report with a gap for a reason that the SDK does not know. -/
def unknownReason : NativeReport where
  startMs := 0
  endMs := 2000
  coveredMs := 1000
  complete := false
  termination := 0
  cause := 0
  segments := []
  gaps := [⟨1000, 2000, [(1, 0)], [10]⟩]
  unprocessed := []

/-- **A finished export that never yields its file**: one gap has the reason 10. -/
theorem unknown_reason_refused :
    ¬ ∀ (o : Outcome) (report : NativeReport),
      Yields (fun _ => "") (.other 8) (fun _ => .other 9) o report (0 : Fin 1) := by
  intro h
  have hknown := (h ⟨0, "export.mp4", 2000⟩ unknownReason).known.2
  revert hknown
  decide

end Tirtc.Exports
