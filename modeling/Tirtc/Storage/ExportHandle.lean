import Tirtc.Storage.ExportProgress

/-!
# No native call with a destroyed export

`cancel()` looks under the lock whether the export is still running, and calls the Runtime behind
it; no teardown waits for it. All other native calls of an ExportTask are made under the lock, or by
the thread that tears it down, and the report is there before the handle is destroyed.

* `usesHandle`, `refuse`, `late`, `handleCalls`: the calls on an ExportTask again, where a native
  function refuses a destroyed handle.
* `unpended`: the condition on the native close.
* `HandleOk`, `OwnsAt`, `Leaves`: who may use and destroy the handle; `begin_leaves`, `call_leaves`,
  `thread_leaves`, `handle_rely_guarantee`: each step keeps it.
* `live_of_uses`, `destroys_cases`, `not_pending`: the native calls before and behind the close.
* `late_iff`: the condition is exact in every step.
* `handle_unused_after_destroy`: in every run under the condition no native call is late.
* `cancelled_after_destroy`: a run in which one is.
-/

set_option autoImplicit false
set_option linter.unusedSectionVars false

namespace Tirtc.Exports

open Transition

/-! ## The calls -/

section Calls

variable {ι : Type}

/-- A native function is called with the handle at this stage of `stop()` or `wait()`. -/
def CallStage.uses (t : ExportTask ι) : CallStage → Bool
  | .stop _ | .destroy _ => true
  | .load _ => !t.report
  | _ => false

/-- A native function is called with the handle in this step.
Source: `storage/__init__.py`, `ExportTask` -/
def usesHandle (t : ExportTask ι) : ExportPc → ProgressAction → Bool
  | .idle _, .progressDetail _ _ => decide (t.close.status = .open)
  | .cancelNative, _ | .parent .cancelNative, _ => true
  | .report, _ => !t.report
  | .call stage, _ | .parent (.call stage), _ => stage.uses t
  | _, _ => false

/-- The call is made behind a native close that has succeeded. -/
def late (t : ExportTask ι) (p : ExportPc) (act : ProgressAction) : Bool :=
  decide (t.destroys ≠ 0) && usesHandle t p act

/-- The thread is at the native close. -/
def ExportPc.destroying : ExportPc → Bool
  | .call (.destroy _) | .parent (.call (.destroy _)) => true
  | _ => false

/-- What a native function does with a destroyed handle: it raises the `RuntimeError` `closed`, but
for a native close, which has nothing to do.
Source: `extension.c`, `get_handle` and `py_close` -/
def refuse (closed : PyError) (p : ExportPc) : ProgressAction → ProgressAction
  | .progressDetail _ value => .progressDetail (.raised closed) value
  | .call (.native _) => .call (.native (if p.destroying then .code 0 else .raised closed))
  | .call (.stopped _ path durationMs) => .call (.stopped (.raised closed) path durationMs)
  | .call (.loaded _ _ value convert) =>
      .call (.loaded (.raised closed) (.raised closed) value convert)
  | act => act

/-- A step of thread `i`. -/
def handleStep (errorName : ℤ → String) (overflow closed : PyError) (s : ProgressTask ι) (i : ι)
    (p : ExportPc) (act : ProgressAction) : Option (ProgressTask ι × ExportPc) :=
  progressStep errorName overflow s i p (if late s.task p act then refuse closed p act else act)

end Calls

/-- **The calls on one ExportTask**, with its handle. -/
def handleCalls (ι : Type) (errorName : ℤ → String) (overflow closed : PyError) (listens : Bool) :
    Threads ι (ProgressTask ι) ExportPc ProgressAction ProgressEnvironment where
  start s := s = {}
  entry := .idle .none
  step i s p act := handleStep errorName overflow closed s i p act
  env s e := progressEnvironment errorName listens s e

/-! ## The condition -/

/-- A `cancel()` has passed its check, and has still to call the Runtime. -/
def ExportPc.pending : ExportPc → Bool
  | .cancelNative | .parent .cancelNative => true
  | _ => false

/-- The native close succeeds. -/
def destroys : ExportPc → ProgressAction → Bool
  | .call (.destroy _), .call (.native r) | .parent (.call (.destroy _)), .call (.native r) =>
      decide (r = .code 0)
  | _, _ => false

/-- **The condition**: when the native close succeeds, no `cancel()` has still to call the
Runtime. -/
def unpended {ι : Type} (c : Config ι (ProgressTask ι) ExportPc) :
    Label ι ProgressAction ProgressEnvironment → Prop
  | .thread i act => destroys (c.pc i) act = true → ∀ j, (c.pc j).pending = false
  | .env _ => True

/-! ## Who may use and destroy the handle -/

section Invariant

variable {ι : Type} {errorName : ℤ → String} {overflow closed : PyError} {listens : Bool}
  {t t' : ExportTask ι} {s s' : ProgressTask ι} {i : ι}

/-- **The invariant of the handle.** -/
structure HandleOk (t : ExportTask ι) : Prop where
  once : t.destroys ≤ 1
  destroyed : t.destroys ≠ 0 →
    t.report = true ∧ (t.close.status = .closing ∨ t.close.status = .closed)

/-- What thread `i` knows of the handle in `stop()` or `wait()`. -/
def OwnsAt (i : ι) (t : ExportTask ι) : CallStage → Prop
  | .stop _ | .stopped _ _ _ _ | .load _ | .fail _ _ => Closes i t ∧ t.destroys = 0
  | .closeDispatcher _ | .drain _ | .destroy _ =>
      (Closes i t ∧ t.destroys = 0) ∧ t.report = true
  | .finishParent _ | .succeed _ => Closes i t
  | _ => True

/-- What it knows at its place. -/
def HandleAt (i : ι) (t : ExportTask ι) : ExportPc → Prop
  | .call stage | .parent (.call stage) => OwnsAt i t stage
  | _ => True

/-- What the next stage knows, if there is one. -/
def OwnsNext (i : ι) (t : ExportTask ι) : CallStage ⊕ Except PyError RecordingFile → Prop
  | .inl stage => OwnsAt i t stage
  | .inr _ => True

theorem handleAt_ofCall {next : CallStage ⊕ Except PyError RecordingFile} (h : OwnsNext i t next) :
    HandleAt i t (.ofCall next) := by
  cases next with
  | inl stage => exact h
  | inr result => trivial

theorem handleAt_ofParentCall {next : CallStage ⊕ Except PyError RecordingFile}
    (h : OwnsNext i t next) : HandleAt i t (.ofParentCall next) := by
  rcases next with stage | (_ | _) | file
  · exact h
  · trivial
  · trivial
  · trivial

theorem handleAt_quiet {p : ExportPc} (h : p.quiet = true) : HandleAt i t p := by
  rcases p with _ | _ | _ | _ | (_ | _ | _ | _ | _ | _)
  all_goals
    trivial

theorem ownsAt_waitBegin (i : ι) (t : ExportTask ι) (timed : Bool) :
    OwnsAt i t (waitBegin t timed) := by
  unfold waitBegin
  split
  · trivial
  · trivial

/-- **What a step of `k` leaves to the others**: the report, and the teardown and the handle to the
thread that tears down. -/
structure Leaves (k : Option ι) (t t' : ExportTask ι) : Prop where
  ok : HandleOk t'
  report : t.report = true → t'.report = true
  closes : ∀ j, k ≠ some j → Closes j t → Closes j t' ∧ t'.destroys = t.destroys

/-- A step that leaves the handle and the teardown alone. -/
theorem Leaves.same {k : Option ι} (ht : HandleOk t) (hstatus : t'.close.status = t.close.status)
    (hreport : t.report = true → t'.report = true) (hdestroys : t'.destroys = t.destroys)
    (hcloser : t'.closer = t.closer) : Leaves k t t' where
  ok := by
    refine ⟨hdestroys ▸ ht.once, ?_⟩
    intro hd
    rw [hdestroys] at hd
    rw [hstatus]
    exact ⟨hreport (ht.destroyed hd).1, (ht.destroyed hd).2⟩
  report := hreport
  closes j _ h := ⟨⟨hcloser.trans h.1, hstatus.trans h.2⟩, hdestroys⟩

theorem Leaves.refl (k : Option ι) (ht : HandleOk t) : Leaves k t t := .same ht rfl id rfl rfl

/-- What a thread knows, the others leave alone. -/
theorem HandleAt.stable {j : ι} {k : Option ι} {p : ExportPc} (hk : k ≠ some j)
    (h : Leaves k t t') (hA : HandleAt j t p) : HandleAt j t' p := by
  have hcloses : Closes j t ∧ t.destroys = 0 → Closes j t' ∧ t'.destroys = 0 := by
    rintro ⟨hcloses, hdestroys⟩
    obtain ⟨hcloses', hsame⟩ := h.closes j hk hcloses
    exact ⟨hcloses', hsame.trans hdestroys⟩
  have hstage : ∀ stage, OwnsAt j t stage → OwnsAt j t' stage := by
    intro stage hA
    cases stage with
    | waiting _ | finish | join _ | result => trivial
    | stop _ | stopped _ _ _ _ | load _ | fail _ _ => exact hcloses hA
    | closeDispatcher _ | drain _ | destroy _ => exact ⟨hcloses hA.1, h.report hA.2⟩
    | finishParent _ | succeed _ => exact (h.closes j hk hA).1
  cases p with
  | call stage => exact hstage stage hA
  | parent stage =>
      cases stage with
      | call stage => exact hstage stage hA
      | _ => trivial
  | _ => trivial

/-! ## Each step keeps it -/

/-- The first section of `stop()`, or of `_finish()`. -/
theorem begin_leaves (ht : HandleOk t) (stops : Bool) :
    Leaves (some i) t (beginCall t i stops).1 ∧
      OwnsNext i (beginCall t i stops).1 (beginCall t i stops).2 := by
  unfold beginCall
  rcases t.close.begin_cases false with ⟨hst, hb⟩ | ⟨hst, hb⟩ | ⟨hst, hb⟩ | ⟨hst, hb⟩
  · simp only [hb]
    exact ⟨.same ht rfl id rfl rfl, trivial⟩
  · simp only [hb]
    exact ⟨.same ht rfl id rfl rfl, trivial⟩
  · simp only [hb]
    exact ⟨.same ht rfl id rfl rfl, trivial⟩
  · -- a teardown begins, and the handle is there
    simp only [hb]
    have hdestroys : t.destroys = 0 := by
      by_contra hd
      rcases (ht.destroyed hd).2 with hend | hend
      · rw [hend] at hst
        rcases hst with hst | hst <;> cases hst
      · rw [hend] at hst
        rcases hst with hst | hst <;> cases hst
    refine ⟨⟨⟨ht.once, fun hd => absurd hdestroys hd⟩, id, ?_⟩, ?_⟩
    · intro j _ h
      have hclosing := h.2
      rw [hclosing] at hst
      rcases hst with hst | hst <;> cases hst
    · cases stops with
      | false => exact ⟨⟨rfl, rfl⟩, hdestroys⟩
      | true =>
          cases t.terminal with
          | false => exact ⟨⟨rfl, rfl⟩, hdestroys⟩
          | true => exact ⟨⟨rfl, rfl⟩, hdestroys⟩

theorem begin_destroys (t : ExportTask ι) (i : ι) (stops : Bool) :
    (beginCall t i stops).1.destroys = t.destroys := by
  unfold beginCall
  rcases t.close.begin_cases false with ⟨-, hb⟩ | ⟨-, hb⟩ | ⟨-, hb⟩ | ⟨-, hb⟩
  all_goals
    simp only [hb]

/-- The report is loaded, or not, under a teardown. -/
theorem load_leaves {u : ExportTask ι} {raised : Option PyError} {report progress : NativeResult}
    {value : ExportProgress} {convert : Option PyError} (ht : HandleOk t)
    (hA : Closes i t ∧ t.destroys = 0)
    (hload : t.loadReport errorName report progress value convert = (u, raised)) :
    Leaves (some i) t u ∧ (Closes i u ∧ u.destroys = 0) ∧ (raised = none → u.report = true) := by
  have hframe := load_frame errorName t report progress value convert
  rw [hload] at hframe
  obtain ⟨hcloser, hclose, hdestroys, hreport, hloaded⟩ := hframe
  exact ⟨.same ht (by rw [hclose]) hreport hdestroys hcloser,
    ⟨⟨hcloser.trans hA.1.1, hclose ▸ hA.1.2⟩, hdestroys.trans hA.2⟩, hloaded⟩

/-- **A stage of `stop()` or `wait()`.** -/
theorem call_leaves {stage : CallStage} {act : ExportAction}
    {next : CallStage ⊕ Except PyError RecordingFile} (ht : HandleOk t) (hA : OwnsAt i t stage)
    (h : callStep errorName t i stage act = some (t', next)) :
    Leaves (some i) t t' ∧ OwnsNext i t' next := by
  cases callStep_cases h with
  | begins => exact begin_leaves ht false
  | wakes g close error houtcome hleave =>
      have hstatus := (t.close.leave_spec hleave).1
      exact ⟨.same ht hstatus id rfl rfl, trivial⟩
  | completes g code path durationMs =>
      obtain ⟨hclose, hreport, hdestroys, hcloser⟩ :=
        complete_frame errorName t code durationMs path
      exact ⟨.same ht (by rw [hclose]) (fun h => hreport.trans h) hdestroys hcloser,
        ⟨hcloser.trans hA.1.1, hclose ▸ hA.1.2⟩, hdestroys.trans hA.2⟩
  | loads g report progress value convert u hload =>
      obtain ⟨hleaves, hcloses, hloaded⟩ := load_leaves ht hA hload
      exact ⟨hleaves, hcloses, hloaded rfl⟩
  | loadFails g report progress value convert u e hload =>
      obtain ⟨hleaves, hcloses, -⟩ := load_leaves ht hA hload
      exact ⟨hleaves, hcloses⟩
  | closesDispatcher g => exact ⟨.same ht rfl id rfl rfl, hA⟩
  | destroys g r hr =>
      obtain ⟨⟨hcloses, hdestroys⟩, hreport⟩ := hA
      refine ⟨⟨⟨by simp [hdestroys], fun _ => ⟨hreport, .inl hcloses.2⟩⟩, id, fun j hj h => ?_⟩,
        hcloses⟩
      exact absurd (hcloses.1.symm.trans h.1) hj
  | destroyFails g r e hr => exact ⟨.refl _ ht, hA.1⟩
  | finishesParent g => exact ⟨.same ht rfl id rfl rfl, hA⟩
  | succeeds g =>
      refine ⟨⟨⟨ht.once, fun hd => ⟨(ht.destroyed hd).1, .inr rfl⟩⟩, id, fun j hj h => ?_⟩, trivial⟩
      exact absurd (hA.1.symm.trans h.1) hj
  | fails g e =>
      obtain ⟨hcloses, hdestroys⟩ := hA
      refine ⟨⟨⟨ht.once, fun hd => absurd hdestroys hd⟩, id, fun j hj h => ?_⟩, trivial⟩
      exact absurd (hcloses.1.symm.trans h.1) hj
  | ready _ _ | timedOut | results => exact ⟨.refl _ ht, trivial⟩
  | stopFails _ _ _ _ _ _ | stopReturns _ _ _ _ _ _ | drained _ _ => exact ⟨.refl _ ht, hA⟩

/-- **A step of a thread.** -/
theorem thread_leaves {p p' : ExportPc} {act : ExportAction} (ht : HandleOk t)
    (hA : HandleAt i t p) (h : deliverStep errorName overflow t i p act = some (t', p')) :
    Leaves (some i) t t' ∧ HandleAt i t' p' := by
  rcases deliverStep_cases h with hmoves | ⟨g, code, path, durationMs, rfl, rfl, rfl, rfl⟩
  · cases hmoves with
    | begins last =>
        obtain ⟨hleaves, hnext⟩ := begin_leaves (i := i) ht true
        exact ⟨hleaves, handleAt_ofCall hnext⟩
    | waits last timed => exact ⟨.refl _ ht, ownsAt_waitBegin i t timed⟩
    | parentWaits => exact ⟨.refl _ ht, ownsAt_waitBegin i t false⟩
    | cancels p p' act hcall hnone hp' =>
        refine ⟨.refl _ ht, ?_⟩
        rcases hp' with rfl | rfl
        · trivial
        · trivial
    | reads report progress value convert =>
        obtain ⟨hcloser, hclose, hdestroys, hreport, -⟩ :=
          load_frame errorName t report progress value convert
        exact ⟨.same ht (by rw [hclose]) hreport hdestroys hcloser, trivial⟩
    | calls stage act t' next hcall =>
        obtain ⟨hleaves, hnext⟩ := call_leaves ht hA hcall
        exact ⟨hleaves, handleAt_ofCall hnext⟩
    | parentCalls stage act t' next hcall =>
        obtain ⟨hleaves, hnext⟩ := call_leaves ht hA hcall
        exact ⟨hleaves, handleAt_ofParentCall hnext⟩
    | quiet p p' act hother hp' hcancel => exact ⟨.refl _ ht, handleAt_quiet hp'⟩
  · exact ⟨.same ht rfl id rfl rfl, hA⟩

/-- A read of the progress, or a step of a call. -/
theorem progressStep_cases {p p' : ExportPc} {act : ProgressAction}
    (h : progressStep errorName overflow s i p act = some (s', p')) :
    (∃ progress last, s'.task = { s.task with progress := progress } ∧ p' = .idle last) ∨
      ∃ call, act = .call call ∧
        deliverStep errorName overflow s.task i p call = some (s'.task, p') := by
  unfold progressStep at h
  split at h
  next result value =>
    have hframe : ∃ progress, (s.task.progressDetail errorName result value).1 =
        { s.task with progress := progress } := by
      unfold ExportTask.progressDetail
      split
      · split
        · exact ⟨s.task.progress, rfl⟩
        · simp only
          split
          · exact ⟨_, rfl⟩
          · exact ⟨s.task.progress, rfl⟩
      · exact ⟨s.task.progress, rfl⟩
    obtain ⟨progress, hprogress⟩ := hframe
    split at h
    next hdetail =>
      rw [hdetail] at hprogress
      cases h
      exact .inl ⟨progress, _, hprogress, rfl⟩
    next hdetail =>
      rw [hdetail] at hprogress
      cases h
      exact .inl ⟨progress, _, hprogress, rfl⟩
  next call =>
    obtain ⟨⟨t, next⟩, hcall, hnext⟩ := Option.map_eq_some_iff.mp h
    cases hnext
    exact .inr ⟨call, rfl, hcall⟩
  · cases h

/-- A step of the Runtime or the pool, as for the calls alone. -/
theorem progressEnvironment_cases {e : ProgressEnvironment}
    (h : progressEnvironment errorName listens s e = some s') :
    s'.task = s.task ∨ ∃ e', deliverEnvironment errorName s.task e' = some s'.task := by
  unfold progressEnvironment at h
  split at h
  · obtain ⟨t, hpost, rfl⟩ := Option.map_eq_some_iff.mp h
    exact .inr ⟨_, hpost⟩
  · split at h
    · cases h
    · obtain ⟨t, hhandle, rfl⟩ := Option.map_eq_some_iff.mp h
      exact .inr ⟨_, hhandle⟩
  · split at h
    · cases h
    · obtain ⟨t, henv, rfl⟩ := Option.map_eq_some_iff.mp h
      exact .inr ⟨_, henv⟩
  · obtain ⟨fraction, -, rfl⟩ := Option.map_eq_some_iff.mp h
    exact .inl rfl

/-- **Any number of calls keep the invariant**, whatever the Runtime does. -/
theorem handle_rely_guarantee :
    Threads.RelyGuarantee (handleCalls ι errorName overflow closed listens)
      (fun _ _ _ _ => True) (fun _ _ => True) (fun s => HandleOk s.task)
      (fun i s p => HandleAt i s.task p) (fun k s s' => Leaves k s.task s'.task) where
  start := by
    rintro s rfl
    exact ⟨⟨Nat.zero_le 1, fun hd => absurd rfl hd⟩, fun _ => trivial⟩
  thread i s p act s' p' ht hA _ hstep := by
    rcases progressStep_cases hstep with ⟨progress, last, htask, rfl⟩ | ⟨call, -, hcall⟩
    · have hleaves : Leaves (some i) s.task s'.task := by
        rw [htask]
        exact .same ht rfl id rfl rfl
      exact ⟨hleaves.ok, trivial, hleaves⟩
    · obtain ⟨hleaves, hnext⟩ := thread_leaves ht hA hcall
      exact ⟨hleaves.ok, hnext, hleaves⟩
  env s e s' ht _ hstep := by
    have hleaves : Leaves none s.task s'.task := by
      rcases progressEnvironment_cases hstep with hsame | ⟨e', henv⟩
      · rw [hsame]
        exact .refl _ ht
      · obtain ⟨hclose, hreport, hdestroys, hcloser⟩ := environment_frame henv
        exact .same ht (by rw [hclose]) (fun h => hreport.trans h) hdestroys hcloser
    exact ⟨hleaves.ok, hleaves⟩
  stable j k s s' p hk _ _ hG hA := hA.stable hk hG

/-! ## Before and behind the native close -/

/-- **Only a `cancel()` may be late**: any other native call is made with a handle that is there. -/
theorem live_of_uses {p : ExportPc} {act : ProgressAction} (ht : HandleOk t) (hA : HandleAt i t p)
    (hp : p.pending = false) (huses : usesHandle t p act = true) : t.destroys = 0 := by
  by_contra hd
  obtain ⟨hreport, hstatus⟩ := ht.destroyed hd
  have hstage : ∀ stage, OwnsAt i t stage → CallStage.uses t stage = true → False := by
    intro stage hA huses
    cases stage with
    | stop _ => exact hd hA.2
    | load _ => exact hd hA.2
    | destroy _ => exact hd hA.1.2
    | _ => cases huses
  unfold usesHandle at huses
  split at huses
  · have hopen := of_decide_eq_true huses
    rw [hopen] at hstatus
    rcases hstatus with hst | hst <;> cases hst
  · cases hp
  · cases hp
  · rw [hreport] at huses
    cases huses
  · exact hstage _ hA huses
  · exact hstage _ hA huses
  · cases huses

/-- Behind the native close no `cancel()` passes its check. -/
theorem not_pending {p p' : ExportPc} {act : ProgressAction} (hopen : s.task.close.status ≠ .open)
    (h : progressStep errorName overflow s i p act = some (s', p')) : p'.pending = false := by
  have hofCall : ∀ next, (ExportPc.ofCall next).pending = false := by
    intro next
    cases next with
    | inl stage => rfl
    | inr result => rfl
  have hofParentCall : ∀ next, (ExportPc.ofParentCall next).pending = false := by
    intro next
    rcases next with stage | (_ | _) | file <;> rfl
  rcases progressStep_cases h with ⟨progress, last, -, rfl⟩ | ⟨call, -, hcall⟩
  · rfl
  rcases deliverStep_cases hcall with hmoves | ⟨g, code, path, durationMs, -, -, -, rfl⟩
  · generalize s'.task = u at hmoves
    cases hmoves with
    | begins last => exact hofCall _
    | waits last timed => rfl
    | parentWaits => rfl
    | cancels p p' act hact hnone hp' =>
        unfold ExportTask.cancelBegin at hnone
        split at hnone
        · cases hnone
        · have hcheck := Option.map_eq_none_iff.mp hnone
          exact absurd (CloseCoordinator.requireOpen_eq_none.mp hcheck) hopen
    | reads report progress value convert => rfl
    | calls stage act t' next _ => exact hofCall _
    | parentCalls stage act t' next _ => exact hofParentCall _
    | quiet p p' act hother hp' hcancel =>
        unfold ExportPc.pending
        split
        · exact absurd rfl hcancel.1
        · exact absurd rfl hcancel.2
        · rfl
  · rfl

/-- **Only the native close destroys the handle.** -/
theorem destroys_cases {p p' : ExportPc} {act : ProgressAction}
    (h : progressStep errorName overflow s i p act = some (s', p')) :
    s'.task.destroys = s.task.destroys ∨ (destroys p act = true ∧ p'.pending = false) := by
  have hstage : ∀ {t' stage act next}, callStep errorName s.task i stage act = some (t', next) →
      t'.destroys = s.task.destroys ∨ ∃ g g', stage = .destroy g ∧ act = .native (.code 0) ∧
        next = .inl (.finishParent g') := by
    intro t' stage act next hcall
    cases callStep_cases hcall with
    | begins => exact .inl (begin_destroys _ _ _)
    | completes g code path durationMs => exact .inl (complete_frame errorName _ _ _ _).2.2.1
    | loads g report progress value convert u hload =>
        have hframe := load_frame errorName s.task report progress value convert
        rw [hload] at hframe
        exact .inl hframe.2.2.1
    | loadFails g report progress value convert u e hload =>
        have hframe := load_frame errorName s.task report progress value convert
        rw [hload] at hframe
        exact .inl hframe.2.2.1
    | destroys g r hr =>
        obtain rfl := NativeResult.retryInUse_eq_none.mp hr
        exact .inr ⟨g, g, rfl, rfl, rfl⟩
    | _ => exact .inl rfl
  rcases progressStep_cases h with ⟨progress, last, htask, -⟩ | ⟨call, rfl, hcall⟩
  · exact .inl (by rw [htask])
  rcases deliverStep_cases hcall with hmoves | ⟨g, code, path, durationMs, rfl, rfl, htask, rfl⟩
  · generalize hu : s'.task = u at hmoves
    cases hmoves with
    | begins last => exact .inl (begin_destroys _ _ _)
    | reads report progress value convert =>
        exact .inl (load_frame errorName _ report progress value convert).2.2.1
    | calls stage act t' next hcall' =>
        rcases hstage hcall' with hsame | ⟨g, g', rfl, rfl, rfl⟩
        · exact .inl hsame
        · exact .inr ⟨rfl, rfl⟩
    | parentCalls stage act t' next hcall' =>
        rcases hstage hcall' with hsame | ⟨g, g', rfl, rfl, rfl⟩
        · exact .inl hsame
        · exact .inr ⟨rfl, rfl⟩
    | _ => exact .inl rfl
  · exact .inl (by rw [htask])

/-- So no native call is late while no `cancel()` has one to make. -/
theorem not_late {p : ExportPc} {act : ProgressAction} (ht : HandleOk t) (hA : HandleAt i t p)
    (hp : t.destroys ≠ 0 → p.pending = false) : late t p act = false := by
  by_contra hlate
  obtain ⟨hd, huses⟩ : t.destroys ≠ 0 ∧ usesHandle t p act = true := by
    simpa [late] using hlate
  exact hd (live_of_uses ht hA (hp hd) huses)

variable (errorName overflow closed i) in
/-- **A `cancel()` that has passed its check** behind the native close gets the `RuntimeError`. -/
theorem refused_of_pending {p : ExportPc} (hp : p.pending = true) (hd : s.task.destroys ≠ 0)
    (r : NativeResult) :
    late s.task p (.call (.native r)) = true ∧
      handleStep errorName overflow closed s i p (.call (.native r)) =
        some (s, .idle (.raised closed)) := by
  have hlate : late s.task p (.call (.native r)) = true := by
    unfold late
    rw [decide_eq_true hd]
    unfold ExportPc.pending at hp
    split at hp
    · rfl
    · rfl
    · cases hp
  refine ⟨hlate, ?_⟩
  unfold handleStep
  rw [if_pos hlate]
  unfold ExportPc.pending at hp
  split at hp
  · rfl
  · rfl
  · cases hp

/-- The section of `cancel()`, by itself or in the close of the CloudStorage. -/
def cancels : ExportPc → ProgressAction → Bool
  | .idle _, .call .cancel | .parent .cancel, .call .go => true
  | _, _ => false

/-- **A `cancel()` that comes too late for its check** does nothing, or raises `ClosedError`. -/
theorem cancel_over {p p' : ExportPc} {act : ProgressAction} (hcancels : cancels p act = true)
    (hover : s.task.terminal = true ∨ s.task.close.status ≠ .open)
    (h : handleStep errorName overflow closed s i p act = some (s', p')) :
    s' = s ∧ p'.pending = false ∧ ∀ e, p' = .idle (.raised e) → e = closedError := by
  have hbegin : s.task.cancelBegin = some (.ok ()) ∨
      s.task.cancelBegin = some (.error closedError) := by
    unfold ExportTask.cancelBegin
    split
    · exact .inl rfl
    next hterminal =>
      have hopen := hover.resolve_left hterminal
      exact .inr (by simp [CloseCoordinator.requireOpen, hopen])
  unfold cancels at hcancels
  split at hcancels
  next last =>
    have hlate : late s.task (.idle last) (.call .cancel) = false := by simp [late, usesHandle]
    unfold handleStep at h
    rw [hlate] at h
    rcases hbegin with hbegin | hbegin
    · simp only [progressStep, deliverStep, exportStep, hbegin] at h
      cases h
      exact ⟨rfl, rfl, fun e he => by cases he⟩
    · simp only [progressStep, deliverStep, exportStep, hbegin] at h
      cases h
      exact ⟨rfl, rfl, fun e he => by cases he; rfl⟩
  next =>
    have hlate : late s.task (.parent .cancel) (.call .go) = false := by simp [late, usesHandle]
    unfold handleStep at h
    rw [hlate] at h
    rcases hbegin with hbegin | hbegin
    · simp only [progressStep, deliverStep, exportStep, parentStep, hbegin] at h
      cases h
      exact ⟨rfl, rfl, fun e he => by cases he⟩
    · simp only [progressStep, deliverStep, exportStep, parentStep, hbegin] at h
      cases h
      exact ⟨rfl, rfl, fun e he => by cases he; rfl⟩
  · cases hcancels

end Invariant

/-! ## Runs -/

section Runs

variable {ι : Type} [DecidableEq ι] {errorName : ℤ → String} {overflow closed : PyError}
  {listens : Bool} {c c' : Config ι (ProgressTask ι) ExportPc}

/-- Once the handle is destroyed, no `cancel()` has a native call to make. -/
def Clear (c : Config ι (ProgressTask ι) ExportPc) : Prop :=
  c.shared.task.destroys ≠ 0 → ∀ j, (c.pc j).pending = false

/-- A step of a thread keeps it. -/
theorem Clear.thread {i : ι} {act : ProgressAction} {s' : ProgressTask ι} {p' : ExportPc}
    (ht : HandleOk c.shared.task) (h : Clear c) (hok : unpended c (.thread i act))
    (hstep : handleStep errorName overflow closed c.shared i (c.pc i) act = some (s', p')) :
    Clear ⟨s', Function.update c.pc i p'⟩ := by
  have hothers : ∀ (_ : p'.pending = false) (_ : ∀ j, (c.pc j).pending = false) j,
      (Function.update c.pc i p' j).pending = false := by
    intro hnext hold j
    by_cases hj : j = i
    · subst hj
      simpa using hnext
    · simpa [hj] using hold j
  unfold handleStep at hstep
  intro hd'
  by_cases hd : c.shared.task.destroys = 0
  · have hlate : late c.shared.task (c.pc i) act = false := by simp [late, hd]
    rw [hlate] at hstep
    rcases destroys_cases hstep with hsame | ⟨hdestroys, hnext⟩
    · exact absurd (hsame.trans hd) hd'
    · exact hothers hnext (hok hdestroys)
  · have hopen : c.shared.task.close.status ≠ .open := by
      rcases (ht.destroyed hd).2 with hst | hst
      · simp [hst]
      · simp [hst]
    exact hothers (not_pending hopen hstep) (h hd)

/-- What holds in every run under the condition. -/
theorem reach_clear
    (hc : (handleCalls ι errorName overflow closed listens).machine.ReachWith unpended c) :
    (HandleOk c.shared.task ∧ ∀ i, HandleAt i c.shared.task (c.pc i)) ∧ Clear c := by
  have hreach : ∀ c,
      (handleCalls ι errorName overflow closed listens).machine.ReachWith unpended c →
      HandleOk c.shared.task ∧ ∀ i, HandleAt i c.shared.task (c.pc i) := fun c hc =>
    handle_rely_guarantee.reach (hc.mono fun _ l _ => by cases l <;> trivial)
  refine ⟨hreach c hc, hc.invariant_of hreach ?_ ?_⟩
  · rintro ⟨s, pc⟩ ⟨hstart, -⟩ -
    obtain rfl : s = {} := hstart
    exact fun hd => absurd rfl hd
  · rintro c (⟨i, act⟩ | ⟨e⟩) c' ⟨ht, -⟩ - h hok hstep
    · obtain ⟨⟨s', p'⟩, hnext, rfl⟩ := Option.map_eq_some_iff.mp hstep
      exact h.thread ht hok hnext
    · obtain ⟨s', hnext, rfl⟩ := Option.map_eq_some_iff.mp hstep
      have hsame : s'.task.destroys = c.shared.task.destroys := by
        rcases progressEnvironment_cases hnext with hsame | ⟨e', henv⟩
        · rw [hsame]
        · exact (environment_frame henv).2.2.1
      exact fun hd' => h fun hd => hd' (hsame.trans hd)

/-- The native close that succeeds destroys the handle. -/
theorem destroys_step {i : ι} {act : ProgressAction} {s s' : ProgressTask ι} {p p' : ExportPc}
    (ht : HandleAt i s.task p) (hdestroys : destroys p act = true)
    (hstep : handleStep errorName overflow closed s i p act = some (s', p')) :
    s'.task.destroys ≠ 0 ∧ p.pending = false := by
  unfold destroys at hdestroys
  split at hdestroys
  next g r =>
    obtain rfl := of_decide_eq_true hdestroys
    have hlate : late s.task (.call (.destroy g)) (.call (.native (.code 0))) = false := by
      simp [late, show s.task.destroys = 0 from ht.1.2]
    unfold handleStep at hstep
    rw [hlate] at hstep
    cases hstep
    exact ⟨Nat.succ_ne_zero _, rfl⟩
  next g r =>
    obtain rfl := of_decide_eq_true hdestroys
    have hlate :
        late s.task (.parent (.call (.destroy g))) (.call (.native (.code 0))) = false := by
      simp [late, show s.task.destroys = 0 from ht.1.2]
    unfold handleStep at hstep
    rw [hlate] at hstep
    cases hstep
    exact ⟨Nat.succ_ne_zero _, rfl⟩
  · cases hdestroys

/-- No native call is late, in any state that is reached under the condition. -/
theorem reach_not_late
    (hc : (handleCalls ι errorName overflow closed listens).machine.ReachWith unpended c) (i : ι)
    (act : ProgressAction) : late c.shared.task (c.pc i) act = false := by
  obtain ⟨⟨ht, hA⟩, hclear⟩ := reach_clear hc
  exact not_late ht (hA i) fun hd => hclear hd i

/-- **The condition is exact** in every step. -/
theorem late_iff
    (hc : (handleCalls ι errorName overflow closed listens).machine.ReachWith unpended c)
    {l : Label ι ProgressAction ProgressEnvironment}
    (hstep : (handleCalls ι errorName overflow closed listens).machine.step c l = some c') :
    unpended c l ↔ ∀ i act c'',
      (handleCalls ι errorName overflow closed listens).machine.step c' (.thread i act) = some c'' →
      late c'.shared.task (c'.pc i) act = false := by
  refine ⟨fun hok i act _ _ => reach_not_late (hc.step hok hstep) i act, fun h => ?_⟩
  rcases l with ⟨i, act⟩ | ⟨e⟩
  · intro hdestroys j
    obtain ⟨⟨-, hA⟩, -⟩ := reach_clear hc
    obtain ⟨⟨s', p'⟩, hnext, rfl⟩ := Option.map_eq_some_iff.mp hstep
    obtain ⟨hd, hself⟩ := destroys_step (hA i) hdestroys hnext
    by_contra hpending
    have hj : j ≠ i := by
      rintro rfl
      exact hpending hself
    have hpending : (Function.update c.pc i p' j).pending = true := by simpa [hj] using hpending
    obtain ⟨hlate, hrefused⟩ :=
      refused_of_pending errorName overflow closed j hpending hd (.code 0)
    have hnot := h j (.call (.native (.code 0))) _ (congrArg (Option.map _) hrefused)
    rw [hlate] at hnot
    cases hnot
  · trivial

/-- **No native call with a destroyed export**, in every run in which no `cancel()` has still to
call the Runtime when the native close succeeds: the handle is destroyed once at most, no native
function is called with it behind that, and a `cancel()` that finds the task terminal or its
teardown begun does nothing or raises `ClosedError`. And the condition is exact: a step that does
not meet it leads to a late call.
Source: `storage/__init__.py`, `ExportTask` -/
theorem handle_unused_after_destroy
    (hc : (handleCalls ι errorName overflow closed listens).machine.ReachWith unpended c) :
    c.shared.task.destroys ≤ 1 ∧
    (∀ i act c', (handleCalls ι errorName overflow closed listens).machine.step c (.thread i act) =
      some c' → late c.shared.task (c.pc i) act = false) ∧
    (∀ i act c', cancels (c.pc i) act = true →
      (c.shared.task.terminal = true ∨ c.shared.task.close.status ≠ .open) →
      (handleCalls ι errorName overflow closed listens).machine.step c (.thread i act) = some c' →
      c'.shared = c.shared ∧ (c'.pc i).pending = false ∧
        ∀ e, c'.pc i = .idle (.raised e) → e = closedError) ∧
    ∀ l c', (handleCalls ι errorName overflow closed listens).machine.step c l = some c' →
      (unpended c l ↔ ∀ i act c'',
        (handleCalls ι errorName overflow closed listens).machine.step c' (.thread i act) =
          some c'' → late c'.shared.task (c'.pc i) act = false) := by
  refine ⟨(reach_clear hc).1.1.once, fun i act _ _ => reach_not_late hc i act, ?_, ?_⟩
  · intro i act c' hcancels hover hstep
    obtain ⟨⟨s', p'⟩, hnext, rfl⟩ := Option.map_eq_some_iff.mp hstep
    obtain ⟨hsame, hpending, hraised⟩ := cancel_over hcancels hover hnext
    exact ⟨hsame, by simpa using hpending, by simpa using hraised⟩
  · intro l c' hstep
    exact late_iff hc hstep

end Runs

/-- The export is completed, and thread `1` waits for it, up to the native close. -/
def waitsThrough : List (Label (Fin 2) ProgressAction ProgressEnvironment) :=
  [.env (.environment (.post (.completed 0 "export.mp4" 2000))), .env (.environment .drainBegin),
    .env (.environment .handle), .env (.environment .drainEnd), .thread 1 (.call (.wait false)),
    .thread 1 (.call .go), .thread 1 (.call (.loaded (.code 0) (.code 0) ⟨1, 2000⟩ none)),
    .thread 1 (.call .go), .thread 1 (.call .go), .thread 1 (.call (.native (.code 0)))]

instance {ι : Type} [Fintype ι] (c : Config ι (ProgressTask ι) ExportPc) :
    (l : Label ι ProgressAction ProgressEnvironment) → Decidable (unpended c l)
  | .thread _ _ => inferInstanceAs (Decidable (_ → _))
  | .env _ => isTrue trivial

/-- Thread `0` comes with its `cancel()` behind that, and it does nothing. -/
theorem handle_unused_after_destroy_waited :
    ∃ c, (handleCalls (Fin 2) (fun _ => "") (.other 8) (.other 7) false).machine.ReachWith unpended
        c ∧ c.shared.task.destroys = 1 ∧
      ∀ c', (handleCalls (Fin 2) (fun _ => "") (.other 8) (.other 7) false).machine.step c
        (.thread 0 (.call .cancel)) = some c' → c'.shared = c.shared := by
  have hrun : (((handleCalls (Fin 2) (fun _ => "") (.other 8) (.other 7) false).machine.guarded
      fun c l => decide (unpended c l)).exec ⟨{}, fun _ => .idle .none⟩ waitsThrough).any
        (fun c => decide (c.shared.task.destroys = 1 ∧ c.shared.task.terminal = true ∧
          cancels (c.pc 0) (.call .cancel) = true)) = true := by
    decide +kernel
  have hstart : (handleCalls (Fin 2) (fun _ => "") (.other 8) (.other 7) false).machine.start
      ⟨{}, fun _ => .idle .none⟩ := ⟨rfl, rfl⟩
  obtain ⟨c, hc, htest⟩ := Machine.exists_reachWith hstart hrun
  obtain ⟨hdestroys, hterminal, hcancels⟩ := of_decide_eq_true htest
  refine ⟨c, hc, hdestroys, ?_⟩
  intro c' hstep
  exact ((handle_unused_after_destroy hc).2.2.1 0 _ c' hcancels (.inl hterminal) hstep).1

/-- **A `cancel()` that calls the Runtime behind the native close**: thread `0` passes its check,
the export is completed and thread `1` destroys it, and thread `0` gets the `RuntimeError`. -/
theorem cancelled_after_destroy :
    ∃ c c', (handleCalls (Fin 2) (fun _ => "") (.other 8) (.other 7) false).machine.Reach c ∧
      (handleCalls (Fin 2) (fun _ => "") (.other 8) (.other 7) false).machine.step c
        (.thread 0 (.call (.native (.code 0)))) = some c' ∧
      late c.shared.task (c.pc 0) (.call (.native (.code 0))) = true ∧
      c'.pc 0 = .idle (.raised (.other 7)) := by
  have hrun : ((handleCalls (Fin 2) (fun _ => "") (.other 8) (.other 7) false).machine.exec
      ⟨{}, fun _ => .idle .none⟩ (.thread 0 (.call .cancel) :: waitsThrough)).any
        (fun c => decide ((c.pc 0).pending = true ∧ c.shared.task.destroys ≠ 0)) = true := by
    decide +kernel
  have hstart : (handleCalls (Fin 2) (fun _ => "") (.other 8) (.other 7) false).machine.start
      ⟨{}, fun _ => .idle .none⟩ := ⟨rfl, rfl⟩
  obtain ⟨c, hc, htest⟩ := Machine.exists_reach hstart hrun
  obtain ⟨hpending, hd⟩ := of_decide_eq_true htest
  obtain ⟨hlate, hrefused⟩ :=
    refused_of_pending (fun _ => "") (.other 8) (.other 7) (0 : Fin 2) hpending hd (.code 0)
  exact ⟨c, _, hc, congrArg (Option.map _) hrefused, hlate, by simp⟩

end Tirtc.Exports
