import Mathlib.Data.Fintype.Basic
import Mathlib.Tactic.Common
import Tirtc.Teardown.Coordinators

/-!
# When the close of a CloudStorage copes with its exports

`ExportTask._close_from_parent` cancels an export that has not ended, and waits for it. `cancel()`
was written for an open task: it raises on one that another thread is stopping, and on one whose
earlier `stop()` has failed. An export that a duration has left terminal without `_done` is waited
for for ever. Everywhere else the close copes with what it finds.

* `copes`, `smooth`: the condition, and the steps of a run in which nothing fails any more.
* `Later`, `mediaStep_later`: what a step leaves of a task; `mediaStep_outcome`, `not_failing`: what
  a thread that joins a teardown gets.
* `Stands`, `Closes`, `closes_step`: where the close is, and what holds there.
* `exports_closed`: the close does not raise, closes the exports, and goes on.
* `close_refused`: the two states in which it raises.
-/

set_option autoImplicit false
set_option linter.unusedSectionVars false

namespace Tirtc.Media

open Transition Closing

variable {T Q ι : Type} [DecidableEq T] [DecidableEq Q] [DecidableEq ι]
  {s s' : MediaState T Q ι} {i p : ι} {pc pc' : MediaPc T Q} {act : MediaAction T Q}
  {c c₀ c' : Config ι (MediaState T Q ι) (MediaPc T Q)} {errorName : ℤ → String}

/-! ## The condition -/

/-- Nothing fails: a native call succeeds, what the Runtime gives has a meaning, and the close has
nothing beside its tasks that raises. -/
def MediaAction.fine : MediaAction T Q → Bool
  | .native r => decide (r = .code 0)
  | .stopped r durationMs => decide (r = .code 0) && !Teardown.overflows 0 durationMs
  | .loads r progress value => decide (r = .code 0 ∧ progress = .code 0 ∧ value.Known)
  | .raises _ => false
  | _ => true

/-- The teardown of the task has failed, and has yet to say so. -/
def TaskStage.fails : TaskStage → Bool
  | .fail _ _ => true
  | _ => false

/-- The thread is at this in a call on task `t`. -/
def MediaPc.failing (t : T) : MediaPc T Q → Bool
  | .call u _ stage => decide (u = t) && stage.fails
  | _ => false

/-- The thread is in generation `g` of the close of `q`. -/
def MediaPc.inClose (q : Q) (g : ℕ) : MediaPc T Q → Bool
  | .call _ origin _ => origin.any fun back => decide (back.1 = q ∧ back.2.1 = g)
  | .close r h _ => decide (r = q ∧ h = g)
  | _ => false

/-- **The close in thread `p` copes** with the export it has come to: this has ended with a result
or is open when `cancel()` looks at it, and a teardown of it that the close joins has not failed
already. -/
def copes (p : ι) (c : Config ι (MediaState T Q ι) (MediaPc T Q)) : Prop :=
  match c.pc p with
  | .call t (some _) .terminal =>
      if (c.shared.task t).stopped then (c.shared.task t).done = true
      else (c.shared.task t).close.status = .open
  | .call t (some _) (.begin false) =>
      (c.shared.task t).close.status = .closing → ∀ j, (c.pc j).failing t = false
  | _ => True

instance [Fintype ι] (p : ι) (c : Config ι (MediaState T Q ι) (MediaPc T Q)) :
    Decidable (copes p c) := by
  unfold copes
  split <;> infer_instance

/-- A step of a run in which nothing fails, and the close in `p` copes with what it comes to. -/
def smooth (p : ι) (c : Config ι (MediaState T Q ι) (MediaPc T Q)) :
    Label ι (MediaAction T Q) (Completion T) → Prop
  | .thread i act => act.fine = true ∧ (i = p → copes p c)
  | .env e => Teardown.overflows e.code e.durationMs = false

/-! ## The tasks, a step later -/

/-- What a task has come to its end with: a `TiRTCError`, or a file. -/
def Sound (x : MediaTask Q) : Prop :=
  (∀ e, x.error = some e → ∃ error, e = .tirtc error) ∧
    (x.done = true → x.stopped = true ∧ (x.error = none → x.file = true))

/-- The task is not left without a result. -/
def Whole (x : MediaTask Q) : Prop := x.stopped = true → x.done = true

theorem Sound.ends {x : MediaTask Q} (h : Sound x) (errorName : ℤ → String) (code durationMs : ℤ) :
    Sound (x.ends errorName code durationMs).1 := by
  unfold MediaTask.ends
  split
  · exact h
  next hopen =>
    have hdone : x.done = true → False := fun hdone => hopen (h.2 hdone).1
    split
    · split
      · exact ⟨h.1, fun hd => (hdone hd).elim⟩
      · exact ⟨nofun, fun hd => (hdone hd).elim⟩
    · by_cases hcode : code = 0
      · simp [Sound, hcode]
      · refine ⟨?_, ?_⟩
        · intro e he
          simp only [hcode, if_false, Option.some.injEq] at he
          exact ⟨_, he.symm⟩
        · simp [hcode]

/-- A duration that `timedelta` has leaves no task without a result. -/
theorem Whole.ends {x : MediaTask Q} (h : Whole x) (errorName : ℤ → String) {code durationMs : ℤ}
    (hfits : Teardown.overflows code durationMs = false) :
    Whole (x.ends errorName code durationMs).1 := by
  unfold MediaTask.ends
  split
  · exact h
  · simp [Whole, hfits]

theorem ends_done (errorName : ℤ → String) {x : MediaTask Q} {code durationMs : ℤ} (h : Whole x)
    (hfits : Teardown.overflows code durationMs = false) :
    (x.ends errorName code durationMs).1.done = true := by
  unfold MediaTask.ends
  split
  next hstopped => exact h hstopped
  next => simp [hfits]

theorem ends_kind (errorName : ℤ → String) (x : MediaTask Q) (code durationMs : ℤ) :
    (x.ends errorName code durationMs).1.kind = x.kind ∧
      (x.ends errorName code durationMs).1.parent = x.parent := by
  obtain ⟨stopped, done, file, error, h⟩ := x.ends_eq errorName code durationMs
  rw [h]
  exact ⟨rfl, rfl⟩

/-- What has ended stays so. -/
theorem ends_kept (errorName : ℤ → String) {x : MediaTask Q} (h : x.stopped = true)
    (code durationMs : ℤ) : (x.ends errorName code durationMs).1 = x := by
  unfold MediaTask.ends
  rw [if_pos h]

/-- **What a step leaves of a task that has been made**, and of an owner that is not open. -/
structure Later (s s' : MediaState T Q ι) : Prop where
  kind : ∀ t, (s.task t).parent.isSome = true →
    (s'.task t).parent = (s.task t).parent ∧ (s'.task t).kind = (s.task t).kind
  ended : ∀ t, (s.task t).parent.isSome = true → (s.task t).stopped = true →
    (s'.task t).stopped = true ∧ (s'.task t).done = (s.task t).done
  sound : ∀ t, Sound (s.task t) → Sound (s'.task t)
  tasks : ∀ q, (s.owner q).close.status ≠ .open → (s'.owner q).tasks ⊆ (s.owner q).tasks

theorem Later.refl (s : MediaState T Q ι) : Later s s where
  kind _ _ := ⟨rfl, rfl⟩
  ended _ _ h := ⟨h, rfl⟩
  sound _ h := h
  tasks _ _ := Finset.Subset.refl _

/-- A step on one task. -/
theorem Later.ofTask {t : T} {x : MediaTask Q} (hparent : x.parent = (s.task t).parent)
    (hkind : x.kind = (s.task t).kind)
    (hended : (s.task t).stopped = true → x.stopped = true ∧ x.done = (s.task t).done)
    (hsound : Sound (s.task t) → Sound x) : Later s (s.setTask t x) where
  kind u _ := by
    by_cases hu : u = t
    · subst hu
      simp [hparent, hkind]
    · simp [hu]
  ended u _ h := by
    by_cases hu : u = t
    · subst hu
      simpa using hended h
    · simpa [hu] using h
  sound u h := by
    by_cases hu : u = t
    · subst hu
      simpa using hsound h
    · simpa [hu] using h
  tasks _ _ := Finset.Subset.refl _

/-- A step on one owner that puts nothing into its set. -/
theorem Later.ofOwner {q : Q} {x : TaskOwner T ι} (htasks : x.tasks ⊆ (s.owner q).tasks) :
    Later s (s.setOwner q x) where
  kind _ _ := ⟨rfl, rfl⟩
  ended _ _ h := ⟨h, rfl⟩
  sound _ h := h
  tasks r _ := by
    by_cases hr : r = q
    · subst hr
      simpa using htasks
    · simp [hr]

theorem Later.trans {r : MediaState T Q ι} (h : Later s r)
    (hstatus : ∀ q, (r.owner q).close.status = (s.owner q).close.status) (h' : Later r s') :
    Later s s' where
  kind t ht := by
    obtain ⟨hparent, hkind⟩ := h.kind t ht
    obtain ⟨hparent', hkind'⟩ := h'.kind t (by rwa [hparent])
    exact ⟨hparent'.trans hparent, hkind'.trans hkind⟩
  ended t ht hstopped := by
    obtain ⟨hmid, hdone⟩ := h.ended t ht hstopped
    obtain ⟨hend, hdone'⟩ := h'.ended t (by rwa [(h.kind t ht).1]) hmid
    exact ⟨hend, hdone'.trans hdone⟩
  sound t ht := h'.sound t (h.sound t ht)
  tasks q hq := (h'.tasks q (by rwa [hstatus])).trans (h.tasks q hq)

/-- A task leaves the set of its owner. -/
theorem later_finish (s : MediaState T Q ι) (t : T) : Later s (s.finish t) := by
  unfold MediaState.finish
  simp only
  split
  next q hparent hleft =>
    refine Later.trans (.ofOwner (Finset.erase_subset t _)) (fun r => ?_)
      (.ofTask rfl rfl (fun h => ⟨h, rfl⟩) fun h => h)
    by_cases hr : r = q
    · simp [hr]
    · simp [hr]
  next => exact .refl s

/-- **What a step leaves.** -/
theorem mediaStep_later (h : mediaStep errorName s i pc act = some (s', pc')) : Later s s' := by
  cases mediaStep_cases h with
  | started raised q t kind r hnew hopen =>
      constructor
      · intro u hu
        have hut : u ≠ t := by
          rintro rfl
          simp [hnew] at hu
        simp [hut]
      · intro u hu hstopped
        have hut : u ≠ t := by
          rintro rfl
          simp [hnew] at hu
        simpa [hut] using hstopped
      · intro u hu
        by_cases hut : u = t
        · simp [hut, Sound]
        · simpa [hut] using hu
      · intro r hr
        have hrq : r ≠ q := by
          rintro rfl
          exact hr hopen
        simp [hrq]
  | begins | wakes | succeeds | fails | returns | loads =>
      exact .ofTask rfl rfl (fun h => ⟨h, rfl⟩) fun h => h
  | ends t origin g r name code durationMs stage _ hplain =>
      obtain ⟨hkind, hparent⟩ := ends_kind name (s.task t) code durationMs
      refine .ofTask hparent hkind (fun hstopped => ?_) fun h => h.ends name code durationMs
      rw [ends_kept name hstopped]
      exact ⟨hstopped, rfl⟩
  | finishes t origin g => exact later_finish s t
  | passes | ownerJoins | ownerWakes | ownerCloses | ownerClosed | ownerFailed =>
      exact .ofOwner (Finset.Subset.refl _)
  | deletes t q g rest act =>
      have hdeleted : Later s (s.setTask t { s.task t with deleted := true }) :=
        .ofTask rfl rfl (fun h => ⟨h, rfl⟩) fun h => h
      exact hdeleted.trans (fun _ => rfl) (.ofOwner (Finset.Subset.refl _))
  | deleteRaises t q g rest act e => exact .ofTask rfl rfl (fun h => ⟨h, rfl⟩) fun h => h
  | _ => exact .refl s

/-- **What a step records** for the threads that wait for a teardown of `t`: what the task has come
to its end with, or a failure. -/
theorem mediaStep_outcome {t : T} (h : mediaStep errorName s i pc act = some (s', pc'))
    (hmade : (s.task t).parent.isSome = true) {g : ℕ} {o : Option PyError}
    (ho : (s'.task t).close.outcomes g = some o) :
    (s.task t).close.outcomes g = some o ∨
      ((s'.task t).close.status = .closed ∧ o = (s.task t).error) ∨ pc.failing t = true := by
  have hclose : ∀ (u : T) (x : MediaTask Q), x.close = (s.task u).close →
      ((s.setTask u x).task t).close.outcomes g = some o →
      (s.task t).close.outcomes g = some o := by
    intro u x hx ho
    by_cases htu : t = u
    · subst htu
      simpa [hx] using ho
    · simpa [htu] using ho
  cases mediaStep_cases h with
  | started raised q u kind r hnew hopen =>
      have htu : t ≠ u := by
        rintro rfl
        simp [hnew] at hmade
      exact .inl (by simpa [htu] using ho)
  | begins u origin stops close stage houtcomes hclosing hplain =>
      by_cases htu : t = u
      · subst htu
        exact .inl (by simpa [houtcomes] using ho)
      · exact .inl (by simpa [htu] using ho)
  | wakes u origin k close stage hstatus hkept hresult =>
      by_cases htu : t = u
      · subst htu
        exact .inl (hkept g o (by simpa using ho))
      · exact .inl (by simpa [htu] using ho)
  | ends u origin k r name code durationMs stage _ hplain =>
      exact .inl (hclose u _ (ends_close name _ code durationMs) ho)
  | loads u origin k act loaded stage hplain => exact .inl (hclose u _ (by rfl) ho)
  | finishes u origin k => exact .inl (by simpa [(finish_close s u).1] using ho)
  | succeeds u origin k =>
      by_cases htu : t = u
      · subst htu
        simp only [MediaState.setTask_task, if_true] at ho ⊢
        rcases (s.task t).close.record_outcome ho with hbefore | herror
        · exact .inl hbefore
        · exact .inr (.inl ⟨rfl, herror⟩)
      · exact .inl (by simpa [htu] using ho)
  | fails u origin k e =>
      by_cases htu : t = u
      · subst htu
        exact .inr (.inr (by simp [MediaPc.failing, TaskStage.fails]))
      · exact .inl (by simpa [htu] using ho)
  | returns u => exact .inl (hclose u _ (by rfl) ho)
  | deletes u q k rest act => exact .inl (hclose u _ (by rfl) ho)
  | deleteRaises u q k rest act e => exact .inl (hclose u _ (by rfl) ho)
  | _ => exact .inl ho

theorem fine_native {r : NativeResult} (h : (MediaAction.native r : MediaAction T Q).fine = true) :
    r = .code 0 := by simpa [MediaAction.fine] using h

theorem fine_stopped {r : NativeResult} {durationMs : ℤ}
    (h : (MediaAction.stopped r durationMs : MediaAction T Q).fine = true) :
    r = .code 0 ∧ Teardown.overflows 0 durationMs = false := by
  simpa [MediaAction.fine] using h

/-- A report without an error whose values have a meaning is read. -/
theorem fine_loads {report progress : NativeResult} {value : Exports.NativeReport}
    (h : (MediaAction.loads report progress value : MediaAction T Q).fine = true)
    (errorName : ℤ → String) (x : MediaTask Q) :
    x.loads errorName report progress value = ({ x with report := true }, none) := by
  obtain ⟨rfl, rfl, hknown⟩ : report = .code 0 ∧ progress = .code 0 ∧ value.Known := by
    simpa [MediaAction.fine] using h
  have hreads : Results.Succeeds (Exports.exportReportFromNative errorName value) :=
    Exports.exportReportFromNative_succeeds.mpr hknown
  obtain ⟨decoded, hdecoded⟩ := hreads
  simp [MediaTask.loads, NativeResult.check, hdecoded]

theorem retryInUseResult_zero : Teardown.retryInUseResult (.code 0) = .ok 0 := rfl

/-- A duration that `timedelta` has raises nothing. -/
theorem ends_raised (errorName : ℤ → String) (x : MediaTask Q) {code durationMs : ℤ}
    (hfits : Teardown.overflows code durationMs = false) :
    (x.ends errorName code durationMs).2 = none := by
  unfold MediaTask.ends
  split
  · rfl
  · simp [hfits]

/-- **Where nothing fails, no task is left without a result.** -/
theorem mediaStep_whole {t : T} (hfine : act.fine = true)
    (h : mediaStep errorName s i pc act = some (s', pc')) (hmade : (s.task t).parent.isSome = true)
    (hwhole : Whole (s.task t)) : Whole (s'.task t) := by
  have hsame : ∀ (u : T) (x : MediaTask Q),
      x.stopped = (s.task u).stopped → x.done = (s.task u).done →
      Whole ((s.setTask u x).task t) := by
    intro u x hstopped hdone
    by_cases htu : t = u
    · subst htu
      simpa [Whole, hstopped, hdone] using hwhole
    · simpa [htu] using hwhole
  cases mediaStep_cases h with
  | started raised q u kind r hnew hopen =>
      have htu : t ≠ u := by
        rintro rfl
        simp [hnew] at hmade
      simpa [htu] using hwhole
  | ends u origin k r name code durationMs stage hcode hplain =>
      obtain ⟨rfl, hfits⟩ := fine_stopped hfine
      obtain rfl : 0 = code := Except.ok.inj hcode
      by_cases htu : t = u
      · subst htu
        simpa using hwhole.ends name hfits
      · simpa [htu] using hwhole
  | finishes u origin k =>
      unfold MediaState.finish
      simp only
      split
      · exact hsame u _ rfl rfl
      · exact hwhole
  | begins | wakes | succeeds | fails | returns | loads | deletes | deleteRaises =>
      exact hsame _ _ rfl rfl
  | _ => exact hwhole

/-- What the performer does first does not fail. -/
theorem performs_fails (x : MediaTask Q) (stops : Bool) (g : ℕ) :
    (performs x stops g).fails = false := by
  unfold performs
  split
  · split <;> rfl
  · split <;> rfl

/-- Where nothing fails, no stage of a call does. -/
theorem taskStep_fine {t : T} {origin : Origin T Q} {stage : TaskStage} (hfine : act.fine = true)
    (h : taskStep errorName s t origin stage act = some (s', pc')) (u : T) :
    pc'.failing u = false := by
  have hgoes : ∀ next : TaskStage, next.fails = false →
      (MediaPc.call t origin next).failing u = false := by
    intro next hnext
    simp [MediaPc.failing, hnext]
  cases stage with
  | terminal =>
      cases act with
      | go =>
          cases origin with
          | some back =>
              simp only [taskStep] at h
              split at h
              · cases h
                exact hgoes _ rfl
              · split at h
                · cases h
                  rfl
                · cases h
                  exact hgoes _ rfl
          | none => cases h
      | _ => cases h
  | cancel =>
      cases act with
      | native r =>
          obtain rfl := fine_native hfine
          cases origin with
          | some back =>
              cases h
              exact hgoes _ rfl
          | none => cases h
      | _ => cases h
  | await timed =>
      cases act with
      | go =>
          simp only [taskStep] at h
          split at h
          · cases h
            exact hgoes _ rfl
          · cases h
      | timeout =>
          simp only [taskStep] at h
          split at h
          · cases h
            exact hgoes _ rfl
          · cases h
      | _ => cases h
  | begin stops =>
      cases act with
      | go =>
          simp only [taskStep] at h
          rcases (s.task t).close.begin_cases false with ⟨hst, hbegin⟩ | ⟨hst, hbegin⟩ |
            ⟨hst, hbegin⟩ | ⟨hst, hbegin⟩
          all_goals
            rw [hbegin] at h
            cases h
          · exact hgoes _ rfl
          · exact hgoes _ rfl
          · exact hgoes _ rfl
          · exact hgoes _ (performs_fails _ _ _)
      | _ => cases h
  | join g =>
      cases act with
      | go =>
          simp only [taskStep] at h
          obtain ⟨o, houtcome, h⟩ := Option.bind_eq_some_iff.mp h
          obtain ⟨close, hleave, h⟩ := Option.map_eq_some_iff.mp h
          cases h
          refine hgoes _ ?_
          cases o <;> rfl
      | _ => cases h
  | stop g =>
      cases act with
      | stopped r durationMs =>
          obtain ⟨rfl, hfits⟩ := fine_stopped hfine
          simp only [taskStep, retryInUseResult_zero, ends_raised _ _ hfits] at h
          cases h
          refine hgoes _ ?_
          split <;> rfl
      | _ => cases h
  | report g =>
      cases act with
      | loads report progress value =>
          simp only [taskStep, fine_loads hfine] at h
          split at h
          · cases h
          · cases h
            exact hgoes _ rfl
      | go =>
          simp only [taskStep] at h
          split at h
          · cases h
            exact hgoes _ rfl
          · cases h
      | _ => cases h
  | destroy g =>
      cases act with
      | native r =>
          obtain rfl := fine_native hfine
          cases h
          exact hgoes _ rfl
      | _ => cases h
  | finish g =>
      cases act with
      | go =>
          cases h
          exact hgoes _ rfl
      | _ => cases h
  | succeed g =>
      cases act with
      | go =>
          cases h
          exact hgoes _ rfl
      | _ => cases h
  | fail g e =>
      cases act with
      | go =>
          cases h
          exact hgoes _ rfl
      | _ => cases h
  | result =>
      cases act with
      | go =>
          simp only [taskStep] at h
          split at h
          · cases h
            exact hgoes _ rfl
          · split at h
            · cases h
              rfl
            · cases h
              exact hgoes _ rfl
          · cases h
            exact hgoes _ rfl
      | _ => cases h
  | raised e =>
      cases act with
      | go =>
          simp only [taskStep] at h
          split at h
          · cases h
            rfl
          next q g rest =>
            rcases raisedInTeardown_cases (s := s) t q g rest e with hraised | hraised
            · rw [hraised] at h
              cases h
              rfl
            · rw [hraised] at h
              cases h
              rfl
      | _ => cases h
  | delete =>
      cases act with
      | native r =>
          obtain rfl := fine_native hfine
          cases origin with
          | some back =>
              cases h
              rfl
          | none => cases h
      | _ => cases h

/-- **Where nothing fails, no teardown of a task does.** -/
theorem not_failing (hfine : act.fine = true)
    (h : mediaStep errorName s i pc act = some (s', pc')) (t : T) : pc'.failing t = false := by
  cases pc with
  | call u origin stage => exact taskStep_fine hfine h t
  | idle raised =>
      cases mediaStep_cases h with
      | stops | waits => simp [MediaPc.failing, TaskStage.fails]
      | _ => rfl
  | joinOwner q g =>
      cases mediaStep_cases h with
      | ownerWakes => rfl
  | close q g stage =>
      cases stage with
      | tasks rest =>
          cases rest with
          | nil =>
              cases mediaStep_cases h with
              | _ => rfl
          | cons u rest =>
              cases act with
              | go =>
                  simp only [mediaStep, ownerStep] at h
                  split at h
                  · cases h
                    simp [MediaPc.failing, TaskStage.fails]
                  · cases h
                    simp [MediaPc.failing, TaskStage.fails]
              | _ =>
                  cases mediaStep_cases h with
                  | _ => rfl
      | succeed =>
          cases mediaStep_cases h with
          | ownerClosed => rfl
      | fail e =>
          cases mediaStep_cases h with
          | ownerFailed => rfl

/-! ## Where the close is -/

/-- A bound on the steps that a call still takes. -/
def TaskStage.toGo : TaskStage → ℕ
  | .terminal => 12
  | .cancel => 11
  | .await _ => 10
  | .begin _ => 9
  | .join _ | .stop _ => 8
  | .report _ => 7
  | .destroy _ => 6
  | .finish _ => 5
  | .succeed _ | .fail _ _ => 4
  | .result => 3
  | .raised _ | .delete => 2

/-- A bound on the steps that the close of an owner still takes. -/
def MediaPc.toGo : MediaPc T Q → ℕ
  | .call _ (some (_, _, rest)) stage => 20 * rest.length + 3 + stage.toGo
  | .close _ _ (.tasks rest) => 20 * rest.length + 2
  | .close _ _ _ => 1
  | _ => 0

/-- Everything of the snapshot but `l` is closed. -/
def Left (s : MediaState T Q ι) (order l : List T) : Prop :=
  ∀ u ∈ order, u ∈ l ∨ (s.task u).close.status = .closed

/-- What the close knows of the export `t` at each stage. -/
def StageAt (c : Config ι (MediaState T Q ι) (MediaPc T Q)) (t : T) : TaskStage → Prop
  | .terminal => True
  | .cancel => Whole (c.shared.task t)
  | .await timed => timed = false ∧ Whole (c.shared.task t)
  | .begin stops => stops = false ∧ (c.shared.task t).done = true
  | .join g =>
      (c.shared.task t).done = true ∧ (∀ j, (c.pc j).failing t = false) ∧
        ∀ o, (c.shared.task t).close.outcomes g = some o →
          (c.shared.task t).close.status = .closed ∧
            ∀ e, o = some e → ∃ error, e = .tirtc error
  | .stop _ | .fail _ _ => False
  | .report _ | .destroy _ | .finish _ | .succeed _ => (c.shared.task t).done = true
  | .result => (c.shared.task t).close.status = .closed ∧ (c.shared.task t).done = true
  | .raised e => (c.shared.task t).close.status = .closed ∧ ∃ error, e = .tirtc error
  | .delete => (c.shared.task t).close.status = .closed

/-- **Where generation `g` of the close of `q` is**, whose snapshot is `order`. -/
inductive Stands (q : Q) (g : ℕ) (order : List T) (c : Config ι (MediaState T Q ι) (MediaPc T Q)) :
    MediaPc T Q → Prop
  | outside {pc : MediaPc T Q} : pc.inClose q g = false →
      (c.shared.owner q).close.status = .closed → Left c.shared order [] → Stands q g order c pc
  | tasks {rest : List T} : rest ⊆ order → Left c.shared order rest →
      Stands q g order c (.close q g (.tasks rest))
  | task {t : T} {rest : List T} {stage : TaskStage} : t ∈ order → rest ⊆ order →
      Left c.shared order (t :: rest) → StageAt c t stage →
      Stands q g order c (.call t (some (q, g, rest)) stage)
  | succeed : Left c.shared order [] → Stands q g order c (.close q g .succeed)

/-- **What a step leaves to the close**: the tasks, the coordinators that are closed, the threads
that do not fail, and no outcome but an end of the task or a failure. -/
structure Onward (c c' : Config ι (MediaState T Q ι) (MediaPc T Q)) : Prop where
  later : Later c.shared c'.shared
  whole : ∀ t, (c.shared.task t).parent.isSome = true → Whole (c.shared.task t) →
    Whole (c'.shared.task t)
  closed : ∀ x, (coordinator c.shared x).status = .closed →
    (coordinator c'.shared x).status = .closed
  notOpen : ∀ q, (c.shared.owner q).close.status ≠ .open → (c'.shared.owner q).close.status ≠ .open
  failing : ∀ j t, (c.pc j).failing t = false → (c'.pc j).failing t = false
  outcome : ∀ t g o, (c.shared.task t).parent.isSome = true →
    (c'.shared.task t).close.outcomes g = some o →
    (c.shared.task t).close.outcomes g = some o ∨
      ((c'.shared.task t).close.status = .closed ∧ o = (c.shared.task t).error) ∨
      ∃ j, (c.pc j).failing t = true

/-- What a completion leaves. -/
theorem completeTask_later {e : Completion T} (h : completeTask errorName s e = some s') :
    Later s s' := by
  obtain rfl := completeTask_cases h
  obtain ⟨hkind, hparent⟩ := ends_kind errorName (s.task e.task) e.code e.durationMs
  refine .ofTask hparent hkind (fun hstopped => ?_) fun h => h.ends _ _ _
  rw [ends_kept errorName hstopped]
  exact ⟨hstopped, rfl⟩

/-- A completion with a result is a step onward. -/
theorem onward_complete {e : Completion T} (hfits : Teardown.overflows e.code e.durationMs = false)
    (h : completeTask errorName c.shared e = some s') : Onward c ⟨s', c.pc⟩ := by
  have hlater := completeTask_later h
  obtain rfl := completeTask_cases h
  have hclose : ∀ u, ((c.shared.setTask e.task
      ((c.shared.task e.task).ends errorName e.code e.durationMs).1).task u).close =
      (c.shared.task u).close := by
    intro u
    by_cases hu : u = e.task
    · simp [hu, ends_close]
    · simp [hu]
  have hwhole : ∀ u, Whole (c.shared.task u) → Whole ((c.shared.setTask e.task
      ((c.shared.task e.task).ends errorName e.code e.durationMs).1).task u) := by
    intro u hu
    by_cases hue : u = e.task
    · subst hue
      simpa using hu.ends errorName hfits
    · simpa [hue] using hu
  refine ⟨hlater, fun t _ => hwhole t, ?_,
    fun q h => h, fun j t h => h, fun t g o _ ho => .inl ?_⟩
  · rintro (t | q) hx
    · exact (congrArg _ (hclose t)).trans hx
    · exact hx
  · rw [hclose] at ho
    exact ho

/-- **Every step in which nothing fails is a step onward.** -/
theorem smooth_onward {l : Label ι (MediaAction T Q) (Completion T)}
    (hc : (mediaCalls T Q ι errorName).machine.Reach c) (hok : smooth p c l)
    (hstep : (mediaCalls T Q ι errorName).machine.step c l = some c') : Onward c c' := by
  obtain ⟨⟨hs, hA⟩, htracked⟩ := reach_tracked hc
  rcases l with ⟨i, act⟩ | e
  · obtain ⟨⟨s', pc'⟩, hnext, rfl⟩ := Option.map_eq_some_iff.mp hstep
    have hnext : mediaStep errorName c.shared i (c.pc i) act = some (s', pc') := hnext
    have hturn := mediaStep_turn htracked.unmade hnext
    refine ⟨mediaStep_later hnext, fun t => mediaStep_whole hok.1 hnext,
      fun x => (hturn x).closed (htracked.follows x),
      fun q => (hturn (.inr q)).notOpen, ?_, ?_⟩
    · intro j t hj
      by_cases hji : j = i
      · subst hji
        simpa using not_failing hok.1 hnext t
      · simpa [hji] using hj
    · intro t g o ht ho
      rcases mediaStep_outcome hnext ht ho with hbefore | hend | hfailing
      · exact .inl hbefore
      · exact .inr (.inl hend)
      · exact .inr (.inr ⟨i, hfailing⟩)
  · obtain ⟨s', hnext, rfl⟩ := Option.map_eq_some_iff.mp hstep
    exact onward_complete hok hnext

/-- What is left, a step later. -/
theorem Left.onward {order l : List T} (h : Left c.shared order l) (hon : Onward c c') :
    Left c'.shared order l := by
  intro u hu
  rcases h u hu with hl | hclosed
  · exact .inl hl
  · exact .inr (hon.closed (.inl u) hclosed)

/-- What the close knows of its export, a step of another thread later. -/
theorem StageAt.onward {t : T} {stage : TaskStage} (h : StageAt c t stage) (hon : Onward c c')
    (hmade : (c.shared.task t).parent.isSome = true) (hsound : Sound (c.shared.task t)) :
    StageAt c' t stage := by
  have hdone : (c.shared.task t).done = true → (c'.shared.task t).done = true := fun hd =>
    (hon.later.ended t hmade (hsound.2 hd).1).2.trans hd
  have hwhole := hon.whole t hmade
  have hclosed := hon.closed (.inl t)
  cases stage with
  | terminal => trivial
  | cancel => exact hwhole h
  | await timed => exact ⟨h.1, hwhole h.2⟩
  | begin stops => exact ⟨h.1, hdone h.2⟩
  | join g =>
      obtain ⟨hd, hfailing, houtcome⟩ := h
      refine ⟨hdone hd, fun j => hon.failing j t (hfailing j), fun o ho => ?_⟩
      rcases hon.outcome t g o hmade ho with hbefore | ⟨hend, rfl⟩ | ⟨j, hj⟩
      · exact ⟨hclosed (houtcome o hbefore).1, (houtcome o hbefore).2⟩
      · exact ⟨hend, hsound.1⟩
      · rw [hfailing j] at hj
        cases hj
  | stop g => exact h
  | report g | destroy g | finish g | succeed g => exact hdone h
  | fail g e => exact h
  | result => exact ⟨hclosed h.1, hdone h.2⟩
  | raised e => exact ⟨hclosed h.1, h.2⟩
  | delete => exact hclosed h

/-- **The close of owner `q` in thread `p`**, an owner that has exports only. -/
structure Closes (p : ι) (q : Q) (g : ℕ) (order : List T)
    (c : Config ι (MediaState T Q ι) (MediaPc T Q)) : Prop where
  exports : ∀ t ∈ order, (c.shared.task t).parent.isSome = true ∧
    (c.shared.task t).kind = .exportTask
  sound : ∀ t, Sound (c.shared.task t)
  tasks : ∀ t ∈ (c.shared.owner q).tasks, t ∈ order
  notOpen : (c.shared.owner q).close.status ≠ .open
  stands : Stands q g order c (c.pc p)

/-- A close that is over is not entered again. -/
theorem inClose_step {q : Q} {g : ℕ} (h : mediaStep errorName s i pc act = some (s', pc'))
    (hpc : pc.inClose q g = false) (hclosed : (s.owner q).close.status = .closed) :
    pc'.inClose q g = false := by
  cases mediaStep_cases h with
  | ownerCloses raised r order k close horder hst hclosing =>
      have hr : r ≠ q := by
        rintro rfl
        simp [hclosed] at hst
      simp [MediaPc.inClose, hr]
  | refused | started | stops | waits | returns | raises | ownerJoins | ownerWakes | ownerClosed
  | ownerFailed => rfl
  | _ => exact hpc

/-- The export is dealt with. -/
theorem Left.next {t : T} {order rest : List T} (h : Left s order (t :: rest))
    (hclosed : (s.task t).close.status = .closed) : Left s order rest := by
  intro u hu
  rcases h u hu with hl | hu
  · rcases List.mem_cons.mp hl with rfl | hl
    · exact .inr hclosed
    · exact .inl hl
  · exact .inr hu

/-- **A step of the close at an export**: where nothing fails and the close copes, it comes nearer
to its end. -/
theorem taskStep_stands {q : Q} {g : ℕ} {order rest : List T} {t : T} {stage : TaskStage}
    {pcs : ι → MediaPc T Q} (hc : Closes p q g order c)
    (hfollows : Follows (coordinator c.shared (.inl t)) fun j => (c.pc j).caller (.inl t))
    (hpc : c.pc p = .call t (some (q, g, rest)) stage) (ht : t ∈ order) (hrest : rest ⊆ order)
    (hleft : Left c.shared order (t :: rest)) (hat : StageAt c t stage) (hon : Onward c ⟨s', pcs⟩)
    (hfine : act.fine = true) (hcopes : copes p c)
    (h : taskStep errorName c.shared t (some (q, g, rest)) stage act = some (s', pc')) :
    Stands q g order ⟨s', pcs⟩ pc' ∧
      pc'.toGo < (MediaPc.call t (some (q, g, rest)) stage : MediaPc T Q).toGo := by
  obtain ⟨hmade, hkind⟩ := hc.exports t ht
  have hleft' := hleft.onward hon
  have hclosed := hon.closed (.inl t)
  have hdone' : (c.shared.task t).done = true → ((Config.mk s' pcs).shared.task t).done = true :=
    fun hd => (hon.later.ended t hmade ((hc.sound t).2 hd).1).2.trans hd
  have hwhole' := hon.whole t hmade
  have hgoes : ∀ next : TaskStage, StageAt ⟨s', pcs⟩ t next → next.toGo < stage.toGo →
      Stands q g order ⟨s', pcs⟩ (.call t (some (q, g, rest)) next) ∧
        (MediaPc.call t (some (q, g, rest)) next : MediaPc T Q).toGo <
          (MediaPc.call t (some (q, g, rest)) stage : MediaPc T Q).toGo := by
    intro next hnext hlt
    exact ⟨.task ht hrest hleft' hnext, by simp only [MediaPc.toGo]; omega⟩
  have hends : (c.shared.task t).close.status = .closed →
      Stands q g order ⟨s', pcs⟩ (.close q g (.tasks rest)) ∧
        (MediaPc.close q g (.tasks rest) : MediaPc T Q).toGo <
          (MediaPc.call t (some (q, g, rest)) stage : MediaPc T Q).toGo := by
    intro hend
    exact ⟨.tasks hrest (hleft'.next (hclosed hend)), by simp only [MediaPc.toGo]; omega⟩
  cases stage with
  | terminal =>
      cases act with
      | go =>
          simp only [taskStep] at h
          split at h
          next hstopped =>
            simp only [copes, hpc, hstopped, if_true] at hcopes
            cases h
            exact hgoes _ ⟨rfl, fun _ => hdone' hcopes⟩ (by simp [TaskStage.toGo])
          next hstopped =>
            simp only [copes, hpc, hstopped, if_false, Bool.false_eq_true] at hcopes
            rw [CloseCoordinator.requireOpen_eq_none.mpr hcopes] at h
            cases h
            exact hgoes _ (hwhole' fun h => absurd h hstopped) (by simp [TaskStage.toGo])
      | _ => cases h
  | cancel =>
      cases act with
      | native r =>
          obtain rfl := fine_native hfine
          cases h
          exact hgoes _ ⟨rfl, hwhole' hat⟩ (by simp [TaskStage.toGo])
      | _ => cases h
  | await timed =>
      obtain ⟨rfl, hwhole⟩ := hat
      cases act with
      | go =>
          simp only [taskStep] at h
          split at h
          next hdone =>
            cases h
            exact hgoes _ ⟨rfl, hdone' hdone⟩ (by simp [TaskStage.toGo])
          next => cases h
      | _ => cases h
  | begin stops =>
      obtain ⟨rfl, hdone⟩ := hat
      cases act with
      | go =>
          simp only [taskStep] at h
          rcases (c.shared.task t).close.begin_cases false with ⟨hst, hbegin⟩ | ⟨hst, hbegin⟩ |
            ⟨hst, hbegin⟩ | ⟨hst, hbegin⟩
          · -- it joins the teardown of another thread, which has no outcome yet
            rw [hbegin] at h
            cases h
            simp only [copes, hpc] at hcopes
            refine hgoes _ ⟨hdone' hdone, fun j => hon.failing j t (hcopes hst j),
              fun o ho => ?_⟩ (by simp [TaskStage.toGo])
            have hnone : (c.shared.task t).close.outcomes
                (c.shared.task t).close.generation = none := hfollows.current hst
            simp [hnone] at ho
          · rw [hbegin] at h
            cases h
            exact hgoes _ ⟨hst, hdone⟩ (by simp [TaskStage.toGo])
          · simp [CloseCoordinator.begin, hst] at hbegin
          · rw [hbegin] at h
            have hperforms : ∀ k, performs (c.shared.task t) false k = .report k := by
              intro k
              simp [performs, hkind]
            simp only [hperforms] at h
            cases h
            exact hgoes _ (hdone' hdone) (by simp [TaskStage.toGo])
      | _ => cases h
  | join k =>
      obtain ⟨hdone, -, houtcome⟩ := hat
      cases act with
      | go =>
          simp only [taskStep] at h
          obtain ⟨o, ho, h⟩ := Option.bind_eq_some_iff.mp h
          obtain ⟨close, hleave, h⟩ := Option.map_eq_some_iff.mp h
          obtain ⟨hend, htirtc⟩ := houtcome o ho
          cases h
          cases o with
          | none => exact hgoes _ ⟨hclosed hend, hdone' hdone⟩ (by simp [TaskStage.toGo])
          | some e =>
              obtain ⟨error, rfl⟩ := htirtc e rfl
              exact hgoes _ ⟨hclosed hend, _, rfl⟩ (by simp [TaskStage.toGo])
      | _ => cases h
  | stop k => exact hat.elim
  | report k =>
      cases act with
      | loads report progress value =>
          simp only [taskStep, fine_loads hfine] at h
          split at h
          · cases h
          · cases h
            exact hgoes _ (hdone' hat) (by simp [TaskStage.toGo])
      | go =>
          simp only [taskStep] at h
          split at h
          · cases h
            exact hgoes _ (hdone' hat) (by simp [TaskStage.toGo])
          · cases h
      | _ => cases h
  | destroy k =>
      cases act with
      | native r =>
          obtain rfl := fine_native hfine
          cases h
          exact hgoes _ (hdone' hat) (by simp [TaskStage.toGo])
      | _ => cases h
  | finish k =>
      cases act with
      | go =>
          cases h
          exact hgoes _ (hdone' hat) (by simp [TaskStage.toGo])
      | _ => cases h
  | succeed k =>
      cases act with
      | go =>
          cases h
          refine hgoes _ ⟨?_, hdone' hat⟩ (by simp [TaskStage.toGo])
          simp [CloseCoordinator.succeed]
      | _ => cases h
  | fail k e => exact hat.elim
  | result =>
      obtain ⟨hend, hdone⟩ := hat
      cases act with
      | go =>
          simp only [taskStep] at h
          split at h
          next e herror =>
            obtain ⟨error, rfl⟩ := (hc.sound t).1 e herror
            cases h
            exact hgoes _ ⟨hend, _, rfl⟩ (by simp [TaskStage.toGo])
          next herror hfile =>
            cases h
            exact hgoes _ hend (by simp [TaskStage.toGo])
          next herror hfile =>
            rw [((hc.sound t).2 hdone).2 herror] at hfile
            cases hfile
      | _ => cases h
  | raised e =>
      obtain ⟨hend, error, rfl⟩ := hat
      cases act with
      | go =>
          simp only [taskStep, raisedInTeardown, hkind, hend, and_self, if_true] at h
          cases h
          exact hends hend
      | _ => cases h
  | delete =>
      cases act with
      | native r =>
          obtain rfl := fine_native hfine
          cases h
          exact hends hat
      | _ => cases h

/-- Between the exports, and behind the last. -/
theorem ownerStep_stands {q : Q} {g : ℕ} {order : List T} {stage : OwnerStage T}
    {pcs : ι → MediaPc T Q} (hc : Closes p q g order c) (hpc : c.pc p = .close q g stage)
    (hon : Onward c ⟨s', pcs⟩) (hfine : act.fine = true)
    (hstands : Stands q g order c (.close q g stage))
    (h : ownerStep errorName c.shared q g stage act = some (s', pc')) :
    Stands q g order ⟨s', pcs⟩ pc' ∧ pc'.toGo < (MediaPc.close q g stage : MediaPc T Q).toGo := by
  cases hstands with
  | outside houtside hclosed hleft => simp [MediaPc.inClose] at houtside
  | @tasks rest hrest hleft =>
      have hleft' := hleft.onward hon
      cases act with
      | go =>
          cases rest with
          | nil => cases h
          | cons t rest =>
              have ht : t ∈ order := hrest (List.mem_cons_self ..)
              obtain ⟨hmade, hkind⟩ := hc.exports t ht
              simp only [ownerStep, hkind, reduceCtorEq, if_false] at h
              cases h
              refine ⟨.task ht (fun u hu => hrest (List.mem_cons_of_mem t hu)) hleft' trivial, ?_⟩
              simp only [MediaPc.toGo, TaskStage.toGo, List.length_cons]
              omega
      | native r =>
          cases rest with
          | nil =>
              obtain rfl := fine_native hfine
              cases h
              exact ⟨.succeed hleft', by simp [MediaPc.toGo]⟩
          | cons t rest => cases h
      | raises e => cases hfine
      | _ =>
          cases rest with
          | nil => cases h
          | cons t rest => cases h
  | succeed hleft =>
      have hleft' := hleft.onward hon
      cases act with
      | report childError =>
          cases h
          exact ⟨.outside rfl (by simp [CloseCoordinator.succeed]) hleft', by simp [MediaPc.toGo]⟩
      | _ => cases h

/-- **A step of the thread that closes.** -/
theorem stands_step {q : Q} {g : ℕ} {order : List T} {pcs : ι → MediaPc T Q}
    (hc : Closes p q g order c)
    (hfollows : ∀ t, Follows (coordinator c.shared (.inl t)) fun j => (c.pc j).caller (.inl t))
    (hon : Onward c ⟨s', pcs⟩) (hfine : act.fine = true) (hcopes : copes p c)
    (h : mediaStep errorName c.shared p (c.pc p) act = some (s', pc')) :
    Stands q g order ⟨s', pcs⟩ pc' ∧
      ((c.pc p).inClose q g = true → pc'.toGo < (c.pc p).toGo) := by
  have hstands := hc.stands
  generalize hpc : c.pc p = pc at hstands h
  cases hstands with
  | outside houtside hclosed hleft =>
      refine ⟨.outside (inClose_step h houtside hclosed) (hon.closed (.inr q) hclosed)
        (hleft.onward hon), fun hinside => ?_⟩
      rw [houtside] at hinside
      cases hinside
  | tasks hrest hleft =>
      obtain ⟨hstands, hless⟩ := ownerStep_stands hc hpc hon hfine (.tasks hrest hleft) h
      exact ⟨hstands, fun _ => hless⟩
  | task ht hrest hleft hat =>
      obtain ⟨hstands, hless⟩ := taskStep_stands hc (hfollows _) hpc ht hrest hleft hat hon hfine
        hcopes h
      exact ⟨hstands, fun _ => hless⟩
  | succeed hleft =>
      obtain ⟨hstands, hless⟩ := ownerStep_stands hc hpc hon hfine (.succeed hleft) h
      exact ⟨hstands, fun _ => hless⟩

/-- The close, a step of another thread later. -/
theorem Stands.onward {q : Q} {g : ℕ} {order : List T} {pc : MediaPc T Q}
    (h : Stands q g order c pc) (hc : Closes p q g order c) (hon : Onward c c') :
    Stands q g order c' pc := by
  cases h with
  | outside houtside hclosed hleft =>
      exact .outside houtside (hon.closed (.inr q) hclosed) (hleft.onward hon)
  | tasks hrest hleft => exact .tasks hrest (hleft.onward hon)
  | task ht hrest hleft hat =>
      exact .task ht hrest (hleft.onward hon) (hat.onward hon (hc.exports _ ht).1 (hc.sound _))
  | succeed hleft => exact .succeed (hleft.onward hon)

/-- **The step lemma**: where nothing fails and the close copes, every step keeps it. -/
theorem closes_step {q : Q} {g : ℕ} {order : List T} {l : Label ι (MediaAction T Q) (Completion T)}
    (hreach : (mediaCalls T Q ι errorName).machine.Reach c) (hc : Closes p q g order c)
    (hok : smooth p c l) (hstep : (mediaCalls T Q ι errorName).machine.step c l = some c') :
    Closes p q g order c' := by
  have hon := smooth_onward hreach hok hstep
  have hfollows := (reach_tracked hreach).2.follows
  refine ⟨?_, fun t => hon.later.sound t (hc.sound t),
    fun t ht => hc.tasks t (hon.later.tasks q hc.notOpen ht), hon.notOpen q hc.notOpen, ?_⟩
  · intro t ht
    obtain ⟨hmade, hkind⟩ := hc.exports t ht
    obtain ⟨hparent, hkind'⟩ := hon.later.kind t hmade
    exact ⟨by rw [hparent]; exact hmade, hkind'.trans hkind⟩
  · rcases l with ⟨i, act⟩ | e
    · obtain ⟨⟨s', pc'⟩, hnext, rfl⟩ := Option.map_eq_some_iff.mp hstep
      by_cases hip : i = p
      · subst hip
        have hown := stands_step hc (fun t => hfollows (.inl t)) hon hok.1 (hok.2 rfl) hnext
        simpa using hown.1
      · have hother : Function.update c.pc i pc' p = c.pc p :=
          Function.update_of_ne (Ne.symm hip) _ _
        rw [show (Config.mk s' (Function.update c.pc i pc')).pc p = c.pc p from hother]
        exact hc.stands.onward hc hon
    · obtain ⟨s', hnext, rfl⟩ := Option.map_eq_some_iff.mp hstep
      exact hc.stands.onward hc hon

/-- **The run lemma.** -/
theorem closes_run {q : Q} {g : ℕ} {order : List T}
    (hreach : (mediaCalls T Q ι errorName).machine.Reach c) (hc : Closes p q g order c)
    (hrun : ((mediaCalls T Q ι errorName).machine.after c).ReachWith (smooth p) c') :
    Closes p q g order c' := by
  induction hrun with
  | start hstart =>
      obtain rfl := hstart
      exact hc
  | step hrun hok hstep ih => exact closes_step (hreach.after hrun) ih hok hstep

/-- Every task is sound. -/
theorem reach_sound (hc : (mediaCalls T Q ι errorName).machine.Reach c) (t : T) :
    Sound (c.shared.task t) := by
  have hall : ∀ t, Sound (c.shared.task t) := by
    refine hc.invariant (I := fun c => ∀ t, Sound (c.shared.task t)) ?_ ?_
    · rintro c ⟨hstart, -⟩ t
      obtain ⟨shared, pc⟩ := c
      obtain rfl : shared = {} := hstart
      simp [Sound]
    · rintro c (⟨i, act⟩ | e) c' hsound - hstep t
      · obtain ⟨⟨s', pc'⟩, hnext, rfl⟩ := Option.map_eq_some_iff.mp hstep
        exact (mediaStep_later hnext).sound t (hsound t)
      · obtain ⟨s', hnext, rfl⟩ := Option.map_eq_some_iff.mp hstep
        exact (completeTask_later hnext).sound t (hsound t)
  exact hall t

/-- **The close begins.** -/
theorem closes_start {q : Q} {g : ℕ} {order : List T} {raised : Option PyError} {callback : Bool}
    (hreach : (mediaCalls T Q ι errorName).machine.Reach c) (hidle : c.pc p = .idle raised)
    (hexports : ∀ t, (c.shared.task t).parent = some q → (c.shared.task t).kind = .exportTask)
    (hcall : (mediaCalls T Q ι errorName).machine.step c
      (.thread p (.close q order callback)) = some c₀)
    (hperforms : c₀.pc p = .close q g (.tasks order)) : Closes p q g order c₀ := by
  obtain ⟨⟨hs, -⟩, -⟩ := reach_tracked hreach
  obtain ⟨⟨s', pc'⟩, hnext, rfl⟩ := Option.map_eq_some_iff.mp hcall
  have hnext : mediaStep errorName c.shared p (c.pc p) (.close q order callback) =
      some (s', pc') := hnext
  rw [hidle] at hnext
  replace hperforms : pc' = .close q g (.tasks order) := by simpa using hperforms
  cases mediaStep_cases hnext with
  | refused => cases hperforms
  | ownerJoins => cases hperforms
  | ownerCloses _ _ _ k close horder hst hclosing =>
      have hmember : ∀ t ∈ order, t ∈ (c.shared.owner q).tasks := by
        intro t ht
        rw [← horder]
        simpa using ht
      refine ⟨?_, fun t => reach_sound hreach t, ?_, ?_, ?_⟩
      · intro t ht
        have hparent := hs.member q t (hmember t ht)
        exact ⟨by simp [hparent], hexports t hparent⟩
      · intro t ht
        simpa [← horder] using ht
      · simp [hclosing]
      · cases hperforms
        simpa using Stands.tasks (List.Subset.refl order) fun u hu => .inl hu

/-! ## The close goes on -/

/-- Who performs the teardown of a task is in a call on it. -/
theorem caller_performing {t : T} {g : ℕ} (h : pc.caller (.inl t) = .performing g) :
    ∃ origin stage, pc = .call t origin stage ∧ stage.caller = .performing g := by
  cases pc with
  | call u origin stage =>
      by_cases hu : t = u
      · subst hu
        exact ⟨origin, stage, rfl, by simpa [MediaPc.caller] using h⟩
      · simp [MediaPc.caller, hu] at h
  | _ => cases h

/-- A thread takes a step in which nothing fails. -/
theorem one_step {k : ι} (hfine : act.fine = true) (hcopes : k = p → copes p c)
    (h : mediaStep errorName c.shared k (c.pc k) act = some (s', pc')) :
    ((mediaCalls T Q ι errorName).machine.after c).ReachWith (smooth p)
      ⟨s', Function.update c.pc k pc'⟩ := by
  refine .one (a := .thread k act) ⟨hfine, hcopes⟩ ?_
  exact Option.map_eq_some_iff.mpr ⟨(s', pc'), h, rfl⟩

/-- No code and no duration. -/
theorem no_duration : Teardown.overflows 0 0 = false := by decide

/-- A report of nothing. -/
def emptyReport : Exports.NativeReport where
  startMs := 0
  endMs := 0
  coveredMs := 0
  complete := true
  termination := 0
  cause := 0
  segments := []
  gaps := []
  unprocessed := []

/-- The report is read, or there already. -/
theorem report_loads (errorName : ℤ → String) (s : MediaState T Q ι) (t : T) (origin : Origin T Q)
    (g : ℕ) : ∃ (act : MediaAction T Q) (s' : MediaState T Q ι), act.fine = true ∧
      taskStep errorName s t origin (.report g) act = some (s', .call t origin (.destroy g)) := by
  by_cases hreport : (s.task t).report = true
  · exact ⟨.go, s, rfl, by simp [taskStep, hreport]⟩
  · have hfine : (MediaAction.loads (.code 0) (.code 0) emptyReport : MediaAction T Q).fine =
        true := by
      simp only [MediaAction.fine]
      decide
    refine ⟨.loads (.code 0) (.code 0) emptyReport, s.setTask t { s.task t with report := true },
      hfine, ?_⟩
    simp only [taskStep, hreport, fine_loads hfine, if_false, Bool.false_eq_true]

/-- **A thread that tears task `t` down comes to the end**, while the close waits. -/
theorem performer_ends (errorName : ℤ → String) {k : ι} {t : T} (hk : k ≠ p) (n : ℕ) :
    ∀ (c : Config ι (MediaState T Q ι) (MediaPc T Q)) (origin : Origin T Q) (stage : TaskStage)
      (g : ℕ), c.pc k = .call t origin stage → stage.caller = .performing g → stage.fails = false →
      stage.toGo ≤ n →
      ∃ c', ((mediaCalls T Q ι errorName).machine.after c).ReachWith (smooth p) c' ∧
        c'.pc p = c.pc p ∧ (c'.shared.task t).close.status = .closed := by
  induction n with
  | zero =>
      intro c origin stage g _ _ _ hle
      cases stage <;> simp [TaskStage.toGo] at hle
  | succ n ih =>
      intro c origin stage g hpc hcaller hfails hle
      have hother : ∀ next, Function.update c.pc k next p = c.pc p := fun next =>
        Function.update_of_ne (Ne.symm hk) _ _
      -- a step to another stage, and then on
      have hgoes : ∀ (act : MediaAction T Q) (s' : MediaState T Q ι) (next : TaskStage),
          act.fine = true → taskStep errorName c.shared t origin stage act =
            some (s', .call t origin next) →
          next.caller = .performing g → next.fails = false → next.toGo < stage.toGo →
          ∃ c', ((mediaCalls T Q ι errorName).machine.after c).ReachWith (smooth p) c' ∧
            c'.pc p = c.pc p ∧ (c'.shared.task t).close.status = .closed := by
        intro act s' next hfine h hcaller hfails hlt
        have hstep : mediaStep errorName c.shared k (c.pc k) act =
            some (s', .call t origin next) := by rw [hpc]; exact h
        have hrun := one_step hfine (fun hkp => absurd hkp hk) hstep
        obtain ⟨c', hrest, hsame, hclosed⟩ :=
          ih ⟨s', Function.update c.pc k (.call t origin next)⟩ origin next g (by simp) hcaller
            hfails (by omega)
        exact ⟨c', hrun.after hrest, hsame.trans (hother _), hclosed⟩
      cases stage with
      | stop g' =>
          have hstep : ∀ next, (if ((c.shared.task t).ends errorName 0 0).1.kind = .recordingTask
              then TaskStage.destroy g' else .report g') = next →
              taskStep errorName c.shared t origin (.stop g') (.stopped (.code 0) 0) =
                some (c.shared.setTask t ((c.shared.task t).ends errorName 0 0).1,
                  .call t origin next) := by
            rintro next rfl
            simp only [taskStep, retryInUseResult_zero, ends_raised _ _ no_duration]
          by_cases hkind : ((c.shared.task t).ends errorName 0 0).1.kind = .recordingTask
          · exact hgoes _ _ _ rfl (hstep (.destroy g') (if_pos hkind)) hcaller rfl
              (by simp [TaskStage.toGo])
          · exact hgoes _ _ _ rfl (hstep (.report g') (if_neg hkind)) hcaller rfl
              (by simp [TaskStage.toGo])
      | report g' =>
          obtain ⟨act, s', hfine, hloads⟩ := report_loads errorName c.shared t origin g'
          exact hgoes act s' (.destroy g') hfine hloads hcaller rfl (by simp [TaskStage.toGo])
      | destroy g' =>
          exact hgoes (.native (.code 0)) _ (.finish g') rfl rfl hcaller rfl (by
            simp [TaskStage.toGo])
      | finish g' => exact hgoes .go _ (.succeed g') rfl rfl hcaller rfl (by simp [TaskStage.toGo])
      | succeed g' =>
          have hstep : mediaStep errorName c.shared k (c.pc k) .go = some (c.shared.setTask t
              { c.shared.task t with
                close := (c.shared.task t).close.succeed g' (c.shared.task t).error },
              .call t origin .result) := by
            rw [hpc]
            rfl
          exact ⟨_, one_step rfl (fun hkp => absurd hkp hk) hstep, hother _, by
            simp [CloseCoordinator.succeed]⟩
      | fail g' e => cases hfails
      | _ => cases hcaller

/-- The thread that closes takes a step. -/
theorem own_step {q : Q} {g : ℕ} {order : List T}
    (hreach : (mediaCalls T Q ι errorName).machine.Reach c) (hc : Closes p q g order c)
    (hinside : (c.pc p).inClose q g = true) (hcopes : copes p c) (hfine : act.fine = true)
    (h : (mediaStep errorName c.shared p (c.pc p) act).isSome = true) :
    ∃ c', ((mediaCalls T Q ι errorName).machine.after c).ReachWith (smooth p) c' ∧
      (c'.pc p).toGo < (c.pc p).toGo := by
  obtain ⟨⟨s', pc'⟩, h⟩ := Option.isSome_iff_exists.mp h
  have hstep : (mediaCalls T Q ι errorName).machine.step c (.thread p act) =
      some ⟨s', Function.update c.pc p pc'⟩ := Option.map_eq_some_iff.mpr ⟨(s', pc'), h, rfl⟩
  have hok : smooth p c (.thread p act) := ⟨hfine, fun _ => hcopes⟩
  have hon := smooth_onward hreach hok hstep
  have hfollows := (reach_tracked hreach).2.follows
  have hown := stands_step hc (fun t => hfollows (.inl t)) hon hfine hcopes h
  exact ⟨_, .one hok hstep, by simpa using hown.2 hinside⟩

/-- **The close comes nearer to its end**, when the export that it waits for has completed, and the
thread that it waits for has come to its end. -/
theorem close_advances {q : Q} {g : ℕ} {order : List T}
    (hreach : (mediaCalls T Q ι errorName).machine.Reach c) (hc : Closes p q g order c)
    (hinside : (c.pc p).inClose q g = true) (hcopes : copes p c) :
    ∃ c', ((mediaCalls T Q ι errorName).machine.after c).ReachWith (smooth p) c' ∧
      (c'.pc p).toGo < (c.pc p).toGo := by
  have hown : ∀ act : MediaAction T Q, act.fine = true →
      (mediaStep errorName c.shared p (c.pc p) act).isSome = true → _ := fun act hfine =>
    own_step hreach hc hinside hcopes hfine
  -- the same, behind steps of others
  have hthen : ∀ c₁, ((mediaCalls T Q ι errorName).machine.after c).ReachWith (smooth p) c₁ →
      c₁.pc p = c.pc p → Closes p q g order c₁ → copes p c₁ → ∀ act : MediaAction T Q,
      act.fine = true → (mediaStep errorName c₁.shared p (c.pc p) act).isSome = true →
      ∃ c', ((mediaCalls T Q ι errorName).machine.after c).ReachWith (smooth p) c' ∧
        (c'.pc p).toGo < (c.pc p).toGo := by
    intro c₁ hrun hsame hc₁ hcopes₁ act hfine h
    obtain ⟨c', hrest, hless⟩ := own_step (hreach.after hrun) hc₁ (by rwa [hsame]) hcopes₁ hfine
      (by rwa [hsame])
    exact ⟨c', hrun.after hrest, by rwa [hsame] at hless⟩
  have hstands := hc.stands
  generalize hpc : c.pc p = pc at hstands hinside
  cases hstands with
  | outside houtside hclosed hleft =>
      rw [houtside] at hinside
      cases hinside
  | @tasks rest hrest hleft =>
      cases rest with
      | nil => exact hpc ▸ hown (.native (.code 0)) rfl (by rw [hpc]; rfl)
      | cons t rest =>
          have hkind := (hc.exports t (hrest (List.mem_cons_self ..))).2
          exact hpc ▸ hown .go rfl (by rw [hpc]; simp [mediaStep, ownerStep, hkind])
  | succeed hleft => exact hpc ▸ hown (.report none) rfl (by rw [hpc]; rfl)
  | @task t rest stage ht hrest hleft hat =>
      obtain ⟨hmade, hkind⟩ := hc.exports t ht
      have hgoes : ∀ act : MediaAction T Q, act.fine = true →
          (taskStep errorName c.shared t (some (q, g, rest)) stage act).isSome = true →
          ∃ c', ((mediaCalls T Q ι errorName).machine.after c).ReachWith (smooth p) c' ∧
            (c'.pc p).toGo < (c.pc p).toGo := fun act hfine h =>
        hown act hfine (by rw [hpc]; exact h)
      rw [← hpc]
      cases stage with
      | terminal =>
          refine hgoes .go rfl ?_
          by_cases hstopped : (c.shared.task t).stopped = true
          · simp [taskStep, hstopped]
          · simp only [copes, hpc, hstopped, if_false, Bool.false_eq_true] at hcopes
            have hopen := CloseCoordinator.requireOpen_eq_none.mpr hcopes
            simp [taskStep, hstopped, hopen]
      | cancel => exact hgoes (.native (.code 0)) rfl rfl
      | await timed =>
          by_cases hdone : (c.shared.task t).done = true
          · exact hgoes .go rfl (by simp [taskStep, hdone])
          · -- the export completes
            have henv : completeTask errorName c.shared ⟨t, 0, 0⟩ =
                some (c.shared.setTask t ((c.shared.task t).ends errorName 0 0).1) :=
              if_pos ⟨hmade, hkind⟩
            have hstep : (mediaCalls T Q ι errorName).machine.step c (.env ⟨t, 0, 0⟩) =
                some ⟨c.shared.setTask t ((c.shared.task t).ends errorName 0 0).1, c.pc⟩ :=
              Option.map_eq_some_iff.mpr ⟨_, henv, rfl⟩
            have hok : smooth p c (.env ⟨t, 0, 0⟩) := no_duration
            refine hthen _ (.one hok hstep) rfl (closes_step hreach hc hok hstep) ?_ .go rfl ?_
            · simp [copes, hpc]
            · rw [hpc]
              simp [mediaStep, taskStep, ends_done errorName hat.2 no_duration]
      | begin stops =>
          refine hgoes .go rfl ?_
          simp only [taskStep]
          rcases (c.shared.task t).close.begin_cases false with ⟨hst, hbegin⟩ | ⟨hst, hbegin⟩ |
            ⟨hst, hbegin⟩ | ⟨hst, hbegin⟩
          all_goals
            rw [hbegin]
            rfl
      | join k =>
          have hfollows := (reach_tracked hreach).2.follows (.inl t)
          have hp : (c.pc p).caller (.inl t) = .waiting k := by
            rw [hpc]
            simp [MediaPc.caller, TaskStage.caller]
          -- with an outcome it wakes
          have hwakes : ∀ c₁ : Config ι (MediaState T Q ι) (MediaPc T Q), c₁.pc p = c.pc p →
              Follows (coordinator c₁.shared (.inl t)) (fun j => (c₁.pc j).caller (.inl t)) →
              (∃ o, (c₁.shared.task t).close.outcomes k = some o) →
              (mediaStep errorName c₁.shared p (c.pc p) .go).isSome = true := by
            rintro c₁ hsame hfollows₁ ⟨o, ho⟩
            obtain ⟨close, hleave⟩ := hfollows₁.wakes (j := p) (g := k) (by rwa [hsame])
            have hleave : (c₁.shared.task t).close.leave k = some close := hleave
            rw [hpc]
            simp [mediaStep, taskStep, CloseCoordinator.outcome?, ho, hleave]
          rcases hfollows.waiting hp with houtcome | ⟨j, hj⟩
          · exact hown .go rfl (hwakes c rfl hfollows houtcome)
          · -- the thread that performs comes to its end first
            obtain ⟨origin, performs, hpcj, hcaller⟩ := caller_performing hj
            have hjp : j ≠ p := by
              rintro rfl
              cases hp.symm.trans hj
            have hfails : performs.fails = false := by
              simpa [hpcj, MediaPc.failing] using hat.2.1 j
            obtain ⟨c₁, hrun, hsame, hclosed⟩ := performer_ends errorName hjp _ c
              origin performs k hpcj hcaller hfails (le_refl _)
            have hfollows₁ := (reach_tracked (hreach.after hrun)).2.follows (.inl t)
            refine hthen c₁ hrun hsame (closes_run hreach hc hrun) (by simp [copes, hsame, hpc])
              .go rfl (hwakes c₁ hsame hfollows₁ ?_)
            rcases hfollows₁.waiting (j := p) (by rwa [hsame]) with houtcome | ⟨j', hj'⟩
            · exact houtcome
            · cases hclosed.symm.trans (hfollows₁.performing hj').1
      | stop k => exact hat.elim
      | report k =>
          obtain ⟨act, s', hfine, hloads⟩ := report_loads errorName c.shared t (some (q, g, rest)) k
          exact hgoes act hfine (by rw [hloads]; rfl)
      | destroy k => exact hgoes (.native (.code 0)) rfl rfl
      | finish k => exact hgoes .go rfl rfl
      | succeed k => exact hgoes .go rfl rfl
      | fail k e => exact hat.elim
      | result =>
          refine hgoes .go rfl ?_
          simp only [taskStep]
          split <;> rfl
      | raised e => exact hgoes .go rfl rfl
      | delete => exact hgoes (.native (.code 0)) rfl rfl

/-- **`cancel()` raises** on an export that has not ended and is not open, and the close with it. -/
theorem cancel_refused {t : T} {q : Q} {g : ℕ} {rest : List T}
    (hstopped : (s.task t).stopped = false) (hopen : (s.task t).close.status ≠ .open)
    (h : mediaStep errorName s i (.call t (some (q, g, rest)) .terminal) act = some (s', pc')) :
    s' = s ∧ pc' = .close q g (.fail closedError) := by
  cases act with
  | go =>
      simp [mediaStep, taskStep, hstopped, CloseCoordinator.requireOpen, hopen] at h
      exact ⟨h.1.symm, h.2.symm⟩
  | _ => cases h

/-- **An export that is terminal without a result is waited for for ever.** -/
theorem left_waits {t : T} {q : Q} {g : ℕ} {rest : List T}
    (hpc : c.pc p = .call t (some (q, g, rest)) .terminal)
    (hmade : (c.shared.task t).parent.isSome = true) (hstopped : (c.shared.task t).stopped = true)
    (hdone : (c.shared.task t).done = false)
    (hrun : ((mediaCalls T Q ι errorName).machine.after c).Reach c') :
    (c'.pc p).inClose q g = true := by
  let Waits (d : Config ι (MediaState T Q ι) (MediaPc T Q)) : Prop :=
    ((d.shared.task t).parent.isSome = true ∧ (d.shared.task t).stopped = true ∧
      (d.shared.task t).done = false) ∧
    (d.pc p = .call t (some (q, g, rest)) .terminal ∨
      d.pc p = .call t (some (q, g, rest)) (.await false))
  have hlater : ∀ {s s' : MediaState T Q ι}, Later s s' → (s.task t).parent.isSome = true ∧
      (s.task t).stopped = true ∧ (s.task t).done = false →
      (s'.task t).parent.isSome = true ∧ (s'.task t).stopped = true ∧ (s'.task t).done = false := by
    rintro s s' h ⟨hmade, hstopped, hdone⟩
    obtain ⟨hstopped', hdone'⟩ := h.ended t hmade hstopped
    exact ⟨(h.kind t hmade).1 ▸ hmade, hstopped', hdone'.trans hdone⟩
  have hall : Waits c' := by
    refine hrun.invariant (I := Waits) ?_ ?_
    · rintro d (rfl : d = c)
      exact ⟨⟨hmade, hstopped, hdone⟩, .inl hpc⟩
    · rintro d (⟨i, act⟩ | e) d' ⟨hleft, hwaits⟩ - hstep
      · obtain ⟨⟨s', pc'⟩, hnext, rfl⟩ := Option.map_eq_some_iff.mp hstep
        have hnext : mediaStep errorName d.shared i (d.pc i) act = some (s', pc') := hnext
        refine ⟨hlater (mediaStep_later hnext) hleft, ?_⟩
        by_cases hip : i = p
        · subst hip
          right
          rcases hwaits with hpc | hpc
          · rw [hpc] at hnext
            cases act with
            | go =>
                simp only [mediaStep, taskStep, hleft.2.1, if_true] at hnext
                cases hnext
                simp
            | _ => cases hnext
          · rw [hpc] at hnext
            cases act with
            | go => simp [mediaStep, taskStep, hleft.2.2] at hnext
            | timeout => simp [mediaStep, taskStep] at hnext
            | _ => cases hnext
        · have hother : Function.update d.pc i pc' p = d.pc p :=
            Function.update_of_ne (Ne.symm hip) _ _
          simpa [hother] using hwaits
      · obtain ⟨s', hnext, rfl⟩ := Option.map_eq_some_iff.mp hstep
        exact ⟨hlater (completeTask_later hnext) hleft, hwaits⟩
  rcases hall.2 with hpc' | hpc'
  · simp [hpc', MediaPc.inClose]
  · simp [hpc', MediaPc.inClose]

/-- Two tasks, one owner, and two threads that have not called yet. -/
def unexported : Config (Fin 2) (MediaState (Fin 2) (Fin 1) (Fin 2)) (MediaPc (Fin 2) (Fin 1)) :=
  ⟨{}, fun _ => .idle none⟩

/-- The calls of two threads on two tasks of one owner. -/
def exporting :
    Machine (Config (Fin 2) (MediaState (Fin 2) (Fin 1) (Fin 2)) (MediaPc (Fin 2) (Fin 1)))
      (Label (Fin 2) (MediaAction (Fin 2) (Fin 1)) (Completion (Fin 2))) :=
  (mediaCalls (Fin 2) (Fin 1) (Fin 2) fun _ => "").machine

/-- Nothing fails in the step. -/
def fineLabel : Label (Fin 2) (MediaAction (Fin 2) (Fin 1)) (Completion (Fin 2)) → Bool
  | .thread _ act => act.fine
  | .env e => !Teardown.overflows e.code e.durationMs

/-- From state `c` on nothing fails, and the close by thread `0` raises all the same. -/
def Refuses (c : Config (Fin 2) (MediaState (Fin 2) (Fin 1) (Fin 2)) (MediaPc (Fin 2) (Fin 1))) :
    Prop :=
  (∃ raised, c.pc 0 = .idle raised) ∧
    (∀ t, (c.shared.task t).parent = some 0 → (c.shared.task t).kind = .exportTask) ∧
    ∃ c₀ c', exporting.step c (.thread 0 (.close 0 [0] false)) = some c₀ ∧
      c₀.pc 0 = .close 0 1 (.tasks [0]) ∧
      (exporting.after c₀).ReachWith (fun _ l => fineLabel l = true) c' ∧
      c'.pc 0 = .close 0 1 (.fail closedError)

/-- A run up to a state that refuses the close. -/
theorem refuses_of {l : List (Label (Fin 2) (MediaAction (Fin 2) (Fin 1)) (Completion (Fin 2)))}
    {status : CloseStatus}
    (h : (exporting.exec unexported l).any (fun c =>
      decide ((c.shared.task 0).close.status = status) &&
      (match c.pc 0 with | .idle _ => true | _ => false) &&
      decide (∀ t, (c.shared.task t).parent = some 0 → (c.shared.task t).kind = .exportTask) &&
      (exporting.step c (.thread 0 (.close 0 [0] false))).any fun c₀ =>
        decide (c₀.pc 0 = .close 0 1 (.tasks [0])) &&
        ((exporting.guarded fun _ l => fineLabel l).exec c₀ [.thread 0 .go, .thread 0 .go]).any
          fun c' => decide (c'.pc 0 = .close 0 1 (.fail closedError))) = true) :
    ∃ c, exporting.Reach c ∧ (c.shared.task 0).close.status = status ∧ Refuses c := by
  obtain ⟨c, hc, htest⟩ := (Option.any_eq_true _ _).mp h
  simp only [Bool.and_eq_true, decide_eq_true_eq] at htest
  obtain ⟨⟨⟨hstatus, hidle⟩, hexports⟩, htest⟩ := htest
  obtain ⟨c₀, hc₀, htest⟩ := (Option.any_eq_true _ _).mp htest
  obtain ⟨hperforms, htest⟩ := (Bool.and_eq_true _ _).mp htest
  obtain ⟨c', hc', hfails⟩ := (Option.any_eq_true _ _).mp htest
  have hstart : exporting.start unexported := ⟨rfl, rfl⟩
  refine ⟨c, (Machine.Reach.of_start hstart).exec hc, hstatus, ?_, hexports, c₀, c', hc₀,
    of_decide_eq_true hperforms, ?_, of_decide_eq_true hfails⟩
  · split at hidle
    next raised hraised => exact ⟨raised, hraised⟩
    next => cases hidle
  · exact Machine.ReachWith.of_exec hc'

end Tirtc.Media
