import Mathlib.Tactic.Common
import Tirtc.Following
import Tirtc.Teardown.KeptFiles

/-!
# The calls on the media tasks follow the close coordinators

Each task and each owner has a close coordinator. The calls move it only as the protocol of the
coordinator has it, so what that promises holds among the calls: who waits finds an outcome or a
performer, and `closed` is never left.

* `coordinator`, `MediaPc.caller`: the coordinators, and where a thread is at each.
* `CallTurn`, `taskStep_turn`: the calls on a task; `mediaStep_turn`: all calls.
* `Tracked`, `reach_tracked`: in every state, the threads follow every coordinator.
-/

set_option autoImplicit false
set_option linter.unusedSectionVars false

namespace Tirtc.Media

open Transition Closing

variable {T Q ι : Type} [DecidableEq T] [DecidableEq Q]
  {s s' : MediaState T Q ι} {i : ι} {pc pc' : MediaPc T Q} {act : MediaAction T Q}
  {errorName : ℤ → String}

/-! ## The coordinators -/

/-- The coordinator of a task or an owner. -/
def coordinator (s : MediaState T Q ι) : T ⊕ Q → CloseCoordinator
  | .inl t => (s.task t).close
  | .inr q => (s.owner q).close

/-- Where a thread at this stage is with the coordinator of its task. -/
def TaskStage.caller : TaskStage → Caller
  | .join g => .waiting g
  | .stop g | .report g | .destroy g | .finish g | .succeed g | .fail g _ => .performing g
  | _ => .idle

/-- Where a thread is with the coordinator of a task or an owner. -/
def MediaPc.caller : MediaPc T Q → T ⊕ Q → Caller
  | .call t _ stage, .inl u => if u = t then stage.caller else .idle
  | .call _ (some (q, g, _)) _, .inr r => if r = q then .performing g else .idle
  | .joinOwner q g, .inr r => if r = q then .waiting g else .idle
  | .close q g _, .inr r => if r = q then .performing g else .idle
  | _, _ => .idle

/-- A thread that waits for an owner is in no other call. -/
theorem caller_joinOwner {q : Q} {g : ℕ} {x : T ⊕ Q} (hx : x ≠ .inr q) :
    (MediaPc.joinOwner q g).caller x = .idle := by
  cases x with
  | inl t => rfl
  | inr r =>
      have hr : r ≠ q := fun hr => hx (congrArg _ hr)
      simp [MediaPc.caller, hr]

/-- Nor is a thread that closes one, between its tasks. -/
theorem caller_close {q : Q} {g : ℕ} {stage : OwnerStage T} {x : T ⊕ Q} (hx : x ≠ .inr q) :
    (MediaPc.close q g stage).caller x = .idle := by
  cases x with
  | inl t => rfl
  | inr r =>
      have hr : r ≠ q := fun hr => hx (congrArg _ hr)
      simp [MediaPc.caller, hr]

/-- What a step in a call on task `t` does to the coordinators. -/
structure CallTurn (s : MediaState T Q ι) (t : T) (origin : Origin T Q) (stage : TaskStage)
    (s' : MediaState T Q ι) (pc' : MediaPc T Q) : Prop where
  owner : ∀ q, (s'.owner q).close = (s.owner q).close
  others : ∀ u, u ≠ t → (s'.task u).close = (s.task u).close
  turn : Turn (s.task t).close stage.caller (s'.task t).close (pc'.caller (.inl t))
  away : ∀ u, u ≠ t → pc'.caller (.inl u) = .idle
  back : ∀ q, pc'.caller (.inr q) = (MediaPc.call t origin stage).caller (.inr q)

/-- The step is a turn at every coordinator. -/
theorem CallTurn.all {t : T} {origin : Origin T Q} {stage : TaskStage}
    (h : CallTurn s t origin stage s' pc') (x : T ⊕ Q) :
    Turn (coordinator s x) ((MediaPc.call t origin stage).caller x) (coordinator s' x)
      (pc'.caller x) := by
  cases x with
  | inl u =>
      by_cases hu : u = t
      · subst hu
        simpa [coordinator, MediaPc.caller] using h.turn
      · have hsame : coordinator s' (.inl u) = coordinator s (.inl u) := h.others u hu
        rw [hsame, h.away u hu]
        simpa [MediaPc.caller, hu] using Turn.stays (c := coordinator s (.inl u)) .idle
  | inr q =>
      have hsame : coordinator s' (.inr q) = coordinator s (.inr q) := h.owner q
      rw [hsame, h.back q]
      exact .stays _

/-- The call goes on. -/
theorem CallTurn.goes {t : T} {origin : Origin T Q} {stage stage' : TaskStage}
    (howner : ∀ q, (s'.owner q).close = (s.owner q).close)
    (hothers : ∀ u, u ≠ t → (s'.task u).close = (s.task u).close)
    (hturn : Turn (s.task t).close stage.caller (s'.task t).close stage'.caller) :
    CallTurn s t origin stage s' (.call t origin stage') where
  owner := howner
  others := hothers
  turn := by simpa [MediaPc.caller] using hturn
  away u hu := by simp [MediaPc.caller, hu]
  back q := by
    rcases origin with _ | ⟨r, g, rest⟩
    · rfl
    · rfl

/-- The same, where only the record of the task changes. -/
theorem CallTurn.ofTask {t : T} {origin : Origin T Q} {stage stage' : TaskStage} {x : MediaTask Q}
    (hturn : Turn (s.task t).close stage.caller x.close stage'.caller) :
    CallTurn s t origin stage (s.setTask t x) (.call t origin stage') :=
  .goes (fun _ => rfl) (fun u hu => by simp [hu]) (by simpa using hturn)

/-- The same, where nothing changes. -/
theorem CallTurn.same {t : T} {origin : Origin T Q} {stage stage' : TaskStage}
    (hstage : stage'.caller = stage.caller) :
    CallTurn s t origin stage s (.call t origin stage') :=
  .goes (fun _ => rfl) (fun _ _ => rfl) (by rw [hstage]; exact .stays _)

/-- The call goes back to the teardown of the owner that has made it. -/
theorem CallTurn.returns {t : T} {q : Q} {g : ℕ} {rest : List T} {stage : TaskStage}
    {next : OwnerStage T} (howner : ∀ q, (s'.owner q).close = (s.owner q).close)
    (htask : ∀ u, (s'.task u).close = (s.task u).close) (hstage : stage.caller = .idle) :
    CallTurn s t (some (q, g, rest)) stage s' (.close q g next) where
  owner := howner
  others u _ := htask u
  turn := by
    rw [htask, hstage]
    exact .stays _
  away _ _ := rfl
  back _ := rfl

/-- The call of the application ends. -/
theorem CallTurn.ends {t : T} {stage : TaskStage} {raised : Option PyError}
    (howner : ∀ q, (s'.owner q).close = (s.owner q).close)
    (htask : ∀ u, (s'.task u).close = (s.task u).close) (hstage : stage.caller = .idle) :
    CallTurn s t none stage s' (.idle raised) where
  owner := howner
  others u _ := htask u
  turn := by
    rw [htask, hstage]
    exact .stays _
  away _ _ := rfl
  back _ := rfl

/-- Leaving the set of the owner is no matter of the coordinators. -/
theorem finish_close (s : MediaState T Q ι) (t : T) :
    (∀ u, ((s.finish t).task u).close = (s.task u).close) ∧
      ∀ q, ((s.finish t).owner q).close = (s.owner q).close := by
  unfold MediaState.finish
  simp only
  split
  next r hparent hleft =>
    constructor
    · intro u
      by_cases hu : u = t
      · simp [hu]
      · simp [hu]
    · intro q
      by_cases hq : q = r
      · simp [hq]
      · simp [hq]
  next => exact ⟨fun _ => rfl, fun _ => rfl⟩

theorem ends_close (errorName : ℤ → String) (x : MediaTask Q) (code durationMs : ℤ) :
    (x.ends errorName code durationMs).1.close = x.close := by
  obtain ⟨stopped, done, file, error, h⟩ := x.ends_eq errorName code durationMs
  rw [h]

theorem performs_caller (x : MediaTask Q) (stops : Bool) {g : ℕ} :
    (performs x stops g).caller = .performing g := by
  unfold performs
  split
  · split <;> rfl
  · split <;> rfl

/-- **A step in a call on a task is a turn.** -/
theorem taskStep_turn {t : T} {origin : Origin T Q} {stage : TaskStage}
    (h : taskStep errorName s t origin stage act = some (s', pc')) :
    CallTurn s t origin stage s' pc' := by
  cases stage with
  | terminal =>
      cases act with
      | go =>
          cases origin with
          | some back =>
              simp only [taskStep] at h
              split at h
              · cases h
                exact .same rfl
              · split at h
                · cases h
                  exact .returns (fun _ => rfl) (fun _ => rfl) rfl
                · cases h
                  exact .same rfl
          | none => cases h
      | _ => cases h
  | cancel =>
      cases act with
      | native r =>
          cases origin with
          | some back =>
              simp only [taskStep] at h
              split at h
              · cases h
                exact .returns (fun _ => rfl) (fun _ => rfl) rfl
              · cases h
                exact .same rfl
          | none => cases h
      | _ => cases h
  | await timed =>
      cases act with
      | go =>
          simp only [taskStep] at h
          split at h
          · cases h
            exact .same rfl
          · cases h
      | timeout =>
          simp only [taskStep] at h
          split at h
          · cases h
            exact .same rfl
          · cases h
      | _ => cases h
  | begin stops =>
      cases act with
      | go =>
          have hturn := Turn.begins (c := (s.task t).close) false
          simp only [taskStep] at h
          rcases (s.task t).close.begin_cases false with ⟨hst, hbegin⟩ | ⟨hst, hbegin⟩ |
            ⟨hst, hbegin⟩ | ⟨hst, hbegin⟩
          · rw [hbegin] at h hturn
            cases h
            exact .ofTask hturn
          · rw [hbegin] at h
            cases h
            exact .same rfl
          · rw [hbegin] at h
            cases h
            exact .same rfl
          · rw [hbegin] at h hturn
            cases h
            refine .ofTask ?_
            rw [performs_caller]
            exact hturn
      | _ => cases h
  | join g =>
      cases act with
      | go =>
          simp only [taskStep] at h
          obtain ⟨o, houtcome, h⟩ := Option.bind_eq_some_iff.mp h
          obtain ⟨close, hleave, h⟩ := Option.map_eq_some_iff.mp h
          cases h
          refine .ofTask ?_
          have hturn := Turn.wakes g o close houtcome hleave
          cases o with
          | none => exact hturn
          | some e => exact hturn
      | _ => cases h
  | stop g =>
      cases act with
      | stopped r durationMs =>
          simp only [taskStep] at h
          split at h
          · cases h
            exact .same rfl
          · cases h
            refine .ofTask ?_
            rw [ends_close]
            split
            · exact .stays _
            · split
              · exact .stays _
              · exact .stays _
      | _ => cases h
  | report g =>
      cases act with
      | loads report progress value =>
          simp only [taskStep] at h
          split at h
          · cases h
          · obtain ⟨loaded, hloads⟩ := (s.task t).loads_eq errorName report progress value
            rw [hloads] at h
            cases h
            refine .ofTask ?_
            split
            · exact .stays _
            · exact .stays _
      | go =>
          simp only [taskStep] at h
          split at h
          · cases h
            exact .same rfl
          · cases h
      | _ => cases h
  | destroy g =>
      cases act with
      | native r =>
          simp only [taskStep] at h
          split at h
          · cases h
            exact .same rfl
          · cases h
            exact .same rfl
      | _ => cases h
  | finish g =>
      cases act with
      | go =>
          cases h
          obtain ⟨htask, howner⟩ := finish_close s t
          refine .goes howner (fun u _ => htask u) ?_
          rw [htask]
          exact .stays _
      | _ => cases h
  | succeed g =>
      cases act with
      | go =>
          cases h
          exact .ofTask (.succeeds g _)
      | _ => cases h
  | fail g e =>
      cases act with
      | go =>
          cases h
          exact .ofTask (.fails g e)
      | _ => cases h
  | result =>
      cases act with
      | go =>
          simp only [taskStep] at h
          split at h
          · cases h
            exact .same rfl
          · split at h
            · cases h
              refine .ends (fun _ => rfl) (fun u => ?_) rfl
              by_cases hu : u = t
              · simp [hu]
              · simp [hu]
            · cases h
              exact .same rfl
          · cases h
            exact .same rfl
      | _ => cases h
  | raised e =>
      cases act with
      | go =>
          simp only [taskStep] at h
          split at h
          · cases h
            exact .ends (fun _ => rfl) (fun _ => rfl) rfl
          next q g rest =>
            rcases raisedInTeardown_cases (s := s) t q g rest e with hraised | hraised
            · rw [hraised] at h
              cases h
              refine .returns (fun r => ?_) (fun _ => rfl) rfl
              by_cases hr : r = q
              · simp [hr]
              · simp [hr]
            · rw [hraised] at h
              cases h
              exact .returns (fun _ => rfl) (fun _ => rfl) rfl
      | _ => cases h
  | delete =>
      have hclose : ∀ u, ((s.setTask t { s.task t with deleted := true }).task u).close =
          (s.task u).close := by
        intro u
        by_cases hu : u = t
        · simp [hu]
        · simp [hu]
      cases act with
      | native r =>
          cases origin with
          | some back =>
              simp only [taskStep] at h
              split at h
              · cases h
                exact .returns (fun _ => rfl) hclose rfl
              · cases h
                refine .returns (fun r => ?_) hclose rfl
                by_cases hr : r = back.1
                · simp [hr]
                · simp [hr]
          | none => cases h
      | _ => cases h

/-- A step that only the coordinator of owner `q` may see. -/
theorem owner_turn {q : Q} {x : TaskOwner T ι}
    (hturn : Turn (s.owner q).close (pc.caller (.inr q)) x.close (pc'.caller (.inr q)))
    (haway : ∀ y, y ≠ .inr q → pc.caller y = .idle ∧ pc'.caller y = .idle) (y : T ⊕ Q) :
    Turn (coordinator s y) (pc.caller y) (coordinator (s.setOwner q x) y) (pc'.caller y) := by
  by_cases hy : y = .inr q
  · subst hy
    simpa [coordinator] using hturn
  · have hsame : coordinator (s.setOwner q x) y = coordinator s y := by
      cases y with
      | inl t => rfl
      | inr r =>
          have hr : r ≠ q := fun hr => hy (congrArg _ hr)
          simp [coordinator, hr]
    obtain ⟨hbefore, hafter⟩ := haway y hy
    rw [hsame, hbefore, hafter]
    exact .stays _

/-- No coordinator changes, and no place at one. -/
theorem same_turn (hsame : ∀ x, coordinator s' x = coordinator s x)
    (hplace : ∀ x, pc'.caller x = pc.caller x) (x : T ⊕ Q) :
    Turn (coordinator s x) (pc.caller x) (coordinator s' x) (pc'.caller x) := by
  rw [hsame, hplace]
  exact .stays _

/-- The coordinator of a task that has not been made. -/
def Unmade (s : MediaState T Q ι) : Prop := ∀ t, (s.task t).parent = none → (s.task t).close = {}

/-- A stage of the close of an owner is a turn. -/
theorem ownerStep_turn {q : Q} {g : ℕ} {stage : OwnerStage T}
    (h : ownerStep errorName s q g stage act = some (s', pc')) (x : T ⊕ Q) :
    Turn (coordinator s x) ((MediaPc.close q g stage).caller x) (coordinator s' x)
      (pc'.caller x) := by
  have hgoes : ∀ next, Turn (coordinator s x) ((MediaPc.close q g stage).caller x)
      (coordinator s x) ((MediaPc.close q g next).caller x) := fun next =>
    same_turn (fun _ => rfl) (fun y => by cases y <;> rfl) x
  cases stage with
  | tasks rest =>
      cases act with
      | go =>
          cases rest with
          | nil => cases h
          | cons t rest =>
              have htakes : ∀ taken : TaskStage, taken.caller = .idle →
                  Turn (coordinator s x) ((MediaPc.close q g (.tasks (t :: rest))).caller x)
                    (coordinator s x) ((MediaPc.call t (some (q, g, rest)) taken).caller x) := by
                intro taken htaken
                refine same_turn (fun _ => rfl) (fun y => ?_) x
                cases y with
                | inl u =>
                    by_cases hu : u = t
                    · simp [MediaPc.caller, hu, htaken]
                    · simp [MediaPc.caller, hu]
                | inr r => rfl
              simp only [ownerStep] at h
              split at h
              · cases h
                exact htakes _ rfl
              · cases h
                exact htakes _ rfl
      | native r =>
          cases rest with
          | nil =>
              simp only [ownerStep] at h
              split at h
              · cases h
                exact hgoes _
              · cases h
                exact hgoes _
          | cons t rest => cases h
      | raises e =>
          cases rest with
          | nil =>
              cases h
              exact hgoes _
          | cons t rest =>
              cases h
              exact hgoes _
      | _ =>
          cases rest with
          | nil => cases h
          | cons t rest => cases h
  | succeed =>
      cases act with
      | report childError =>
          cases h
          refine owner_turn ?_ (fun y hy => ⟨caller_close hy, rfl⟩) x
          simpa [MediaPc.caller] using Turn.succeeds g childError
      | _ => cases h
  | fail e =>
      cases act with
      | go =>
          cases h
          refine owner_turn ?_ (fun y hy => ⟨caller_close hy, rfl⟩) x
          simpa [MediaPc.caller] using Turn.fails g e
      | _ => cases h

/-- **A step of a thread is a turn at every coordinator.** -/
theorem mediaStep_turn (hs : Unmade s) (h : mediaStep errorName s i pc act = some (s', pc'))
    (x : T ⊕ Q) : Turn (coordinator s x) (pc.caller x) (coordinator s' x) (pc'.caller x) := by
  cases pc with
  | idle raised =>
      have hrefused : ∀ next : Option PyError,
          Turn (coordinator s x) ((MediaPc.idle raised : MediaPc T Q).caller x) (coordinator s x)
            ((MediaPc.idle next : MediaPc T Q).caller x) := fun _ => .stays _
      have henters : ∀ t stage, TaskStage.caller stage = .idle →
          Turn (coordinator s x) ((MediaPc.idle raised : MediaPc T Q).caller x) (coordinator s x)
            ((MediaPc.call t none stage : MediaPc T Q).caller x) := by
        intro t stage hstage
        refine same_turn (fun _ => rfl) (fun y => ?_) x
        cases y with
        | inl u =>
            by_cases hu : u = t
            · simp [MediaPc.caller, hu, hstage]
            · simp [MediaPc.caller, hu]
        | inr r => rfl
      cases act with
      | start q t kind r =>
          simp only [mediaStep, startTask] at h
          split at h
          · cases h
          next hnew =>
            split at h
            · cases h
              exact hrefused _
            · split at h
              · cases h
                exact hrefused _
              · cases h
                refine same_turn (fun y => ?_) (fun _ => rfl) x
                cases y with
                | inl u =>
                    by_cases hu : u = t
                    · subst hu
                      simpa [coordinator] using (hs u (by simpa using hnew)).symm
                    · simp [coordinator, hu]
                | inr r =>
                    by_cases hr : r = q
                    · simp [coordinator, hr]
                    · simp [coordinator, hr]
      | stop t callback =>
          simp only [mediaStep, stopBegin] at h
          split at h
          · cases h
          · split at h
            · cases h
              exact hrefused _
            · cases h
              exact henters t _ rfl
      | wait t timed callback =>
          simp only [mediaStep, waitBegin] at h
          split at h
          · cases h
          · split at h
            · cases h
              exact hrefused _
            · cases h
              exact henters t _ rfl
      | close q order callback =>
          simp only [mediaStep, closeBegin] at h
          split at h
          · cases h
            exact hrefused _
          · split at h
            · have hturn := Turn.begins (c := (s.owner q).close) false
              rcases (s.owner q).close.begin_cases false with ⟨hst, hbegin⟩ | ⟨hst, hbegin⟩ |
                ⟨hst, hbegin⟩ | ⟨hst, hbegin⟩
              · rw [hbegin] at h hturn
                cases h
                refine owner_turn ?_ (fun y hy => ⟨rfl, caller_joinOwner hy⟩) x
                simpa [MediaPc.caller, afterBegin, place] using hturn
              · rw [hbegin] at h
                cases h
                exact hrefused _
              · rw [hbegin] at h
                cases h
                exact hrefused _
              · rw [hbegin] at h hturn
                cases h
                refine owner_turn ?_ (fun y hy => ⟨rfl, caller_close hy⟩) x
                simpa [MediaPc.caller, afterBegin, place] using hturn
            · cases h
      | _ => cases h
  | call t origin stage => exact (taskStep_turn h).all x
  | joinOwner q g =>
      cases act with
      | go =>
          simp only [mediaStep, wakeOwner] at h
          obtain ⟨o, houtcome, h⟩ := Option.bind_eq_some_iff.mp h
          obtain ⟨close, hleave, h⟩ := Option.map_eq_some_iff.mp h
          cases h
          refine owner_turn ?_ (fun y hy => ⟨caller_joinOwner hy, rfl⟩) x
          simpa [MediaPc.caller] using Turn.wakes g o close houtcome hleave
      | _ => cases h
  | close q g stage => exact ownerStep_turn h x

/-- A step makes no coordinator for a task that is not made. -/
theorem mediaStep_unmade (hs : Ok s) (hA : At i s pc) (hunmade : Unmade s)
    (h : mediaStep errorName s i pc act = some (s', pc')) : Unmade s' := by
  have hmoves := mediaStep_cases h
  have hkeeps := (moves_good hs hA hmoves).keeps
  intro u hu
  have hbefore : (s.task u).parent = none := by
    cases hparent : (s.task u).parent with
    | none => rfl
    | some q =>
        have hmade := hkeeps.made u (by simp [hparent])
        simp [hu] at hmade
  have hsame := hunmade u hbefore
  cases pc with
  | idle raised =>
      cases hmoves with
      | started _ q t kind r hnew hopen =>
          by_cases hut : u = t
          · simp [hut] at hu
          · simpa [hut] using hsame
      | _ => exact hsame
  | call t origin stage =>
      have hut : u ≠ t := by
        rintro rfl
        simpa [hbefore] using hA.1
      exact ((taskStep_turn h).others u hut).trans hsame
  | joinOwner q g =>
      cases hmoves with
      | ownerWakes => exact hsame
  | close q g stage => cases hmoves <;> exact hsame

/-- The coordinators and the places of the threads keep the protocol. -/
structure Tracked (c : Config ι (MediaState T Q ι) (MediaPc T Q)) : Prop where
  unmade : Unmade c.shared
  follows : ∀ x, Follows (coordinator c.shared x) fun j => (c.pc j).caller x

variable [DecidableEq ι] {c c' : Config ι (MediaState T Q ι) (MediaPc T Q)}

/-- The other threads stay where they are. -/
theorem update_caller (pc : ι → MediaPc T Q) (i : ι) (p : MediaPc T Q) (x : T ⊕ Q) :
    (fun j => (Function.update pc i p j).caller x) =
      Function.update (fun j => (pc j).caller x) i (p.caller x) := by
  funext j
  by_cases hj : j = i
  · subst hj
    simp
  · simp [hj]

/-- **The run lemma**: every call follows the coordinators. -/
theorem reach_tracked (hc : (mediaCalls T Q ι errorName).machine.Reach c) :
    (Ok c.shared ∧ ∀ i, At i c.shared (c.pc i)) ∧ Tracked c := by
  have hcontrol : ∀ {c}, (mediaCalls T Q ι errorName).machine.Reach c →
      Ok c.shared ∧ ∀ i, At i c.shared (c.pc i) := fun hc =>
    (control errorName).reach (hc.mono fun _ l _ => by cases l <;> trivial)
  refine ⟨hcontrol hc, ?_⟩
  refine hc.invariant_of (fun _ hs => hcontrol hs) ?_ ?_
  · rintro c ⟨hstart, hpc⟩ -
    obtain ⟨shared, pc⟩ := c
    obtain rfl : shared = {} := hstart
    obtain rfl : pc = fun _ => .idle none := hpc
    refine ⟨fun _ _ => rfl, fun x => ?_⟩
    cases x with
    | inl t => exact follows_start
    | inr q => exact follows_start
  · rintro c (⟨i, act⟩ | e) c' ⟨hs, hA⟩ - htracked - hstep
    · obtain ⟨⟨s', pc'⟩, hnext, rfl⟩ := Option.map_eq_some_iff.mp hstep
      refine ⟨mediaStep_unmade hs (hA i) htracked.unmade hnext, fun x => ?_⟩
      rw [update_caller]
      exact (htracked.follows x).turn (mediaStep_turn htracked.unmade hnext x)
    · obtain ⟨s', hnext, rfl⟩ := Option.map_eq_some_iff.mp hstep
      obtain rfl := completeTask_cases hnext
      have hclose : ∀ u, ((c.shared.setTask e.task
          ((c.shared.task e.task).ends errorName e.code e.durationMs).1).task u).close =
          (c.shared.task u).close := by
        intro u
        by_cases hu : u = e.task
        · simp [hu, ends_close]
        · simp [hu]
      refine ⟨?_, ?_⟩
      · intro u hu
        rw [hclose]
        refine htracked.unmade u ?_
        by_cases hue : u = e.task
        · subst hue
          simpa [(TaskGood.ends errorName hs e.task e.code e.durationMs).parent] using hu
        · simpa [hue] using hu
      · intro x
        cases x with
        | inl u =>
            have hsame : coordinator _ (.inl u) = coordinator c.shared (.inl u) := hclose u
            rw [hsame]
            exact htracked.follows (.inl u)
        | inr q => exact htracked.follows (.inr q)

end Tirtc.Media
