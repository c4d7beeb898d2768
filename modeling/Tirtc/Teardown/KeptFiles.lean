import Tirtc.Teardown.MediaTasks

/-!
# Whose file a media task hands over

A teardown stops the tasks of its snapshot with the calls that the application has, and deletes what
it gets. A task that has come to its end is in no set any more, so a later snapshot does not have
it; but a task in the snapshot can be stopped by the application as well, and then both get the same
file.

* `Moves`, `mediaStep_cases`: the steps, inverted.
* `Finished`, `Ok`, `OwnerAt`, `At`, `Keeps`: the invariant of the tasks, what a thread knows, and
  what a step leaves to the others; `moves_good`, `control`: every step keeps it.
* `snapshots`, `appCalls`, `keepsApart`: the application and a teardown have no task in common.
* `Apart`: then no file is returned and deleted; `returned_kept`: the runs.
* `returned_deleted`: the run in which one is.
-/

set_option autoImplicit false
set_option linter.unusedSectionVars false

namespace Tirtc.Media

open Transition

variable {T Q ι : Type} [DecidableEq T] [DecidableEq Q]
  {s s' : MediaState T Q ι} {i : ι} {pc pc' : MediaPc T Q} {act : MediaAction T Q}

/-! ## The steps -/

/-- The stages before the task has left the set of its owner for good. -/
def TaskStage.plain : TaskStage → Bool
  | .succeed _ | .result | .delete => false
  | _ => true

/-- The stages from which the call can come to the file: it is through `begin`, and has not
failed. -/
def TaskStage.inside : TaskStage → Bool
  | .join _ | .stop _ | .report _ | .destroy _ | .finish _ | .succeed _ | .result => true
  | _ => false

/-- **What a step of thread `i` can do**, as far as the sets, the files and the coordinators are
concerned. -/
inductive Moves (s : MediaState T Q ι) (i : ι) :
    MediaPc T Q → MediaAction T Q → MediaState T Q ι → MediaPc T Q → Prop
  | refused (raised raised' : Option PyError) (act : MediaAction T Q) :
      Moves s i (.idle raised) act s (.idle raised')
  | started (raised : Option PyError) (q : Q) (t : T) (kind : MediaKind) (r : NativeResult) :
      (s.task t).parent = none → (s.owner q).close.status = .open →
      Moves s i (.idle raised) (.start q t kind r)
        ((s.setOwner q { s.owner q with tasks := insert t (s.owner q).tasks }).setTask t
          { kind := kind, parent := some q }) (.idle none)
  | stops (raised : Option PyError) (t : T) : (s.task t).parent.isSome = true →
      Moves s i (.idle raised) (.stop t false) s (.call t none (.begin true))
  | waits (raised : Option PyError) (t : T) (timed : Bool) : (s.task t).parent.isSome = true →
      Moves s i (.idle raised) (.wait t timed false) s (.call t none (.await timed))
  | goes (t : T) (origin : Origin T Q) (stage stage' : TaskStage) (act : MediaAction T Q) :
      stage'.plain = true → (stage'.inside = true → stage.inside = true) →
      Moves s i (.call t origin stage) act s (.call t origin stage')
  | begins (t : T) (origin : Origin T Q) (stops : Bool) (close : CloseCoordinator)
      (stage : TaskStage) : close.outcomes = (s.task t).close.outcomes →
      close.status = .closing → stage.plain = true →
      Moves s i (.call t origin (.begin stops)) .go
        (s.setTask t { s.task t with close := close }) (.call t origin stage)
  | finds (t : T) (origin : Origin T Q) (stops : Bool) : (s.task t).close.status = .closed →
      Moves s i (.call t origin (.begin stops)) .go s (.call t origin .result)
  | wakes (t : T) (origin : Origin T Q) (g : ℕ) (close : CloseCoordinator) (stage : TaskStage) :
      close.status = (s.task t).close.status →
      (∀ h o, close.outcomes h = some o → (s.task t).close.outcomes h = some o) →
      (stage.plain = true ∨ (s.task t).close.outcomes g = some none) →
      Moves s i (.call t origin (.join g)) .go (s.setTask t { s.task t with close := close })
        (.call t origin stage)
  | ends (t : T) (origin : Origin T Q) (g : ℕ) (r : NativeResult) (errorName : ℤ → String)
      (code durationMs : ℤ) (stage : TaskStage) : Teardown.retryInUseResult r = .ok code →
      stage.plain = true →
      Moves s i (.call t origin (.stop g)) (.stopped r durationMs)
        (s.setTask t ((s.task t).ends errorName code durationMs).1) (.call t origin stage)
  | loads (t : T) (origin : Origin T Q) (g : ℕ) (act : MediaAction T Q) (loaded : Bool)
      (stage : TaskStage) : stage.plain = true →
      Moves s i (.call t origin (.report g)) act
        (s.setTask t { s.task t with report := loaded }) (.call t origin stage)
  | finishes (t : T) (origin : Origin T Q) (g : ℕ) :
      Moves s i (.call t origin (.finish g)) .go (s.finish t) (.call t origin (.succeed g))
  | succeeds (t : T) (origin : Origin T Q) (g : ℕ) :
      Moves s i (.call t origin (.succeed g)) .go
        (s.setTask t { s.task t with close := (s.task t).close.succeed g (s.task t).error })
        (.call t origin .result)
  | fails (t : T) (origin : Origin T Q) (g : ℕ) (e : PyError) :
      Moves s i (.call t origin (.fail g e)) .go
        (s.setTask t { s.task t with close := (s.task t).close.fail g e })
        (.call t origin (.raised e))
  | returns (t : T) :
      Moves s i (.call t none .result) .go (s.setTask t { s.task t with returned := true })
        (.idle none)
  | gets (t : T) (back : Q × ℕ × List T) :
      Moves s i (.call t (some back) .result) .go s (.call t (some back) .delete)
  | raises (t : T) (e : PyError) :
      Moves s i (.call t none (.raised e)) .go s (.idle (some e))
  | passes (t : T) (q : Q) (g : ℕ) (rest : List T) (e : PyError) :
      Moves s i (.call t (some (q, g, rest)) (.raised e)) .go
        (s.setOwner q { s.owner q with remaining := rest }) (.close q g (.tasks rest))
  | ownerRaises (t : T) (q : Q) (g : ℕ) (rest : List T) (stage : TaskStage) (act : MediaAction T Q)
      (e : PyError) :
      Moves s i (.call t (some (q, g, rest)) stage) act s (.close q g (.fail e))
  | deletes (t : T) (q : Q) (g : ℕ) (rest : List T) (act : MediaAction T Q) :
      Moves s i (.call t (some (q, g, rest)) .delete) act
        ((s.setTask t { s.task t with deleted := true }).setOwner q
          { s.owner q with remaining := rest }) (.close q g (.tasks rest))
  | deleteRaises (t : T) (q : Q) (g : ℕ) (rest : List T) (act : MediaAction T Q) (e : PyError) :
      Moves s i (.call t (some (q, g, rest)) .delete) act
        (s.setTask t { s.task t with deleted := true }) (.close q g (.fail e))
  | ownerJoins (raised : Option PyError) (q : Q) (order : List T) (callback : Bool) (g : ℕ)
      (close : CloseCoordinator) : close.status = (s.owner q).close.status →
      Moves s i (.idle raised) (.close q order callback)
        (s.setOwner q { s.owner q with close := close }) (.joinOwner q g)
  | ownerWakes (q : Q) (g : ℕ) (close : CloseCoordinator) (raised : Option PyError) :
      close.status = (s.owner q).close.status →
      Moves s i (.joinOwner q g) .go (s.setOwner q { s.owner q with close := close })
        (.idle raised)
  | ownerCloses (raised : Option PyError) (q : Q) (order : List T) (g : ℕ)
      (close : CloseCoordinator) : order.toFinset = (s.owner q).tasks →
      ((s.owner q).close.status = .open ∨ (s.owner q).close.status = .closeFailed) →
      close.status = .closing →
      Moves s i (.idle raised) (.close q order false)
        (s.setOwner q { s.owner q with close := close, closer := some i, remaining := order })
        (.close q g (.tasks order))
  | takes (q : Q) (g : ℕ) (t : T) (rest : List T) (stage : TaskStage) : stage.plain = true →
      Moves s i (.close q g (.tasks (t :: rest))) .go s (.call t (some (q, g, rest)) stage)
  | ownerFails (q : Q) (g : ℕ) (rest : List T) (act : MediaAction T Q) (e : PyError) :
      Moves s i (.close q g (.tasks rest)) act s (.close q g (.fail e))
  | ownerDestroyed (q : Q) (g : ℕ) (act : MediaAction T Q) :
      Moves s i (.close q g (.tasks [])) act s (.close q g .succeed)
  | ownerClosed (q : Q) (g : ℕ) (childError : Option PyError) :
      Moves s i (.close q g .succeed) (.report childError)
        (s.setOwner q { s.owner q with
          close := (s.owner q).close.succeed g childError
          closer := none }) (.idle childError)
  | ownerFailed (q : Q) (g : ℕ) (e : PyError) :
      Moves s i (.close q g (.fail e)) .go
        (s.setOwner q { s.owner q with
          close := (s.owner q).close.fail g e
          closer := none
          remaining := [] }) (.idle (some e))

variable {errorName : ℤ → String}

/-- A call that a teardown has made raises. -/
theorem raisedInTeardown_cases (t : T) (q : Q) (g : ℕ) (rest : List T) (e : PyError) :
    raisedInTeardown s t q g rest e =
        (s.setOwner q { s.owner q with remaining := rest }, .close q g (.tasks rest)) ∨
      raisedInTeardown s t q g rest e = (s, .close q g (.fail e)) := by
  cases e with
  | tirtc e =>
      simp only [raisedInTeardown]
      split
      · exact .inl rfl
      · exact .inr rfl
  | other k => exact .inr rfl

/-- What the performer does first is plain. -/
theorem performs_plain (x : MediaTask Q) (stops : Bool) (g : ℕ) :
    (performs x stops g).plain = true := by
  unfold performs
  split
  · split <;> rfl
  · split <;> rfl

/-- **The stages of a call on a task, inverted.** -/
theorem taskStep_cases {t : T} {origin : Origin T Q} {stage : TaskStage}
    (h : taskStep errorName s t origin stage act = some (s', pc')) :
    Moves s i (.call t origin stage) act s' pc' := by
  cases stage with
  | terminal =>
      cases act with
      | go =>
          cases origin with
          | some back =>
              simp only [taskStep] at h
              split at h
              · cases h
                exact .goes t _ _ _ _ rfl (by simp [TaskStage.inside])
              · split at h
                · cases h
                  exact .ownerRaises t _ _ _ _ _ _
                · cases h
                  exact .goes t _ _ _ _ rfl (by simp [TaskStage.inside])
          | none => cases h
      | _ => cases h
  | cancel =>
      cases act with
      | native r =>
          cases origin with
          | some back =>
              simp only [taskStep] at h
              split at h
              · cases h
                exact .ownerRaises t _ _ _ _ _ _
              · cases h
                exact .goes t _ _ _ _ rfl (by simp [TaskStage.inside])
          | none => cases h
      | _ => cases h
  | await timed =>
      cases act with
      | go =>
          simp only [taskStep] at h
          split at h
          · cases h
            exact .goes t _ _ _ _ rfl (by simp [TaskStage.inside])
          · cases h
      | timeout =>
          simp only [taskStep] at h
          split at h
          · cases h
            exact .goes t _ _ _ _ rfl (by simp [TaskStage.inside])
          · cases h
      | _ => cases h
  | begin stops =>
      cases act with
      | go =>
          simp only [taskStep] at h
          rcases (s.task t).close.begin_cases false with ⟨hst, hbegin⟩ | ⟨hst, hbegin⟩ |
            ⟨hst, hbegin⟩ | ⟨hst, hbegin⟩
          all_goals
            rw [hbegin] at h
            cases h
          · exact .begins t origin stops _ _ rfl hst rfl
          · exact .finds t origin stops hst
          · exact .goes t _ _ _ _ rfl (by simp [TaskStage.inside])
          · exact .begins t origin stops _ _ rfl rfl (performs_plain _ _ _)
      | _ => cases h
  | join g =>
      cases act with
      | go =>
          simp only [taskStep] at h
          obtain ⟨error, herror, h⟩ := Option.bind_eq_some_iff.mp h
          obtain ⟨close, hleave, h⟩ := Option.map_eq_some_iff.mp h
          cases h
          have hstatus := ((s.task t).close.leave_spec hleave).1
          refine .wakes t origin g close _ hstatus
            (fun k o ho => (s.task t).close.leave_outcome hleave ho) ?_
          cases error with
          | none => exact .inr herror
          | some e => exact .inl rfl
      | _ => cases h
  | stop g =>
      cases act with
      | stopped r durationMs =>
          simp only [taskStep] at h
          split at h
          · cases h
            exact .goes t _ _ _ _ rfl (by simp [TaskStage.inside])
          next code hcode =>
            cases h
            refine .ends t origin g r _ _ _ _ hcode ?_
            split
            · rfl
            · split <;> rfl
      | _ => cases h
  | report g =>
      cases act with
      | loads report progress value =>
          simp only [taskStep] at h
          split at h
          · cases h
          · obtain ⟨loaded, hloads⟩ := (s.task t).loads_eq errorName report progress value
            rw [hloads] at h
            cases h
            refine .loads t origin g _ loaded _ ?_
            split <;> rfl
      | go =>
          simp only [taskStep] at h
          split at h
          · cases h
            exact .goes t _ _ _ _ rfl (by simp [TaskStage.inside])
          · cases h
      | _ => cases h
  | destroy g =>
      cases act with
      | native r =>
          simp only [taskStep] at h
          split at h
          · cases h
            exact .goes t _ _ _ _ rfl (by simp [TaskStage.inside])
          · cases h
            exact .goes t _ _ _ _ rfl (by simp [TaskStage.inside])
      | _ => cases h
  | finish g =>
      cases act with
      | go =>
          cases h
          exact .finishes t origin g
      | _ => cases h
  | succeed g =>
      cases act with
      | go =>
          cases h
          exact .succeeds t origin g
      | _ => cases h
  | fail g e =>
      cases act with
      | go =>
          cases h
          exact .fails t origin g e
      | _ => cases h
  | result =>
      cases act with
      | go =>
          simp only [taskStep] at h
          split at h
          · cases h
            exact .goes t _ _ _ _ rfl (by simp [TaskStage.inside])
          · split at h
            · cases h
              exact .returns t
            · cases h
              exact .gets t _
          · cases h
            exact .goes t _ _ _ _ rfl (by simp [TaskStage.inside])
      | _ => cases h
  | raised e =>
      cases act with
      | go =>
          simp only [taskStep] at h
          split at h
          · cases h
            exact .raises t e
          next q g rest =>
            rcases raisedInTeardown_cases (s := s) t q g rest e with hraised | hraised
            · rw [hraised] at h
              cases h
              exact .passes t q g rest e
            · rw [hraised] at h
              cases h
              exact .ownerRaises t q g rest _ _ _
      | _ => cases h
  | delete =>
      cases act with
      | native r =>
          cases origin with
          | some back =>
              simp only [taskStep] at h
              split at h
              · cases h
                exact .deleteRaises t _ _ _ _ _
              · cases h
                exact .deletes t _ _ _ _
          | none => cases h
      | _ => cases h

/-- The stages of the close of an owner, inverted. -/
theorem ownerStep_cases {q : Q} {g : ℕ} {stage : OwnerStage T}
    (h : ownerStep errorName s q g stage act = some (s', pc')) :
    Moves s i (.close q g stage) act s' pc' := by
  cases stage with
  | tasks rest =>
      cases act with
      | go =>
          cases rest with
          | nil => cases h
          | cons t rest =>
              simp only [ownerStep] at h
              split at h
              · cases h
                exact .takes q g t rest _ rfl
              · cases h
                exact .takes q g t rest _ rfl
      | native r =>
          cases rest with
          | nil =>
              simp only [ownerStep] at h
              split at h
              · cases h
                exact .ownerFails q g _ _ _
              · cases h
                exact .ownerDestroyed q g _
          | cons t rest => cases h
      | raises e =>
          cases rest with
          | nil =>
              cases h
              exact .ownerFails q g _ _ _
          | cons t rest =>
              cases h
              exact .ownerFails q g _ _ _
      | _ =>
          cases rest with
          | nil => cases h
          | cons t rest => cases h
  | succeed =>
      cases act with
      | report childError =>
          cases h
          exact .ownerClosed q g childError
      | _ => cases h
  | fail e =>
      cases act with
      | go =>
          cases h
          exact .ownerFailed q g e
      | _ => cases h

/-- **The steps, inverted.** -/
theorem mediaStep_cases (h : mediaStep errorName s i pc act = some (s', pc')) :
    Moves s i pc act s' pc' := by
  cases pc with
  | idle raised =>
      cases act with
      | start q t kind r =>
          simp only [mediaStep, startTask] at h
          split at h
          · cases h
          next hnew =>
            split at h
            · cases h
              exact .refused _ _ _
            next hopen =>
              split at h
              · cases h
                exact .refused _ _ _
              · cases h
                exact .started raised q t kind r (by simpa using hnew)
                  (CloseCoordinator.requireOpen_eq_none.mp hopen)
      | stop t callback =>
          simp only [mediaStep, stopBegin] at h
          split at h
          · cases h
          next hmade =>
            split at h
            · cases h
              exact .refused _ _ _
            next hcallback =>
              cases h
              obtain rfl := (Bool.not_eq_true callback).mp hcallback
              exact .stops raised t (by simpa [← Option.isSome_iff_ne_none] using hmade)
      | wait t timed callback =>
          simp only [mediaStep, waitBegin] at h
          split at h
          · cases h
          next hmade =>
            split at h
            · cases h
              exact .refused _ _ _
            next hcallback =>
              cases h
              obtain rfl := (Bool.not_eq_true callback).mp hcallback
              rw [not_or] at hmade
              exact .waits raised t timed (by
                simpa [← Option.isSome_iff_ne_none] using hmade.1)
      | close q order callback =>
          simp only [mediaStep, closeBegin] at h
          split at h
          · cases h
            exact .refused _ _ _
          next hcallback =>
            obtain rfl := (Bool.not_eq_true callback).mp hcallback
            split at h
            next horder =>
              rcases (s.owner q).close.begin_cases false with ⟨hst, hbegin⟩ | ⟨hst, hbegin⟩ |
                ⟨hst, hbegin⟩ | ⟨hst, hbegin⟩
              all_goals
                rw [hbegin] at h
                cases h
              · exact .ownerJoins raised q order false _ _ rfl
              · exact .refused _ _ _
              · exact .refused _ _ _
              · exact .ownerCloses raised q order _ _ horder.2 hst rfl
            next => cases h
      | _ => cases h
  | call t origin stage => exact taskStep_cases h
  | joinOwner q g =>
      cases act with
      | go =>
          simp only [mediaStep, wakeOwner] at h
          obtain ⟨error, -, h⟩ := Option.bind_eq_some_iff.mp h
          obtain ⟨close, hleave, h⟩ := Option.map_eq_some_iff.mp h
          cases h
          exact .ownerWakes q g close _ ((s.owner q).close.leave_spec hleave).1
      | _ => cases h
  | close q g stage => exact ownerStep_cases h

/-- The completion of a task, inverted. -/
theorem completeTask_cases {e : Completion T} (h : completeTask errorName s e = some s') :
    s' = s.setTask e.task ((s.task e.task).ends errorName e.code e.durationMs).1 := by
  simp only [completeTask] at h
  split at h
  · exact (Option.some.inj h).symm
  · cases h

/-! ## The invariant of the tasks -/

/-- The task is in no set any more, and stays out. -/
def Finished (s : MediaState T Q ι) (t : T) : Prop :=
  (s.task t).parent.isSome = true ∧ ∀ q, t ∉ (s.owner q).tasks

/-- **A task with an outcome has left**: one that is closed, one whose file has been returned, and
one whose close has succeeded for a thread that waits. -/
structure Ok (s : MediaState T Q ι) : Prop where
  member : ∀ q t, t ∈ (s.owner q).tasks → (s.task t).parent = some q
  remaining : ∀ q t, t ∈ (s.owner q).remaining → (s.task t).parent.isSome = true
  closed : ∀ t, (s.task t).close.status = .closed → Finished s t
  outcome : ∀ t g, (s.task t).close.outcomes g = some none → Finished s t
  returned : ∀ t, (s.task t).returned = true → Finished s t
  parentFinished : ∀ t, (s.task t).parentFinished = true → Finished s t

/-- What thread `i`, which tears an owner down, knows of it. -/
def OwnerAt (i : ι) (x : TaskOwner T ι) (rest : Option (List T)) : Prop :=
  x.closer = some i ∧ x.close.status = .closing ∧ ∀ l, rest = some l → x.remaining = l

/-- What thread `i` knows at its place. -/
def At (i : ι) (s : MediaState T Q ι) : MediaPc T Q → Prop
  | .idle _ | .joinOwner _ _ => True
  | .call t origin stage =>
      (s.task t).parent.isSome = true ∧ (stage.plain = false → Finished s t) ∧
        ∀ q g rest, origin = some (q, g, rest) → OwnerAt i (s.owner q) (some (t :: rest))
  | .close q _ (.tasks rest) => OwnerAt i (s.owner q) (some rest)
  | .close q _ .succeed => OwnerAt i (s.owner q) (some [])
  | .close q _ (.fail _) => OwnerAt i (s.owner q) none

/-- **What a step of `k` leaves to the others**: the tasks that have been made, those that have
left, and the teardowns of other threads. -/
structure Keeps (k : Option ι) (s s' : MediaState T Q ι) : Prop where
  made : ∀ t, (s.task t).parent.isSome = true → (s'.task t).parent.isSome = true
  finished : ∀ t, Finished s t → Finished s' t
  closer : ∀ q j, k ≠ some j → (s.owner q).closer = some j → (s.owner q).close.status = .closing →
    (s'.owner q).closer = some j ∧ (s'.owner q).close.status = .closing ∧
      (s'.owner q).remaining = (s.owner q).remaining

theorem Keeps.refl (k : Option ι) (s : MediaState T Q ι) : Keeps k s s where
  made _ h := h
  finished _ h := h
  closer _ _ _ h h' := ⟨h, h', rfl⟩

/-- What a thread that tears an owner down knows, no other thread takes back. -/
theorem OwnerAt.stable {j : ι} {k : Option ι} {q : Q} {rest : Option (List T)} (hk : k ≠ some j)
    (h : Keeps k s s') (hA : OwnerAt j (s.owner q) rest) : OwnerAt j (s'.owner q) rest := by
  obtain ⟨hcloser, hstatus, hrest⟩ := hA
  obtain ⟨hcloser', hstatus', hremaining⟩ := h.closer q j hk hcloser hstatus
  exact ⟨hcloser', hstatus', fun l hl => hremaining.trans (hrest l hl)⟩

/-- What a thread knows, no other thread takes back. -/
theorem At.stable {j : ι} {k : Option ι} (hk : k ≠ some j) (h : Keeps k s s') (hA : At j s pc) :
    At j s' pc := by
  cases pc with
  | idle _ | joinOwner _ _ => trivial
  | call t origin stage =>
      obtain ⟨hmade, hfinished, howner⟩ := hA
      exact ⟨h.made t hmade, fun hstage => h.finished t (hfinished hstage),
        fun q g rest horigin => (howner q g rest horigin).stable hk h⟩
  | close q g stage =>
      cases stage with
      | tasks _ | succeed | fail _ => exact OwnerAt.stable hk h hA

/-! ## Every step keeps it -/

/-- What a step of `k` on task `t` alone owes. -/
structure TaskGood (s : MediaState T Q ι) (t : T) (x : MediaTask Q) : Prop where
  parent : x.parent = (s.task t).parent
  closed : x.close.status = .closed → Finished s t
  outcome : ∀ g, x.close.outcomes g = some none → Finished s t
  returned : x.returned = true → Finished s t
  parentFinished : x.parentFinished = true → Finished s t

/-- A step that leaves the coordinator and the history alone. -/
theorem TaskGood.same (hs : Ok s) (t : T) {x : MediaTask Q}
    (hparent : x.parent = (s.task t).parent) (hclose : x.close = (s.task t).close)
    (hreturned : x.returned = (s.task t).returned)
    (hfinished : x.parentFinished = (s.task t).parentFinished) : TaskGood s t x where
  parent := hparent
  closed h := hs.closed t (hclose ▸ h)
  outcome g h := hs.outcome t g (hclose ▸ h)
  returned h := hs.returned t (hreturned ▸ h)
  parentFinished h := hs.parentFinished t (hfinished ▸ h)

/-- A step on the coordinator that only a thread behind the end of the task completes. -/
theorem TaskGood.ofClose (hs : Ok s) (t : T) {close : CloseCoordinator}
    (hclosed : close.status = .closed → Finished s t)
    (houtcome : ∀ g, close.outcomes g = some none → Finished s t) :
    TaskGood s t { s.task t with close := close } where
  parent := rfl
  closed := hclosed
  outcome := houtcome
  returned := hs.returned t
  parentFinished := hs.parentFinished t

/-- A task that comes to its end. -/
theorem TaskGood.ends (errorName : ℤ → String) (hs : Ok s) (t : T) (code durationMs : ℤ) :
    TaskGood s t ((s.task t).ends errorName code durationMs).1 := by
  obtain ⟨stopped, done, file, error, h⟩ := (s.task t).ends_eq errorName code durationMs
  rw [h]
  exact .same hs t rfl rfl rfl rfl

/-- Who has left is the same after a step on a task. -/
theorem finished_setTask {t : T} {x : MediaTask Q} (hparent : x.parent = (s.task t).parent)
    (u : T) :
    Finished (s.setTask t x) u ↔ Finished s u := by
  by_cases hu : u = t
  · subst hu
    simp [Finished, hparent]
  · simp [Finished, hu]

/-- A step on a task keeps the invariant. -/
theorem Ok.setTask {t : T} {x : MediaTask Q} (hs : Ok s) (hx : TaskGood s t x) :
    Ok (s.setTask t x) where
  member q u h := by
    by_cases hu : u = t
    · subst hu
      simpa [hx.parent] using hs.member q u h
    · simpa [hu] using hs.member q u h
  remaining q u h := by
    by_cases hu : u = t
    · subst hu
      simpa [hx.parent] using hs.remaining q u h
    · simpa [hu] using hs.remaining q u h
  closed u h := by
    rw [finished_setTask hx.parent]
    by_cases hu : u = t
    · subst hu
      exact hx.closed (by simpa using h)
    · exact hs.closed u (by simpa [hu] using h)
  outcome u g h := by
    rw [finished_setTask hx.parent]
    by_cases hu : u = t
    · subst hu
      exact hx.outcome g (by simpa using h)
    · exact hs.outcome u g (by simpa [hu] using h)
  returned u h := by
    rw [finished_setTask hx.parent]
    by_cases hu : u = t
    · subst hu
      exact hx.returned (by simpa using h)
    · exact hs.returned u (by simpa [hu] using h)
  parentFinished u h := by
    rw [finished_setTask hx.parent]
    by_cases hu : u = t
    · subst hu
      exact hx.parentFinished (by simpa using h)
    · exact hs.parentFinished u (by simpa [hu] using h)

/-- It leaves everything to the others. -/
theorem Keeps.ofTask {t : T} {x : MediaTask Q} (k : Option ι)
    (hparent : x.parent = (s.task t).parent) : Keeps k s (s.setTask t x) where
  made u h := by
    by_cases hu : u = t
    · subst hu
      simpa [hparent] using h
    · simpa [hu] using h
  finished u h := (finished_setTask hparent u).mpr h
  closer _ _ _ h h' := ⟨h, h', rfl⟩

/-- Who has left is out as well when a set gets smaller. -/
theorem Finished.setOwner {q : Q} {x : TaskOwner T ι} {t : T} (h : Finished s t)
    (htasks : x.tasks ⊆ (s.owner q).tasks) : Finished (s.setOwner q x) t := by
  refine ⟨h.1, fun r ht => ?_⟩
  by_cases hr : r = q
  · subst hr
    exact h.2 r (htasks (by simpa using ht))
  · exact h.2 r (by simpa [hr] using ht)

/-- A step on an owner that adds no task keeps the invariant. -/
theorem Ok.setOwner {q : Q} {x : TaskOwner T ι} (hs : Ok s)
    (htasks : x.tasks ⊆ (s.owner q).tasks)
    (hremaining : ∀ t ∈ x.remaining, (s.task t).parent.isSome = true) :
    Ok (s.setOwner q x) where
  member r t h := by
    by_cases hr : r = q
    · subst hr
      exact hs.member r t (htasks (by simpa using h))
    · exact hs.member r t (by simpa [hr] using h)
  remaining r t h := by
    by_cases hr : r = q
    · subst hr
      exact hremaining t (by simpa using h)
    · exact hs.remaining r t (by simpa [hr] using h)
  closed t h := (hs.closed t h).setOwner htasks
  outcome t g h := (hs.outcome t g h).setOwner htasks
  returned t h := (hs.returned t h).setOwner htasks
  parentFinished t h := (hs.parentFinished t h).setOwner htasks

/-- A step of the thread that tears the owner down leaves the rest to the others, and so does one
that leaves the teardown alone. -/
theorem Keeps.ofOwner {q : Q} {x : TaskOwner T ι} {k : Option ι}
    (htasks : x.tasks ⊆ (s.owner q).tasks)
    (hcloser : ∀ j, k ≠ some j → (s.owner q).closer = some j →
      (s.owner q).close.status = .closing →
      x.closer = some j ∧ x.close.status = .closing ∧ x.remaining = (s.owner q).remaining) :
    Keeps k s (s.setOwner q x) where
  made _ h := h
  finished t h := h.setOwner htasks
  closer r j hk h h' := by
    by_cases hr : r = q
    · subst hr
      simpa using hcloser j hk h h'
    · simpa [hr] using And.intro h h'

/-- Two steps in one. -/
theorem Keeps.trans {k : Option ι} {r : MediaState T Q ι} (h : Keeps k s r) (h' : Keeps k r s') :
    Keeps k s s' where
  made t ht := h'.made t (h.made t ht)
  finished t ht := h'.finished t (h.finished t ht)
  closer q j hk hcloser hstatus := by
    obtain ⟨hcloser', hstatus', hrest'⟩ := h.closer q j hk hcloser hstatus
    obtain ⟨hcloser'', hstatus'', hrest''⟩ := h'.closer q j hk hcloser' hstatus'
    exact ⟨hcloser'', hstatus'', hrest''.trans hrest'⟩

/-- What a step of thread `i` to `pc` owes. -/
structure Good (i : ι) (s s' : MediaState T Q ι) (pc : MediaPc T Q) : Prop where
  ok : Ok s'
  here : At i s' pc
  keeps : Keeps (some i) s s'

/-- A step that leaves the records alone. -/
theorem Good.same (hs : Ok s) (hA : At i s pc) : Good i s s pc := ⟨hs, hA, .refl _ _⟩

/-- What a thread knows of an owner after a step on a task. -/
theorem At.setTask {t : T} {x : MediaTask Q} (hparent : x.parent = (s.task t).parent)
    (hA : At i s pc) : At i (s.setTask t x) pc := by
  have hmade : ∀ u, ((s.setTask t x).task u).parent = (s.task u).parent := by
    intro u
    by_cases hu : u = t
    · subst hu
      simpa using hparent
    · simp [hu]
  cases pc with
  | idle _ | joinOwner _ _ => trivial
  | call u origin stage =>
      obtain ⟨hu, hfinished, howner⟩ := hA
      exact ⟨by rw [hmade]; exact hu, fun h => (finished_setTask hparent u).mpr (hfinished h),
        howner⟩
  | close q g stage =>
      cases stage with
      | tasks _ | succeed | fail _ => exact hA

/-- A step on one task. -/
theorem Good.ofTask {t : T} {x : MediaTask Q} (hs : Ok s) (hx : TaskGood s t x)
    (hA : At i s pc) : Good i s (s.setTask t x) pc :=
  ⟨hs.setTask hx, hA.setTask hx.parent, .ofTask _ hx.parent⟩

/-- A step on one owner that adds no task, by a thread that does not tear it down. -/
theorem Good.ofCloser {q : Q} {close : CloseCoordinator} (hs : Ok s)
    (hclose : close.status = (s.owner q).close.status)
    (hA : At i (s.setOwner q { s.owner q with close := close }) pc) :
    Good i s (s.setOwner q { s.owner q with close := close }) pc where
  ok := hs.setOwner (Finset.Subset.refl _) (hs.remaining q)
  here := hA
  keeps := .ofOwner (Finset.Subset.refl _) fun _ _ h h' => ⟨h, hclose.trans h', rfl⟩

/-- A step of the thread that tears the owner down. -/
theorem Good.ofOwner {q : Q} {x : TaskOwner T ι} {rest : Option (List T)} (hs : Ok s)
    (howner : OwnerAt i (s.owner q) rest) (htasks : x.tasks = (s.owner q).tasks)
    (hremaining : ∀ t ∈ x.remaining, t ∈ (s.owner q).remaining)
    (hA : At i (s.setOwner q x) pc) : Good i s (s.setOwner q x) pc where
  ok := hs.setOwner htasks.subset fun t ht => hs.remaining q t (hremaining t ht)
  here := hA
  keeps := .ofOwner htasks.subset fun _ hk h _ =>
    absurd (congrArg some (Option.some.inj (howner.1.symm.trans h))) hk

/-- A new task. -/
theorem good_started {q : Q} {t : T} {kind : MediaKind} {raised : Option PyError} (hs : Ok s)
    (hnew : (s.task t).parent = none) :
    Good i s ((s.setOwner q { s.owner q with tasks := insert t (s.owner q).tasks }).setTask t
      { kind := kind, parent := some q }) (.idle raised) := by
  have hfinished : ∀ u, Finished s u → Finished
      ((s.setOwner q { s.owner q with tasks := insert t (s.owner q).tasks }).setTask t
        { kind := kind, parent := some q }) u := by
    rintro u ⟨hmade, hout⟩
    have hu : u ≠ t := by
      rintro rfl
      simp [hnew] at hmade
    refine ⟨by simpa [hu] using hmade, fun r hr => hout r ?_⟩
    by_cases hrq : r = q
    · subst hrq
      simpa [hu] using hr
    · simpa [hrq] using hr
  refine ⟨⟨?_, ?_, ?_, ?_, ?_, ?_⟩, trivial, ⟨?_, hfinished, ?_⟩⟩
  · intro r u h
    by_cases hrq : r = q
    · subst hrq
      by_cases hu : u = t
      · simp [hu]
      · simpa [hu] using hs.member r u (by simpa [hu] using h)
    · have hold : u ∈ (s.owner r).tasks := by simpa [hrq] using h
      have hu : u ≠ t := by
        rintro rfl
        rw [hs.member r u hold] at hnew
        cases hnew
      simpa [hu] using hs.member r u hold
  · intro r u h
    have hold : u ∈ (s.owner r).remaining := by
      by_cases hrq : r = q
      · subst hrq
        simpa using h
      · simpa [hrq] using h
    by_cases hu : u = t
    · simp [hu]
    · simpa [hu] using hs.remaining r u hold
  · intro u h
    by_cases hu : u = t
    · simp [hu] at h
    · exact hfinished u (hs.closed u (by simpa [hu] using h))
  · intro u g h
    by_cases hu : u = t
    · simp [hu] at h
    · exact hfinished u (hs.outcome u g (by simpa [hu] using h))
  · intro u h
    by_cases hu : u = t
    · simp [hu] at h
    · exact hfinished u (hs.returned u (by simpa [hu] using h))
  · intro u h
    by_cases hu : u = t
    · simp [hu] at h
    · exact hfinished u (hs.parentFinished u (by simpa [hu] using h))
  · intro u h
    by_cases hu : u = t
    · simp [hu]
    · simpa [hu] using h
  · intro r j _ h h'
    by_cases hrq : r = q
    · subst hrq
      simpa using And.intro h h'
    · simpa [hrq] using And.intro h h'

/-- **A task leaves the set** of its owner, and is in no other; the teardowns go on. -/
theorem finish_spec {t : T} (hs : Ok s) (hmade : (s.task t).parent.isSome = true) :
    Ok (s.finish t) ∧ Finished (s.finish t) t ∧ ∀ k, Keeps k s (s.finish t) := by
  obtain ⟨q, hparent⟩ := Option.isSome_iff_exists.mp hmade
  cases hleft : (s.task t).parentFinished with
  | true =>
      have heq : s.finish t = s := by simp [MediaState.finish, hleft]
      rw [heq]
      exact ⟨hs, hs.parentFinished t hleft, fun _ => .refl _ _⟩
  | false =>
      have heq : s.finish t =
          (s.setOwner q { s.owner q with tasks := (s.owner q).tasks.erase t }).setTask t
            { s.task t with parentFinished := true } := by
        simp [MediaState.finish, hleft, hparent]
      have hsub : (s.owner q).tasks.erase t ⊆ (s.owner q).tasks := Finset.erase_subset _ _
      have hok : Ok (s.setOwner q { s.owner q with tasks := (s.owner q).tasks.erase t }) :=
        hs.setOwner hsub (hs.remaining q)
      have hout : Finished
          (s.setOwner q { s.owner q with tasks := (s.owner q).tasks.erase t }) t := by
        refine ⟨hmade, fun r hr => ?_⟩
        by_cases hrq : r = q
        · subst hrq
          simp at hr
        · -- the parent is the only owner whose set can have it
          have hother := hs.member r t (by simpa [hrq] using hr)
          rw [hparent] at hother
          exact hrq (Option.some.inj hother).symm
      have hgood : TaskGood (s.setOwner q { s.owner q with tasks := (s.owner q).tasks.erase t }) t
          { s.task t with parentFinished := true } :=
        ⟨rfl, hok.closed t, fun g => hok.outcome t g, hok.returned t, fun _ => hout⟩
      have hkeeps : ∀ k, Keeps k s
          (s.setOwner q { s.owner q with tasks := (s.owner q).tasks.erase t }) :=
        fun k => .ofOwner hsub fun _ _ h h' => ⟨h, h', rfl⟩
      rw [heq]
      exact ⟨hok.setTask hgood, (finished_setTask hgood.parent t).mpr hout,
        fun k => (hkeeps k).trans (.ofTask k hgood.parent)⟩

/-- What the thread that tears an owner down knows when the next task has been dealt with. -/
theorem OwnerAt.next {q : Q} {t : T} {rest : List T}
    (h : OwnerAt i (s.owner q) (some (t :: rest))) :
    OwnerAt i { s.owner q with remaining := rest } (some rest) :=
  ⟨h.1, h.2.1, fun _ hl => Option.some.inj hl⟩

/-- A task has been dealt with. -/
theorem Good.next {q : Q} {g : ℕ} {t : T} {rest : List T} (hs : Ok s)
    (h : OwnerAt i (s.owner q) (some (t :: rest))) :
    Good i s (s.setOwner q { s.owner q with remaining := rest }) (.close q g (.tasks rest)) := by
  refine .ofOwner hs h rfl ?_ ?_
  · intro u hu
    rw [h.2.2 _ rfl]
    exact List.mem_cons_of_mem t hu
  · simpa [At] using h.next

/-- **Every step keeps it.** -/
theorem moves_good (hs : Ok s) (hA : At i s pc) (h : Moves s i pc act s' pc') :
    Good i s s' pc' := by
  cases h with
  | refused raised raised' => exact .same hs trivial
  | started raised q t kind r hnew hopen => exact good_started hs hnew
  | stops raised t hmade => exact .same hs ⟨hmade, nofun, nofun⟩
  | waits raised t timed hmade => exact .same hs ⟨hmade, nofun, nofun⟩
  | goes t origin stage stage' act hplain hinside =>
      refine .same hs ⟨hA.1, fun hstage => ?_, hA.2.2⟩
      rw [hplain] at hstage
      cases hstage
  | begins t origin stops close stage houtcomes hstatus hplain =>
      refine .ofTask hs (.ofClose hs t ?_ ?_) ⟨hA.1, ?_, hA.2.2⟩
      · intro h
        rw [hstatus] at h
        cases h
      · intro g h
        exact hs.outcome t g (houtcomes ▸ h)
      · intro hstage
        rw [hplain] at hstage
        cases hstage
  | finds t origin stops hclosed =>
      exact .same hs ⟨hA.1, fun _ => hs.closed t hclosed, hA.2.2⟩
  | wakes t origin g close stage hstatus houtcomes hstage =>
      refine .ofTask hs (.ofClose hs t (fun h => hs.closed t (hstatus ▸ h)) fun k h =>
        hs.outcome t k (houtcomes k _ h)) ⟨hA.1, fun hnot => ?_, hA.2.2⟩
      rcases hstage with hplain | hout
      · rw [hplain] at hnot
        cases hnot
      · exact hs.outcome t g hout
  | ends t origin g r errorName code durationMs stage _ hplain =>
      refine .ofTask hs (.ends errorName hs t code durationMs) ⟨hA.1, fun hnot => ?_, hA.2.2⟩
      rw [hplain] at hnot
      cases hnot
  | loads t origin g act loaded stage hplain =>
      refine .ofTask hs (.same hs t rfl rfl rfl rfl) ⟨hA.1, fun hnot => ?_, hA.2.2⟩
      rw [hplain] at hnot
      cases hnot
  | finishes t origin g =>
      obtain ⟨hok, hout, hkeeps⟩ := finish_spec hs hA.1
      exact ⟨hok, ⟨hout.1, fun _ => hout, fun q k rest horigin =>
        (hA.2.2 q k rest horigin).stable (by nofun) (hkeeps none)⟩, hkeeps (some i)⟩
  | succeeds t origin g =>
      have hout := hA.2.1 rfl
      exact .ofTask hs (.ofClose hs t (fun _ => hout) fun _ _ => hout) ⟨hA.1, fun _ => hout, hA.2.2⟩
  | fails t origin g e =>
      refine .ofTask hs (.ofClose hs t ?_ ?_) ⟨hA.1, nofun, hA.2.2⟩
      · intro h
        cases h
      · intro k h
        exact hs.outcome t k (CloseCoordinator.fail_outcome _ h)
  | returns t =>
      have hout := hA.2.1 rfl
      exact .ofTask hs ⟨rfl, fun _ => hout, fun _ _ => hout, fun _ => hout, fun _ => hout⟩ trivial
  | gets t back => exact .same hs ⟨hA.1, fun _ => hA.2.1 rfl, hA.2.2⟩
  | raises t e => exact .same hs trivial
  | passes t q g rest e => exact .next hs (hA.2.2 q g rest rfl)
  | ownerRaises t q g rest stage act e =>
      have howner := hA.2.2 q g rest rfl
      exact .same hs ⟨howner.1, howner.2.1, nofun⟩
  | deletes t q g rest act =>
      have hgood : Good i s (s.setTask t { s.task t with deleted := true })
          (.call t (some (q, g, rest)) .delete) :=
        .ofTask hs (.same hs t rfl rfl rfl rfl) hA
      have hnext := Good.next (g := g) hgood.ok (hgood.here.2.2 q g rest rfl)
      exact ⟨hnext.ok, hnext.here, hgood.keeps.trans hnext.keeps⟩
  | deleteRaises t q g rest act e =>
      have howner := hA.2.2 q g rest rfl
      exact .ofTask hs (.same hs t rfl rfl rfl rfl) ⟨howner.1, howner.2.1, nofun⟩
  | ownerJoins raised q order callback g close hstatus => exact .ofCloser hs hstatus trivial
  | ownerWakes q g close raised hstatus => exact .ofCloser hs hstatus trivial
  | ownerCloses raised q order g close horder hstatus hclose =>
      refine ⟨hs.setOwner (Finset.Subset.refl _) ?_, ?_, .ofOwner (Finset.Subset.refl _) ?_⟩
      · intro t ht
        have ht : t ∈ (s.owner q).tasks := by
          rw [← horder]
          exact List.mem_toFinset.mpr ht
        simp [hs.member q t ht]
      · simpa [At, OwnerAt] using hclose
      · intro j _ _ h
        -- nobody tears down an owner that is open or whose close has failed
        rcases hstatus with hstatus | hstatus
        all_goals
          rw [hstatus] at h
          cases h
  | takes q g t rest stage hplain =>
      have hrest : (s.owner q).remaining = t :: rest := hA.2.2 _ rfl
      refine .same hs ⟨hs.remaining q t (by simp [hrest]), ?_, ?_⟩
      · intro hnot
        rw [hplain] at hnot
        cases hnot
      · intro r k l horigin
        cases horigin
        exact hA
  | ownerFails q g rest act e => exact .same hs ⟨hA.1, hA.2.1, nofun⟩
  | ownerDestroyed q g act => exact .same hs hA
  | ownerClosed q g childError => exact .ofOwner hs hA rfl (fun _ h => h) trivial
  | ownerFailed q g e => exact .ofOwner hs hA rfl nofun trivial

/-- **The rely-guarantee proof**, under no condition. -/
theorem control (errorName : ℤ → String) :
    Threads.RelyGuarantee (mediaCalls T Q ι errorName) (fun _ _ _ _ => True) (fun _ _ => True)
      Ok At Keeps where
  start s hs := by
    obtain rfl := hs
    exact ⟨⟨nofun, nofun, nofun, nofun, nofun, nofun⟩, fun _ => trivial⟩
  thread i s pc act s' pc' hs hA _ hstep := by
    have hgood := moves_good hs hA (mediaStep_cases hstep)
    exact ⟨hgood.ok, hgood.here, hgood.keeps⟩
  env s e s' hs _ hstep := by
    obtain rfl := completeTask_cases hstep
    have hgood := TaskGood.ends errorName hs e.task e.code e.durationMs
    exact ⟨hs.setTask hgood, .ofTask none hgood.parent⟩
  stable _ _ _ _ _ hk _ _ hG hA := hA.stable hk hG

/-! ## The application and the teardowns -/

/-- The owner whose tasks the step puts into the snapshot of a teardown. -/
def snapshots (s : MediaState T Q ι) : MediaPc T Q → MediaAction T Q → Option Q
  | .idle _, .close q _ false =>
      if (s.owner q).close.status = .open ∨ (s.owner q).close.status = .closeFailed then some q
      else none
  | _, _ => none

/-- The task that a call of the application goes to, if it can come to the file. -/
def MediaPc.applies : MediaPc T Q → Option T
  | .call t none stage => if stage.inside then some t else none
  | _ => none

/-- The task whose `begin` a call of the application goes through with the step. -/
def MediaPc.enters : MediaPc T Q → MediaAction T Q → Option T
  | .call t none (.begin _), .go => some t
  | _, _ => none

/-- **Nobody shares a task**: a teardown takes its snapshot while no call of the application can
come to the file of a task in it, and a call of the application goes through `begin` while no
teardown has the task before it, or has deleted its file. -/
def keepsApart (c : Config ι (MediaState T Q ι) (MediaPc T Q)) :
    Label ι (MediaAction T Q) (Completion T) → Prop
  | .thread i act =>
      (∀ q, snapshots c.shared (c.pc i) act = some q →
        ∀ j t, (c.pc j).applies = some t → t ∉ (c.shared.owner q).tasks) ∧
      ∀ t, (c.pc i).enters act = some t →
        (c.shared.task t).deleted = false ∧ ∀ q, t ∉ (c.shared.owner q).remaining
  | .env _ => True

instance [Fintype T] [Fintype Q] [Fintype ι] (c : Config ι (MediaState T Q ι) (MediaPc T Q)) :
    (l : Label ι (MediaAction T Q) (Completion T)) → Decidable (keepsApart c l)
  | .thread _ _ => inferInstanceAs (Decidable (_ ∧ _))
  | .env _ => isTrue trivial

/-- **Apart**: a teardown has no task before it whose file has been returned or can still be, and no
file has been returned and deleted. -/
structure Apart (c : Config ι (MediaState T Q ι) (MediaPc T Q)) : Prop where
  remaining : ∀ q t, t ∈ (c.shared.owner q).remaining → (c.shared.task t).returned = false
  applies : ∀ i t, (c.pc i).applies = some t →
    (c.shared.task t).deleted = false ∧ ∀ q, t ∉ (c.shared.owner q).remaining
  returned : ∀ t, (c.shared.task t).returned = true → (c.shared.task t).deleted = false

section Runs

variable [DecidableEq ι] {c c' : Config ι (MediaState T Q ι) (MediaPc T Q)}

/-- Nothing more is returned, deleted or in a snapshot. -/
theorem Apart.mono (h : Apart c)
    (hreturned : ∀ t, (c'.shared.task t).returned = true → (c.shared.task t).returned = true)
    (hdeleted : ∀ t, (c'.shared.task t).deleted = true → (c.shared.task t).deleted = true)
    (hremaining : ∀ q t, t ∈ (c'.shared.owner q).remaining → t ∈ (c.shared.owner q).remaining)
    (happlies : ∀ j t, (c'.pc j).applies = some t → (c.shared.task t).deleted = false ∧
      ∀ q, t ∉ (c.shared.owner q).remaining) : Apart c' where
  remaining q t ht := by
    have hold := h.remaining q t (hremaining q t ht)
    exact Bool.eq_false_iff.mpr fun hnew => by simp [hreturned t hnew] at hold
  applies j t hj := by
    obtain ⟨hkept, hfree⟩ := happlies j t hj
    refine ⟨Bool.eq_false_iff.mpr fun hnew => ?_, fun q hq => hfree q (hremaining q t hq)⟩
    simp [hdeleted t hnew] at hkept
  returned t ht := by
    have hold := h.returned t (hreturned t ht)
    exact Bool.eq_false_iff.mpr fun hnew => by simp [hdeleted t hnew] at hold

/-- A step that returns no file, deletes none and takes no snapshot. -/
theorem Apart.frame (h : Apart c)
    (hreturned : ∀ t, (s'.task t).returned = true → (c.shared.task t).returned = true)
    (hdeleted : ∀ t, (s'.task t).deleted = true → (c.shared.task t).deleted = true)
    (hremaining : ∀ q t, t ∈ (s'.owner q).remaining → t ∈ (c.shared.owner q).remaining)
    (happlies : ∀ t, pc'.applies = some t → (c.shared.task t).deleted = false ∧
      ∀ q, t ∉ (c.shared.owner q).remaining) :
    Apart ⟨s', Function.update c.pc i pc'⟩ := by
  refine h.mono hreturned hdeleted hremaining ?_
  intro j t hj
  by_cases hji : j = i
  · subst hji
    exact happlies t (by simpa using hj)
  · exact h.applies j t (by simpa [hji] using hj)

/-- A step that leaves the records alone. -/
theorem Apart.same (h : Apart c)
    (happlies : ∀ t, pc'.applies = some t → (c.shared.task t).deleted = false ∧
      ∀ q, t ∉ (c.shared.owner q).remaining) :
    Apart ⟨c.shared, Function.update c.pc i pc'⟩ :=
  h.frame (fun _ h => h) (fun _ h => h) (fun _ _ h => h) happlies

/-- A step on a task that returns no file and deletes none. -/
theorem Apart.ofTask {t : T} {x : MediaTask Q} (h : Apart c)
    (hreturned : x.returned = true → (c.shared.task t).returned = true)
    (hdeleted : x.deleted = true → (c.shared.task t).deleted = true)
    (happlies : ∀ t, pc'.applies = some t → (c.shared.task t).deleted = false ∧
      ∀ q, t ∉ (c.shared.owner q).remaining) :
    Apart ⟨c.shared.setTask t x, Function.update c.pc i pc'⟩ := by
  refine h.frame ?_ ?_ (fun _ _ h => h) happlies
  · intro u hu
    by_cases hut : u = t
    · subst hut
      exact hreturned (by simpa using hu)
    · simpa [hut] using hu
  · intro u hu
    by_cases hut : u = t
    · subst hut
      exact hdeleted (by simpa using hu)
    · simpa [hut] using hu

/-- A step on an owner that takes no snapshot. -/
theorem Apart.ofOwner {q : Q} {x : TaskOwner T ι} {p : MediaPc T Q} (h : Apart c)
    (hremaining : ∀ t, t ∈ x.remaining → t ∈ (c.shared.owner q).remaining)
    (happlies : ∀ t, p.applies = some t → (c.shared.task t).deleted = false ∧
      ∀ q, t ∉ (c.shared.owner q).remaining) :
    Apart ⟨c.shared.setOwner q x, Function.update c.pc i p⟩ := by
  refine h.frame (fun _ h => h) (fun _ h => h) (fun r t ht => ?_) happlies
  by_cases hr : r = q
  · subst hr
    exact hremaining t (by simpa using ht)
  · simpa [hr] using ht

/-- A call that could come to the file before. -/
theorem Apart.stays {t : T} {origin : Origin T Q} {stage stage' : TaskStage} (h : Apart c)
    (hpc : c.pc i = .call t origin stage) (hinside : stage'.inside = true → stage.inside = true)
    (u : T) (hu : (MediaPc.call t origin stage').applies = some u) :
    (c.shared.task u).deleted = false ∧ ∀ q, u ∉ (c.shared.owner q).remaining := by
  refine h.applies i u ?_
  cases origin with
  | none =>
      simp only [MediaPc.applies, Option.ite_none_right_eq_some] at hu
      simp [hpc, MediaPc.applies, hinside hu.1, hu.2]
  | some back => cases hu

/-- A call of the application that goes through `begin`. -/
theorem stays_enters {t : T} {origin : Origin T Q} {stops : Bool} {stage : TaskStage}
    (henters : ∀ u, (MediaPc.call t origin (.begin stops)).enters .go = some u →
      (s.task u).deleted = false ∧ ∀ q, u ∉ (s.owner q).remaining)
    (u : T) (hu : (MediaPc.call t origin stage).applies = some u) :
    (s.task u).deleted = false ∧ ∀ q, u ∉ (s.owner q).remaining := by
  refine henters u ?_
  cases origin with
  | none =>
      simp only [MediaPc.applies, Option.ite_none_right_eq_some] at hu
      exact hu.2
  | some back => cases hu

/-- A teardown gets a file and deletes it. -/
theorem Apart.deletes {t : T} {q : Q} {p : MediaPc T Q} (h : Apart c)
    (ht : t ∈ (c.shared.owner q).remaining) (happlies : p.applies = none) :
    Apart ⟨c.shared.setTask t { c.shared.task t with deleted := true },
      Function.update c.pc i p⟩ where
  remaining r u hu := by
    have hold := h.remaining r u hu
    by_cases hut : u = t
    · subst hut
      simpa using hold
    · simpa [hut] using hold
  applies j u hj := by
    have hfree : (c.shared.task u).deleted = false ∧ ∀ q, u ∉ (c.shared.owner q).remaining := by
      by_cases hji : j = i
      · subst hji
        simp [happlies] at hj
      · exact h.applies j u (by simpa [hji] using hj)
    have hut : u ≠ t := by
      rintro rfl
      exact hfree.2 q ht
    exact ⟨by simpa [hut] using hfree.1, hfree.2⟩
  returned u hu := by
    by_cases hut : u = t
    · -- the file of a task before a teardown has not been returned
      subst hut
      simp [h.remaining q u ht] at hu
    · simpa [hut] using h.returned u (by simpa [hut] using hu)

/-- **The step lemma.** -/
theorem Apart.moves (h : Apart c) (hs : Ok c.shared) (hA : At i c.shared (c.pc i))
    (hapart : keepsApart c (.thread i act)) (hmoves : Moves c.shared i (c.pc i) act s' pc') :
    Apart ⟨s', Function.update c.pc i pc'⟩ := by
  obtain ⟨hsnapshot, henters⟩ := hapart
  generalize hpc : c.pc i = pc at hA hsnapshot henters hmoves
  cases hmoves with
  | refused raised raised' => exact h.same nofun
  | started raised q t kind r hnew hopen =>
      refine h.frame ?_ ?_ ?_ nofun
      · intro u hu
        by_cases hut : u = t
        · simp [hut] at hu
        · simpa [hut] using hu
      · intro u hu
        by_cases hut : u = t
        · simp [hut] at hu
        · simpa [hut] using hu
      · intro r u hu
        by_cases hrq : r = q
        · subst hrq
          simpa using hu
        · simpa [hrq] using hu
  | stops raised t hmade => exact h.same nofun
  | waits raised t timed hmade => exact h.same nofun
  | goes t origin stage stage' act hplain hinside => exact h.same (h.stays hpc hinside)
  | begins t origin stops close stage houtcomes hstatus hplain =>
      exact h.ofTask (fun h => h) (fun h => h) (stays_enters henters)
  | finds t origin stops hclosed => exact h.same (stays_enters henters)
  | wakes t origin g close stage hstatus houtcomes hstage =>
      exact h.ofTask (fun h => h) (fun h => h) (h.stays hpc fun _ => rfl)
  | ends t origin g r errorName code durationMs stage _ hplain =>
      exact h.ofTask (by simp) (by simp) (h.stays hpc fun _ => rfl)
  | loads t origin g act loaded stage hplain =>
      exact h.ofTask (fun h => h) (fun h => h) (h.stays hpc fun _ => rfl)
  | finishes t origin g =>
      exact h.frame (fun u hu => (c.shared.finish_task t u).1 ▸ hu)
        (fun u hu => (c.shared.finish_task t u).2 ▸ hu)
        (fun q u hu => c.shared.finish_remaining t q ▸ hu) (h.stays hpc fun _ => rfl)
  | succeeds t origin g => exact h.ofTask (fun h => h) (fun h => h) (h.stays hpc fun _ => rfl)
  | fails t origin g e => exact h.ofTask (fun h => h) (fun h => h) (h.stays hpc nofun)
  | returns t =>
      obtain ⟨hkept, hfree⟩ := h.applies i t (by rw [hpc]; rfl)
      refine ⟨?_, ?_, ?_⟩
      · intro q u hu
        have hut : u ≠ t := by
          rintro rfl
          exact hfree q hu
        simpa [hut] using h.remaining q u hu
      · intro j u hj
        have hji : j ≠ i := by
          rintro rfl
          simp [MediaPc.applies] at hj
        have hold := h.applies j u (by simpa [hji] using hj)
        by_cases hut : u = t
        · subst hut
          simpa using hold
        · simpa [hut] using hold
      · intro u hu
        by_cases hut : u = t
        · subst hut
          simpa using hkept
        · simpa [hut] using h.returned u (by simpa [hut] using hu)
  | gets t back => exact h.same nofun
  | raises t e => exact h.same nofun
  | passes t q g rest e =>
      have hrest : (c.shared.owner q).remaining = t :: rest := (hA.2.2 q g rest rfl).2.2 _ rfl
      exact h.ofOwner (fun u hu => by simp [hrest, hu]) nofun
  | ownerRaises t q g rest stage act e => exact h.same nofun
  | deletes t q g rest act =>
      have hrest : (c.shared.owner q).remaining = t :: rest := (hA.2.2 q g rest rfl).2.2 _ rfl
      have hdeletes := (h.deletes (i := i) (q := q) (t := t) (p := .close q g (.tasks rest))
        (by simp [hrest]) rfl).ofOwner (i := i) (q := q)
          (x := { c.shared.owner q with remaining := rest }) (p := .close q g (.tasks rest))
          (fun u hu => by simp [hrest, hu]) nofun
      simpa only [Function.update_idem] using hdeletes
  | deleteRaises t q g rest act e =>
      have hrest : (c.shared.owner q).remaining = t :: rest := (hA.2.2 q g rest rfl).2.2 _ rfl
      exact h.deletes (q := q) (by simp [hrest]) rfl
  | ownerJoins raised q order callback g close hstatus => exact h.ofOwner (fun _ h => h) nofun
  | ownerWakes q g close raised hstatus => exact h.ofOwner (fun _ h => h) nofun
  | ownerCloses raised q order g close horder hstatus hclose =>
      have horder : ∀ u, u ∈ order ↔ u ∈ (c.shared.owner q).tasks := by
        intro u
        rw [← horder, List.mem_toFinset]
      have hfree := hsnapshot q (by simp [snapshots, hstatus])
      refine ⟨?_, ?_, h.returned⟩
      · intro r u hu
        by_cases hrq : r = q
        · subst hrq
          have hin : u ∈ (c.shared.owner r).tasks := (horder u).mp (by simpa using hu)
          exact Bool.eq_false_iff.mpr fun hret => (hs.returned u hret).2 r hin
        · exact h.remaining r u (by simpa [hrq] using hu)
      · intro j u hj
        have hji : j ≠ i := by
          rintro rfl
          simp [MediaPc.applies] at hj
        have hold : (c.pc j).applies = some u := by simpa [hji] using hj
        refine ⟨(h.applies j u hold).1, fun r hu => ?_⟩
        by_cases hrq : r = q
        · subst hrq
          exact hfree j u hold ((horder u).mp (by simpa using hu))
        · exact (h.applies j u hold).2 r (by simpa [hrq] using hu)
  | takes q g t rest stage hplain => exact h.same nofun
  | ownerFails q g rest act e => exact h.same nofun
  | ownerDestroyed q g act => exact h.same nofun
  | ownerClosed q g childError => exact h.ofOwner (fun _ h => h) nofun
  | ownerFailed q g e => exact h.ofOwner nofun nofun

/-- **The run lemma.** -/
theorem reach_apart {errorName : ℤ → String}
    (hc : (mediaCalls T Q ι errorName).machine.ReachWith keepsApart c) : Apart c := by
  refine hc.invariant_of (J := fun c => Ok c.shared ∧ ∀ i, At i c.shared (c.pc i))
    (fun c hc => (control errorName).reach (hc.mono ?_)) ?_ ?_
  · rintro c (⟨i, act⟩ | e) -
    · trivial
    · trivial
  · rintro ⟨s, pc⟩ ⟨hs, hpc⟩ -
    obtain rfl : s = {} := hs
    obtain rfl : pc = fun _ => .idle none := hpc
    exact ⟨nofun, nofun, nofun⟩
  · rintro c (⟨i, act⟩ | e) c' ⟨hs, hA⟩ - h hapart hstep
    · obtain ⟨⟨s', pc'⟩, hnext, rfl⟩ := Option.map_eq_some_iff.mp hstep
      exact h.moves hs (hA i) hapart (mediaStep_cases hnext)
    · obtain ⟨s', hnext, rfl⟩ := Option.map_eq_some_iff.mp hstep
      obtain rfl := completeTask_cases hnext
      refine h.mono ?_ ?_ (fun _ _ h => h) h.applies
      · intro u hu
        by_cases hue : u = e.task
        · subst hue
          simpa using hu
        · simpa [hue] using hu
      · intro u hu
        by_cases hue : u = e.task
        · subst hue
          simpa using hu
        · simpa [hue] using hu

/-- **No file is returned and deleted**, in every run in which the application and the teardowns
have no task in common.
Source: `RecordingTask.stop`, `ExportTask.wait`, `ExportTask.stop`;
`Connection._close_connection`, `Replay._close_replay`, `CloudStorage._close_cloud` -/
theorem returned_kept {errorName : ℤ → String}
    (hc : (mediaCalls T Q ι errorName).machine.ReachWith keepsApart c) (t : T) :
    ¬ ((c.shared.task t).returned = true ∧ (c.shared.task t).deleted = true) := by
  rintro ⟨hreturned, hdeleted⟩
  rw [(reach_apart hc).returned t hreturned] at hdeleted
  cases hdeleted

end Runs

/-- Two tasks, one owner, and two threads that have not called yet. -/
def unrecorded : Config (Fin 2) (MediaState (Fin 2) (Fin 1) (Fin 2)) (MediaPc (Fin 2) (Fin 1)) :=
  ⟨{}, fun _ => .idle none⟩

/-- A recording starts. -/
def records (t : Fin 2) : List (Label (Fin 2) (MediaAction (Fin 2) (Fin 1)) (Completion (Fin 2))) :=
  [.thread 0 (.start 0 t .recordingTask (.code 0))]

/-- Thread `i` performs a `stop()` from behind its `begin`, up to the result. -/
def performed (i : Fin 2) :
    List (Label (Fin 2) (MediaAction (Fin 2) (Fin 1)) (Completion (Fin 2))) :=
  [.thread i (.stopped (.code 0) 0), .thread i (.native (.code 0)), .thread i .go, .thread i .go]

/-- **A file is returned and deleted**: while thread `1` stops a recording, thread `0` closes the
Connection; it joins the call, and both get the file. -/
theorem returned_deleted :
    ¬ ∀ c : Config (Fin 2) (MediaState (Fin 2) (Fin 1) (Fin 2)) (MediaPc (Fin 2) (Fin 1)),
      (mediaCalls (Fin 2) (Fin 1) (Fin 2) fun _ => "").machine.Reach c →
      ∀ t, ¬ ((c.shared.task t).returned = true ∧ (c.shared.task t).deleted = true) := by
  intro h
  have hstart : (mediaCalls (Fin 2) (Fin 1) (Fin 2) fun _ => "").machine.start unrecorded :=
    ⟨rfl, rfl⟩
  have hrun : ((mediaCalls (Fin 2) (Fin 1) (Fin 2) fun _ => "").machine.exec unrecorded
      (records 0 ++ [.thread 1 (.stop 0 false), .thread 1 .go, .thread 0 (.close 0 [0] false),
        .thread 0 .go, .thread 0 .go] ++ performed 1 ++ [.thread 1 .go, .thread 0 .go,
        .thread 0 .go, .thread 0 (.native (.code 0))])).any (fun c => decide (
        (c.shared.task 0).returned = true ∧ (c.shared.task 0).deleted = true)) = true := by
    decide +kernel
  obtain ⟨c, hc, htest⟩ := Machine.exists_reach hstart hrun
  exact h c hc 0 (of_decide_eq_true htest)

/-- The application stops a recording, and the teardown another one: the file of the first is
kept. -/
theorem returned_kept_other :
    ∃ c, (mediaCalls (Fin 2) (Fin 1) (Fin 2) fun _ => "").machine.Reach c ∧
      (c.shared.task 0).returned = true ∧ (c.shared.task 1).deleted = true ∧
      ¬ ((c.shared.task 0).returned = true ∧ (c.shared.task 0).deleted = true) := by
  have hstart : (mediaCalls (Fin 2) (Fin 1) (Fin 2) fun _ => "").machine.start unrecorded :=
    ⟨rfl, rfl⟩
  have hrun : (((mediaCalls (Fin 2) (Fin 1) (Fin 2) fun _ => "").machine.guarded fun c l =>
      decide (keepsApart c l)).exec unrecorded
      (records 0 ++ records 1 ++ [.thread 1 (.stop 0 false), .thread 1 .go] ++
        performed 1 ++ [.thread 1 .go, .thread 0 (.close 0 [1] false), .thread 0 .go,
        .thread 0 .go] ++ performed 0 ++ [.thread 0 .go, .thread 0 (.native (.code 0))])).any
        (fun c => decide ((c.shared.task 0).returned = true ∧
          (c.shared.task 1).deleted = true)) = true := by
    decide +kernel
  obtain ⟨c, hc, htest⟩ := Machine.exists_reachWith hstart hrun
  obtain ⟨hreturned, hdeleted⟩ := of_decide_eq_true htest
  exact ⟨c, hc.reach, hreturned, hdeleted, returned_kept hc 0⟩

end Tirtc.Media
