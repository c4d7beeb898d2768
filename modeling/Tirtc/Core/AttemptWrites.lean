import Tirtc.Core.Outcome

/-!
# One attempt under one step

Every step of a call leaves an attempt alone, or is one of a few writes to it. What the record of an
attempt says of a thread (its `connect` has not come to its end, its native call is on its way, it
cancels) is then true of the place of that thread.

* `Stays`, `Wrote`: what a step of a thread does to one attempt; `callStep_wrote`: nothing else.
* `Brought`, `environmentStep_brought`: what the Runtime and the pool do to it.
* `Kept`, `Placed`: what holds of an attempt, and of every thread beside it.
* `reach_placed`: every run keeps both.
-/

set_option autoImplicit false

namespace Tirtc

open Transition

variable {ι : Type} {errorName : ℤ → String} {s s' : Shared ι} {i j : ι} {b : ℕ} {p p' q : Pc}
  {v v' : View ι}

/-! ## Places -/

/-- The thread is in the `connect` of attempt `b`. -/
def Pc.Connects (p : Pc) (b : ℕ) : Prop := ∃ stage, p = .connect b stage

theorem connect_connects {a : ℕ} {stage : ConnectStage} :
    (Pc.connect a stage).Connects b ↔ b = a := by
  constructor
  · rintro ⟨stage', heq⟩
    cases heq
    rfl
  · rintro rfl
    exact ⟨stage, rfl⟩

/-- A thread in another place is in no `connect`. -/
theorem not_connects (h : ∀ a stage, p ≠ .connect a stage) : ¬ p.Connects b := by
  rintro ⟨stage, hp⟩
  exact h b stage hp

/-- A thread in the `connect` of another attempt is not in that of this one. -/
theorem not_connects_of_ne {a : ℕ} {stage : ConnectStage} (hb : b ≠ a) :
    ¬ (Pc.connect a stage).Connects b := mt connect_connects.mp hb

/-- The thread has the Runtime cancel attempt `b`, or waits for its completion. -/
def Pc.Completes (p : Pc) (b : ℕ) : Prop :=
  p.cancel? = some (b, .attemptCancel) ∨ p.cancel? = some (b, .awaitDone)

theorem not_completes (h : p.cancel? = none) : ¬ p.Completes b := by
  rintro (hp | hp)
  · cases h.symm.trans hp
  · cases h.symm.trans hp

theorem not_cancels (h : p.cancel? = none) : ¬ p.Cancels b := by
  rintro ⟨stage, hp, -⟩
  cases h.symm.trans hp

/-- The place of a thread stays what it was to attempt `b`; only an attempt with a handle is
cancelled by the Runtime. -/
structure Stays (b : ℕ) (v : View ι) (p p' : Pc) : Prop where
  connects : p'.Connects b ↔ p.Connects b
  starting : p ≠ .connect b .starting
  cancels : p.Cancels b → p'.Cancels b
  completes : p'.Completes b → p.Completes b ∨ v.attempt.managedHandle ≠ none

/-! ## The writes -/

/-- **What a step of thread `i` does to attempt `b`**, and where the thread goes. -/
inductive Wrote (i : ι) (b : ℕ) (p : Pc) (v : View ι) : View ι → Pc → Prop
  | nothing {p' : Pc} : Stays b v p p' → Wrote i b p v v p'
  | begins (managed : Bool) (bornAt : ℕ) : v.history.owner = none → (∀ b, ¬ p.Connects b) →
      Wrote i b p v (v.write true (fun _ => { managed := managed })
        fun _ => { owner := some i, bornAt := bornAt }) (.connect b .starting)
  | started (clock : ℕ) : p = .connect b .starting → v.attempt.nativeStarted = false →
      v.history.startFailed = false →
      Wrote i b p v (v.write v.active
        (fun attempt => { attempt with
          managedHandle := if attempt.managed then some b else none
          nativeStarted := true })
        fun history => { history with startedAt := some clock }) (.connect b .waitDone)
  | notStarted (e : PyError) : p = .connect b .starting → v.attempt.nativeStarted = false →
      Wrote i b p v (v.write v.active (fun attempt => { attempt with nativeStarted := true })
        fun history => { history with startFailed := true }) (.connect b (.rollback e))
  | rolledBack (e : PyError) : p = .connect b (.rollback e) → v.history.startFailed = true →
      Wrote i b p v (v.write false id id) (.connect b (.startFinish e))
  | ends (raised : Option PyError) : p.Connects b → p ≠ .connect b .starting → p.cancel? = none →
      Wrote i b p v (v.write v.active (fun attempt => { attempt with finished := true })
        fun history => { history with outcome := some raised }) (.idle raised)
  | raises (raised : Option PyError) : p ≠ .connect b .starting → p.cancel? = none →
      (v.attempt.finished = true ∨
        (v.attempt.cancelFinished = true ∧ v.history.cancelFailed = true)) →
      Wrote i b p v (v.write v.active id fun history => { history with outcome := some raised })
        (.idle raised)
  | performs (error : PyError) {p' : Pc} : Stays b v p p' → p'.Cancels b → v.active = true →
      Wrote i b p v (v.write v.active
        (fun attempt => { attempt with error := some error, cancelling := true })
        fun history => { history with canceller := some i }) p'
  | cancelFailed {p' : Pc} : Stays b v p p' →
      Wrote i b p v (v.write v.active id fun history => { history with cancelFailed := true }) p'
  | settled (code : ℤ) (causes : List (Cause × ℤ)) {p' : Pc} : Stays b v p p' →
      Wrote i b p v (v.write v.active
        (fun attempt => { attempt with terminalCode := some code, done := true })
        fun history => { history with causes := causes }) p'
  | done {p' : Pc} : Stays b v p p' →
      Wrote i b p v (v.write v.active (fun attempt => { attempt with done := true }) id) p'
  | leaves (raised : Option PyError) {p' : Pc} : (p'.Connects b ↔ p.Connects b) →
      p ≠ .connect b .starting → ¬ p'.Completes b →
      Wrote i b p v (v.write v.active
        (fun attempt => { attempt with
          cancelError := raised <|> attempt.cancelError, cancelFinished := true })
        id) p'
  | closeFailed (e : PyError) : p = .connect b .closeHandle →
      Wrote i b p v (v.write v.active id fun history => { history with closeFailed := true })
        (.connect b (.fail e))
  | finishes (seen : FinishView) : p = .connect b .finishLock → Quiet v →
      Wrote i b p v (v.write false (fun attempt => { attempt with finished := true })
        fun history => { history with finishView := some seen }) (.connect b .result)

/-- A thread that only comes to another place. -/
theorem Stays.of_places (hconnects : p'.Connects b ↔ p.Connects b)
    (hstarting : p ≠ .connect b .starting) (hcancel : p.cancel? = none)
    (hcancel' : ∀ stage, p'.cancel? = some (b, stage) → stage = .enter) : Stays b v p p' := by
  refine ⟨hconnects, hstarting, ?_, ?_⟩
  · rintro ⟨stage, hp, -⟩
    cases hcancel.symm.trans hp
  · rintro (hp | hp)
    · cases hcancel' _ hp
    · cases hcancel' _ hp

/-- A thread in no `connect` that only comes to another place. -/
theorem Wrote.elsewhere (hconnects : ¬ p.Connects b) (hconnects' : ¬ p'.Connects b)
    (hcancel : p.cancel? = none)
    (hcancel' : ∀ stage, p'.cancel? = some (b, stage) → stage = .enter) :
    Wrote i b p v v p' := by
  refine .nothing (.of_places (iff_of_false hconnects' hconnects) ?_ hcancel hcancel')
  rintro rfl
  exact hconnects ⟨_, rfl⟩

/-- The view of another attempt. -/
theorem view_change_of_ne {a : ℕ} {f : ConnectState → ConnectState} {g : Attempt ι → Attempt ι}
    (hb : b ≠ a) : ((s.modify a f).note a g).view b = s.view b := by
  simp [hb]

theorem view_change_self {f : ConnectState → ConnectState} {g : Attempt ι → Attempt ι} :
    ((s.modify b f).note b g).view b = (s.view b).write (s.view b).active f g := by
  simp [View.write]

/-! ### Cancellation -/

/-- Where a thread goes behind a stage of the cancellation of attempt `a`. -/
structure After (a : ℕ) (p p' : Pc) (next : CancelStage ⊕ Option PyError) : Prop where
  here : ∀ stage, next = .inl stage → p'.cancel? = some (a, stage)
  gone : ∀ raised, next = .inr raised → p'.cancel? = none
  connects : ∀ b, p'.Connects b ↔ p.Connects b
  starting : ∀ b, p ≠ .connect b .starting

/-- It has nothing to do with the other attempts. -/
theorem After.stays {a : ℕ} {stage : CancelStage} {next : CancelStage ⊕ Option PyError}
    (h : After a p p' next) (hp : p.cancel? = some (a, stage)) (hb : b ≠ a) : Stays b v p p' := by
  refine ⟨h.connects b, h.starting b, ?_, ?_⟩
  · rintro ⟨stage', hp', -⟩
    cases hp.symm.trans hp'
    exact absurd rfl hb
  · have hother : ∀ stage', p'.cancel? ≠ some (b, stage') := by
      intro stage' hp'
      cases next with
      | inl stage'' =>
          cases (h.here _ rfl).symm.trans hp'
          exact hb rfl
      | inr raised => cases (h.gone _ rfl).symm.trans hp'
    rintro (hp' | hp')
    · exact absurd hp' (hother _)
    · exact absurd hp' (hother _)

/-- It stays in the cancellation. -/
theorem After.performing {a : ℕ} {stage' : CancelStage} (h : After a p p' (.inl stage'))
    (hstage : stage'.Performing) (hhandle : stage' = .attemptCancel ∨ stage' = .awaitDone →
      p.Completes a ∨ v.attempt.managedHandle ≠ none) : Stays a v p p' := by
  refine ⟨h.connects a, h.starting a, fun _ => ⟨stage', h.here _ rfl, hstage⟩, ?_⟩
  rintro (hp' | hp')
  · cases (h.here _ rfl).symm.trans hp'
    exact hhandle (.inl rfl)
  · cases (h.here _ rfl).symm.trans hp'
    exact hhandle (.inr rfl)

/-- It has not begun to cancel. -/
theorem After.waiting {a : ℕ} {stage : CancelStage} {next : CancelStage ⊕ Option PyError}
    (h : After a p p' next) (hp : p.cancel? = some (a, stage)) (hstage : ¬ stage.Performing)
    (hnext : next ≠ .inl .attemptCancel ∧ next ≠ .inl .awaitDone) : Stays a v p p' := by
  refine ⟨h.connects a, h.starting a, ?_, ?_⟩
  · rintro ⟨stage', hp', hperforming⟩
    cases hp.symm.trans hp'
    exact absurd hperforming hstage
  · rintro (hp' | hp')
    · cases next with
      | inl stage' =>
          cases (h.here _ rfl).symm.trans hp'
          exact absurd rfl hnext.1
      | inr raised => cases (h.gone _ rfl).symm.trans hp'
    · cases next with
      | inl stage' =>
          cases (h.here _ rfl).symm.trans hp'
          exact absurd rfl hnext.2
      | inr raised => cases (h.gone _ rfl).symm.trans hp'

/-- **A stage of `_cancel_connect`** writes to its attempt alone. -/
theorem CancelMoves.wrote {a : ℕ} {error : PyError} {stage : CancelStage} {act : CallAction}
    {next : CancelStage ⊕ Option PyError} (h : CancelMoves s i a error stage act s' next)
    (hp : p.cancel? = some (a, stage)) (hafter : After a p p' next) (b : ℕ) :
    Wrote i b p (s.view b) (s'.view b) p' := by
  by_cases hb : b = a
  · subst hb
    cases h with
    | settled hover => exact .nothing (hafter.waiting hp id ⟨by simp, by simp⟩)
    | waits hactive hc => exact .nothing (hafter.waiting hp id ⟨by simp, by simp⟩)
    | performs hactive ht hc =>
        rw [view_change_self]
        exact .performs error (hafter.waiting hp id ⟨by simp, by simp⟩)
          ⟨.start, hafter.here _ rfl, trivial⟩ ((view_active s b).mpr hactive)
    | joined hfin => exact .nothing (hafter.waiting hp id ⟨by simp, by simp⟩)
    | tooLate hfin => exact .nothing (hafter.performing trivial (by simp))
    | unhandled => exact .nothing (hafter.performing trivial (by simp))
    | toAttempt hstarted hfin hmanaged hhandle =>
        exact .nothing (hafter.performing trivial fun _ => .inr hhandle)
    | toDisconnect => exact .nothing (hafter.performing trivial (by simp))
    | attemptCancelled => exact .nothing (hafter.performing trivial fun _ => .inl (.inl hp))
    | connected => exact .nothing (hafter.performing trivial (by simp))
    | ended => exact .nothing (hafter.performing trivial (by simp))
    | disconnected => exact .nothing (hafter.performing trivial (by simp))
    | failed stage r e hstage hr =>
        rw [view_note, if_pos rfl]
        exact .cancelFailed (hafter.performing trivial (by simp))
    | drained hdrained =>
        refine .nothing ?_
        split at hafter
        · exact hafter.performing trivial (by simp)
        · exact hafter.performing trivial (by simp)
    | terminal =>
        have hstays : Stays b (s.view b) p p' := hafter.performing trivial (by simp)
        rcases cancelTerminal_cases s b with ⟨ht, heq⟩ | ⟨ht, heq⟩
        · rw [heq, view_change_self]
          exact .settled 6115 _ hstays
        · rw [heq, view_change_self]
          exact .done hstays
    | marks => exact .nothing (hafter.performing trivial (by simp))
    | leaves raised =>
        rw [view_modify, if_pos rfl]
        exact .leaves raised (hafter.connects b) (hafter.starting b)
          (not_completes (hafter.gone _ rfl))
  · have hview : s'.view b = s.view b := by
      cases h with
      | performs => exact view_change_of_ne hb
      | failed => rw [view_note, if_neg hb]
      | terminal =>
          rcases cancelTerminal_cases s a with ⟨ht, heq⟩ | ⟨ht, heq⟩
          · rw [heq, view_change_of_ne hb]
          · rw [heq, view_change_of_ne hb]
      | leaves => rw [view_modify, if_neg hb]
      | _ => rfl
    rw [hview]
    exact .nothing (hafter.stays hp hb)

/-! ### The calls -/

/-- The place behind a stage of the cancellation that `connect` makes. -/
theorem after_connect {a : ℕ} {stage : CancelStage} {stage' : ConnectStage}
    {next : CancelStage ⊕ Option PyError}
    (hhere : ∀ stage'', next = .inl stage'' → stage' = .cancel stage'')
    (hgone : ∀ raised, next = .inr raised → (Pc.connect a stage').cancel? = none) :
    After a (.connect a (.cancel stage)) (.connect a stage') next where
  here stage'' hnext := by
    rw [hhere stage'' hnext]
    rfl
  gone := hgone
  connects b := connect_connects.trans connect_connects.symm
  starting b := by
    intro heq
    cases heq

/-- **A step of `connect`** writes to its attempt alone. -/
theorem ConnectMoves.wrote {a : ℕ} {stage : ConnectStage} {act : CallAction}
    (h : ConnectAt i (s.view a) stage) (hmoves : ConnectMoves s i a stage act s' p') (b : ℕ) :
    Wrote i b (.connect a stage) (s.view b) (s'.view b) p' := by
  have hplaces {stage stage' : ConnectStage} :
      (Pc.connect a stage').Connects b ↔ (Pc.connect a stage).Connects b :=
    connect_connects.trans connect_connects.symm
  cases hmoves with
  | cancels stage stage' act s' hcancel =>
      refine hcancel.wrote rfl (after_connect ?_ ?_) b
      · rintro _ ⟨⟩
        rfl
      · rintro _ ⟨⟩
  | cancelled stage act s' hcancel =>
      refine hcancel.wrote rfl (after_connect ?_ ?_) b
      · rintro _ ⟨⟩
      · intro _ _
        rfl
  | cancelRaises stage act s' e hcancel =>
      refine hcancel.wrote rfl (after_connect ?_ ?_) b
      · rintro _ ⟨⟩
      · intro _ _
        rfl
  | started =>
      by_cases hb : b = a
      · subst hb
        rw [view_change_self]
        exact .started s.clock rfl h.2.2 h.2.1
      · rw [view_change_of_ne hb]
        exact .elsewhere (not_connects_of_ne hb) (not_connects_of_ne hb) rfl (by rintro _ ⟨⟩)
  | notStarted r e hr =>
      by_cases hb : b = a
      · subst hb
        rw [view_change_self]
        exact .notStarted e rfl h.2.2
      · rw [view_change_of_ne hb]
        exact .elsewhere (not_connects_of_ne hb) (not_connects_of_ne hb) rfl (by rintro _ ⟨⟩)
  | rolledBack e =>
      have hactive := (view_active s a).mp h.1.active
      rw [s.connection.rollback_of_active hactive]
      by_cases hb : b = a
      · subst hb
        exact .rolledBack e rfl h.2
      · have hview : Shared.view { s with connection :=
            { s.connection with activeConnect := none, state := .idle } } b = s.view b :=
          view_of_release hactive rfl hb rfl rfl
        rw [hview]
        exact .elsewhere (not_connects_of_ne hb) (not_connects_of_ne hb) rfl (by rintro _ ⟨⟩)
  | ends stage e hstage =>
      by_cases hb : b = a
      · subst hb
        rw [view_change_self]
        rcases hstage with rfl | rfl
        · exact .ends (some e) ⟨_, rfl⟩ (by rintro ⟨⟩) rfl
        · exact .ends (some e) ⟨_, rfl⟩ (by rintro ⟨⟩) rfl
      · rw [view_change_of_ne hb]
        refine .elsewhere (not_connects_of_ne hb) (not_connects (by rintro _ _ ⟨⟩)) ?_
          (by rintro _ ⟨⟩)
        rcases hstage with rfl | rfl
        · rfl
        · rfl
  | raises e =>
      by_cases hb : b = a
      · subst hb
        rw [view_note, if_pos rfl]
        exact .raises (some e) (by rintro ⟨⟩) rfl (.inr h.2.2)
      · rw [view_note, if_neg hb]
        exact .elsewhere (not_connects_of_ne hb) (not_connects (by rintro _ _ ⟨⟩)) rfl
          (by rintro _ ⟨⟩)
  | handleNotClosed r e hr =>
      by_cases hb : b = a
      · subst hb
        rw [view_note, if_pos rfl]
        exact .closeFailed e rfl
      · rw [view_note, if_neg hb]
        exact .elsewhere (not_connects_of_ne hb) (not_connects_of_ne hb) rfl (by rintro _ ⟨⟩)
  | finishes =>
      have hactive := (view_active s a).mp h.1.active
      by_cases hb : b = a
      · subst hb
        have hview : (Shared.note { s with connection := s.connection.finishConnect b } b
            fun history => { history with
              finishView := some ⟨(s.attempt b).terminalCode, (s.attempt b).error,
                (s.connection.finishConnect b).state⟩ }).view b =
            (s.view b).write false (fun attempt => { attempt with finished := true })
              fun history => { history with
                finishView := some ⟨(s.attempt b).terminalCode, (s.attempt b).error,
                  (s.connection.finishConnect b).state⟩ } := by
          simp [Shared.view, Shared.note, View.write, Shared.attempt, s.connection.finishConnect_eq,
            hactive]
        rw [hview]
        exact .finishes _ rfl h.2.2.2.1
      · have hview : (Shared.note { s with connection := s.connection.finishConnect a } a
            fun history => { history with
              finishView := some ⟨(s.attempt a).terminalCode, (s.attempt a).error,
                (s.connection.finishConnect a).state⟩ }).view b = s.view b := by
          refine view_of_release hactive ?_ hb ?_ ?_
          · simp [s.connection.finishConnect_eq, hactive]
          · simp [Shared.attempt, s.connection.finishConnect_eq, hb]
          · simp [Shared.note, hb]
        rw [hview]
        exact .elsewhere (not_connects_of_ne hb) (not_connects_of_ne hb) rfl (by rintro _ ⟨⟩)
  | returns raised =>
      by_cases hb : b = a
      · subst hb
        rw [view_note, if_pos rfl]
        exact .raises raised (by rintro ⟨⟩) rfl (.inl h.2.2.2.1)
      · rw [view_note, if_neg hb]
        exact .elsewhere (not_connects_of_ne hb) (not_connects (by rintro _ _ ⟨⟩)) rfl
          (by rintro _ ⟨⟩)
  | timedOut =>
      refine .nothing (.of_places hplaces (by rintro ⟨⟩) rfl ?_)
      rintro _ ⟨⟩
      rfl
  | reads =>
      refine .nothing (.of_places hplaces (by rintro ⟨⟩) rfl ?_)
      split
      · rintro _ ⟨⟩
      · rintro _ ⟨⟩
  | checked =>
      refine .nothing (.of_places hplaces (by rintro ⟨⟩) rfl ?_)
      split
      · rintro _ ⟨⟩
      · rintro _ ⟨⟩
  | waited | cancelWaited | cancelFailed | handleClosed | drained =>
      exact .nothing (.of_places hplaces (by rintro ⟨⟩) rfl (by rintro _ ⟨⟩))

/-- The place behind a stage of the cancellation that `disconnect` or `close` makes. -/
theorem after_elsewhere {a : ℕ} {next : CancelStage ⊕ Option PyError}
    (hnext : (∃ stage, next = .inl stage ∧ p'.cancel? = some (a, stage)) ∨
      ((∃ raised, next = .inr raised) ∧ p'.cancel? = none))
    (hconnects : ∀ b, ¬ p.Connects b) (hconnects' : ∀ b, ¬ p'.Connects b) : After a p p' next where
  here stage hstage := by
    obtain ⟨stage', hstage', hp'⟩ | ⟨⟨raised, hraised⟩, -⟩ := hnext
    · cases hstage'.symm.trans hstage
      exact hp'
    · cases hraised.symm.trans hstage
  gone raised hraised := by
    obtain ⟨stage', hstage', -⟩ | ⟨-, hp'⟩ := hnext
    · cases hstage'.symm.trans hraised
    · exact hp'
  connects b := iff_of_false (hconnects' b) (hconnects b)
  starting b := by
    rintro rfl
    exact hconnects b ⟨_, rfl⟩

/-- **A step of `disconnect`** writes to an attempt that it cancels. -/
theorem DisconnectMoves.wrote {stage : DisconnectStage} {act : CallAction}
    (h : DisconnectMoves errorName s i stage act s' p') (b : ℕ) :
    Wrote i b (.disconnect stage) (s.view b) (s'.view b) p' := by
  have hconnects (b : ℕ) : ¬ (Pc.disconnect stage).Connects b := not_connects (by rintro _ _ ⟨⟩)
  cases h with
  | cancels a stage stage' act s' hcancel =>
      exact hcancel.wrote rfl (after_elsewhere (.inl ⟨_, rfl, rfl⟩) hconnects
        fun b => not_connects (by rintro _ _ ⟨⟩)) b
  | cancelled a stage act s' hcancel =>
      exact hcancel.wrote rfl (after_elsewhere (.inr ⟨⟨_, rfl⟩, rfl⟩) hconnects
        fun b => not_connects (by rintro _ _ ⟨⟩)) b
  | cancelRaises a stage act s' e hcancel =>
      exact hcancel.wrote rfl (after_elsewhere (.inr ⟨⟨_, rfl⟩, rfl⟩) hconnects
        fun b => not_connects (by rintro _ _ ⟨⟩)) b
  | connected | settled | disconnected | fails | drained | writes =>
      exact .elsewhere (hconnects b) (not_connects (by rintro _ _ ⟨⟩)) rfl (by rintro _ ⟨⟩)

/-- **A step of `close`** writes to an attempt that it cancels. -/
theorem CloseMoves.wrote {g : ℕ} {stage : CloseStage} {act : CallAction}
    (h : CloseMoves errorName s i g stage act s' p') (b : ℕ) :
    Wrote i b (.close g stage) (s.view b) (s'.view b) p' := by
  have hconnects (b : ℕ) : ¬ (Pc.close g stage).Connects b := not_connects (by rintro _ _ ⟨⟩)
  cases h with
  | cancels a stage stage' act s' hcancel =>
      exact hcancel.wrote rfl (after_elsewhere (.inl ⟨_, rfl, rfl⟩) hconnects
        fun b => not_connects (by rintro _ _ ⟨⟩)) b
  | cancelled a stage act s' hcancel =>
      exact hcancel.wrote rfl (after_elsewhere (.inr ⟨⟨_, rfl⟩, rfl⟩) hconnects
        fun b => not_connects (by rintro _ _ ⟨⟩)) b
  | cancelRaises a stage act s' e hcancel =>
      exact hcancel.wrote rfl (after_elsewhere (.inr ⟨⟨_, rfl⟩, rfl⟩) hconnects
        fun b => not_connects (by rintro _ _ ⟨⟩)) b
  | fails stage act e hstage =>
      refine .elsewhere (hconnects b) (not_connects (by rintro _ _ ⟨⟩)) ?_ (by rintro _ ⟨⟩)
      rcases hstage with rfl | ⟨d, rfl⟩ | ⟨d, rfl⟩
      · rfl
      · rfl
      · rfl
  | _ => exact .elsewhere (hconnects b) (not_connects (by rintro _ _ ⟨⟩)) rfl (by rintro _ ⟨⟩)

/-- **A step of a thread** writes to one attempt at most, as `Wrote` says. -/
theorem callStep_wrote {mode : AuthMode} {act : CallAction} (hI : Attempts errorName s)
    (hat : CallAt i s p) (hstep : callStep errorName s i mode p act = some (s', p')) (b : ℕ) :
    Wrote i b p (s.view b) (s'.view b) p' := by
  unfold callStep at hstep
  split at hstep
  · rename_i raised
    have hconnects (b : ℕ) : ¬ (Pc.idle raised).Connects b := not_connects (by rintro _ _ ⟨⟩)
    rcases connectBegin_cases s i mode with ⟨e, hbegin⟩ | ⟨-, hnone, hbegin⟩
    · rw [hbegin] at hstep
      cases hstep
      exact .elsewhere (hconnects b) (not_connects (by rintro _ _ ⟨⟩)) rfl (by rintro _ ⟨⟩)
    · rw [hbegin] at hstep
      cases hstep
      by_cases hb : b = s.next
      · subst hb
        rw [view_begun_next]
        exact .begins _ s.clock hI.next_fresh hconnects
      · rw [view_begun_of_ne hnone i _ hb]
        exact .elsewhere (hconnects b) (not_connects_of_ne hb) rfl (by rintro _ ⟨⟩)
  · rename_i raised
    have hconnects : ¬ (Pc.idle raised).Connects b := not_connects (by rintro _ _ ⟨⟩)
    unfold disconnectBegin at hstep
    split at hstep
    · cases hstep
      exact .elsewhere hconnects (not_connects (by rintro _ _ ⟨⟩)) rfl (by rintro _ ⟨⟩)
    · split at hstep
      · cases hstep
        refine .elsewhere hconnects (not_connects (by rintro _ _ ⟨⟩)) rfl ?_
        rintro _ ⟨⟩
        rfl
      · cases hstep
        exact .elsewhere hconnects (not_connects (by rintro _ _ ⟨⟩)) rfl (by rintro _ ⟨⟩)
  · rename_i raised
    have hconnects : ¬ (Pc.idle raised).Connects b := not_connects (by rintro _ _ ⟨⟩)
    obtain ⟨close, ⟨pc, hbegin, -, hpc⟩ | ⟨g, stage, hbegin, -, -, hstage⟩⟩ := closeBegin_cases s
    · rw [hbegin] at hstep
      cases hstep
      rcases hpc with ⟨g, rfl⟩ | ⟨e, rfl⟩
      · exact .elsewhere hconnects (not_connects (by rintro _ _ ⟨⟩)) rfl (by rintro _ ⟨⟩)
      · exact .elsewhere hconnects (not_connects (by rintro _ _ ⟨⟩)) rfl (by rintro _ ⟨⟩)
    · rw [hbegin] at hstep
      cases hstep
      refine .elsewhere hconnects (not_connects (by rintro _ _ ⟨⟩)) rfl ?_
      rcases hstage with ⟨-, rfl⟩ | ⟨a, -, rfl⟩
      · rintro _ ⟨⟩
      · rintro _ ⟨⟩
        rfl
  · exact (connectStep_cases hstep).wrote hat b
  · exact (disconnectStep_cases hstep).wrote b
  · obtain ⟨outcome, -, hwake⟩ := Option.bind_eq_some_iff.mp hstep
    obtain ⟨close, -, hnext⟩ := Option.map_eq_some_iff.mp hwake
    cases hnext
    exact .elsewhere (not_connects (by rintro _ _ ⟨⟩)) (not_connects (by rintro _ _ ⟨⟩)) rfl
      (by rintro _ ⟨⟩)
  · exact (closeStep_cases hstep).wrote b
  · cases hstep

/-! ## The Runtime and the pool -/

/-- **What the Runtime and the pool do to an attempt**: they bring the active one its terminal
code. -/
inductive Brought (v : View ι) : View ι → Prop
  | nothing : Brought v v
  | settled (code : ℤ) (causes : List (Cause × ℤ)) :
      Brought v (v.write v.active
        (fun attempt => { attempt with terminalCode := some code, done := true })
        fun history => { history with causes := causes })

/-- They neither finish the attempt nor give it away. -/
theorem Brought.same {v v' : View ι} (h : Brought v v') :
    v'.attempt.finished = v.attempt.finished ∧ v'.history.owner = v.history.owner := by
  cases h with
  | nothing | settled => exact ⟨rfl, rfl⟩

theorem environmentStep_brought {e : Environment} (hstep : environmentStep s e = some s') (b : ℕ) :
    Brought (s.view b) (s'.view b) := by
  cases e with
  | post kind values =>
      cases hstep
      exact .nothing
  | managedComplete a code =>
      simp only [environmentStep] at hstep
      split at hstep
      · cases hstep
        rcases managedComplete_cases s a code with ⟨-, -, heq⟩ | heq
        · rw [heq]
          by_cases hb : b = a
          · subst hb
            rw [view_change_self]
            exact .settled code _
          · rw [view_change_of_ne hb]
            exact .nothing
        · rw [heq]
          exact .nothing
      · cases hstep
  | drainBegin =>
      simp only [environmentStep] at hstep
      split at hstep
      · cases hstep
      · cases hstep
        exact .nothing
  | handle =>
      obtain ⟨event, -, rfl⟩ := Option.map_eq_some_iff.mp hstep
      rcases deliver_cases s event with
        ⟨⟨state, heq⟩, -⟩ | ⟨a, state, code, t, -, -, -, -, heq⟩
      · rw [heq]
        exact .nothing
      · rw [heq]
        by_cases hb : b = a
        · subst hb
          rw [view_change_self]
          exact .settled t _
        · rw [view_change_of_ne hb]
          exact .nothing
  | drainEnd =>
      simp only [environmentStep] at hstep
      split at hstep
      · cases hstep
        exact .nothing
      · cases hstep

/-! ## What holds of an attempt -/

/-- **What its record says of an attempt**: `done` is set with the terminal code, a handle is that
of a managed attempt whose start has succeeded, and an attempt is active while it is cancelled,
unless its start has failed. -/
structure Kept (v : View ι) : Prop where
  done : v.attempt.terminalCode ≠ none → v.attempt.done = true
  handle : v.attempt.managedHandle ≠ none → v.attempt.managed = true ∧
    v.attempt.nativeStarted = true ∧ v.history.startFailed = false
  held : v.attempt.cancelling = true → v.attempt.cancelFinished = false →
    v.active = true ∨ v.history.startFailed = true

/-- A step of a thread keeps it. -/
theorem Kept.wrote (h : Kept v) (hwrote : Wrote i b p v v' p') : Kept v' := by
  cases hwrote with
  | nothing => exact h
  | begins managed bornAt =>
      refine ⟨?_, ?_, ?_⟩
      · exact fun hne => absurd rfl hne
      · exact fun hne => absurd rfl hne
      · exact fun hc => absurd hc Bool.false_ne_true
  | started clock hp hnative hstart =>
      refine ⟨h.done, ?_, h.held⟩
      intro hne
      have hmanaged : v.attempt.managed = true := by
        by_contra hmanaged
        exact hne (if_neg hmanaged)
      exact ⟨hmanaged, rfl, hstart⟩
  | notStarted e hp hnative =>
      refine ⟨h.done, ?_, fun _ _ => .inr rfl⟩
      intro hne
      have hstarted := (h.handle hne).2.1
      exact absurd (hnative.symm.trans hstarted) Bool.false_ne_true
  | rolledBack e hp hstart => exact ⟨h.done, h.handle, fun _ _ => .inr hstart⟩
  | ends raised => exact ⟨h.done, h.handle, h.held⟩
  | raises raised => exact ⟨h.done, h.handle, h.held⟩
  | performs error hstays hp' hactive => exact ⟨h.done, h.handle, fun _ _ => .inl hactive⟩
  | cancelFailed => exact ⟨h.done, h.handle, h.held⟩
  | settled code causes => exact ⟨fun _ => rfl, h.handle, h.held⟩
  | done => exact ⟨fun _ => rfl, h.handle, h.held⟩
  | leaves raised =>
      refine ⟨h.done, h.handle, ?_⟩
      intro _ hfin
      cases hfin
  | closeFailed e => exact ⟨h.done, h.handle, h.held⟩
  | finishes seen hp hquiet =>
      refine ⟨h.done, h.handle, ?_⟩
      intro hc hfin
      exact absurd (hfin.symm.trans (hquiet hc)) Bool.false_ne_true

/-- So does a step of the Runtime or the pool. -/
theorem Kept.brought (h : Kept v) (hbrought : Brought v v') : Kept v' := by
  cases hbrought with
  | nothing => exact h
  | settled code causes => exact ⟨fun _ => rfl, h.handle, h.held⟩

/-- **Where thread `i` is, from what attempt `b` says of it.** -/
structure Placed (i : ι) (b : ℕ) (v : View ι) (p : Pc) : Prop where
  running : v.history.owner = some i → v.attempt.finished = false →
    ¬ (v.attempt.cancelFinished = true ∧ v.history.cancelFailed = true) → p.Connects b
  starting : v.history.owner = some i → v.attempt.nativeStarted = false → p = .connect b .starting
  cancelling : v.history.canceller = some i → v.attempt.cancelFinished = false → p.Cancels b
  completing : p.Completes b → v.attempt.managedHandle ≠ none

/-- **A step of the thread keeps it.** -/
theorem Placed.wrote (h : Placed i b v p) (hwrote : Wrote i b p v v' p') : Placed i b v' p' := by
  cases hwrote with
  | nothing hstays | settled code causes hstays | done hstays =>
      refine ⟨?_, ?_, ?_, ?_⟩
      · exact fun howner hfin hfailed => hstays.connects.mpr (h.running howner hfin hfailed)
      · exact fun howner hnative => absurd (h.starting howner hnative) hstays.starting
      · exact fun hcanceller hfin => hstays.cancels (h.cancelling hcanceller hfin)
      · exact fun hp' => (hstays.completes hp').elim h.completing id
  | cancelFailed hstays =>
      refine ⟨?_, ?_, ?_, ?_⟩
      · intro howner hfin hfailed
        refine hstays.connects.mpr (h.running howner hfin ?_)
        exact fun hboth => hfailed ⟨hboth.1, rfl⟩
      · exact fun howner hnative => absurd (h.starting howner hnative) hstays.starting
      · exact fun hcanceller hfin => hstays.cancels (h.cancelling hcanceller hfin)
      · exact fun hp' => (hstays.completes hp').elim h.completing id
  | performs error hstays hp' hactive =>
      refine ⟨?_, ?_, fun _ _ => hp', ?_⟩
      · exact fun howner hfin hfailed => hstays.connects.mpr (h.running howner hfin hfailed)
      · exact fun howner hnative => absurd (h.starting howner hnative) hstays.starting
      · exact fun hp' => (hstays.completes hp').elim h.completing id
  | leaves raised hconnects hstarting hcompletes =>
      refine ⟨?_, ?_, ?_, fun hp' => absurd hp' hcompletes⟩
      · intro howner hfin hfailed
        refine hconnects.mpr (h.running howner hfin ?_)
        exact fun hboth => hfailed ⟨rfl, hboth.2⟩
      · exact fun howner hnative => absurd (h.starting howner hnative) hstarting
      · intro _ hfin
        cases hfin
  | begins managed bornAt hfresh hconnects =>
      refine ⟨fun _ _ _ => ⟨_, rfl⟩, fun _ _ => rfl, ?_, fun hp' => absurd hp' (not_completes rfl)⟩
      intro hcanceller
      cases hcanceller
  | started clock hp hnative hstart | notStarted e hp hnative =>
      subst hp
      refine ⟨fun _ _ _ => ⟨_, rfl⟩, ?_, ?_, fun hp' => absurd hp' (not_completes rfl)⟩
      · intro _ hnative'
        cases hnative'
      · exact fun hcanceller hfin => absurd (h.cancelling hcanceller hfin) (not_cancels rfl)
  | rolledBack e hp hstart | closeFailed e hp | finishes seen hp hquiet =>
      subst hp
      refine ⟨fun _ _ _ => ⟨_, rfl⟩, ?_, ?_, fun hp' => absurd hp' (not_completes rfl)⟩
      · intro howner hnative
        cases h.starting howner hnative
      · exact fun hcanceller hfin => absurd (h.cancelling hcanceller hfin) (not_cancels rfl)
  | ends raised hconnects hstarting hcancel =>
      refine ⟨?_, ?_, ?_, fun hp' => absurd hp' (not_completes rfl)⟩
      · intro _ hfin
        cases hfin
      · exact fun howner hnative => absurd (h.starting howner hnative) hstarting
      · exact fun hcanceller hfin => absurd (h.cancelling hcanceller hfin) (not_cancels hcancel)
  | raises raised hstarting hcancel hover =>
      refine ⟨?_, ?_, ?_, fun hp' => absurd hp' (not_completes rfl)⟩
      · intro _ hfin hfailed
        rcases hover with hover | hover
        · exact absurd (hfin.symm.trans hover) Bool.false_ne_true
        · exact absurd hover hfailed
      · exact fun howner hnative => absurd (h.starting howner hnative) hstarting
      · exact fun hcanceller hfin => absurd (h.cancelling hcanceller hfin) (not_cancels hcancel)

/-- The attempt says no more of thread `j` than before. -/
structure Fewer (j : ι) (v v' : View ι) : Prop where
  owner : v'.history.owner = some j → v.history.owner = some j
  canceller : v'.history.canceller = some j → v.history.canceller = some j
  finished : v.attempt.finished = true → v'.attempt.finished = true
  nativeStarted : v.attempt.nativeStarted = true → v'.attempt.nativeStarted = true
  cancelFinished : v.attempt.cancelFinished = true → v'.attempt.cancelFinished = true
  cancelFailed : v.history.cancelFailed = true → v'.history.cancelFailed = true
  handle : v.attempt.managedHandle ≠ none → v'.attempt.managedHandle ≠ none

theorem Placed.fewer (h : Placed j b v q) (hfewer : Fewer j v v') : Placed j b v' q where
  running howner hfin hfailed := by
    refine h.running (hfewer.owner howner) ?_ ?_
    · exact Bool.eq_false_iff.mpr fun hfin' => Bool.eq_false_iff.mp hfin (hfewer.finished hfin')
    · exact fun hboth => hfailed ⟨hfewer.cancelFinished hboth.1, hfewer.cancelFailed hboth.2⟩
  starting howner hnative := by
    refine h.starting (hfewer.owner howner) ?_
    exact Bool.eq_false_iff.mpr fun hstarted =>
      Bool.eq_false_iff.mp hnative (hfewer.nativeStarted hstarted)
  cancelling hcanceller hfin := by
    refine h.cancelling (hfewer.canceller hcanceller) ?_
    exact Bool.eq_false_iff.mpr fun hfin' => Bool.eq_false_iff.mp hfin (hfewer.cancelFinished hfin')
  completing hq := hfewer.handle (h.completing hq)

/-- A step of another thread says nothing new of this one. -/
theorem Wrote.fewer (hwrote : Wrote i b p v v' p') (hok : AttemptOk errorName v) (hkept : Kept v)
    (hj : j ≠ i) : Fewer j v v' := by
  have hne : some i ≠ some j := fun heq => hj (Option.some.inj heq).symm
  cases hwrote with
  | nothing | settled | done | rolledBack | closeFailed | raises =>
      exact ⟨id, id, id, id, id, id, id⟩
  | cancelFailed => exact ⟨id, id, id, id, id, fun _ => rfl, id⟩
  | begins managed bornAt hfresh =>
      obtain ⟨-, hattempt, hhistory⟩ := hok.fresh hfresh
      refine ⟨fun howner => absurd howner hne, ?_, ?_, ?_, ?_, ?_, ?_⟩
      · rintro ⟨⟩
      all_goals simp [hattempt, hhistory]
  | started clock hp hnative hstart =>
      refine ⟨id, id, id, fun _ => rfl, id, id, ?_⟩
      intro hne
      exact absurd (hnative.symm.trans (hkept.handle hne).2.1) Bool.false_ne_true
  | notStarted e hp hnative => exact ⟨id, id, id, fun _ => rfl, id, id, id⟩
  | ends raised | finishes seen => exact ⟨id, id, fun _ => rfl, id, id, id, id⟩
  | performs error => exact ⟨id, fun hcanceller => absurd hcanceller hne, id, id, id, id, id⟩
  | leaves raised => exact ⟨id, id, id, id, fun _ => rfl, id, id⟩

/-- An attempt that nobody is in the `connect` of does not come to its end. -/
theorem Wrote.abandoned (hwrote : Wrote i b p v v' p') (hmade : v.history.owner ≠ none)
    (hp : ¬ p.Connects b) :
    v'.history.owner = v.history.owner ∧ v'.attempt.finished = v.attempt.finished ∧
      ¬ p'.Connects b := by
  cases hwrote with
  | nothing hstays | settled code causes hstays | done hstays | cancelFailed hstays
  | performs error hstays =>
      exact ⟨rfl, rfl, mt hstays.connects.mp hp⟩
  | leaves raised hconnects => exact ⟨rfl, rfl, mt hconnects.mp hp⟩
  | begins managed bornAt hfresh => exact absurd hfresh hmade
  | started clock hp' | notStarted e hp' | rolledBack e hp' | closeFailed e hp'
  | finishes seen hp' => exact absurd ⟨_, hp'⟩ hp
  | ends raised hp' => exact absurd hp' hp
  | raises raised => exact ⟨rfl, rfl, not_connects (by rintro _ _ ⟨⟩)⟩

theorem Brought.fewer (hbrought : Brought v v') : Fewer j v v' := by
  cases hbrought with
  | nothing | settled => exact ⟨id, id, id, id, id, id, id⟩

/-! ## All runs -/

section Runs

variable [DecidableEq ι] {mode : AuthMode} {c : Config ι (Shared ι) Pc}

/-- **In every run**, each attempt keeps what its record says, and each thread is where the attempts
say that it is. -/
theorem reach_placed (hc : (callsMachine ι mode errorName).Reach c) (b : ℕ) :
    Kept (c.shared.view b) ∧ ∀ j, Placed j b (c.shared.view b) (c.pc j) := by
  have hattempts : ∀ c, (callsMachine ι mode errorName).Reach c →
      Attempts errorName c.shared ∧ ∀ i, CallAt i c.shared (c.pc i) :=
    fun c hc => reach_attempts hc
  refine hc.invariant_of (I := fun c => Kept (c.shared.view b) ∧
    ∀ j, Placed j b (c.shared.view b) (c.pc j)) hattempts ?_ ?_
  · rintro ⟨shared, pc⟩ ⟨hstart, hpc⟩ -
    obtain rfl : shared = {} := hstart
    obtain rfl : pc = fun _ => .idle none := hpc
    refine ⟨⟨?_, ?_, ?_⟩, fun j => ⟨?_, ?_, ?_, fun hp => absurd hp (not_completes rfl)⟩⟩
    all_goals simp [Shared.view, Shared.attempt]
  · rintro c (⟨i, act⟩ | e) c' hbefore - ⟨hkept, hplaced⟩ - hstep
    · obtain ⟨⟨s', p'⟩, hnext, rfl⟩ := Option.map_eq_some_iff.mp hstep
      have hwrote := callStep_wrote hbefore.1 (hbefore.2 i) hnext b
      refine ⟨hkept.wrote hwrote, fun j => ?_⟩
      by_cases hj : j = i
      · subst hj
        simpa using (hplaced j).wrote hwrote
      · simpa [hj] using (hplaced j).fewer (hwrote.fewer (hbefore.1.ok b) hkept hj)
    · obtain ⟨s', hnext, rfl⟩ := Option.map_eq_some_iff.mp hstep
      have hbrought := environmentStep_brought hnext b
      exact ⟨hkept.brought hbrought, fun j => (hplaced j).fewer hbrought.fewer⟩

end Runs

end Tirtc
