import Tirtc.Teardown.HandleControl

/-!
# No native call with a destroyed handle

`disconnect` looks under the lock whether the Connection is open, and makes its native call behind
it; `close` does not wait for it. So it may come to its native call when the handle has been
destroyed. Where no such call is on its way when the native close succeeds, the handle is not used
any more.

* `pendingCall`, `pending`: a thread has passed its check and has still to make a native call.
* `unpended`: the condition on the native close.
* `Harmless`, `Calms`: what holds of every thread once the handle is gone, and what the steps do to
  the attempts meanwhile; `harmless_step`, the step lemma.
* `never_late`, `refused_step`: no native function is called late, and a call that meets a closing
  Connection changes nothing.
* `handle_unused_after_close`: both, in every run under the condition; `used_after_close`: the run
  of the defect. -/

set_option autoImplicit false
set_option linter.unusedSectionVars false

namespace Tirtc.HandleUse

open Transition Outputs

variable {O ι : Type} [DecidableEq O] {errorName : ℤ → String} {mode : AuthMode}
  {s s' : Handle O ι} {i : ι} {pc pc' : HandlePc O}

/-! ## The condition -/

/-- `disconnect` finds this attempt connected.
Source: `_core.py`, `Connection.disconnect` -/
def connects (attempt : ConnectState) : Bool :=
  attempt.error.isNone && attempt.terminalCode == some 0

theorem connects_iff {attempt : ConnectState} :
    connects attempt = true ↔ attempt.error = none ∧ attempt.terminalCode = some 0 := by
  simp [connects]

/-- Its cancellation would come to a native call.
Source: `_core.py`, `Connection._cancel_connect` -/
def cancellable (attempt : ConnectState) : Bool :=
  !attempt.finished && (!attempt.managed || attempt.managedHandle.isSome)

/-- A `disconnect` here has passed its check, and has still to make a native call.
Source: `_core.py`, `Connection.disconnect` and `Connection._cancel_connect` -/
def pendingCall (s : Shared ι) : Pc → Bool
  | .disconnect .native => true
  | .disconnect (.awaitFinished a) | .disconnect (.cancel a .enter) => connects (s.attempt a)
  | .disconnect (.cancel a .start) => cancellable (s.attempt a)
  | .disconnect (.cancel _ .attemptCancel) | .disconnect (.cancel _ .awaitDone) => true
  | .disconnect (.cancel _ .disconnect) => true
  | _ => false

/-- So has an `attach` whose Output somebody has taken out of the set of the Connection. -/
def pending (s : Handle O ι) : HandlePc O → Bool
  | .call pc => pendingCall s.shared pc
  | .output (.attach o _ .native) => decide (o ∉ s.outputs)
  | _ => false

/-- **The condition**: when the native close of the handle succeeds, no thread has still to make a
native call with it. -/
def unpended (c : Config ι (Handle O ι) (HandlePc O)) : Label ι (HandleAction O) Environment → Prop
  | .thread i (.call act) => ∀ p, c.pc i = .call p → destroys p act = true →
      ∀ j, pending c.shared (c.pc j) = false
  | _ => True

instance [Fintype ι] (c : Config ι (Handle O ι) (HandlePc O)) :
    (l : Label ι (HandleAction O) Environment) → Decidable (unpended c l)
  | .thread i (.call act) =>
      match hp : c.pc i with
      | .call p => decidable_of_iff (destroys p act = true → ∀ j, pending c.shared (c.pc j) = false)
          ⟨fun h p' hp' => by cases hp.symm.trans hp'; exact h, fun h => h p hp⟩
      | .output _ => isTrue fun p hp' => by cases hp.symm.trans hp'
      | .operation => isTrue fun p hp' => by cases hp.symm.trans hp'
  | .thread _ (.output _) | .thread _ (.close _) => isTrue trivial
  | .thread _ .operate | .thread _ (.operated _) => isTrue trivial
  | .env _ => isTrue trivial

/-! ## Behind the native close -/

/-- A thread here will not call a native function with the handle. -/
def Harmless (s : Handle O ι) : HandlePc O → Prop
  | .call pc => pendingCall s.shared pc = false
  | .output pc => usesOutput pc = false
  | .operation => True

/-- What a step does to the attempts: none is found connected that was not, and none gets in the way
of a cancellation that was not. -/
def Calms (s t : Shared ι) : Prop :=
  ∀ a, (connects (t.attempt a) = true → connects (s.attempt a) = true) ∧
    (cancellable (t.attempt a) = true → cancellable (s.attempt a) = true)

/-- A step that leaves the attempts alone. -/
theorem Calms.same {t t' : Shared ι} (h : t'.connection.attempts = t.connection.attempts) :
    Calms t t' := by
  intro a
  simp only [Shared.attempt, h]
  exact ⟨fun h => h, fun h => h⟩

/-- A step of a call that starts no attempt. -/
theorem Calms.ofFrame {k : Option ι} {t t' : Shared ι} {p : Pc} (hframe : Frame t t' p)
    (hG : Guarantees k t t') (hp : ∀ a, p ≠ .connect a .starting) : Calms t t' := by
  intro a
  refine ⟨?_, ?_⟩
  · intro h
    obtain ⟨herror, hterminal⟩ := connects_iff.mp h
    exact connects_iff.mpr ⟨hframe.error a herror, hframe.terminal a hterminal⟩
  · intro h
    have hsame := (hframe.handle a).resolve_right (hp a)
    simp only [cancellable, hsame.1, hsame.2, Bool.and_eq_true, Bool.not_eq_true'] at h ⊢
    refine ⟨Bool.eq_false_iff.mpr fun hfinished => ?_, h.2⟩
    have hfinished' : (t'.attempt a).finished = true := (hG a).finished hfinished
    exact absurd (h.1.symm.trans hfinished') (by simp)

/-- No step makes a harmless thread wait for a native call. -/
theorem Calms.pendingCall {t t' : Shared ι} (h : Calms t t') {p : Pc}
    (hp : pendingCall t p = false) : pendingCall t' p = false := by
  apply Bool.eq_false_iff.mpr
  intro hp'
  unfold HandleUse.pendingCall at hp hp'
  split at hp'
  · cases hp
  · exact absurd (hp.symm.trans ((h _).1 hp')) (by simp)
  · exact absurd (hp.symm.trans ((h _).1 hp')) (by simp)
  · exact absurd (hp.symm.trans ((h _).2 hp')) (by simp)
  · cases hp
  · cases hp
  · cases hp
  · cases hp'

/-- The others stay harmless. -/
theorem Harmless.stable (h : Calms s.shared s'.shared) (hA : Harmless s pc) : Harmless s' pc := by
  cases pc with
  | call p => exact h.pendingCall hA
  | output p => exact hA
  | operation => trivial

/-- What the destroyed handle says about the Connection. -/
theorem Ok.gone (hs : Ok errorName s) (h : s.destroyed = true) :
    s.status ≠ .open ∧ Settled s.shared := by
  refine ⟨?_, hs.settled h⟩
  rcases hs.destroyed h with hst | hst
  · simp [hst]
  · simp [hst]

/-- No owner of an attempt is at work any more. -/
theorem Settled.not_owns {t : Shared ι} {a : ℕ} (h : Settled t) : ¬ Owns i (t.view a) := by
  intro howns
  have hactive : t.connection.activeConnect = some a := (view_active t a).mp howns.active
  have hfinished : (t.attempt a).finished = false := howns.unfinished
  exact absurd ((h a hactive).symm.trans hfinished) (by simp)

/-- **An attempt that is still active then** has failed: it has been cancelled, or it has a code. -/
theorem Ok.active_over {a : ℕ} (hs : Ok errorName s) (hsettled : Settled s.shared)
    (hactive : s.shared.connection.activeConnect = some a) :
    (s.shared.attempt a).terminalCode ≠ none ∨ (s.shared.attempt a).cancelling = true := by
  have hok := hs.attempts.ok a
  rcases hok.unfinished ((view_active _ a).mpr hactive) (hsettled a hactive) with hcancel | hclose
  · exact .inr (hok.cancelFailed hcancel)
  · rcases hs.failed a hclose with hterminal | hfinished
    · exact .inl hterminal
    · exact .inr (hok.cancelFinished hfinished)

/-- A cancelled attempt is not found connected. -/
theorem Ok.not_connects {a : ℕ} (hs : Ok errorName s)
    (h : (s.shared.attempt a).cancelling = true) : connects (s.shared.attempt a) = false := by
  apply Bool.eq_false_iff.mpr
  intro hconnects
  exact (hs.attempts.ok a).error.mpr h (connects_iff.mp hconnects).1

/-- The Runtime and the pool do not connect an attempt any more. -/
theorem calms_environment {t : Shared ι} (hs : Ok errorName s) (hsettled : Settled s.shared)
    (h : EnvironmentFrame s.shared t) (hG : Guarantees none s.shared t) : Calms s.shared t := by
  intro a
  rcases h.attempt a with hsame | ⟨hactive, code, hcode⟩
  · rw [hsame]
    exact ⟨fun h => h, fun h => h⟩
  · refine ⟨?_, ?_⟩
    · intro hconnects
      obtain ⟨herror, hzero⟩ := connects_iff.mp hconnects
      have herror : (s.shared.attempt a).error = none := by simpa [hcode] using herror
      refine connects_iff.mpr ⟨herror, ?_⟩
      rcases hs.active_over hsettled hactive with hterminal | hcancelling
      · rcases (hG a).terminal with hmoves | hnone | ⟨-, code', hne, hmoves⟩
        · exact hmoves.symm.trans hzero
        · exact absurd hnone hterminal
        · -- a code that replaces `0` is another one
          exact absurd (Option.some.inj (hmoves.symm.trans hzero)) hne
      · exact absurd herror ((hs.attempts.ok a).error.mpr hcancelling)
    · intro hcancellable
      rw [hcode] at hcancellable
      exact hcancellable

/-! ## The steps behind the native close -/

/-- What a step behind the native close does: it makes no native call with the handle, and the
threads stay harmless. -/
structure Rests (s s' : Handle O ι) (pc' : HandlePc O) : Prop where
  late : s'.late = s.late
  harmless : Harmless s' pc'
  calms : Calms s.shared s'.shared

/-- A harmless stage of `_cancel_connect` in `disconnect` comes to no native call. -/
theorem pending_cancels {a : ℕ} {stage stage' : CancelStage} {act : CallAction} {t : Shared ι}
    {error : PyError} (hs : Ok errorName s) (hsettled : Settled s.shared)
    (h : CancelMoves s.shared i a error stage act t (.inl stage'))
    (hp : pendingCall s.shared (.disconnect (.cancel a stage)) = false) :
    pendingCall t (.disconnect (.cancel a stage')) = false := by
  cases h with
  | performs hactive hterminal hcancelling =>
      rcases hs.active_over hsettled hactive with hover | hover
      · exact absurd hterminal hover
      · exact absurd (hcancelling.symm.trans hover) (by simp)
  | toAttempt hstarted hfinished hmanaged hhandle =>
      have hsome : (s.shared.attempt a).managedHandle.isSome = true :=
        Option.isSome_iff_ne_none.mpr hhandle
      simp [pendingCall, cancellable, hfinished, hsome] at hp
  | toDisconnect hstarted hfinished hmanaged =>
      simp [pendingCall, cancellable, hfinished, hmanaged] at hp
  | attemptCancelled => cases hp
  | connected hdone hterminal => cases hp
  | ended hdone hterminal => cases hp
  | disconnected => cases hp
  | failed stage r e hstage hr => rfl
  | drained hdrained => split <;> rfl
  | _ => rfl

/-- Nor does what `disconnect` does behind it. -/
theorem pending_cancelled {a : ℕ} {stage : CancelStage} {act : CallAction} {t : Shared ι}
    {error : PyError} (hs : Ok errorName s) (hA : CancelAt i (s.shared.view a) stage)
    (h : CancelMoves s.shared i a error stage act t (.inr none))
    (hp : pendingCall s.shared (.disconnect (.cancel a stage)) = false) :
    connects (t.attempt a) = false := by
  generalize hnext : (Sum.inr none : CancelStage ⊕ Option PyError) = next at h
  cases h with
  | settled hover => exact hp
  | joined hfinished => exact hs.not_connects hA
  | leaves raised =>
      have hcancelling : (s.shared.attempt a).cancelling = true :=
        (hA.1.unseen (hs.attempts.ok a)).1
      have hnot := hs.not_connects hcancelling
      simpa [connects] using hnot
  | _ => cases hnext

/-- A harmless call stays so. -/
theorem pending_call {p q : Pc} {act : CallAction} {t : Shared ι} (hs : Ok errorName s)
    (hgone : s.status ≠ .open) (hsettled : Settled s.shared) (hA : CallAt i s.shared p)
    (h : callStep errorName s.shared i mode p act = some (t, q))
    (hact : ∀ raised, p = .idle raised → act ≠ .close) (hp : pendingCall s.shared p = false) :
    pendingCall t q = false := by
  cases p with
  | idle raised =>
      cases act with
      | connect =>
          rcases connectBegin_cases s.shared i mode with ⟨e, heq⟩ | ⟨-, -, heq⟩
          all_goals
            cases heq.symm.trans (Option.some.inj h)
            rfl
      | disconnect =>
          rcases disconnectBegin_cases s.shared with ⟨e, -, heq⟩ | ⟨hopen, -⟩
          · cases heq.symm.trans (Option.some.inj h)
            rfl
          · exact absurd hopen hgone
      | close => exact absurd rfl (hact raised rfl)
      | _ => cases h
  | connect a stage =>
      cases connectStep_cases h with
      | _ => rfl
  | disconnect stage =>
      cases disconnectStep_cases h with
      | cancels a stage stage' act t hcancel => exact pending_cancels hs hsettled hcancel hp
      | cancelled a stage act t hcancel => exact pending_cancelled hs hA hcancel hp
      | connected a hfinished hconnected =>
          exact absurd (hp.symm.trans (connects_iff.mpr hconnected)) (by simp)
      | disconnected => cases hp
      | _ => rfl
  | closeJoin g =>
      cases act with
      | go =>
          obtain ⟨outcome, -, hwake⟩ := Option.bind_eq_some_iff.mp h
          obtain ⟨close, -, hnext⟩ := Option.map_eq_some_iff.mp hwake
          cases hnext
          rfl
      | _ => cases h
  | close g stage =>
      cases closeStep_cases h with
      | _ => rfl

/-- A step of a call that makes no attempt leaves the attempts in their frame. -/
theorem call_frame {p q : Pc} {act : CallAction} {t : Shared ι} (hopen : s.status ≠ .open)
    (hact : ∀ raised, p = .idle raised → act ≠ .close)
    (h : callStep errorName s.shared i mode p act = some (t, q)) : Frame s.shared t p := by
  cases p with
  | idle raised =>
      cases act with
      | connect =>
          rcases connectBegin_cases s.shared i mode with ⟨e, heq⟩ | ⟨hnone, -⟩
          · cases heq.symm.trans (Option.some.inj h)
            exact .refl _ _
          · exact absurd (CloseCoordinator.requireOpen_eq_none.mp hnone) hopen
      | disconnect =>
          rcases disconnectBegin_cases s.shared with ⟨e, -, heq⟩ | ⟨-, stage, heq⟩
          all_goals
            cases heq.symm.trans (Option.some.inj h)
            exact .refl _ _
      | close => exact absurd rfl (hact raised rfl)
      | _ => cases h
  | connect a stage => exact (connectStep_cases h).frame.1
  | disconnect stage => exact (disconnectStep_cases h).frame.1
  | closeJoin g =>
      cases act with
      | go =>
          obtain ⟨outcome, -, hwake⟩ := Option.bind_eq_some_iff.mp h
          obtain ⟨close, -, hnext⟩ := Option.map_eq_some_iff.mp hwake
          cases hnext
          exact .same rfl rfl rfl
      | _ => cases h
  | close g stage => exact (closeStep_cases h).frame

/-- A harmless call makes no native call with the handle. -/
theorem not_uses {p : Pc} (hs : Ok errorName s) (hgone : s.destroyed = true)
    (hA : Here i s (.call p)) (hp : pendingCall s.shared p = false) : uses p = false := by
  have hsettled := (hs.gone hgone).2
  have hfree : s.destroyed ≠ false := by simp [hgone]
  cases p with
  | connect a stage =>
      cases stage with
      | starting => exact absurd hA.1 hsettled.not_owns
      | cancel stage => exact absurd hA.1 hsettled.not_owns
      | _ => rfl
  | disconnect stage =>
      cases stage with
      | native => cases hp
      | cancel a stage =>
          cases stage with
          | disconnect => cases hp
          | _ => rfl
      | _ => rfl
  | close g stage =>
      cases stage with
      | cancel a stage => exact absurd hA.2.2.1 hfree
      | disconnect d => exact absurd hA.2.2.1 hfree
      | destroy d => exact absurd hA.2.2.1 hfree
      | _ => rfl
  | _ => rfl

/-- What a thread that goes on with the Outputs of a snapshot is harmless. -/
theorem harmless_detachNext (g : ℕ) (rest : List O) : Harmless s (detachNext g rest) := by
  cases rest with
  | nil => rfl
  | cons o rest => rfl

/-- A step of a call. -/
theorem rests_call {p : Pc} {act : CallAction} (hs : Ok errorName s) (hgone : s.destroyed = true)
    (hA : Here i s (.call p)) (hp : pendingCall s.shared p = false)
    (hact : ∀ raised, p = .idle raised → act ≠ .close)
    (h : callSection errorName mode s i p act = some (s', pc')) : Rests s s' pc' := by
  have huses := not_uses hs hgone hA hp
  obtain ⟨hopen, hsettled⟩ := hs.gone hgone
  unfold callSection at h
  split at h
  · cases h
  obtain ⟨⟨t, q⟩, hstep, h⟩ := Option.map_eq_some_iff.mp h
  cases h
  have hspec := callStep_spec hs.attempts hA.call hstep
  have hnext := pending_call hs hopen hsettled hA.call hstep hact hp
  refine ⟨by simp [huses], ?_, ?_⟩
  · unfold afterCall
    split
    · exact harmless_detachNext _ _
    · exact hnext
  · have hstarting : ∀ a, p ≠ .connect a .starting := by
      rintro a rfl
      exact absurd hA.1 hsettled.not_owns
    exact .ofFrame (call_frame hopen hact hstep) hspec.step.2 hstarting

/-- A step of a call on an Output. -/
theorem rests_output {opc : BindingPc O Unit} {oact : BindingAction O Unit} (hs : Ok errorName s)
    (hgone : s.destroyed = true) (hA : Outputs.At i s.bindings opc) (hcall : OutputCall s opc oact)
    (huses : usesOutput opc = false)
    (h : outputSection errorName s i opc oact = some (s', pc')) : Rests s s' pc' := by
  have hopen := (hs.gone hgone).1
  unfold outputSection at h
  split at h
  · cases h
  obtain ⟨⟨b, opc'⟩, hstep, h⟩ := Option.map_eq_some_iff.mp h
  cases h
  have hnext := (outputMoves hA hcall (bindingStep_cases hstep)).next
  refine ⟨by simp [huses], ?_, .same rfl⟩
  unfold afterOutput
  split
  · rfl
  · exact harmless_detachNext _ _
  · rfl
  next hidle _ _ =>
    cases opc' with
    | attach o p stage =>
        cases stage with
        | native => exact absurd hnext hopen
        | _ => rfl
    | _ => rfl

/-- **The step lemma**: behind the native close a harmless thread makes no native call with the
handle, and stays harmless. -/
theorem harmless_step {act : HandleAction O} (hs : Ok errorName s) (hgone : s.destroyed = true)
    (hA : Here i s pc) (hp : Harmless s pc)
    (h : handleStep errorName mode s i pc act = some (s', pc')) : Rests s s' pc' := by
  obtain ⟨hopen, hsettled⟩ := hs.gone hgone
  unfold handleStep at h
  split at h
  · unfold operationBegin at h
    split at h
    · cases h
    split at h
    · cases h
      exact ⟨rfl, rfl, .same rfl⟩
    next hnone => exact absurd (CloseCoordinator.requireOpen_eq_none.mp hnone) hopen
  · have hlock : s.lock = some i := hA
    exact absurd (hs.lock (by simp [hlock])) hopen
  next raised order =>
    unfold closeSection at h
    split at h
    · cases h
    split at h
    next =>
      obtain ⟨close, ⟨q, heq, -, hq⟩ | ⟨g, stage, heq, hst, -⟩⟩ := closeBegin_cases s.shared
      · simp only [heq] at h
        rcases hq with ⟨g, rfl⟩ | ⟨e, rfl⟩
        all_goals
          cases h
          exact ⟨rfl, rfl, .same rfl⟩
      · -- no teardown begins on a Connection that is being closed, or is closed
        rcases hs.destroyed hgone with hend | hend
        all_goals
          rcases hst with hst | hst
          · exact absurd (hst.symm.trans hend) (by simp)
          · exact absurd (hst.symm.trans hend) (by simp)
    next => cases h
  · cases h
  next hact => exact rests_call hs hgone hA hp (fun raised hp hclose => hact raised hp hclose) h
  next raised o p =>
    have hat : Outputs.At i s.bindings (.idle raised) := trivial
    have hcall : OutputCall s (.idle raised) (.attach o p) := trivial
    exact rests_output hs hgone hat hcall rfl h
  next raised o callback =>
    have hat : Outputs.At i s.bindings (.idle raised) := trivial
    have hcall : OutputCall s (.idle raised) (.detach o callback) := trivial
    exact rests_output hs hgone hat hcall rfl h
  next raised o callback =>
    have hat : Outputs.At i s.bindings (.idle raised) := trivial
    have hcall : OutputCall s (.idle raised) (.closeOutput o callback) := trivial
    exact rests_output hs hgone hat hcall rfl h
  · cases h
  next opc oact hbusy =>
    refine rests_output hs hgone hA.1 ?_ hp h
    cases opc with
    | idle raised => exact hA.2.elim
    | _ => exact hA.2
  · cases h

/-! ## The native close -/

/-- A step of a call on an Output before the native close. -/
theorem live_output {opc : BindingPc O Unit} {oact : BindingAction O Unit}
    (hlive : s.destroyed = false) (h : outputSection errorName s i opc oact = some (s', pc')) :
    s'.late = s.late ∧ s'.destroyed = false := by
  unfold outputSection at h
  split at h
  · cases h
  obtain ⟨⟨b, opc'⟩, -, h⟩ := Option.map_eq_some_iff.mp h
  cases h
  exact ⟨by simp [hlive], hlive⟩

/-- A step before the native close makes no late call, and does not destroy the handle but by the
native close. -/
theorem live_step {act : HandleAction O} (hlive : s.destroyed = false)
    (h : handleStep errorName mode s i pc act = some (s', pc')) :
    s'.late = s.late ∧ (s'.destroyed = true → ∃ p a, pc = .call p ∧ act = .call a ∧
      destroys p a = true) := by
  unfold handleStep at h
  split at h
  · unfold operationBegin at h
    split at h
    · cases h
    split at h
    all_goals
      cases h
      exact ⟨rfl, fun hd => absurd (hlive.symm.trans hd) (by simp)⟩
  · cases h
    exact ⟨by simp [hlive], fun hd => absurd (hlive.symm.trans hd) (by simp)⟩
  · unfold closeSection at h
    split at h
    · cases h
    split at h
    · split at h
      split at h
      all_goals
        cases h
        exact ⟨rfl, fun hd => absurd (hlive.symm.trans hd) (by simp)⟩
    · cases h
  · cases h
  next p a hact =>
    unfold callSection at h
    split at h
    · cases h
    obtain ⟨⟨t, q⟩, -, h⟩ := Option.map_eq_some_iff.mp h
    cases h
    refine ⟨by simp [hlive], fun hd => ⟨p, a, rfl, rfl, ?_⟩⟩
    simpa [hlive] using hd
  next raised o p =>
    obtain ⟨hlate, hd⟩ := live_output hlive h
    exact ⟨hlate, fun hgone => absurd (hd.symm.trans hgone) (by simp)⟩
  next raised o callback =>
    obtain ⟨hlate, hd⟩ := live_output hlive h
    exact ⟨hlate, fun hgone => absurd (hd.symm.trans hgone) (by simp)⟩
  next raised o callback =>
    obtain ⟨hlate, hd⟩ := live_output hlive h
    exact ⟨hlate, fun hgone => absurd (hd.symm.trans hgone) (by simp)⟩
  · cases h
  next opc oact hbusy =>
    obtain ⟨hlate, hd⟩ := live_output hlive h
    exact ⟨hlate, fun hgone => absurd (hd.symm.trans hgone) (by simp)⟩
  · cases h

/-- **The native close**: what `destroys` says is the native call of the thread that tears down, and
it leaves all else as it is. -/
theorem destroys_step {p : Pc} {act : CallAction} (h : destroys p act = true)
    (hA : Here i s (.call p))
    (hstep : handleStep errorName mode s i (.call p) (.call act) = some (s', pc')) :
    s'.shared = s.shared ∧ s.status = .closing ∧ s.remaining = [] ∧ Harmless s' pc' := by
  cases p with
  | close g stage =>
      cases stage with
      | destroy d =>
          cases act with
          | native r =>
              obtain rfl : r = .code 0 := by
                unfold destroys at h
                split at h
                next heq => cases heq; rfl
                next => cases h
              cases hstep
              exact ⟨rfl, hA.2.1.2, hA.2.2.2.2, rfl⟩
          | _ => cases h
      | _ => cases h
  | _ => cases h

section Runs

variable [DecidableEq ι] {c : Config ι (Handle O ι) (HandlePc O)}

/-- What holds in a run under the condition: the handle has not been used late, and once it is
destroyed every thread is harmless. -/
def Unused (c : Config ι (Handle O ι) (HandlePc O)) : Prop :=
  c.shared.late = false ∧ (c.shared.destroyed = true → ∀ j, Harmless c.shared (c.pc j))

/-- A thread that is not pending when the native close succeeds is harmless. -/
theorem harmless_of_not_pending (hstatus : s.status = .closing) (hremaining : s.remaining = [])
    (hA : Here i s pc) (hp : pending s pc = false) : Harmless s pc := by
  cases pc with
  | call p => exact hp
  | output p =>
      cases p with
      | attach o q stage =>
          cases stage with
          | native =>
              have hin : o ∈ s.outputs := by simpa [pending] using hp
              have hrest := hA.2 hin hstatus
              rw [hremaining] at hrest
              cases hrest
          | _ => rfl
      | _ => rfl
  | operation => trivial

/-- A step of a thread keeps it. -/
theorem Unused.thread {act : HandleAction O} (hs : Ok errorName c.shared)
    (hA : ∀ j, Here j c.shared (c.pc j)) (h : Unused c) (hok : unpended c (.thread i act))
    (hstep : handleStep errorName mode c.shared i (c.pc i) act = some (s', pc')) :
    Unused ⟨s', Function.update c.pc i pc'⟩ := by
  obtain ⟨hlate, hharmless⟩ := h
  by_cases hgone : c.shared.destroyed = true
  · have hrests := harmless_step hs hgone (hA i) (hharmless hgone i) hstep
    refine ⟨hrests.late.trans hlate, fun _ j => ?_⟩
    by_cases hj : j = i
    · subst hj
      simpa using hrests.harmless
    · simpa [hj] using (hharmless hgone j).stable hrests.calms
  · obtain ⟨hsame, hdestroys⟩ := live_step (by simpa using hgone) hstep
    refine ⟨hsame.trans hlate, fun hgone' j => ?_⟩
    obtain ⟨p, a, hp, rfl, hact⟩ := hdestroys hgone'
    have hpending := hok p hp hact
    have hhere := hA i
    rw [hp] at hstep hhere
    obtain ⟨hshared, hstatus, hremaining, hnext⟩ := destroys_step hact hhere hstep
    by_cases hj : j = i
    · subst hj
      simpa using hnext
    · have hold := harmless_of_not_pending hstatus hremaining (hA j) (hpending j)
      have hcalms : Calms c.shared.shared s'.shared := .same (by rw [hshared])
      simpa [hj] using hold.stable hcalms

/-- **The run lemma.** -/
theorem reach_unused (hc : (handleCalls O ι mode errorName).machine.ReachWith unpended c) :
    Unused c := by
  refine hc.invariant_of
    (J := fun c => Ok errorName c.shared ∧ ∀ i, Here i c.shared (c.pc i))
    (fun c hc => handle_control.reach (hc.mono ?_)) ?_ ?_
  · rintro c (⟨i, act⟩ | e) -
    · trivial
    · trivial
  · rintro ⟨s, pc⟩ ⟨hs, -⟩ -
    obtain rfl : s = {} := hs
    exact ⟨rfl, nofun⟩
  · rintro c (⟨i, act⟩ | e) c' ⟨hs, hA⟩ - h hok hstep
    · obtain ⟨⟨s', pc'⟩, hnext, rfl⟩ := Option.map_eq_some_iff.mp hstep
      exact h.thread hs hA hok hnext
    · obtain ⟨s', hnext, rfl⟩ := Option.map_eq_some_iff.mp hstep
      unfold handleCalls handleEnvironment at hnext
      simp only at hnext
      split at hnext
      · cases hnext
      obtain ⟨t, hpost, hnext⟩ := Option.map_eq_some_iff.mp hnext
      cases hnext
      refine ⟨h.1, fun hgone j => (h.2 hgone j).stable ?_⟩
      exact calms_environment hs (hs.gone hgone).2 (environmentStep_frame hpost)
        (environment_spec hs.attempts hpost).2

/-- A call here comes to its check of an open Connection.
Source: `_core.py`, `Connection._native_operation`, `Connection._begin_connect`,
`Connection.disconnect` and `Connection._attach` -/
def checksOpen : HandlePc O → HandleAction O → Bool
  | .call (.idle _), .operate => true
  | .call (.idle _), .call .connect | .call (.idle _), .call .disconnect => true
  | .output (.attach _ _ .add), .output (.add false) => true
  | _, _ => false

/-- Where the check takes it on a Connection that is not open: `ClosedError`, and for an `attach`
first out of the lock of its Output. -/
def refused : HandlePc O → HandlePc O
  | .output (.attach o p _) => .output (.attach o p (.release closedError))
  | _ => .call (.idle (some closedError))

/-- **A call that has lost the race** to `close` changes nothing, and raises `ClosedError`. -/
theorem refused_step {act : HandleAction O} (hopen : s.status ≠ .open)
    (hchecks : checksOpen pc act = true)
    (h : handleStep errorName mode s i pc act = some (s', pc')) : s' = s ∧ pc' = refused pc := by
  have hclosed : s.shared.connection.close.requireOpen = some closedError := if_neg hopen
  unfold checksOpen at hchecks
  split at hchecks
  · simp only [handleStep, operationBegin, hclosed] at h
    split at h
    · cases h
    · cases h
      exact ⟨rfl, rfl⟩
  · simp only [handleStep, callSection, callStep, connectBegin, Connection.beginConnect, hclosed]
      at h
    split at h
    · cases h
    · cases h
      exact ⟨by simp [uses, destroys, Pc.cancel?], rfl⟩
  · simp only [handleStep, callSection, callStep, disconnectBegin, hclosed] at h
    split at h
    · cases h
    · cases h
      exact ⟨by simp [uses, destroys, Pc.cancel?], rfl⟩
  next o p =>
    have hparent : (s.bindings.parent p).close.requireOpen = some closedError := hclosed
    simp only [handleStep, outputSection, bindingStep, attachStep, hparent] at h
    split at h
    · cases h
    · cases h
      exact ⟨by simp [usesOutput]; rfl, rfl⟩
  · cases hchecks

/-- **No native call with a destroyed handle**, in every run in which no such call is on its way
when the native close succeeds; and a call that has lost the race to `close` changes nothing, and
raises `ClosedError`.
Source: `_core.py`, `Connection.disconnect`, `Connection._native_operation`,
`Connection._cancel_connect`, `Connection._close_connection` -/
theorem handle_unused_after_close
    (hc : (handleCalls O ι mode errorName).machine.ReachWith unpended c) :
    c.shared.late = false ∧ ∀ i act c', c.shared.status ≠ .open → checksOpen (c.pc i) act = true →
      (handleCalls O ι mode errorName).machine.step c (.thread i act) = some c' →
      c'.shared = c.shared ∧ c'.pc i = refused (c.pc i) := by
  refine ⟨(reach_unused hc).1, ?_⟩
  intro i act c' hopen hchecks hstep
  obtain ⟨⟨s', pc'⟩, hnext, rfl⟩ := Option.map_eq_some_iff.mp hstep
  obtain ⟨hsame, hpc⟩ := refused_step hopen hchecks hnext
  exact ⟨hsame, by simpa using hpc⟩

end Runs

/-- A new Connection and two threads that have not called yet. -/
def created : Config (Fin 2) (Handle (Fin 1) (Fin 2)) (HandlePc (Fin 1)) :=
  ⟨{}, fun _ => .call (.idle none)⟩

/-- Thread `i` closes the Connection up to the native close. -/
def closesTo (i : Fin 2) : List (Label (Fin 2) (HandleAction (Fin 1)) Environment) :=
  [.thread i (.close []), .thread i (.call (.children none none)), .thread i (.call .go),
    .thread i (.call .go), .thread i (.call .go), .thread i (.call .go)]

/-- The native call of thread `i` returns `0`. -/
def nativeOk (i : Fin 2) : Label (Fin 2) (HandleAction (Fin 1)) Environment :=
  .thread i (.call (.native (.code 0)))

/-- **The handle is used behind the native close**: thread `0` passes the check of `disconnect`,
thread `1` closes the Connection, and thread `0` makes its native call. -/
theorem used_after_close :
    ¬ ∀ c : Config (Fin 2) (Handle (Fin 1) (Fin 2)) (HandlePc (Fin 1)),
      (handleCalls (Fin 1) (Fin 2) .externalToken fun _ => "").machine.Reach c →
      c.shared.late = false := by
  intro h
  have hstart : (handleCalls (Fin 1) (Fin 2) .externalToken fun _ => "").machine.start created :=
    ⟨rfl, rfl⟩
  have hrun : ((handleCalls (Fin 1) (Fin 2) .externalToken fun _ => "").machine.exec created
      (.thread 0 (.call .disconnect) :: closesTo 1 ++ [nativeOk 1, nativeOk 0])).any
        (fun c => c.shared.late) = true := by
    decide +kernel
  obtain ⟨c, hc, htest⟩ := Machine.exists_reach hstart hrun
  rw [h c hc] at htest
  cases htest

/-- The close is over when `disconnect` comes to its check: it is refused, and the handle is not
used. -/
theorem handle_unused_after_close_refused :
    ∃ c, (handleCalls (Fin 1) (Fin 2) .externalToken fun _ => "").machine.Reach c ∧
      c.shared.destroyed = true ∧ c.shared.late = false ∧
      ∀ c', (handleCalls (Fin 1) (Fin 2) .externalToken fun _ => "").machine.step c
          (.thread 0 (.call .disconnect)) = some c' →
        c'.pc 0 = .call (.idle (some closedError)) := by
  have hstart : (handleCalls (Fin 1) (Fin 2) .externalToken fun _ => "").machine.start created :=
    ⟨rfl, rfl⟩
  have hrun : (((handleCalls (Fin 1) (Fin 2) .externalToken fun _ => "").machine.guarded fun c l =>
      decide (unpended c l)).exec created (closesTo 1 ++ [nativeOk 1])).any (fun c => decide (
        c.shared.destroyed = true ∧ c.shared.status ≠ .open ∧
        checksOpen (c.pc 0) (.call .disconnect) = true ∧
        refused (c.pc 0) = .call (.idle (some closedError)))) = true := by
    decide +kernel
  obtain ⟨c, hc, htest⟩ := Machine.exists_reachWith hstart hrun
  obtain ⟨hgone, hopen, hchecks, hrefused⟩ := of_decide_eq_true htest
  obtain ⟨hlate, hrefuses⟩ := handle_unused_after_close hc
  refine ⟨c, hc.reach, hgone, hlate, ?_⟩
  intro c' hstep
  exact (hrefuses 0 _ c' hopen hchecks hstep).2.trans hrefused

end Tirtc.HandleUse
