import Tirtc.Core.Attempts
import Tirtc.Core.Steps

/-!
# The steps of the calls on their attempts

Every step of `connect`, `disconnect` and `close`, and of the Runtime and the pool, is one of the
writes of `Attempts` or writes to no attempt.

* `CancelMoves.spec`, `connectStep_spec`, `callStep_spec`: the steps of a thread.
* `environment_spec`, `environmentStep_frame`: the steps of the Runtime and the pool.
* `attempts_rely_guarantee`: the rely-guarantee proof over all calls.
* `reach_attempts`, `step_guarantees`: what the other modules use of it.
-/

set_option autoImplicit false

namespace Tirtc

open Transition

variable {ι : Type} {errorName : ℤ → String}

/-! ## Cancellation -/

/-- What a step of `_cancel_connect` does not touch. -/
def OwnedSame (v v' : View ι) : Prop :=
  v'.history.owner = v.history.owner ∧ v'.active = v.active ∧
  v'.attempt.finished = v.attempt.finished ∧ v'.history.startFailed = v.history.startFailed ∧
  v'.history.closeFailed = v.history.closeFailed ∧
  v'.history.finishView = v.history.finishView ∧ v'.history.outcome = v.history.outcome

/-- What a thread knows when `_cancel_connect` has returned or raised. -/
def CancelDone (v : View ι) : Option PyError → Prop
  | none => v.active = false ∨ Over v
  | some _ => v.attempt.cancelFinished = true ∧ v.history.cancelFailed = true

/-- What a thread knows where a step of `_cancel_connect` takes it. -/
def CancelNext (i : ι) (v : View ι) : CancelStage ⊕ Option PyError → Prop
  | .inl stage => CancelAt i v stage
  | .inr raised => CancelDone v raised

/-- What a step of `_cancel_connect` has to show. -/
structure CancelSpec (errorName : ℤ → String) (i : ι) (a : ℕ) (s s' : Shared ι)
    (next : CancelStage ⊕ Option PyError) : Prop where
  step : Attempts errorName s' ∧ Guarantees (some i) s s'
  owned : OwnedSame (s.view a) (s'.view a)
  next : CancelNext i (s'.view a) next

/-- A step that writes to the attempt. -/
theorem CancelSpec.of_write {s s' : Shared ι} {i : ι} {a : ℕ} {next : CancelStage ⊕ Option PyError}
    (hI : Attempts errorName s) {f : ConnectState → ConnectState} {g : Attempt ι → Attempt ι}
    (hwrite : Write errorName (some i) (s.view a) ((s.view a).write (s.view a).active f g))
    (hs' : s' = (s.modify a f).note a g)
    (howned : OwnedSame (s.view a) ((s.view a).write (s.view a).active f g))
    (hnext : CancelNext i ((s.view a).write (s.view a).active f g) next) :
    CancelSpec errorName i a s s' next := by
  obtain ⟨hstep, hview⟩ := hI.change hwrite hs' howned.1
  exact ⟨hstep, hview ▸ howned, hview ▸ hnext⟩

/-- A step that writes to no attempt. -/
theorem CancelSpec.of_same {s s' : Shared ι} {i : ι} {a : ℕ} {next : CancelStage ⊕ Option PyError}
    (hI : Attempts errorName s)
    (hgeneration : s'.connection.connectGeneration = s.connection.connectGeneration)
    (hview : ∀ b, s'.view b = s.view b) (hnext : CancelNext i (s.view a) next) :
    CancelSpec errorName i a s s' next := by
  refine ⟨hI.same hgeneration hview, ?_, ?_⟩
  · rw [hview]
    exact ⟨rfl, rfl, rfl, rfl, rfl, rfl, rfl⟩
  · rw [hview]
    exact hnext

/-- A step that only reads. -/
theorem CancelSpec.reads {s : Shared ι} {i : ι} {a : ℕ} {next : CancelStage ⊕ Option PyError}
    (hI : Attempts errorName s) (hnext : CancelNext i (s.view a) next) :
    CancelSpec errorName i a s s next :=
  .of_same hI rfl (fun _ => rfl) hnext

/-- The first caller of `_cancel_connect` takes the attempt over. -/
theorem cancelPerform_spec {s : Shared ι} {i : ι} {a : ℕ} (hI : Attempts errorName s)
    (hactive : s.connection.activeConnect = some a) (ht : (s.attempt a).terminalCode = none)
    (hc : (s.attempt a).cancelling = false) (error : PyError) :
    CancelSpec errorName i a s
      ((s.modify a fun attempt => { attempt with error := some error, cancelling := true }).note a
        fun history => { history with canceller := some i }) (.inl .start) := by
  have hok := hI.ok a
  have hw := write_perform (i := i) hok ((view_active s a).mpr hactive) ht hc error
  refine .of_write hI hw rfl ⟨rfl, rfl, rfl, rfl, rfl, rfl, rfl⟩ ?_
  have hc' : (s.view a).attempt.cancelling = false := hc
  have hfin : (s.view a).attempt.cancelFinished = false := by
    rw [← Bool.not_eq_true]
    exact fun h => by simp [hok.cancelFinished h] at hc'
  have hfailed : (s.view a).history.cancelFailed = false := by
    rw [← Bool.not_eq_true]
    exact fun h => by simp [hok.cancelFailed h] at hc'
  exact ⟨⟨rfl, hfin⟩, hfailed⟩

/-- A failing native call of the cancellation. -/
theorem cancelNative_spec {s : Shared ι} {i : ι} {a : ℕ} (hI : Attempts errorName s)
    (h : Performs i (s.view a)) (e : PyError) :
    CancelSpec errorName i a s (s.note a fun history => { history with cancelFailed := true })
      (.inl (.leave (some e))) := by
  refine .of_write hI (write_cancelFailed (hI.ok a) h) ?_ ⟨rfl, rfl, rfl, rfl, rfl, rfl, rfl⟩ ?_
  · rw [Shared.modify_id]
  · exact ⟨⟨h.canceller, h.pending⟩, by simp [View.write]⟩

/-- The terminal code of a cancelled external-token attempt. -/
theorem cancelTerminal_spec {s : Shared ι} {i : ι} {a : ℕ} (hI : Attempts errorName s)
    (h : Performs i (s.view a)) (hf : (s.view a).history.cancelFailed = false) :
    CancelSpec errorName i a s (s.settle a .cancelled (s.connection.cancelTerminal a))
      (.inl .mark) := by
  have hok := hI.ok a
  obtain ⟨hc, hseen⟩ := h.unseen hok
  rcases cancelTerminal_cases s a with ⟨ht, heq⟩ | ⟨ht, heq⟩
  · have howner : (s.view a).history.owner ≠ none := by
      intro hno
      simp [(hok.fresh hno).2.1] at hc
    have hw := write_settle (k := some i) hok .cancelled 6115 (fun _ => rfl) (.inl ht) howner hseen
    exact .of_write hI hw heq ⟨rfl, rfl, rfl, rfl, rfl, rfl, rfl⟩
      ⟨⟨h.canceller, h.pending⟩, hf⟩
  · exact .of_write hI (write_done (k := some i) hok ht) heq ⟨rfl, rfl, rfl, rfl, rfl, rfl, rfl⟩
      ⟨⟨h.canceller, h.pending⟩, hf⟩

/-- **A step of `_cancel_connect`** by thread `i`: it keeps the invariant, gives the guarantee,
leaves the owner's fields alone and goes where its assertion holds. -/
theorem CancelMoves.spec {s s' : Shared ι} {i : ι} {a : ℕ} {error : PyError} {stage : CancelStage}
    {act : CallAction} {next : CancelStage ⊕ Option PyError}
    (hI : Attempts errorName s) (h : CancelAt i (s.view a) stage)
    (hmoves : CancelMoves s i a error stage act s' next) :
    CancelSpec errorName i a s s' next := by
  cases hmoves with
  | settled hover =>
      refine .reads hI ?_
      rcases hover with hactive | ht
      · left
        rw [← Bool.not_eq_true, view_active]
        exact hactive
      · exact .inr (.inl ht)
  | waits _ hc => exact .reads hI hc
  | performs hactive ht hc => exact cancelPerform_spec hI hactive ht hc error
  | joined hfin =>
      refine .reads hI ?_
      cases he : (s.attempt a).cancelError with
      | none => exact .inr (.inr hfin)
      | some e => exact (hI.ok a).cancelError.mp (by simp [Shared.view, he])
  | tooLate | unhandled => exact .reads hI ⟨h.1, by simp [h.2]⟩
  | toAttempt | toDisconnect | attemptCancelled | connected | ended | disconnected =>
      exact .reads hI h
  | failed _ r e hstage =>
      rcases hstage with rfl | rfl
      · exact cancelNative_spec hI h.1 e
      · exact cancelNative_spec hI h.1 e
  | drained =>
      refine .reads hI ?_
      split
      · exact h
      · exact h
  | terminal => exact cancelTerminal_spec hI h.1 h.2
  | marks => exact .of_same hI rfl (fun _ => rfl) ⟨h.1, by simp [h.2]⟩
  | leaves raised =>
      have hw := write_leave (hI.ok a) h.1 h.2
      refine .of_write hI hw ?_ ⟨rfl, rfl, rfl, rfl, rfl, rfl, rfl⟩ ?_
      · exact (Shared.note_id _ a).symm
      · cases raised with
        | none => exact .inr (.inr rfl)
        | some e => exact ⟨rfl, h.2.mpr (by simp)⟩

/-! ## `connect` -/

/-- What a step of a call has to show. -/
structure CallSpec (errorName : ℤ → String) (i : ι) (s s' : Shared ι) (pc : Pc) : Prop where
  step : Attempts errorName s' ∧ Guarantees (some i) s s'
  at_ : CallAt i s' pc

/-- A step of `connect` that writes to its attempt. -/
theorem CallSpec.of_write {s s' : Shared ι} {i : ι} {a : ℕ} {stage : ConnectStage}
    (hI : Attempts errorName s) {f : ConnectState → ConnectState} {g : Attempt ι → Attempt ι}
    (hwrite : Write errorName (some i) (s.view a) ((s.view a).write (s.view a).active f g))
    (hs' : s' = (s.modify a f).note a g)
    (howner : (g (s.history a)).owner = (s.history a).owner)
    (hnext : ConnectAt i ((s.view a).write (s.view a).active f g) stage) :
    CallSpec errorName i s s' (.connect a stage) := by
  obtain ⟨hstep, hview⟩ := hI.change hwrite hs' howner
  refine ⟨hstep, ?_⟩
  show ConnectAt i (s'.view a) stage
  rwa [hview]

/-- A step of a call that writes to no attempt. -/
theorem CallSpec.of_same {s s' : Shared ι} {i : ι} {pc : Pc} (hI : Attempts errorName s)
    (hgeneration : s'.connection.connectGeneration = s.connection.connectGeneration)
    (hview : ∀ b, s'.view b = s.view b) (hnext : CallAt i s' pc) : CallSpec errorName i s s' pc :=
  ⟨hI.same hgeneration hview, hnext⟩

/-- A step of a call that only reads. -/
theorem CallSpec.reads {s : Shared ι} {i : ι} {pc : Pc} (hI : Attempts errorName s)
    (hnext : CallAt i s pc) : CallSpec errorName i s s pc :=
  .of_same hI rfl (fun _ => rfl) hnext

/-- `connect` ends. -/
theorem connectEnds_spec {s s' : Shared ι} {i : ι} {a : ℕ} {raised : Option PyError}
    (hI : Attempts errorName s) (howner : (s.history a).owner = some i) (finished : Bool)
    (hfin : (s.attempt a).finished = true → finished = true)
    (hs' : s' = s.modify a fun attempt => { attempt with finished := finished })
    (hended : Ended errorName ((s.view a).write (s.view a).active
      (fun attempt => { attempt with finished := finished })
      fun history => { history with outcome := some raised }) raised) :
    CallSpec errorName i s (connectEnds s' a raised).1 (connectEnds s' a raised).2 := by
  have hw := write_ended (hI.ok a) howner hfin hended
  obtain ⟨hstep, -⟩ := hI.change hw rfl rfl
  subst hs'
  exact ⟨hstep, trivial⟩

/-- The attempt that is not active any more was the active one, and no other was. -/
theorem view_of_release {s s' : Shared ι} {a b : ℕ} (hactive : s.connection.activeConnect = some a)
    (hnone : s'.connection.activeConnect = none) (hb : b ≠ a)
    (hattempt : s'.attempt b = s.attempt b) (hhistory : s'.history b = s.history b) :
    s'.view b = s.view b := by
  have hne : ¬ a = b := fun h => hb h.symm
  simp [Shared.view, hactive, hnone, hattempt, hhistory, hne]

/-- The section behind a failed start. -/
theorem rollback_spec {s : Shared ι} {i : ι} {a : ℕ} (hI : Attempts errorName s) (e : PyError)
    (h : ConnectAt i (s.view a) (.rollback e)) :
    CallSpec errorName i s { s with connection := s.connection.rollback a }
      (.connect a (.startFinish e)) := by
  obtain ⟨ho, hf⟩ := h
  have hactive := (view_active s a).mp ho.active
  rw [s.connection.rollback_of_active hactive]
  have hw := write_rollback (hI.ok a) ho hf
  refine ⟨hI.write a rfl ?_ rfl hw, ?_⟩
  · intro b hb
    exact view_of_release hactive rfl hb rfl rfl
  · exact ⟨ho.owner, rfl, hf, ho.unseen⟩

/-- The section of `_finish_connect`. -/
theorem finishLock_spec {s : Shared ι} {i : ι} {a : ℕ} (hI : Attempts errorName s)
    (h : ConnectAt i (s.view a) .finishLock) :
    CallSpec errorName i s
      (Shared.note { s with connection := s.connection.finishConnect a } a fun history =>
        { history with
          finishView := some ⟨(s.attempt a).terminalCode, (s.attempt a).error,
            (s.connection.finishConnect a).state⟩ }) (.connect a .result) := by
  obtain ⟨ho, hs, hover, hq, hf⟩ := h
  have hactive := (view_active s a).mp ho.active
  have hw := write_finish (hI.ok a) ho hq hf (s.connection.finishConnect a).state
    (by rw [s.connection.finishConnect_eq]; rfl)
  have hview : (Shared.note { s with connection := s.connection.finishConnect a } a fun history =>
      { history with finishView := some ⟨(s.attempt a).terminalCode, (s.attempt a).error,
        (s.connection.finishConnect a).state⟩ }).view a =
      (s.view a).write false (fun attempt => { attempt with finished := true }) fun history =>
        { history with finishView := some ⟨(s.attempt a).terminalCode, (s.attempt a).error,
          (s.connection.finishConnect a).state⟩ } := by
    simp [Shared.view, Shared.note, View.write, Shared.attempt, s.connection.finishConnect_eq,
      hactive]
  refine ⟨hI.write a ?_ (fun b hb => ?_) ?_ (hview ▸ hw), ?_⟩
  · simp [s.connection.finishConnect_eq]
  · refine view_of_release hactive ?_ hb ?_ ?_
    · simp [s.connection.finishConnect_eq, hactive]
    · simp [Shared.attempt, s.connection.finishConnect_eq, hb]
    · simp [Shared.note, hb]
  · simp [Shared.note]
  · show ConnectAt i (Shared.view _ a) .result
    rw [hview]
    exact ⟨ho.owner, hs, ho.closeOk, rfl, by simp [View.write], hover⟩

/-- `connect` returns or raises what `_finish_connect` has left. -/
theorem result_spec {s s' : Shared ι} {i : ι} {a : ℕ} {pc : Pc}
    (hI : Attempts errorName s) (h : ConnectAt i (s.view a) .result)
    (hstep : connectStep errorName s i a .result .go = some (s', pc)) :
    CallSpec errorName i s s' pc := by
  obtain ⟨ho, hs, hc, hfin, hv, hover⟩ := h
  have hok := hI.ok a
  obtain ⟨seen, hseen⟩ := Option.ne_none_iff_exists'.mp hv
  obtain ⟨-, hcode, herror, -⟩ := hok.seen seen hseen
  have hends (raised : Option PyError) (hne : seen.code ≠ none ∨ seen.error ≠ none)
      (hr : raised = seen.raises errorName) :
      CallSpec errorName i s (connectEnds s a raised).1 (connectEnds s a raised).2 :=
    connectEnds_spec hI ho (s.attempt a).finished id (s.modify_id a).symm
      (.finished seen hs hc hseen hfin hne hr)
  cases he : (s.attempt a).error with
  | some e =>
      simp only [connectStep, he, Option.some.injEq] at hstep
      cases hstep
      have herror0 : seen.error = some e := herror.trans he
      refine hends _ (.inr (by simp [herror0])) ?_
      simp [FinishView.raises, herror0]
  | none =>
      cases ht : (s.attempt a).terminalCode with
      | some code =>
          simp only [connectStep, he, ht, Option.some.injEq] at hstep
          cases hstep
          have hseen0 : seen.code = some code := hcode.trans ht
          have herror0 : seen.error = none := herror.trans he
          refine hends _ (.inl (by simp [hseen0])) ?_
          simp [FinishView.raises, hseen0, herror0]
      | none =>
          -- an attempt that is over without a terminal code was cancelled, so it has an error
          have hfin := hover.resolve_left (not_not.mpr ht)
          exact absurd he (hok.error.mpr (hok.cancelFinished hfin))

/-- The native connect call succeeds. -/
theorem started_spec {s : Shared ι} {i : ι} {a : ℕ} (hI : Attempts errorName s)
    (h : ConnectAt i (s.view a) .starting) :
    CallSpec errorName i s
      ((s.modify a fun attempt =>
        { attempt with
          managedHandle := if attempt.managed then some a else none
          nativeStarted := true }).note a fun history => { history with startedAt := some s.clock })
      (.connect a .waitDone) := by
  obtain ⟨ho, hs, -⟩ := h
  have hhandle (hm : (s.attempt a).managed = true) :
      (if (s.attempt a).managed = true then some a else none) ≠ none := by
    rw [if_pos hm]
    exact Option.some_ne_none a
  refine .of_write hI (write_started (hI.ok a) ho _ hhandle s.clock) rfl rfl ⟨?_, hs⟩
  exact ⟨ho.owner, ho.active, ho.unfinished, ho.unseen, ho.running, ho.closeOk⟩

/-- Where the owner is when a stage of the cancellation of its own attempt is done. -/
theorem CancelSpec.connectAt {s s' : Shared ι} {i : ι} {a : ℕ} {stage : CancelStage}
    {next : CancelStage ⊕ Option PyError} (hspec : CancelSpec errorName i a s s' next)
    (h : ConnectAt i (s.view a) (.cancel stage)) :
    Owns i (s'.view a) ∧ (s'.view a).history.startFailed = false := by
  obtain ⟨ho, hs, -⟩ := h
  obtain ⟨howner, hactive, hfin, hstart, hclose, hseen, hout⟩ := hspec.owned
  exact ⟨⟨howner.trans ho.owner, hactive.trans ho.active, hfin.trans ho.unfinished,
    hseen.trans ho.unseen, hout.trans ho.running, hclose.trans ho.closeOk⟩, hstart.trans hs⟩

/-- **A step of `connect`** on its attempt. -/
theorem connectStep_spec {s s' : Shared ι} {i : ι} {a : ℕ} {stage : ConnectStage}
    {act : CallAction} {pc : Pc} (hI : Attempts errorName s)
    (h : ConnectAt i (s.view a) stage)
    (hstep : connectStep errorName s i a stage act = some (s', pc)) :
    CallSpec errorName i s s' pc := by
  have hok := hI.ok a
  cases connectStep_cases hstep with
  | started => exact started_spec hI h
  | notStarted r e =>
      obtain ⟨ho, -, -⟩ := h
      refine .of_write hI (write_startFailed hok ho) rfl rfl ⟨?_, rfl⟩
      exact ⟨ho.owner, ho.active, ho.unfinished, ho.unseen, ho.running, ho.closeOk⟩
  | rolledBack e => exact rollback_spec hI e h
  | ends _ e hstage =>
      rcases hstage with rfl | rfl
      · obtain ⟨ho, hactive, hf, hv⟩ := h
        exact connectEnds_spec hI ho true (fun _ => rfl) rfl
          (.startFailed hf hactive rfl (by simp) hv)
      · obtain ⟨ho, hactive, hs, hv, hcase⟩ := h
        exact connectEnds_spec hI ho true (fun _ => rfl) rfl (.stuck hs hactive (by simp) hv hcase)
  | waited hdone => exact .reads hI ⟨h.1, h.2, .inl (hok.done hdone)⟩
  | timedOut => exact .reads hI ⟨h.1, h.2, trivial⟩
  | cancels _ stage' _ _ hmoves =>
      have hspec := hmoves.spec hI h.2.2
      obtain ⟨ho, hs⟩ := hspec.connectAt h
      exact ⟨hspec.step, ho, hs, hspec.next⟩
  | cancelled _ _ _ hmoves =>
      have hspec := hmoves.spec hI h.2.2
      obtain ⟨ho, hs⟩ := hspec.connectAt h
      refine ⟨hspec.step, ho, hs, ?_⟩
      rcases hspec.next with hno | hover
      · simp [ho.active] at hno
      · exact hover
  | cancelRaises _ _ _ e hmoves =>
      have hspec := hmoves.spec hI h.2.2
      obtain ⟨ho, hs⟩ := hspec.connectAt h
      exact ⟨hspec.step, ho, hs, hspec.next⟩
  | raises e =>
      obtain ⟨ho, hs, hfin⟩ := h
      exact connectEnds_spec hI ho.owner (s.attempt a).finished id (s.modify_id a).symm
        (.stuck hs ho.active (by simp) ho.unseen (.inr hfin))
  | reads =>
      obtain ⟨ho, hs, hover⟩ := h
      refine .reads hI ?_
      split
      next hc => exact ⟨ho, hs, hover, hc⟩
      next hc => exact ⟨ho, hs, hover, fun h => absurd h hc⟩
  | cancelWaited hfin =>
      obtain ⟨ho, hs, hover, -⟩ := h
      exact .reads hI ⟨ho, hs, hover, fun _ => hfin⟩
  | cancelFailed e he =>
      obtain ⟨ho, hs, -, -⟩ := h
      have hboth := hok.cancelError.mp (by simp [Shared.view, he])
      exact .reads hI ⟨ho.owner, ho.active, hs, ho.unseen, .inr hboth⟩
  | checked he =>
      obtain ⟨ho, hs, hover, hq⟩ := h
      -- a failed native call would have left its error behind
      have hf : (s.view a).history.cancelFailed = false := by
        rw [← Bool.not_eq_true]
        intro hf
        exact hok.cancelError.mpr ⟨hq (hok.cancelFailed hf), hf⟩ he
      refine .reads hI ?_
      split
      · exact ⟨ho, hs, hover, hq, hf⟩
      · exact ⟨ho, hs, hover, hq, hf⟩
  | handleClosed => exact .reads hI h
  | handleNotClosed r e =>
      obtain ⟨ho, hs, -, -, -⟩ := h
      refine .of_write hI (write_closeFailed hok ho) ?_ rfl ?_
      · rw [Shared.modify_id]
      · exact ⟨ho.owner, ho.active, hs, ho.unseen, .inl rfl⟩
  | drained => exact .reads hI h
  | finishes => exact finishLock_spec hI h
  | returns raised => exact result_spec hI h hstep

/-- The next generation. -/
abbrev Shared.next (s : Shared ι) : ℕ := s.connection.connectGeneration + 1

/-- The state after thread `i` has made an attempt. -/
def Shared.begun (s : Shared ι) (i : ι) (managed : Bool) : Shared ι :=
  Shared.note { s with connection := s.connection.begun managed } s.next
    fun _ => { owner := some i, bornAt := s.clock }

/-- **What `_begin_connect` does**: it raises and changes nothing, or, on an open Connection without
an attempt, it makes one. -/
theorem connectBegin_cases (s : Shared ι) (i : ι) (mode : AuthMode) :
    (∃ e, connectBegin s i mode = (s, .idle (some e))) ∨
    (s.connection.close.requireOpen = none ∧ s.connection.activeConnect = none ∧
      connectBegin s i mode =
        (s.begun i (mode = .accessKey), .connect s.next .starting)) := by
  unfold connectBegin
  cases hb : s.connection.beginConnect mode mode with
  | error e => exact .inl ⟨e, rfl⟩
  | ok p =>
      obtain ⟨a, c⟩ := p
      obtain ⟨hopen, hnone, rfl, rfl⟩ := s.connection.beginConnect_ok hb
      exact .inr ⟨hopen, hnone, rfl⟩

/-- The new attempt. -/
theorem view_begun_next (s : Shared ι) (i : ι) (managed : Bool) :
    (s.begun i managed).view s.next =
      (s.view s.next).write true (fun _ => { managed := managed })
        fun _ => { owner := some i, bornAt := s.clock } := by
  simp [Shared.begun, Shared.view, Shared.note, View.write, Shared.attempt, Connection.begun]

/-- The other attempts, none of which was active. -/
theorem view_begun_of_ne {s : Shared ι} (hnone : s.connection.activeConnect = none) (i : ι)
    (managed : Bool) {b : ℕ} (hb : b ≠ s.next) : (s.begun i managed).view b = s.view b := by
  have hne : ¬ s.next = b := fun h => hb h.symm
  simp [Shared.begun, Shared.view, Shared.note, Shared.attempt, Connection.begun, hnone, hb, hne]

/-- An attempt is made. -/
theorem begun_spec {s : Shared ι} (hI : Attempts errorName s)
    (hnone : s.connection.activeConnect = none) (i : ι) (managed : Bool) :
    Attempts errorName (s.begun i managed) ∧ Guarantees (some i) s (s.begun i managed) := by
  have hw := write_begin (i := i) (hI.ok s.next) hI.next_fresh managed s.clock
  have hview := view_begun_next s i managed
  have hother (b : ℕ) (hb : b ≠ s.next) := view_begun_of_ne hnone i managed hb
  refine ⟨⟨?_, ?_⟩, ?_⟩
  · intro b
    by_cases hb : b = s.next
    · rw [hb, hview]
      exact hw.1
    · rw [hother b hb]
      exact hI.ok b
  · intro b
    show ((s.begun i managed).view b).history.owner ≠ none ↔ 0 < b ∧ b ≤ s.next
    by_cases hb : b = s.next
    · rw [hb, hview]
      exact ⟨fun _ => ⟨Nat.succ_pos _, le_refl _⟩, fun _ => Option.some_ne_none i⟩
    · rw [hother b hb]
      refine (hI.born b).trans ?_
      unfold Shared.next at hb ⊢
      omega
  · intro b
    by_cases hb : b = s.next
    · rw [hb, hview]
      exact hw.2
    · rw [hother b hb]
      exact Guarantee.refl _ _

/-- `_begin_connect`: an attempt is made, or the call raises at once. -/
theorem connectBegin_spec {s : Shared ι} {i : ι} (mode : AuthMode) (hI : Attempts errorName s) :
    CallSpec errorName i s (connectBegin s i mode).1 (connectBegin s i mode).2 := by
  rcases connectBegin_cases s i mode with ⟨e, h⟩ | ⟨-, hnone, h⟩
  · rw [h]
    exact .reads hI trivial
  · rw [h]
    refine ⟨begun_spec hI hnone i _, ?_⟩
    show ConnectAt i (Shared.view _ _) .starting
    rw [view_begun_next]
    exact ⟨⟨rfl, rfl, rfl, rfl, rfl, rfl⟩, rfl, rfl⟩

/-! ## `disconnect` and `close` -/

/-- A step that leaves the generation, the active attempt, the attempts and their histories. -/
def SameAttempts (s s' : Shared ι) : Prop :=
  s'.connection.connectGeneration = s.connection.connectGeneration ∧
  s'.connection.activeConnect = s.connection.activeConnect ∧
  s'.connection.attempts = s.connection.attempts ∧ s'.history = s.history

theorem SameAttempts.view {s s' : Shared ι} (h : SameAttempts s s') (a : ℕ) :
    s'.view a = s.view a := by
  obtain ⟨-, hactive, hattempts, hhistory⟩ := h
  simp [Shared.view, Shared.attempt, hactive, hattempts, hhistory]

/-- A step of a call that leaves all attempts. -/
theorem CallSpec.of_sameAttempts {s s' : Shared ι} {i : ι} {pc : Pc} (hI : Attempts errorName s)
    (h : SameAttempts s s') (hnext : CallAt i s' pc) : CallSpec errorName i s s' pc :=
  .of_same hI h.1 h.view hnext

/-- **A step of `disconnect`.** -/
theorem disconnectStep_spec {s s' : Shared ι} {i : ι} {stage : DisconnectStage} {act : CallAction}
    {pc : Pc} (hI : Attempts errorName s) (h : CallAt i s (.disconnect stage))
    (hstep : disconnectStep errorName s i stage act = some (s', pc)) :
    CallSpec errorName i s s' pc := by
  cases disconnectStep_cases hstep with
  | cancels a stage stage' _ _ hmoves =>
      have hspec := hmoves.spec hI h
      exact ⟨hspec.step, hspec.next⟩
  | cancelled a stage _ _ hmoves => exact ⟨(hmoves.spec hI h).step, trivial⟩
  | cancelRaises a stage _ _ e hmoves => exact ⟨(hmoves.spec hI h).step, trivial⟩
  | connected | settled | disconnected | fails | drained => exact .reads hI trivial
  | writes => exact .of_sameAttempts hI ⟨rfl, rfl, rfl, rfl⟩ trivial

/-- **A step of `close`** in the thread that performs it. -/
theorem closeStep_spec {s s' : Shared ι} {i : ι} {g : ℕ} {stage : CloseStage} {act : CallAction}
    {pc : Pc} (hI : Attempts errorName s) (h : CallAt i s (.close g stage))
    (hstep : closeStep errorName s i g stage act = some (s', pc)) :
    CallSpec errorName i s s' pc := by
  cases closeStep_cases hstep with
  | cancels a stage stage' _ _ hmoves =>
      have hspec := hmoves.spec hI h
      exact ⟨hspec.step, hspec.next⟩
  | cancelled a stage _ _ hmoves => exact ⟨(hmoves.spec hI h).step, trivial⟩
  | cancelRaises a stage _ _ e hmoves => exact ⟨(hmoves.spec hI h).step, trivial⟩
  | awaited | childrenClosed | fails | drained | reads | toDisconnect | toDestroy | destroyed =>
      exact .reads hI trivial
  | dispatcher | disconnected | stated | succeeds | failed =>
      exact .of_sameAttempts hI ⟨rfl, rfl, rfl, rfl⟩ trivial

/-- `disconnect` begins without a write. -/
theorem disconnectBegin_spec {s : Shared ι} {i : ι} (hI : Attempts errorName s) :
    CallSpec errorName i s (disconnectBegin s).1 (disconnectBegin s).2 := by
  unfold disconnectBegin
  split
  · exact .reads hI trivial
  · split
    · exact .reads hI trivial
    · exact .reads hI trivial

/-- `close` begins without a write to an attempt. -/
theorem closeBegin_spec {s : Shared ι} {i : ι} (hI : Attempts errorName s) :
    CallSpec errorName i s (closeBegin s).1 (closeBegin s).2 := by
  obtain ⟨close, ⟨pc, heq, -, hpc⟩ | ⟨g, stage, heq, -, -, hstage⟩⟩ := closeBegin_cases s
  · rw [heq]
    refine .of_sameAttempts hI ⟨rfl, rfl, rfl, rfl⟩ ?_
    rcases hpc with ⟨g, rfl⟩ | ⟨e, rfl⟩
    · trivial
    · trivial
  · rw [heq]
    refine .of_sameAttempts hI ⟨rfl, rfl, rfl, rfl⟩ ?_
    rcases hstage with ⟨-, rfl⟩ | ⟨a, -, rfl⟩
    · trivial
    · trivial

/-- **A step of a thread.** -/
theorem callStep_spec {s s' : Shared ι} {i : ι} {mode : AuthMode} {p pc : Pc} {act : CallAction}
    (hI : Attempts errorName s) (h : CallAt i s p)
    (hstep : callStep errorName s i mode p act = some (s', pc)) : CallSpec errorName i s s' pc := by
  unfold callStep at hstep
  split at hstep
  · have hspec := connectBegin_spec (i := i) mode hI
    rwa [Option.some.inj hstep] at hspec
  · have hspec := disconnectBegin_spec (i := i) hI
    rwa [Option.some.inj hstep] at hspec
  · have hspec := closeBegin_spec (i := i) hI
    rwa [Option.some.inj hstep] at hspec
  · exact connectStep_spec hI h hstep
  · exact disconnectStep_spec hI h hstep
  · obtain ⟨outcome, -, hwake⟩ := Option.bind_eq_some_iff.mp hstep
    obtain ⟨close, -, hnext⟩ := Option.map_eq_some_iff.mp hwake
    cases hnext
    exact .of_sameAttempts hI ⟨rfl, rfl, rfl, rfl⟩ trivial
  · exact closeStep_spec hI h hstep
  · cases hstep

/-! ## The Runtime and the pool -/

/-- A terminal code that comes from outside is written to the active attempt. -/
theorem settle_spec {s : Shared ι} {a : ℕ} (hI : Attempts errorName s)
    (hactive : s.connection.activeConnect = some a) (cause : Cause) (code : ℤ)
    (ht : (s.attempt a).terminalCode = none ∨ ((s.attempt a).terminalCode = some 0 ∧ code ≠ 0)) :
    Write errorName none (s.view a) ((s.view a).write (s.view a).active
      (fun attempt => { attempt with terminalCode := some code, done := true })
      fun history => { history with causes := (cause, code) :: history.causes }) := by
  have hok := hI.ok a
  have hact : (s.view a).active = true := (view_active s a).mpr hactive
  refine write_settle hok cause code (fun h => absurd rfl h) ht ?_ ?_
  · intro hno
    simp [(hok.fresh hno).1] at hact
  · cases hv : (s.view a).history.finishView with
    | none => rfl
    | some seen => simp [(hok.seen seen hv).1] at hact

/-- What a step of the Runtime or the pool has to show. -/
abbrev EnvironmentSpec (errorName : ℤ → String) (s s' : Shared ι) : Prop :=
  Attempts errorName s' ∧ Guarantees none s s'

/-- **What the completion of a managed attempt does**: the active attempt takes its code, or nothing
happens. -/
theorem managedComplete_cases (s : Shared ι) (a : ℕ) (code : ℤ) :
    (s.connection.activeConnect = some a ∧ ((s.attempt a).terminalCode = none ∨
      ((s.attempt a).terminalCode = some 0 ∧ code ≠ 0)) ∧
      s.settle a .managed (s.connection.managedComplete a code) = (s.modify a fun attempt =>
        { attempt with terminalCode := some code, done := true }).note a
          fun history => { history with causes := (.managed, code) :: history.causes }) ∨
    s.settle a .managed (s.connection.managedComplete a code) = s := by
  by_cases hc : s.connection.activeConnect = some a ∧ ((s.attempt a).terminalCode = none ∨
      ((s.attempt a).terminalCode = some 0 ∧ code ≠ 0))
  · refine .inl ⟨hc.1, hc.2, ?_⟩
    have hcomplete : s.connection.managedComplete a code = s.connection.modifyAttempt a
        fun attempt => { attempt with terminalCode := some code, done := true } := if_pos hc
    have hnew : ((s.connection.managedComplete a code).attempts a).terminalCode = some code := by
      simp [hcomplete, Connection.modifyAttempt]
    rw [Shared.settle_new hnew, hcomplete]
    · rfl
    · rcases hc.2 with h | ⟨h, hne⟩
      · simp [h]
      · simp [h, hne.symm]
  · right
    have hcomplete : s.connection.managedComplete a code = s.connection := if_neg hc
    rw [hcomplete, Shared.settle_same rfl]

/-- The completion of a managed attempt. -/
theorem managedComplete_spec {s : Shared ι} (a : ℕ) (code : ℤ) (hI : Attempts errorName s) :
    EnvironmentSpec errorName s (s.settle a .managed (s.connection.managedComplete a code)) := by
  rcases managedComplete_cases s a code with ⟨hactive, ht, heq⟩ | heq
  · exact (hI.change (settle_spec hI hactive .managed code ht) heq rfl).1
  · rw [heq]
    exact hI.same rfl fun _ => rfl

/-- The event in the handler is gone, and the Connection reports `state`. -/
def Shared.reports (s : Shared ι) (state : ConnectionState) : Shared ι :=
  { s with delivering := none, connection := { s.connection with state := state } }

/-- **What a call of the handler does**: at most the reported state changes, or the active attempt
takes the outcome of a state event. -/
theorem deliver_cases (s : Shared ι) (event : ConnectionEvent) :
    ((∃ state, deliver s event = s.reports state) ∧
      ∀ a state code, s.connection.activeConnect = some a →
        Connection.readState event = some (state, code) →
        Connection.takesState (s.attempt a) state code = true →
          Connection.stateOutcome state code = none) ∨
    ∃ a state code terminal, s.connection.activeConnect = some a ∧
      Connection.readState event = some (state, code) ∧
      Connection.stateOutcome state code = some terminal ∧
      ((s.attempt a).terminalCode = none ∨
        ((s.attempt a).terminalCode = some 0 ∧ terminal ≠ 0)) ∧
      deliver s event = ((s.reports state).modify a fun attempt =>
          { attempt with terminalCode := some terminal, done := true }).note a
        fun history => { history with causes := (.event event.values.tag, terminal) ::
          history.causes } := by
  unfold deliver
  rcases s.connection.handleEvent_cases event with
    ⟨⟨state, hstate⟩, hnone⟩ | ⟨a, state, code, terminal, hactive, hread, htakes, houtcome, hstate⟩
  · left
    refine ⟨⟨state, ?_⟩, hnone⟩
    cases s.connection.activeConnect with
    | none => simp only [hstate, Shared.reports]
    | some a =>
        have hsame : ((s.connection.handleEvent event).1.attempts a).terminalCode =
            (Shared.attempt { s with delivering := none } a).terminalCode := by
          rw [hstate]
        simp only
        rw [Shared.settle_same hsame, hstate]
        rfl
  · right
    have ht := (Connection.takes_iff houtcome).mp htakes
    have hnew : ((s.connection.handleEvent event).1.attempts a).terminalCode = some terminal := by
      simp [hstate, Connection.modifyAttempt]
    have hne : (Shared.attempt { s with delivering := none } a).terminalCode ≠ some terminal := by
      rcases ht with h | ⟨h, hne⟩
      · simp [Shared.attempt, h]
      · simp [Shared.attempt, h, hne.symm]
    refine ⟨a, state, code, terminal, hactive, hread, houtcome, ht, ?_⟩
    simp only [hactive]
    rw [Shared.settle_new hnew hne, hstate]
    rfl

/-- The handler is called: a state event may bring the active attempt its terminal code. -/
theorem deliver_spec {s : Shared ι} (event : ConnectionEvent) (hI : Attempts errorName s) :
    EnvironmentSpec errorName s (deliver s event) := by
  rcases deliver_cases s event with
    ⟨⟨state, hd⟩, -⟩ | ⟨a, state, code, terminal, hactive, -, -, ht, hd⟩
  · rw [hd]
    exact hI.same rfl fun _ => rfl
  · have hreports : Attempts errorName (s.reports state) := ⟨hI.ok, hI.born⟩
    have hw := settle_spec hI hactive (.event event.values.tag) terminal ht
    rw [hd]
    exact (hreports.change hw rfl rfl).1

/-- **A step of the Runtime or the pool.** -/
theorem environment_spec {s s' : Shared ι} {e : Environment} (hI : Attempts errorName s)
    (hstep : environmentStep s e = some s') : EnvironmentSpec errorName s s' := by
  cases e with
  | post kind values =>
      cases hstep
      exact hI.same rfl fun _ => rfl
  | managedComplete a code =>
      simp only [environmentStep] at hstep
      split at hstep
      · cases hstep
        exact managedComplete_spec a code hI
      · cases hstep
  | drainBegin =>
      simp only [environmentStep] at hstep
      split at hstep
      · cases hstep
      · cases hstep
        exact hI.same rfl fun _ => rfl
  | handle =>
      obtain ⟨event, -, rfl⟩ := Option.map_eq_some_iff.mp hstep
      exact deliver_spec event hI
  | drainEnd =>
      simp only [environmentStep] at hstep
      split at hstep
      · cases hstep
        exact hI.same rfl fun _ => rfl
      · cases hstep

/-- **What the Runtime and the pool leave alone**: the close, which attempt is active, and all of an
attempt but a terminal code that the active one gets. -/
structure EnvironmentFrame (s s' : Shared ι) : Prop where
  close : s'.connection.close = s.connection.close
  active : s'.connection.activeConnect = s.connection.activeConnect
  attempt : ∀ a, s'.attempt a = s.attempt a ∨ (s.connection.activeConnect = some a ∧
    ∃ code, s'.attempt a = { s.attempt a with terminalCode := some code, done := true })
  closeFailed : ∀ a, (s'.history a).closeFailed = (s.history a).closeFailed

/-- A step that leaves the attempts and their histories alone. -/
theorem EnvironmentFrame.same {s s' : Shared ι} (hclose : s'.connection.close = s.connection.close)
    (hactive : s'.connection.activeConnect = s.connection.activeConnect)
    (hattempts : s'.connection.attempts = s.connection.attempts)
    (hhistory : s'.history = s.history) :
    EnvironmentFrame s s' where
  close := hclose
  active := hactive
  attempt a := .inl (congrFun hattempts a)
  closeFailed a := by rw [hhistory]

/-- A step that brings the active attempt a terminal code. -/
theorem EnvironmentFrame.settles {s t : Shared ι} {a : ℕ} {cause : Cause} {code : ℤ}
    (hactive : s.connection.activeConnect = some a)
    (hclose : t.connection.close = s.connection.close)
    (hsame : t.connection.activeConnect = s.connection.activeConnect)
    (hattempts : t.connection.attempts = s.connection.attempts) (hhistory : t.history = s.history) :
    EnvironmentFrame s ((t.modify a fun attempt =>
      { attempt with terminalCode := some code, done := true }).note a fun history =>
        { history with causes := (cause, code) :: history.causes }) where
  close := hclose
  active := hsame
  attempt b := by
    by_cases hb : b = a
    · subst hb
      exact .inr ⟨hactive, code, by
        simp [Shared.attempt, Shared.note, Shared.modify, Connection.modifyAttempt, hattempts]⟩
    · exact .inl (by
        simp [Shared.attempt, Shared.note, Shared.modify, Connection.modifyAttempt, hattempts, hb])
  closeFailed b := by
    by_cases hb : b = a
    · subst hb
      simp [Shared.note, Shared.modify, hhistory]
    · simp [Shared.note, Shared.modify, hhistory, hb]

/-- A step of the Runtime or the pool leaves that alone. -/
theorem environmentStep_frame {s s' : Shared ι} {e : Environment}
    (hstep : environmentStep s e = some s') : EnvironmentFrame s s' := by
  cases e with
  | post kind values =>
      cases hstep
      exact .same rfl rfl rfl rfl
  | managedComplete a code =>
      simp only [environmentStep] at hstep
      split at hstep
      · cases hstep
        rcases managedComplete_cases s a code with ⟨hactive, -, heq⟩ | heq
        · rw [heq]
          exact .settles hactive rfl rfl rfl rfl
        · rw [heq]
          exact .same rfl rfl rfl rfl
      · cases hstep
  | drainBegin =>
      simp only [environmentStep] at hstep
      split at hstep
      · cases hstep
      · cases hstep
        exact .same rfl rfl rfl rfl
  | handle =>
      obtain ⟨event, -, rfl⟩ := Option.map_eq_some_iff.mp hstep
      rcases deliver_cases s event with
        ⟨⟨state, heq⟩, -⟩ | ⟨a, state, code, t, hactive, -, -, -, heq⟩
      · rw [heq]
        exact .same rfl rfl rfl rfl
      · rw [heq]
        exact .settles hactive rfl rfl rfl rfl
  | drainEnd =>
      simp only [environmentStep] at hstep
      split at hstep
      · cases hstep
        exact .same rfl rfl rfl rfl
      · cases hstep

/-! ## All calls together -/

section Runs

variable {mode : AuthMode}

/-- The calls on one Connection, as a machine. -/
abbrev callsMachine (ι : Type) [DecidableEq ι] (mode : AuthMode) (errorName : ℤ → String) :=
  (calls ι mode errorName).machine

/-- Nothing has been called yet. -/
theorem attempts_start : Attempts errorName ({} : Shared ι) := by
  refine ⟨?_, ?_⟩
  · intro a
    constructor <;> simp [Shared.view, Shared.attempt]
  · intro a
    show (none : Option ι) ≠ none ↔ 0 < a ∧ a ≤ 0
    exact ⟨fun h => absurd rfl h, fun h => by omega⟩

/-- What a thread knows, no other thread takes back. -/
theorem CallAt.stable {s s' : Shared ι} {j : ι} {k : Option ι} {p : Pc} (hk : k ≠ some j)
    (hI : Attempts errorName s) (hI' : Attempts errorName s') (hG : Guarantees k s s')
    (h : CallAt j s p) : CallAt j s' p := by
  cases p with
  | idle raised => trivial
  | connect a stage => exact ConnectAt.stable h hk (hI.ok a) (hI'.ok a) (hG a)
  | disconnect stage =>
      cases stage with
      | cancel a stage => exact CancelAt.stable h hk (hG a)
      | _ => trivial
  | closeJoin g => trivial
  | close g stage =>
      cases stage with
      | cancel a stage => exact CancelAt.stable h hk (hG a)
      | _ => trivial

/-- **Any number of calls on one Connection keep the invariant of the attempts.** -/
theorem attempts_rely_guarantee : Threads.RelyGuarantee (calls ι mode errorName)
    (fun _ _ _ _ => True) (fun _ _ => True) (Attempts errorName) CallAt Guarantees where
  start := by
    rintro s rfl
    exact ⟨attempts_start, fun i => trivial⟩
  thread _ _ _ _ _ _ hI h _ hstep :=
    let hspec := callStep_spec hI h hstep
    ⟨hspec.step.1, hspec.at_, hspec.step.2⟩
  env _ _ _ hI _ hstep := environment_spec hI hstep
  stable _ _ _ _ _ hk hI hI' hG h := h.stable hk hI hI' hG

variable [DecidableEq ι] {c c' : Config ι (Shared ι) Pc}

/-- In every reachable state the attempts are as they should be, and each thread is where its
assertion holds. -/
theorem reach_attempts (hc : (callsMachine ι mode errorName).Reach c) :
    Attempts errorName c.shared ∧ ∀ i, CallAt i c.shared (c.pc i) :=
  attempts_rely_guarantee.reach (hc.mono fun _ l _ => by cases l <;> trivial)

/-- Every step from a reachable state gives its guarantee. -/
theorem step_guarantees {l : Label ι CallAction Environment}
    (hc : (callsMachine ι mode errorName).Reach c)
    (hstep : (callsMachine ι mode errorName).step c l = some c') :
    ∃ k, Guarantees k c.shared c'.shared :=
  attempts_rely_guarantee.step (hc.mono fun _ l _ => by cases l <;> trivial)
    (by cases l <;> trivial) hstep

end Runs

end Tirtc
