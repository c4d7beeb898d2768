import Tirtc.Core.Calls

/-!
# The invariant of the connect attempts

Every connect attempt is written to by its owner (the thread whose `connect` it is), by the thread
that cancels it, and by whoever brings its terminal code. This module says which of them may write
what, as a rely-guarantee proof over all calls on one Connection.

* `View`: one attempt as the others see it: whether it is the active one, its record, its history.
* `AttemptOk`: what always holds of it.
* `Guarantee k`: what a step of thread `k` (or of nobody, for the Runtime and the pool) leaves.
* `CancelAt`, `ConnectAt`, `CallAt`: what a thread knows at each stage of its call; the `stable`
  lemmas say that the other threads leave it true.
* `Write`, the `write_` lemmas: each single write to an attempt keeps `AttemptOk` and gives the
  guarantee.
* `Attempts`, `Guarantees`: the same for all attempts of the shared state.

`AttemptSteps` puts the steps of the calls together from these writes.
-/

set_option autoImplicit false

namespace Tirtc

open Transition

/-- One attempt: whether it is the active one, its record and its history. -/
structure View (ι : Type) where
  active : Bool
  attempt : ConnectState
  history : Attempt ι

/-- Attempt `a` of the shared state. -/
def Shared.view {ι : Type} (s : Shared ι) (a : ℕ) : View ι :=
  ⟨s.connection.activeConnect == some a, s.attempt a, s.history a⟩

variable {ι : Type} {errorName : ℤ → String}

theorem view_active (s : Shared ι) (a : ℕ) :
    (s.view a).active = true ↔ s.connection.activeConnect = some a := by
  simp [Shared.view]

/-- How a terminal code may move: from nothing to a code, and from `0` to another one. -/
def TerminalMoves (t t' : Option ℤ) : Prop :=
  t' = t ∨ t = none ∨ (t = some 0 ∧ ∃ code, code ≠ 0 ∧ t' = some code)

/-- How an attempt whose `connect` has ended was left: its start failed; it went through
`_finish_connect`; or a native call failed on the way there. -/
inductive Ended (errorName : ℤ → String) (v : View ι) (raised : Option PyError) : Prop
  | startFailed : v.history.startFailed = true → v.active = false → v.attempt.finished = true →
      raised ≠ none → v.history.finishView = none → Ended errorName v raised
  | finished (seen : FinishView) : v.history.startFailed = false → v.history.closeFailed = false →
      v.history.finishView = some seen → v.attempt.finished = true →
      (seen.code ≠ none ∨ seen.error ≠ none) → raised = seen.raises errorName →
      Ended errorName v raised
  | stuck : v.history.startFailed = false → v.active = true → raised ≠ none →
      v.history.finishView = none →
      (v.history.closeFailed = true ∨
        (v.attempt.cancelFinished = true ∧ v.history.cancelFailed = true)) →
      Ended errorName v raised

/-- **What holds of every attempt.** -/
structure AttemptOk (errorName : ℤ → String) (v : View ι) : Prop where
  fresh : v.history.owner = none → v.active = false ∧ v.attempt = {} ∧ v.history = {}
  done : v.attempt.done = true → v.attempt.terminalCode ≠ none
  error : v.attempt.error ≠ none ↔ v.attempt.cancelling = true
  canceller : v.history.canceller ≠ none ↔ v.attempt.cancelling = true
  cancelFinished : v.attempt.cancelFinished = true → v.attempt.cancelling = true
  cancelFailed : v.history.cancelFailed = true → v.attempt.cancelling = true
  cancelError : v.attempt.cancelError ≠ none ↔
    v.attempt.cancelFinished = true ∧ v.history.cancelFailed = true
  causes : v.attempt.terminalCode = v.history.causes.head?.map Prod.snd
  seen : ∀ seen, v.history.finishView = some seen → v.active = false ∧
    seen.code = v.attempt.terminalCode ∧ seen.error = v.attempt.error ∧
    seen.state = (if seen.code = some 0 ∧ seen.error = none then .connected else .disconnected) ∧
    (v.attempt.cancelling = true →
      v.attempt.cancelFinished = true ∧ v.history.cancelFailed = false)
  ended : ∀ raised, v.history.outcome = some raised → Ended errorName v raised
  started : v.attempt.nativeStarted = true ↔
    v.history.startFailed = true ∨ v.history.startedAt ≠ none
  handle : v.history.startedAt ≠ none → v.attempt.managed = true → v.attempt.managedHandle ≠ none
  unfinished : v.active = true → v.attempt.finished = true →
    v.history.cancelFailed = true ∨ v.history.closeFailed = true

/-- An attempt that is active although its `connect` has ended: a native call failed. -/
theorem Ended.failed_of_active {v : View ι} {raised : Option PyError}
    (h : Ended errorName v raised) (hactive : v.active = true)
    (hseen : v.history.finishView ≠ none → v.active = false) :
    v.history.cancelFailed = true ∨ v.history.closeFailed = true := by
  rcases h with ⟨-, hinactive, -⟩ | ⟨seen, -, -, hview, -⟩ | ⟨-, -, -, -, hcase⟩
  · exact absurd (hinactive.symm.trans hactive) (by simp)
  · have hinactive := hseen (by simp [hview])
    exact absurd (hinactive.symm.trans hactive) (by simp)
  · rcases hcase with h | ⟨-, h⟩
    · exact .inr h
    · exact .inl h

/-- **What a step of `k` leaves of an attempt**: the owner's fields to the owner, the canceller's
fields to the canceller, and the order in which an attempt settles. -/
structure Guarantee (k : Option ι) (v v' : View ι) : Prop where
  owner : v.history.owner ≠ none → v'.history.owner = v.history.owner
  canceller : v.history.canceller ≠ none → v'.history.canceller = v.history.canceller
  terminal : TerminalMoves v.attempt.terminalCode v'.attempt.terminalCode
  nativeStarted : v.attempt.nativeStarted = true → v'.attempt.nativeStarted = true
  finished : v.attempt.finished = true → v'.attempt.finished = true
  cancelling : v.attempt.cancelling = true →
    v'.attempt.cancelling = true ∧ v'.attempt.error = v.attempt.error
  cancelFinished : v.attempt.cancelFinished = true → v'.attempt.cancelFinished = true ∧
    v'.attempt.cancelError = v.attempt.cancelError ∧
    v'.history.cancelFailed = v.history.cancelFailed
  owned : v.history.owner ≠ none → v.history.owner ≠ k →
    v'.active = v.active ∧ v'.attempt.finished = v.attempt.finished ∧
    v'.attempt.nativeStarted = v.attempt.nativeStarted ∧
    v'.attempt.managedHandle = v.attempt.managedHandle ∧
    v'.history.startFailed = v.history.startFailed ∧
    v'.history.closeFailed = v.history.closeFailed ∧
    v'.history.finishView = v.history.finishView ∧ v'.history.outcome = v.history.outcome
  cancelled : v.history.canceller ≠ none → v.history.canceller ≠ k →
    v'.attempt.cancelFinished = v.attempt.cancelFinished ∧
    v'.history.cancelFailed = v.history.cancelFailed
  inactive : v.history.owner ≠ none → v.active = false → v'.active = false
  settled : v.active = false ∨ v.attempt.terminalCode ≠ none → v.attempt.cancelling = false →
    v'.attempt.cancelling = false
  seen : v.history.finishView ≠ none → v'.attempt.terminalCode = v.attempt.terminalCode
  fresh : v.history.owner = none → v'.history.owner = none ∨ v'.history.owner = k
  born : v.history.owner ≠ none → v'.history.bornAt = v.history.bornAt
  startedAt : v.history.owner ≠ none → v.history.owner ≠ k →
    v'.history.startedAt = v.history.startedAt
  causes : v'.history.causes = v.history.causes ∨ ∃ cause code,
    v'.history.causes = (cause, code) :: v.history.causes ∧ (k ≠ none → cause = .cancelled)
  held : v.active = true → v.attempt.cancelling = true → v.attempt.cancelFinished = false →
    v'.active = true ∨ v'.history.startFailed = true
  outcome : v.history.outcome ≠ none → v'.history.outcome ≠ none

/-- A step that does not touch the attempt. -/
theorem Guarantee.refl (k : Option ι) (v : View ι) : Guarantee k v v where
  owner _ := rfl
  canceller _ := rfl
  terminal := .inl rfl
  nativeStarted := id
  finished := id
  cancelling h := ⟨h, rfl⟩
  cancelFinished h := ⟨h, rfl, rfl⟩
  owned _ _ := ⟨rfl, rfl, rfl, rfl, rfl, rfl, rfl, rfl⟩
  cancelled _ _ := ⟨rfl, rfl⟩
  inactive _ := id
  settled _ := id
  seen _ := rfl
  fresh := .inl
  born _ := rfl
  startedAt _ _ := rfl
  causes := .inl rfl
  held h _ _ := .inl h
  outcome := id

/-! ## What a thread knows -/

/-- The cancellation of the attempt is thread `i`'s and still on its way. -/
structure Performs (i : ι) (v : View ι) : Prop where
  canceller : v.history.canceller = some i
  pending : v.attempt.cancelFinished = false

/-- What thread `i` knows at a stage of `_cancel_connect`. -/
def CancelAt (i : ι) (v : View ι) : CancelStage → Prop
  | .enter => True
  | .join => v.attempt.cancelling = true
  | .leave raised => Performs i v ∧ (v.history.cancelFailed = true ↔ raised ≠ none)
  | _ => Performs i v ∧ v.history.cancelFailed = false

/-- The attempt is thread `i`'s, and its `connect` has not come to its end. -/
structure Owns (i : ι) (v : View ι) : Prop where
  owner : v.history.owner = some i
  active : v.active = true
  unfinished : v.attempt.finished = false
  unseen : v.history.finishView = none
  running : v.history.outcome = none
  closeOk : v.history.closeFailed = false

/-- The attempt is over for the waits of `connect`: it has a terminal code, or its cancellation is
finished. -/
def Over (v : View ι) : Prop := v.attempt.terminalCode ≠ none ∨ v.attempt.cancelFinished = true

/-- No cancellation of the attempt is on its way. -/
def Quiet (v : View ι) : Prop := v.attempt.cancelling = true → v.attempt.cancelFinished = true

/-- What thread `i` knows at a stage of its `connect`. -/
def ConnectAt (i : ι) (v : View ι) : ConnectStage → Prop
  | .starting => Owns i v ∧ v.history.startFailed = false ∧ v.attempt.nativeStarted = false
  | .rollback _ => Owns i v ∧ v.history.startFailed = true
  | .startFinish _ => v.history.owner = some i ∧ v.active = false ∧
      v.history.startFailed = true ∧ v.history.finishView = none
  | .waitDone => Owns i v ∧ v.history.startFailed = false
  | .cancel stage => Owns i v ∧ v.history.startFailed = false ∧ CancelAt i v stage
  | .readCancelling => Owns i v ∧ v.history.startFailed = false ∧ Over v
  | .awaitCancel => Owns i v ∧ v.history.startFailed = false ∧ Over v ∧
      v.attempt.cancelling = true
  | .checkCancel => Owns i v ∧ v.history.startFailed = false ∧ Over v ∧ Quiet v
  | .closeHandle | .finishBarrier | .finishLock => Owns i v ∧ v.history.startFailed = false ∧
      Over v ∧ Quiet v ∧ v.history.cancelFailed = false
  | .cancelRaised _ => Owns i v ∧ v.history.startFailed = false ∧
      v.attempt.cancelFinished = true ∧ v.history.cancelFailed = true
  | .fail _ => v.history.owner = some i ∧ v.active = true ∧ v.history.startFailed = false ∧
      v.history.finishView = none ∧
      (v.history.closeFailed = true ∨
        (v.attempt.cancelFinished = true ∧ v.history.cancelFailed = true))
  | .result => v.history.owner = some i ∧ v.history.startFailed = false ∧
      v.history.closeFailed = false ∧ v.attempt.finished = true ∧ v.history.finishView ≠ none ∧
      Over v

/-- What thread `i` knows where it is. -/
def CallAt (i : ι) (s : Shared ι) : Pc → Prop
  | .connect a stage => ConnectAt i (s.view a) stage
  | .disconnect (.cancel a stage) => CancelAt i (s.view a) stage
  | .close _ (.cancel a stage) => CancelAt i (s.view a) stage
  | _ => True

/-- What a thread knows that cancels an attempt, in whichever call. -/
theorem CallAt.cancel {i : ι} {s : Shared ι} {p : Pc} {a : ℕ} {stage : CancelStage}
    (h : CallAt i s p) (hp : p.cancel? = some (a, stage)) : CancelAt i (s.view a) stage := by
  unfold Pc.cancel? at hp
  split at hp
  · cases hp
    exact h.2.2
  · cases hp
    exact h
  · cases hp
    exact h
  · cases hp

/-! ## The others do not disturb it -/

/-- A cancellation on its way is left alone by the other threads. -/
theorem Performs.stable {k : Option ι} {j : ι} {v v' : View ι} (h : Performs j v)
    (hk : k ≠ some j) (hG : Guarantee k v v') : Performs j v' := by
  have hsome : v.history.canceller ≠ none := by simp [h.canceller]
  have hne : v.history.canceller ≠ k := by rw [h.canceller]; exact hk.symm
  exact ⟨(hG.canceller hsome).trans h.canceller, (hG.cancelled hsome hne).1.trans h.pending⟩

/-- What a thread knows in `_cancel_connect` stays true while others step. -/
theorem CancelAt.stable {k : Option ι} {j : ι} {v v' : View ι} {stage : CancelStage}
    (h : CancelAt j v stage) (hk : k ≠ some j) (hG : Guarantee k v v') : CancelAt j v' stage := by
  have hfailed (hp : Performs j v) : v'.history.cancelFailed = v.history.cancelFailed := by
    refine (hG.cancelled ?_ ?_).2
    · simp [hp.canceller]
    · rw [hp.canceller]
      exact hk.symm
  cases stage with
  | enter => trivial
  | join => exact (hG.cancelling h).1
  | leave raised => exact ⟨h.1.stable hk hG, by rw [hfailed h.1]; exact h.2⟩
  | start => exact ⟨h.1.stable hk hG, (hfailed h.1).trans h.2⟩
  | attemptCancel => exact ⟨h.1.stable hk hG, (hfailed h.1).trans h.2⟩
  | awaitDone => exact ⟨h.1.stable hk hG, (hfailed h.1).trans h.2⟩
  | disconnect => exact ⟨h.1.stable hk hG, (hfailed h.1).trans h.2⟩
  | barrier => exact ⟨h.1.stable hk hG, (hfailed h.1).trans h.2⟩
  | terminal => exact ⟨h.1.stable hk hG, (hfailed h.1).trans h.2⟩
  | mark => exact ⟨h.1.stable hk hG, (hfailed h.1).trans h.2⟩

/-- An attempt that is over stays so. -/
theorem Over.stable {k : Option ι} {v v' : View ι} (h : Over v) (hG : Guarantee k v v') :
    Over v' := by
  rcases h with h | h
  · left
    rcases hG.terminal with heq | hnone | ⟨-, code, -, hcode⟩
    · rwa [heq]
    · exact absurd hnone h
    · simp [hcode]
  · exact .inr (hG.cancelFinished h).1

/-- An attempt that is over is not cancelled any more. -/
theorem Quiet.stable {k : Option ι} {v v' : View ι} (h : Quiet v) (hover : Over v)
    (hok : AttemptOk errorName v) (hG : Guarantee k v v') : Quiet v' := by
  intro hc
  cases hv : v.attempt.cancelling with
  | true => exact (hG.cancelFinished (h hv)).1
  | false =>
      rcases hover with ht | hf
      · simp [hG.settled (.inr ht) hv] at hc
      · simp [hok.cancelFinished hf] at hv

/-- Without a cancellation on its way, none of its native calls fails any more. -/
theorem Quiet.cancelFailed_stable {k : Option ι} {v v' : View ι} (h : Quiet v) (hover : Over v)
    (hf : v.history.cancelFailed = false) (hok : AttemptOk errorName v)
    (hok' : AttemptOk errorName v') (hG : Guarantee k v v') : v'.history.cancelFailed = false := by
  rw [← Bool.not_eq_true]
  intro hfailed
  have hc' := hok'.cancelFailed hfailed
  cases hv : v.attempt.cancelling with
  | true => simp [(hG.cancelFinished (h hv)).2.2, hf] at hfailed
  | false =>
      rcases hover with ht | hfin
      · simp [hG.settled (.inr ht) hv] at hc'
      · simp [hok.cancelFinished hfin] at hv

/-- The owner's part of an attempt is left alone by the other threads. -/
theorem Owns.stable {k : Option ι} {j : ι} {v v' : View ι} (h : Owns j v) (hk : k ≠ some j)
    (hG : Guarantee k v v') : Owns j v' := by
  have hsome : v.history.owner ≠ none := by simp [h.owner]
  have hne : v.history.owner ≠ k := by rw [h.owner]; exact hk.symm
  obtain ⟨hactive, hfinished, -, -, -, hclose, hseen, houtcome⟩ := hG.owned hsome hne
  exact ⟨(hG.owner hsome).trans h.owner, hactive.trans h.active, hfinished.trans h.unfinished,
    hseen.trans h.unseen, houtcome.trans h.running, hclose.trans h.closeOk⟩

/-- What a thread knows in `connect` stays true while others step. -/
theorem ConnectAt.stable {k : Option ι} {j : ι} {v v' : View ι} {stage : ConnectStage}
    (h : ConnectAt j v stage) (hk : k ≠ some j) (hok : AttemptOk errorName v)
    (hok' : AttemptOk errorName v')    (hG : Guarantee k v v') : ConnectAt j v' stage := by
  have howned (ho : v.history.owner = some j) := hG.owned (by simp [ho]) (by rw [ho]; exact hk.symm)
  have howner (ho : v.history.owner = some j) : v'.history.owner = some j :=
    (hG.owner (by simp [ho])).trans ho
  have hstart (ho : v.history.owner = some j) : v'.history.startFailed = v.history.startFailed :=
    (howned ho).2.2.2.2.1
  have hquiet (hover : Over v) (hq : Quiet v) : Over v' ∧ Quiet v' :=
    ⟨hover.stable hG, hq.stable hover hok hG⟩
  cases stage with
  | starting =>
      obtain ⟨ho, hs, hn⟩ := h
      exact ⟨ho.stable hk hG, (hstart ho.owner).trans hs, (howned ho.owner).2.2.1.trans hn⟩
  | rollback e => exact ⟨h.1.stable hk hG, (hstart h.1.owner).trans h.2⟩
  | startFinish e =>
      obtain ⟨ho, ha, hs, hv⟩ := h
      obtain ⟨hactive, -, -, -, -, -, hseen, -⟩ := howned ho
      exact ⟨howner ho, hactive.trans ha, (hstart ho).trans hs, hseen.trans hv⟩
  | waitDone => exact ⟨h.1.stable hk hG, (hstart h.1.owner).trans h.2⟩
  | cancel stage =>
      exact ⟨h.1.stable hk hG, (hstart h.1.owner).trans h.2.1, h.2.2.stable hk hG⟩
  | cancelRaised e =>
      obtain ⟨ho, hs, hfin, hf⟩ := h
      obtain ⟨hfin', -, hf'⟩ := hG.cancelFinished hfin
      exact ⟨ho.stable hk hG, (hstart ho.owner).trans hs, hfin', hf'.trans hf⟩
  | readCancelling =>
      exact ⟨h.1.stable hk hG, (hstart h.1.owner).trans h.2.1, h.2.2.stable hG⟩
  | awaitCancel =>
      obtain ⟨ho, hs, hover, hc⟩ := h
      exact ⟨ho.stable hk hG, (hstart ho.owner).trans hs, hover.stable hG, (hG.cancelling hc).1⟩
  | checkCancel =>
      obtain ⟨ho, hs, hover, hq⟩ := h
      exact ⟨ho.stable hk hG, (hstart ho.owner).trans hs, hquiet hover hq⟩
  | closeHandle =>
      obtain ⟨ho, hs, hover, hq, hf⟩ := h
      exact ⟨ho.stable hk hG, (hstart ho.owner).trans hs, (hquiet hover hq).1, (hquiet hover hq).2,
        hq.cancelFailed_stable hover hf hok hok' hG⟩
  | finishBarrier =>
      obtain ⟨ho, hs, hover, hq, hf⟩ := h
      exact ⟨ho.stable hk hG, (hstart ho.owner).trans hs, (hquiet hover hq).1, (hquiet hover hq).2,
        hq.cancelFailed_stable hover hf hok hok' hG⟩
  | finishLock =>
      obtain ⟨ho, hs, hover, hq, hf⟩ := h
      exact ⟨ho.stable hk hG, (hstart ho.owner).trans hs, (hquiet hover hq).1, (hquiet hover hq).2,
        hq.cancelFailed_stable hover hf hok hok' hG⟩
  | fail e =>
      obtain ⟨ho, ha, hs, hv, hcase⟩ := h
      obtain ⟨hactive, -, -, -, -, hclose, hseen, -⟩ := howned ho
      refine ⟨howner ho, hactive.trans ha, (hstart ho).trans hs, hseen.trans hv, ?_⟩
      rcases hcase with hcf | ⟨hfin, hcf⟩
      · exact .inl (hclose.trans hcf)
      · obtain ⟨hfin', -, hcf'⟩ := hG.cancelFinished hfin
        exact .inr ⟨hfin', hcf'.trans hcf⟩
  | result =>
      obtain ⟨ho, hs, hc, hf, hv, hover⟩ := h
      obtain ⟨-, -, -, -, -, hclose, hseen, -⟩ := howned ho
      exact ⟨howner ho, (hstart ho).trans hs, hclose.trans hc, hG.finished hf,
        by rw [hseen]; exact hv, hover.stable hG⟩

/-! ## One write at a time -/

/-- What one write of `k` to an attempt has to show. -/
def Write (errorName : ℤ → String) (k : Option ι) (v v' : View ι) : Prop :=
  AttemptOk errorName v' ∧ Guarantee k v v'

/-- The record and the history of the attempt are changed, and whether it is active. -/
def View.write (v : View ι) (active : Bool) (f : ConnectState → ConnectState)
    (g : Attempt ι → Attempt ι) : View ι :=
  ⟨active, f v.attempt, g v.history⟩

/-- A cancellation on its way belongs to an attempt that `_finish_connect` has not seen. -/
theorem Performs.unseen {i : ι} {v : View ι} (h : Performs i v) (hok : AttemptOk errorName v) :
    v.attempt.cancelling = true ∧ v.history.finishView = none := by
  have hc : v.attempt.cancelling = true := hok.canceller.mp (by simp [h.canceller])
  refine ⟨hc, ?_⟩
  cases hv : v.history.finishView with
  | none => rfl
  | some seen =>
      have hfin := ((hok.seen seen hv).2.2.2.2 hc).1
      simp [h.pending] at hfin

/-- `_begin_connect` makes the attempt. -/
theorem write_begin {i : ι} {v : View ι} (hok : AttemptOk errorName v) (hv : v.history.owner = none)
    (managed : Bool) (bornAt : ℕ) :
    Write errorName (some i) v (v.write true (fun _ => { managed := managed })
      fun _ => { owner := some i, bornAt := bornAt }) := by
  obtain ⟨hactive, hattempt, hhistory⟩ := hok.fresh hv
  refine ⟨?_, ?_⟩ <;> constructor <;> grind [View.write, TerminalMoves]

/-- The cancellation of an active attempt without a terminal code is accepted. -/
theorem write_perform {i : ι} {v : View ι} (hok : AttemptOk errorName v) (hactive : v.active = true)
    (ht : v.attempt.terminalCode = none) (hc : v.attempt.cancelling = false) (e : PyError) :
    Write errorName (some i) v (v.write v.active
      (fun attempt => { attempt with error := some e, cancelling := true })
      fun history => { history with canceller := some i }) := by
  have howner : v.history.owner ≠ none := fun h => by simp [(hok.fresh h).1] at hactive
  refine ⟨?_, ?_⟩ <;> constructor <;> grind [View.write, TerminalMoves, Ended, AttemptOk]

/-- A native call of the cancellation fails. -/
theorem write_cancelFailed {i : ι} {v : View ι} (hok : AttemptOk errorName v) (h : Performs i v) :
    Write errorName (some i) v (v.write v.active id
      fun history => { history with cancelFailed := true }) := by
  obtain ⟨hc, hseen⟩ := h.unseen hok
  obtain ⟨hcanceller, hpending⟩ := h
  refine ⟨?_, ?_⟩ <;> constructor <;> grind [View.write, TerminalMoves, Ended, AttemptOk]

/-- The cancellation is finished, with the error of a native call if one failed. -/
theorem write_leave {i : ι} {v : View ι} (hok : AttemptOk errorName v) (h : Performs i v)
    {raised : Option PyError} (hr : v.history.cancelFailed = true ↔ raised ≠ none) :
    Write errorName (some i) v (v.write v.active
      (fun attempt => { attempt with
        cancelError := raised <|> attempt.cancelError, cancelFinished := true })
      id) := by
  obtain ⟨hc, hseen⟩ := h.unseen hok
  obtain ⟨hcanceller, hpending⟩ := h
  have herror : v.attempt.cancelError = none := by
    have h := hok.cancelError
    simpa [hpending] using h
  refine ⟨?_, ?_⟩ <;> constructor <;> grind [View.write, TerminalMoves, Ended, AttemptOk]

/-- A terminal code is written. -/
theorem write_settle {k : Option ι} {v : View ι} (hok : AttemptOk errorName v) (cause : Cause)
    (code : ℤ) (hcause : k ≠ none → cause = .cancelled)
    (ht : v.attempt.terminalCode = none ∨ (v.attempt.terminalCode = some 0 ∧ code ≠ 0))
    (howner : v.history.owner ≠ none) (hseen : v.history.finishView = none) :
    Write errorName k v (v.write v.active
      (fun attempt => { attempt with terminalCode := some code, done := true })
      fun history => { history with causes := (cause, code) :: history.causes }) := by
  refine ⟨?_, ?_⟩ <;> constructor <;> grind [View.write, TerminalMoves, Ended, AttemptOk]

/-- `done` is set on an attempt that has a terminal code. -/
theorem write_done {k : Option ι} {v : View ι} (hok : AttemptOk errorName v)
    (ht : v.attempt.terminalCode ≠ none) :
    Write errorName k v (v.write v.active (fun attempt => { attempt with done := true }) id) := by
  refine ⟨?_, ?_⟩ <;> constructor <;> grind [View.write, TerminalMoves, Ended, AttemptOk]

/-- The native connect call returns, and the handle of a managed attempt is kept. -/
theorem write_started {i : ι} {v : View ι} (hok : AttemptOk errorName v) (h : Owns i v)
    (handle : Option ℕ) (hhandle : v.attempt.managed = true → handle ≠ none) (clock : ℕ) :
    Write errorName (some i) v (v.write v.active
      (fun attempt => { attempt with managedHandle := handle, nativeStarted := true })
      fun history => { history with startedAt := some clock }) := by
  obtain ⟨howner, hactive, hfin, hseen, hrun, hclose⟩ := h
  refine ⟨?_, ?_⟩ <;> constructor <;> grind [View.write, TerminalMoves, Ended, AttemptOk]

/-- The native connect call fails. -/
theorem write_startFailed {i : ι} {v : View ι} (hok : AttemptOk errorName v) (h : Owns i v) :
    Write errorName (some i) v (v.write v.active
      (fun attempt => { attempt with nativeStarted := true })
      fun history => { history with startFailed := true }) := by
  obtain ⟨howner, hactive, hfin, hseen, hrun, hclose⟩ := h
  refine ⟨?_, ?_⟩ <;> constructor <;> grind [View.write, TerminalMoves, Ended, AttemptOk]

/-- The attempt is not the active one any more after a failed start. -/
theorem write_rollback {i : ι} {v : View ι} (hok : AttemptOk errorName v) (h : Owns i v)
    (hfailed : v.history.startFailed = true) :
    Write errorName (some i) v (v.write false id id) := by
  obtain ⟨howner, hactive, hfin, hseen, hrun, hclose⟩ := h
  refine ⟨?_, ?_⟩ <;> constructor <;> grind [View.write, TerminalMoves, Ended, AttemptOk]

/-- `connect` ends, having set `finished` on the way or not. -/
theorem write_ended {i : ι} {v : View ι} (hok : AttemptOk errorName v)
    (howner : v.history.owner = some i) {finished : Bool}
    (hfin : v.attempt.finished = true → finished = true)
    {raised : Option PyError}
    (hended : Ended errorName (v.write v.active
      (fun attempt => { attempt with finished := finished })
      fun history => { history with outcome := some raised }) raised) :
    Write errorName (some i) v (v.write v.active
      (fun attempt => { attempt with finished := finished })
      fun history => { history with outcome := some raised }) := by
  have hseen : v.history.finishView ≠ none → v.active = false := by
    intro h
    obtain ⟨seen, hseen⟩ := Option.ne_none_iff_exists'.mp h
    exact (hok.seen seen hseen).1
  have hfailed : v.active = true → v.history.cancelFailed = true ∨ v.history.closeFailed = true :=
    fun h => hended.failed_of_active h hseen
  refine ⟨?_, ?_⟩ <;> constructor <;> grind [View.write, TerminalMoves, AttemptOk]

/-- Closing the handle of the attempt fails. -/
theorem write_closeFailed {i : ι} {v : View ι} (hok : AttemptOk errorName v) (h : Owns i v) :
    Write errorName (some i) v (v.write v.active id
      fun history => { history with closeFailed := true }) := by
  obtain ⟨howner, hactive, hfin, hseen, hrun, hclose⟩ := h
  refine ⟨?_, ?_⟩ <;> constructor <;> grind [View.write, TerminalMoves, Ended, AttemptOk]

/-- `_finish_connect` releases the attempt, with what it sees. -/
theorem write_finish {i : ι} {v : View ι} (hok : AttemptOk errorName v) (h : Owns i v)
    (hquiet : Quiet v) (hf : v.history.cancelFailed = false) (state : ConnectionState)
    (hstate : state = if Connection.succeeds v.attempt then .connected else .disconnected) :
    Write errorName (some i) v (v.write false (fun attempt => { attempt with finished := true })
      fun history => { history with
        finishView := some ⟨v.attempt.terminalCode, v.attempt.error, state⟩ }) := by
  obtain ⟨howner, hactive, hfin, hseen, hrun, hclose⟩ := h
  refine ⟨?_, ?_⟩ <;> constructor <;>
    grind [View.write, TerminalMoves, Ended, AttemptOk, Quiet, Connection.succeeds]

/-! ## The shared state -/

/-- **The invariant of the shared state**: every attempt is as it should be, and the attempts made
are those of the generations counted. -/
structure Attempts (errorName : ℤ → String) (s : Shared ι) : Prop where
  ok : ∀ a, AttemptOk errorName (s.view a)
  born : ∀ a, (s.history a).owner ≠ none ↔ 0 < a ∧ a ≤ s.connection.connectGeneration

/-- What a step of `k` leaves of all attempts. -/
def Guarantees (k : Option ι) (s s' : Shared ι) : Prop := ∀ a, Guarantee k (s.view a) (s'.view a)

/-- A step that writes to attempt `a` alone, and makes no attempt. -/
theorem Attempts.write {s s' : Shared ι} {k : Option ι} (hI : Attempts errorName s) (a : ℕ)
    (hgeneration : s'.connection.connectGeneration = s.connection.connectGeneration)
    (hother : ∀ b, b ≠ a → s'.view b = s.view b)
    (howner : (s'.history a).owner = (s.history a).owner)
    (hwrite : Write errorName k (s.view a) (s'.view a)) :
    Attempts errorName s' ∧ Guarantees k s s' := by
  refine ⟨⟨?_, ?_⟩, ?_⟩
  · intro b
    by_cases hba : b = a
    · exact hba ▸ hwrite.1
    · exact hother b hba ▸ hI.ok b
  · intro b
    have h : (s'.history b).owner = (s.history b).owner := by
      by_cases hba : b = a
      · rw [hba, howner]
      · exact congrArg (fun v => v.history.owner) (hother b hba)
    rw [hgeneration, h]
    exact hI.born b
  · intro b
    by_cases hba : b = a
    · exact hba ▸ hwrite.2
    · rw [hother b hba]
      exact Guarantee.refl k _

/-- A step that writes to no attempt. -/
theorem Attempts.same {s s' : Shared ι} {k : Option ι} (hI : Attempts errorName s)
    (hgeneration : s'.connection.connectGeneration = s.connection.connectGeneration)
    (hview : ∀ b, s'.view b = s.view b) : Attempts errorName s' ∧ Guarantees k s s' := by
  refine ⟨⟨fun b => hview b ▸ hI.ok b, fun b => ?_⟩, fun b => ?_⟩
  · have h : (s'.history b).owner = (s.history b).owner :=
      congrArg (fun v => v.history.owner) (hview b)
    rw [hgeneration, h]
    exact hI.born b
  · rw [hview b]
    exact Guarantee.refl k _

/-- The generation that `_begin_connect` gives is of no attempt yet. -/
theorem Attempts.next_fresh {s : Shared ι} (hI : Attempts errorName s) :
    (s.history (s.connection.connectGeneration + 1)).owner = none := by
  by_contra h
  have hle := ((hI.born _).mp h).2
  omega

@[simp] theorem view_modify (s : Shared ι) (a : ℕ) (f : ConnectState → ConnectState) (b : ℕ) :
    (s.modify a f).view b =
      if b = a then (s.view a).write (s.view a).active f id else s.view b := by
  by_cases hb : b = a
  · subst hb
    simp [Shared.view, Shared.modify, Connection.modifyAttempt, View.write, Shared.attempt]
  · simp [Shared.view, Shared.modify, Connection.modifyAttempt, Shared.attempt, hb]

@[simp] theorem view_note (s : Shared ι) (a : ℕ) (g : Attempt ι → Attempt ι) (b : ℕ) :
    (s.note a g).view b =
      if b = a then (s.view a).write (s.view a).active id g else s.view b := by
  by_cases hb : b = a
  · subst hb
    simp [Shared.view, Shared.note, View.write]
  · simp [Shared.view, Shared.note, hb]

@[simp] theorem attempt_modify (s : Shared ι) (a : ℕ) (f : ConnectState → ConnectState) :
    (s.modify a f).attempt a = f (s.attempt a) := by
  simp [Shared.attempt, Shared.modify, Connection.modifyAttempt]

@[simp] theorem attempt_note (s : Shared ι) (a : ℕ) (g : Attempt ι → Attempt ι) (b : ℕ) :
    (s.note a g).attempt b = s.attempt b := rfl

@[simp] theorem note_connection (s : Shared ι) (a : ℕ) (g : Attempt ι → Attempt ι) :
    (s.note a g).connection = s.connection := rfl

@[simp] theorem modify_history (s : Shared ι) (a : ℕ) (f : ConnectState → ConnectState) :
    (s.modify a f).history = s.history := rfl

@[simp] theorem modify_generation (s : Shared ι) (a : ℕ) (f : ConnectState → ConnectState) :
    (s.modify a f).connection.connectGeneration = s.connection.connectGeneration := rfl

/-- Attempt `a` gets a new record and a new history; whether it is active stays. -/
theorem Attempts.change {s s' : Shared ι} {k : Option ι} (hI : Attempts errorName s) {a : ℕ}
    {f : ConnectState → ConnectState} {g : Attempt ι → Attempt ι}
    (hwrite : Write errorName k (s.view a) ((s.view a).write (s.view a).active f g))
    (hs' : s' = (s.modify a f).note a g) (howner : (g (s.history a)).owner = (s.history a).owner) :
    (Attempts errorName s' ∧ Guarantees k s s') ∧
      s'.view a = (s.view a).write (s.view a).active f g := by
  subst hs'
  have hview : ((s.modify a f).note a g).view a = (s.view a).write (s.view a).active f g := by
    simp [View.write]
  refine ⟨hI.write a rfl (fun b hb => by simp [hb]) ?_ (hview ▸ hwrite), hview⟩
  simpa [Shared.note] using howner

end Tirtc
