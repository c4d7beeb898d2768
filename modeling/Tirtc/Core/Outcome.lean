import Tirtc.Core.AttemptSteps

/-!
# How a connect attempt ends

The results about one attempt that follow from the invariant of all of them, for any number of
calls of `connect`, `disconnect` and `close` by any number of threads, and for every result of
their native calls.

* `outcome_agreed`: all parties agree on the outcome. The terminal code moves one way, one thread
  cancels, and `connect` returns normally exactly when `_finish_connect` saw the code `0` and no
  accepted cancellation.
* `released_iff`: when an ended `connect` has released its attempt. It has not when a native call
  of the cancellation or closing the attempt's handle failed behind a successful start:
  `_wait_connect` then raises before `_finish_connect`, and its `except` sets `finished` but leaves
  `_active_connect`.
* `stuck_rejects`: every later `connect` raises then.
-/

set_option autoImplicit false

namespace Tirtc

open Transition

variable {ι : Type} [DecidableEq ι] {mode : AuthMode} {errorName : ℤ → String}
  {c c' : Config ι (Shared ι) Pc}

/-! ### Who cancels -/

/-- The stages of `_cancel_connect` behind an accepted cancellation. -/
def CancelStage.Performing : CancelStage → Prop
  | .enter | .join => False
  | _ => True

/-- A thread that is here performs the native cancellation of attempt `a`. -/
def Pc.Cancels (p : Pc) (a : ℕ) : Prop :=
  ∃ stage, p.cancel? = some (a, stage) ∧ stage.Performing

omit [DecidableEq ι] in
/-- Behind an accepted cancellation, it is the thread's own and on its way. -/
theorem CancelAt.performs {i : ι} {v : View ι} {stage : CancelStage} (h : CancelAt i v stage)
    (hp : stage.Performing) : Performs i v := by
  cases stage with
  | enter => exact hp.elim
  | join => exact hp.elim
  | _ => exact h.1

/-- The thread that performs a cancellation is the one whose cancellation was accepted. -/
theorem canceller_of_cancels {i : ι} {a : ℕ} (hc : (callsMachine ι mode errorName).Reach c)
    (h : (c.pc i).Cancels a) : (c.shared.history a).canceller = some i := by
  obtain ⟨stage, hp, hperforming⟩ := h
  have hat := ((reach_attempts hc).2 i).cancel hp
  exact (hat.performs hperforming).canceller

/-- The accepted cancellation stays with its thread through any run. -/
theorem canceller_kept {ls : List (Label ι CallAction Environment)}
    (hc : (callsMachine ι mode errorName).Reach c)
    (hrun : (callsMachine ι mode errorName).exec c ls = some c') {a : ℕ} {i : ι}
    (h : (c.shared.history a).canceller = some i) :
    (callsMachine ι mode errorName).Reach c' ∧ (c'.shared.history a).canceller = some i := by
  refine Machine.exec_invariant (I := fun c => (callsMachine ι mode errorName).Reach c ∧
    (c.shared.history a).canceller = some i) ?_ hrun ⟨hc, h⟩
  rintro c l c' ⟨hc, h⟩ hstep
  obtain ⟨k, hG⟩ := step_guarantees hc hstep
  have hsome : (c.shared.view a).history.canceller ≠ none := by
    show (c.shared.history a).canceller ≠ none
    simp [h]
  exact ⟨hc.tail hstep, ((hG a).canceller hsome).trans h⟩

/-! ### Agreement -/

/-- `connect` of attempt `a` has returned normally. -/
abbrev Shared.Connected (s : Shared ι) (a : ℕ) : Prop := (s.history a).outcome = some none

/-- `_finish_connect` of attempt `a` has found the terminal code `0` and no accepted
cancellation. -/
def Shared.Clean (s : Shared ι) (a : ℕ) : Prop :=
  ∃ seen, (s.history a).finishView = some seen ∧ seen.code = some 0 ∧ seen.error = none

omit [DecidableEq ι] in
/-- What `connect` raises behind `_finish_connect` is nothing exactly on success. -/
theorem FinishView.raises_eq_none {seen : FinishView} (h : seen.code ≠ none ∨ seen.error ≠ none) :
    seen.raises errorName = none ↔ seen.code = some 0 ∧ seen.error = none := by
  unfold FinishView.raises
  rcases hcode : seen.code with _ | code <;> rcases herror : seen.error with _ | e
  · simp [hcode, herror] at h
  · simp
  · by_cases h0 : code = 0 <;> simp [h0]
  · simp

omit [DecidableEq ι] in
/-- An ended `connect` returned normally if and only if `_finish_connect` found success. -/
theorem Ended.connected_iff {v : View ι} {raised : Option PyError}
    (h : Ended errorName v raised) :
    raised = none ↔ ∃ seen, v.history.finishView = some seen ∧ seen.code = some 0 ∧
      seen.error = none := by
  rcases h with ⟨-, -, -, hraised, hseen⟩ | ⟨seen, -, -, hseen, -, hne, hraised⟩ |
    ⟨-, -, hraised, hseen, -⟩
  · constructor
    · exact fun h => absurd h hraised
    · rintro ⟨seen, h, -⟩
      simp [hseen] at h
  · rw [hraised, seen.raises_eq_none hne]
    constructor
    · exact fun h => ⟨seen, hseen, h⟩
    · rintro ⟨seen', h, hclean⟩
      rw [hseen, Option.some.injEq] at h
      exact h ▸ hclean
  · constructor
    · exact fun h => absurd h hraised
    · rintro ⟨seen, h, -⟩
      simp [hseen] at h

/-- **What the parties of attempt `a` agree on**, in a state `c` and on every run from it. -/
structure Agreement (mode : AuthMode) (errorName : ℤ → String) (c : Config ι (Shared ι) Pc)
    (a : ℕ) : Prop where
  /-- The terminal code moves from nothing to a code and from `0` to another one, and no other
  way. -/
  terminal : ∀ l c', (callsMachine ι mode errorName).step c l = some c' →
    TerminalMoves (c.shared.attempt a).terminalCode (c'.shared.attempt a).terminalCode
  /-- A thread that performs the cancellation is the only one that ever does. -/
  canceller : ∀ i, (c.pc i).Cancels a → ∀ ls c',
    (callsMachine ι mode errorName).exec c ls = some c' → ∀ j, (c'.pc j).Cancels a → j = i
  /-- An ended `connect` returned normally if and only if `_finish_connect` found the code `0` and
  no accepted cancellation. -/
  returns : ∀ raised, (c.shared.history a).outcome = some raised →
    (raised = none ↔ c.shared.Clean a)
  /-- The state that `_finish_connect` left is CONNECTED in that case, DISCONNECTED otherwise. -/
  state : ∀ seen, (c.shared.history a).finishView = some seen →
    seen.state = if seen.code = some 0 ∧ seen.error = none then .connected else .disconnected
  /-- With an accepted cancellation `connect` has not returned normally. -/
  cancelled : (c.shared.history a).canceller ≠ none → ¬ c.shared.Connected a

/-- **Agreement on the outcome of every attempt**, in every reachable state. -/
theorem outcome_agreed (hc : (callsMachine ι mode errorName).Reach c) (a : ℕ) :
    Agreement mode errorName c a := by
  have hok := (reach_attempts hc).1.ok a
  constructor
  · intro l c' hstep
    obtain ⟨k, hG⟩ := step_guarantees hc hstep
    exact (hG a).terminal
  · intro i hi ls c' hrun j hj
    obtain ⟨hc', hi'⟩ := canceller_kept hc hrun (canceller_of_cancels hc hi)
    have hj' := canceller_of_cancels hc' hj
    exact Option.some.inj (hj'.symm.trans hi')
  · intro raised hraised
    exact (hok.ended raised hraised).connected_iff
  · intro seen hseen
    exact (hok.seen seen hseen).2.2.2.1
  · intro hcancel hconnected
    -- the error of the accepted cancellation is in what `_finish_connect` has seen
    obtain ⟨seen, hseen, -, hnone⟩ := (hok.ended none hconnected).connected_iff.mp rfl
    have herror := (hok.seen seen hseen).2.2.1
    exact hok.error.mpr (hok.canceller.mp hcancel) (herror.symm.trans hnone)

/-- A run of the calls from the creation of the Connection, and a test that its last state
passes. -/
theorem exists_calls {p : Config ι (Shared ι) Pc → Bool}
    {ls : List (Label ι CallAction Environment)}
    (h : ((callsMachine ι mode errorName).exec ⟨{}, fun _ => .idle none⟩ ls).any p = true) :
    ∃ c, (callsMachine ι mode errorName).Reach c ∧ p c = true := by
  have hstart : (callsMachine ι mode errorName).start ⟨{}, fun _ => .idle none⟩ := ⟨rfl, rfl⟩
  exact Machine.exists_reach hstart h

/-- A successful native call. -/
abbrev nativeOk : CallAction := .native (.code 0)

/-- A run in which thread `true` disconnects while thread `false` waits in its `connect`. -/
def cancelledRun : List (Label Bool CallAction Environment) :=
  [.thread false .connect, .thread false nativeOk, .thread true .disconnect] ++
  [.go, .go, nativeOk, .go, .go, .go, .go].map (.thread true) ++
  List.replicate 7 (.thread false .go)

/-- The `connect` of that run raises, and all parties agree. -/
theorem outcome_agreed_cancelled : ∃ c : Config Bool (Shared Bool) Pc,
    ((c.shared.history 1).canceller = some true ∧ (c.shared.history 1).outcome ≠ none) ∧
      Agreement .externalToken (fun _ => "") c 1 := by
  have hrun : ((callsMachine Bool .externalToken fun _ => "").exec
      ⟨{}, fun _ => .idle none⟩ cancelledRun).any (fun c => decide
        ((c.shared.history 1).canceller = some true ∧ (c.shared.history 1).outcome ≠ none)) =
      true := by decide +kernel
  obtain ⟨c, hc, hend⟩ := exists_calls hrun
  exact ⟨c, of_decide_eq_true hend, outcome_agreed hc 1⟩

/-! ### Release -/

/-- Attempt `a` does not stand in the way of later calls: it is not the active one, and who waits
for it to finish wakes. -/
def Shared.Released (s : Shared ι) (a : ℕ) : Prop :=
  s.connection.activeConnect ≠ some a ∧ (s.attempt a).finished = true

/-- **When an ended `connect` has released its attempt**: the native start failed, or no native call
of the cancellation and no close of the attempt's handle did. -/
theorem released_iff (hc : (callsMachine ι mode errorName).Reach c) (a : ℕ)
    (hend : (c.shared.history a).outcome ≠ none) :
    c.shared.Released a ↔
      (c.shared.history a).startFailed = true ∨
        ((c.shared.history a).cancelFailed = false ∧
          (c.shared.history a).closeFailed = false) := by
  have hok := (reach_attempts hc).1.ok a
  obtain ⟨raised, hraised⟩ := Option.ne_none_iff_exists'.mp hend
  have hinactive (h : (c.shared.view a).active = false) :
      c.shared.connection.activeConnect ≠ some a := by
    rw [ne_eq, ← view_active, h]
    exact Bool.false_ne_true
  rcases hok.ended raised hraised with ⟨hs, hactive, hfin, -, -⟩ |
    ⟨seen, hs, hclose, hseen, hfin, -⟩ | ⟨hs, hactive, -, -, hcase⟩
  · exact ⟨fun _ => .inl hs, fun _ => ⟨hinactive hactive, hfin⟩⟩
  · obtain ⟨hactive, -, -, -, hquiet⟩ := hok.seen seen hseen
    refine ⟨fun _ => .inr ⟨?_, hclose⟩, fun _ => ⟨hinactive hactive, hfin⟩⟩
    rw [← Bool.not_eq_true]
    intro hfailed
    have hnot := (hquiet (hok.cancelFailed hfailed)).2
    exact Bool.false_ne_true (hnot.symm.trans hfailed)
  · constructor
    · rintro ⟨hne, -⟩
      exact absurd ((view_active c.shared a).mp hactive) hne
    · rintro (h | ⟨hcancel, hclose⟩)
      · exact absurd (hs.symm.trans h) (by simp)
      · rcases hcase with h | ⟨-, h⟩
        · exact absurd (hclose.symm.trans h) (by simp)
        · exact absurd (hcancel.symm.trans h) (by simp)

/-- A run whose `connect` times out after a successful start, and whose `conn_disconnect` in the
cancellation returns `code`. -/
def timedOutRun (code : ℤ) : List (Label Unit CallAction Environment) :=
  [.connect, nativeOk, .timeout, .go, .go, .native (.code code), .go, .go].map (.thread ())

/-- With a successful `conn_disconnect` the attempt is released. -/
theorem released_iff_cancelled : ∃ c : Config Unit (Shared Unit) Pc,
    (c.shared.history 1).outcome ≠ none ∧ (c.shared.history 1).cancelFailed = false ∧
      (c.shared.Released 1 ↔ (c.shared.history 1).startFailed = true ∨
        ((c.shared.history 1).cancelFailed = false ∧
          (c.shared.history 1).closeFailed = false)) := by
  have hrun : ((callsMachine Unit .externalToken fun _ => "").exec ⟨{}, fun _ => .idle none⟩
      (timedOutRun 0 ++ List.replicate 8 (.thread () .go))).any (fun c => decide
        ((c.shared.history 1).outcome ≠ none ∧ (c.shared.history 1).cancelFailed = false)) =
      true := by decide +kernel
  obtain ⟨c, hc, hend⟩ := exists_calls hrun
  obtain ⟨hend, hfailed⟩ := of_decide_eq_true hend
  exact ⟨c, hend, hfailed, released_iff hc 1 hend⟩

/-- **A failing `conn_disconnect` leaves the attempt behind**: `connect` has raised, its attempt is
still the active one and not finished, and the next `connect` is rejected. -/
theorem attempt_left_behind : ∃ c : Config Unit (Shared Unit) Pc,
    (callsMachine Unit .externalToken fun _ => "").Reach c ∧ (c.shared.history 1).outcome ≠ none ∧
      ¬ c.shared.Released 1 ∧ (c.shared.attempt 1).finished = false ∧
      (connectBegin c.shared () .externalToken).2 = .idle (some inUseError) := by
  have hrun : ((callsMachine Unit .externalToken fun _ => "").exec ⟨{}, fun _ => .idle none⟩
      (timedOutRun 6028)).any (fun c => decide ((c.shared.history 1).outcome ≠ none ∧
        c.shared.connection.activeConnect = some 1 ∧ (c.shared.attempt 1).finished = false ∧
        (connectBegin c.shared () .externalToken).2 = .idle (some inUseError))) = true := by
    decide +kernel
  obtain ⟨c, hc, hend⟩ := exists_calls hrun
  obtain ⟨hend, hactive, hfin, hnext⟩ := of_decide_eq_true hend
  exact ⟨c, hc, hend, fun h => h.1 hactive, hfin, hnext⟩

/-! ### What an attempt left behind does -/

omit [DecidableEq ι] in
/-- While an attempt is the active one, every `connect` raises and changes nothing. -/
theorem connectBegin_of_active {s : Shared ι} {a : ℕ}
    (hactive : s.connection.activeConnect = some a) (i : ι) :
    ∃ e, connectBegin s i mode = (s, .idle (some e)) := by
  rcases connectBegin_cases s i mode with h | ⟨-, hnone, -⟩
  · exact h
  · exact absurd (hactive.symm.trans hnone) (Option.some_ne_none a)

/-- **An attempt that its `connect` has left behind blocks all later ones**: every `connect`
raises. -/
theorem stuck_rejects (hc : (callsMachine ι mode errorName).Reach c) {a : ℕ}
    (hend : (c.shared.history a).outcome ≠ none) (hstuck : ¬ c.shared.Released a) (i : ι) :
    ∃ e, connectBegin c.shared i mode = (c.shared, .idle (some e)) := by
  obtain ⟨raised, hraised⟩ := Option.ne_none_iff_exists'.mp hend
  have hok := (reach_attempts hc).1.ok a
  refine connectBegin_of_active (a := a) ?_ i
  by_contra hne
  have hinactive : (c.shared.view a).active = false := by
    rw [← Bool.not_eq_true, view_active]
    exact hne
  rcases hok.ended raised hraised with ⟨-, -, hfin, -, -⟩ | ⟨seen, -, -, -, hfin, -⟩ |
    ⟨-, hactive, -⟩
  · exact hstuck ⟨hne, hfin⟩
  · exact hstuck ⟨hne, hfin⟩
  · exact Bool.false_ne_true (hinactive.symm.trans hactive)

end Tirtc
