import Tirtc.Core.Events
import Tirtc.Core.FailedStart

/-!
# Connect attempts and the events before them

State events carry no generation, so an event that was posted before an attempt and is handled
while the attempt is the active one settles it. `_finish_connect` and `disconnect` wait for a
barrier before they go on; `_begin_connect` does not.

* `startsQuietly`: an attempt is made only when no event that stands for an outcome is on its way.
* `Isolated`: the outcome of an attempt comes from events posted after it was made, its managed
  completion and its cancellation.
* `attempts_isolated`: it does, in every run whose attempts begin so.
* `attempt_settled_by_older`: a second `connect` that a drop of the first session ends.
-/

set_option autoImplicit false

namespace Tirtc

open Transition

variable {ι : Type} [DecidableEq ι] {mode : AuthMode} {errorName : ℤ → String}
  {c c' : Config ι (Shared ι) Pc}

/-- A `connect` that makes an attempt, on an open Connection without one, begins when no event that
stands for an outcome is on its way. -/
def startsQuietly (c : Config ι (Shared ι) Pc) : Label ι CallAction Environment → Bool
  | .thread _ .connect =>
      c.shared.connection.close.requireOpen.isSome || c.shared.connection.activeConnect.isSome ||
        c.shared.pending.all fun event => (Connection.eventOutcome event).isNone
  | _ => true

/-! ### What holds of the events on their way -/

/-- The events on their way that could settle the active attempt came after it was made, and so did
those that have settled one. -/
structure Fresh (s : Shared ι) : Prop where
  pending : ∀ a, s.connection.activeConnect = some a → ∀ event ∈ s.pending,
    Connection.eventOutcome event ≠ none → (s.history a).bornAt ≤ event.values.tag
  clock : ∀ a, (s.history a).owner ≠ none → (s.history a).bornAt ≤ s.clock
  causes : ∀ a tag code, (Cause.event tag, code) ∈ (s.history a).causes →
    (s.history a).bornAt ≤ tag

omit [DecidableEq ι] in
/-- An attempt without an owner has no history. -/
theorem history_of_fresh {s : Shared ι} (hI : Attempts errorName s) {a : ℕ}
    (h : (s.history a).owner = none) : s.history a = {} :=
  ((hI.ok a).fresh h).2.2

omit [DecidableEq ι] in
/-- The active attempt has an owner. -/
theorem owner_of_active {s : Shared ι} (hI : Attempts errorName s) {a : ℕ}
    (h : s.connection.activeConnect = some a) : (s.history a).owner ≠ none := by
  intro hno
  have hinactive := ((hI.ok a).fresh hno).1
  rw [← Bool.not_eq_true, view_active] at hinactive
  exact hinactive h

omit [DecidableEq ι] in
/-- A step that makes no attempt, brings no event but its own, and notes no event as a cause, keeps
this. -/
theorem Fresh.of_guarantees {s s' : Shared ι} {k : Option ι} (hI : Attempts errorName s)
    (hI' : Attempts errorName s') (hG : Guarantees k s s') (hs : Fresh s)
    (hgeneration : s'.connection.connectGeneration = s.connection.connectGeneration)
    (hclock : s.clock ≤ s'.clock)
    (hpending : ∀ event ∈ s'.pending, event ∈ s.pending ∨ event.values.tag = s.clock)
    (hcauses : ∀ a tag code, (Cause.event tag, code) ∈ (s'.history a).causes →
      (Cause.event tag, code) ∈ (s.history a).causes ∨ (s.history a).bornAt ≤ tag) : Fresh s' := by
  have howner (a : ℕ) : (s'.history a).owner ≠ none ↔ (s.history a).owner ≠ none := by
    rw [hI.born a, hI'.born a, hgeneration]
  have hborn (a : ℕ) (h : (s.history a).owner ≠ none) :
      (s'.history a).bornAt = (s.history a).bornAt := (hG a).born h
  refine ⟨?_, ?_, ?_⟩
  · intro a hactive event hevent houtcome
    have ho := (howner a).mp (owner_of_active hI' hactive)
    have hactive' : s.connection.activeConnect = some a := by
      by_contra hno
      have hover := (hG a).inactive ho (by rwa [← Bool.not_eq_true, view_active])
      rw [← Bool.not_eq_true, view_active] at hover
      exact hover hactive
    rw [hborn a ho]
    rcases hpending event hevent with h | h
    · exact hs.pending a hactive' event h houtcome
    · rw [h]
      exact hs.clock a ho
  · intro a ha
    have ho := (howner a).mp ha
    rw [hborn a ho]
    exact (hs.clock a ho).trans hclock
  · intro a tag code hmem
    by_cases ho : (s.history a).owner = none
    · -- an attempt that was not made has no causes
      have ho' : (s'.history a).owner = none := by
        by_contra h
        exact (howner a).mp h ho
      rw [history_of_fresh hI' ho'] at hmem
      cases hmem
    · rw [hborn a ho]
      rcases hcauses a tag code hmem with h | h
      · exact hs.causes a tag code h
      · exact h

omit [DecidableEq ι] in
/-- A step of a thread notes no event as a cause. -/
theorem causes_of_guarantees {s s' : Shared ι} {i : ι} (hG : Guarantees (some i) s s') (a : ℕ)
    (tag : ℕ) (code : ℤ) (h : (Cause.event tag, code) ∈ (s'.history a).causes) :
    (Cause.event tag, code) ∈ (s.history a).causes := by
  rcases (hG a).causes with heq | ⟨cause, code', heq, hcause⟩
  · have heq : (s'.history a).causes = (s.history a).causes := heq
    rwa [heq] at h
  · have heq : (s'.history a).causes = (cause, code') :: (s.history a).causes := heq
    rw [heq, hcause (by simp)] at h
    simpa using h

omit [DecidableEq ι] in
/-- `_begin_connect`, with no outcome on its way. -/
theorem Fresh.begun {s : Shared ι} (hs : Fresh s) (i : ι) (managed : Bool)
    (hquiet : ∀ event ∈ s.pending, Connection.eventOutcome event = none) :
    Fresh (s.begun i managed) := by
  have hhistory (a : ℕ) (h : a ≠ s.next) : (s.begun i managed).history a = s.history a := by
    simp [Shared.begun, Shared.note, h]
  have hnext : (s.begun i managed).history s.next = { owner := some i, bornAt := s.clock } := by
    simp [Shared.begun, Shared.note]
  refine ⟨fun a _ event hevent houtcome => absurd (hquiet event hevent) houtcome, ?_, ?_⟩
  · intro a ha
    by_cases h : a = s.next
    · rw [h, hnext]
      exact le_refl _
    · rw [hhistory a h] at ha ⊢
      exact hs.clock a ha
  · intro a tag code hmem
    by_cases h : a = s.next
    · rw [h, hnext] at hmem
      cases hmem
    · rw [hhistory a h] at hmem ⊢
      exact hs.causes a tag code hmem

omit [DecidableEq ι] in
/-- A cause that a step of the Runtime or the pool notes is the event with the handler. -/
theorem causes_environment {s s' : Shared ι} {e : Environment} (hs : Fresh s)
    (hstep : environmentStep s e = some s') (a tag : ℕ) (code : ℤ)
    (h : (Cause.event tag, code) ∈ (s'.history a).causes) :
    (Cause.event tag, code) ∈ (s.history a).causes ∨ (s.history a).bornAt ≤ tag := by
  cases e with
  | post kind values =>
      cases hstep
      exact .inl h
  | managedComplete b code' =>
      simp only [environmentStep] at hstep
      split at hstep
      · cases hstep
        left
        rcases managedComplete_cases s b code' with ⟨-, -, heq⟩ | heq
        · rw [heq] at h
          by_cases hb : a = b
          · subst hb
            simpa [Shared.note] using h
          · simpa [Shared.note, hb] using h
        · rwa [heq] at h
      · cases hstep
  | drainBegin =>
      simp only [environmentStep] at hstep
      split at hstep <;> cases hstep
      exact .inl h
  | handle =>
      obtain ⟨event, hevent, rfl⟩ := Option.map_eq_some_iff.mp hstep
      rcases deliver_cases s event with
        ⟨⟨state, hd⟩, -⟩ | ⟨b, state, code', terminal, hactive, hread, houtcome, -, hd⟩
      · rw [hd] at h
        exact .inl h
      · rw [hd] at h
        by_cases hb : a = b
        · subst hb
          have hmem : (Cause.event tag, code) = (Cause.event event.values.tag, terminal) ∨
              (Cause.event tag, code) ∈ (s.history a).causes := by
            simpa [Shared.note, Shared.modify, Shared.reports] using h
          rcases hmem with heq | hmem
          · right
            cases heq
            refine hs.pending a hactive event (by simp [Shared.pending, hevent]) ?_
            simp [Connection.eventOutcome, hread, houtcome]
          · exact .inl hmem
        · left
          simpa [Shared.note, Shared.modify, Shared.reports, hb] using h
  | drainEnd =>
      simp only [environmentStep] at hstep
      split at hstep <;> cases hstep
      exact .inl h

omit [DecidableEq ι] in
/-- No step of the Runtime or the pool makes an attempt. -/
theorem generation_environment {s s' : Shared ι} {e : Environment}
    (hstep : environmentStep s e = some s') :
    s'.connection.connectGeneration = s.connection.connectGeneration := by
  cases e with
  | post kind values =>
      cases hstep
      rfl
  | managedComplete a code =>
      simp only [environmentStep] at hstep
      split at hstep
      · cases hstep
        exact (managedComplete_queue s a code).generation
      · cases hstep
  | drainBegin =>
      simp only [environmentStep] at hstep
      split at hstep <;> cases hstep
      rfl
  | handle =>
      obtain ⟨event, -, rfl⟩ := Option.map_eq_some_iff.mp hstep
      rcases deliver_cases s event with ⟨⟨state, hd⟩, -⟩ | ⟨_, _, _, _, -, -, -, -, hd⟩ <;>
        rw [hd] <;> rfl
  | drainEnd =>
      simp only [environmentStep] at hstep
      split at hstep <;> cases hstep
      rfl

/-! ### Every run -/

/-- **The events on their way are fresh** in every run whose attempts begin quietly. -/
theorem reach_fresh
    (hc : (callsMachine ι mode errorName).ReachWith (fun c l => startsQuietly c l = true) c) :
    Fresh c.shared := by
  refine hc.invariant_of (I := fun c => Fresh c.shared)
    (J := fun c => Attempts errorName c.shared ∧ ∀ i, CallAt i c.shared (c.pc i))
    (fun c hc => reach_attempts hc.reach) ?_ ?_
  · rintro c ⟨hstart, -⟩ -
    have hstart : c.shared = {} := hstart
    rw [hstart]
    refine ⟨?_, fun a h => absurd rfl h, ?_⟩
    · intro a h
      cases h
    · intro a tag code h
      cases h
  · rintro c l c' ⟨hI, hA⟩ ⟨hI', -⟩ hs hquiet hstep
    rcases l with ⟨i, act⟩ | ⟨e⟩
    · obtain ⟨⟨s', pc⟩, hnext, rfl⟩ := Option.map_eq_some_iff.mp hstep
      have hspec := callStep_spec hI (hA i) hnext
      rcases callStep_queue hnext with hsame | ⟨rfl, hopen, hnone, rfl, -⟩
      · exact hs.of_guarantees hI hI' hspec.step.2 hsame.generation hsame.clock.ge
          (fun event h => .inl (hsame.pending ▸ h))
          fun a tag code h => .inl (causes_of_guarantees hspec.step.2 a tag code h)
      · refine hs.begun i _ ?_
        intro event h
        have hpending : (c.shared.pending.all fun event =>
            (Connection.eventOutcome event).isNone) = true := by
          simpa only [startsQuietly, hopen, hnone, Option.isSome_none, Bool.false_or] using hquiet
        simpa using List.all_eq_true.mp hpending event h
    · obtain ⟨s', hnext, rfl⟩ := Option.map_eq_some_iff.mp hstep
      have hG := (environment_spec hI hnext).2
      refine hs.of_guarantees hI hI' hG (generation_environment hnext) (clock_environment hnext)
        (fun event h => ?_) (causes_environment hs hnext)
      by_cases hpost : ∃ kind values, e = .post kind values
      · obtain ⟨kind, values, rfl⟩ := hpost
        cases hnext
        exact mem_pending_post h
      · refine .inl (mem_pending_environment (fun kind values he => ?_) hnext h)
        exact hpost ⟨kind, values, he⟩

/-- **The outcome of attempt `a` is its own.** -/
structure Isolated (errorName : ℤ → String) (s : Shared ι) (a : ℕ) : Prop where
  /-- What has settled it: its managed completion, its cancellation, or a state event that was
  posted after it was made. -/
  causes : ∀ cause code, (cause, code) ∈ (s.history a).causes →
    cause = .managed ∨ cause = .cancelled ∨
      ∃ tag, cause = .event tag ∧ (s.history a).bornAt ≤ tag
  /-- Its terminal code is the one written last. -/
  terminal : (s.attempt a).terminalCode = (s.history a).causes.head?.map Prod.snd
  /-- What `connect` raised behind `_finish_connect` comes from the terminal code and from the error
  of the cancellation alone. -/
  raises : ∀ raised seen, (s.history a).outcome = some raised →
    (s.history a).finishView = some seen → seen.code = (s.attempt a).terminalCode ∧
      (seen.error ≠ none ↔ (s.history a).canceller ≠ none) ∧ raised = seen.raises errorName
  /-- An error that it raised otherwise comes from a native call of its own. -/
  fails : ∀ raised, (s.history a).outcome = some raised → (s.history a).finishView = none →
    raised ≠ none ∧ ((s.history a).startFailed = true ∨ (s.history a).cancelFailed = true ∨
      (s.history a).closeFailed = true)

/-- **Attempts are isolated from earlier events** in every run in which an attempt is made only when
no event that stands for an outcome is on its way. -/
theorem attempts_isolated
    (hc : (callsMachine ι mode errorName).ReachWith (fun c l => startsQuietly c l = true) c)
    (a : ℕ) : Isolated errorName c.shared a := by
  have hok := (reach_attempts hc.reach).1.ok a
  constructor
  · intro cause code hmem
    cases cause with
    | event tag => exact .inr (.inr ⟨tag, rfl, (reach_fresh hc).causes a tag code hmem⟩)
    | managed => exact .inl rfl
    | cancelled => exact .inr (.inl rfl)
  · exact hok.causes
  · intro raised seen hraised hseen
    obtain ⟨-, hcode, herror, -, -⟩ := hok.seen seen hseen
    refine ⟨hcode, ?_, ?_⟩
    · rw [herror]
      exact hok.error.trans hok.canceller.symm
    · rcases hok.ended raised hraised with ⟨-, -, -, -, hnone⟩ | ⟨seen', -, -, hseen', -, -, hr⟩ |
        ⟨-, -, -, hnone, -⟩
      · cases hnone.symm.trans hseen
      · cases hseen'.symm.trans hseen
        exact hr
      · cases hnone.symm.trans hseen
  · intro raised hraised hnone
    rcases hok.ended raised hraised with ⟨hs, -, -, hne, -⟩ | ⟨seen', -, -, hseen', -⟩ |
      ⟨-, -, hne, -, hcase⟩
    · exact ⟨hne, .inl hs⟩
    · cases hnone.symm.trans hseen'
    · refine ⟨hne, .inr ?_⟩
      rcases hcase with h | ⟨-, h⟩
      · exact .inr h
      · exact .inl h

/-- A `connect` that ends well behind a first one, whose own CONNECTED event settles it. -/
theorem attempts_isolated_reconnect : ∃ c : Config Unit (Shared Unit) Pc,
    (c.shared.history 2).causes = [(.event 1, 0)] ∧ (c.shared.history 2).bornAt = 1 ∧
      (c.shared.history 2).outcome = some none ∧
      Isolated (fun _ => "") c.shared 2 := by
  have hrun : (((callsMachine Unit .externalToken fun _ => "").guarded fun c l =>
      decide (startsQuietly c l = true)).exec ⟨{}, fun _ => .idle none⟩
        (connectRun ++ connectRun)).any (fun c => decide
          ((c.shared.history 2).causes = [(.event 1, 0)] ∧ (c.shared.history 2).bornAt = 1 ∧
            (c.shared.history 2).outcome = some none)) = true := by decide +kernel
  have hstart : (callsMachine Unit .externalToken fun _ => "").start
      ⟨{}, fun _ => .idle none⟩ := ⟨rfl, rfl⟩
  obtain ⟨c, hc, hend⟩ := Machine.exists_reachWith hstart hrun
  obtain ⟨hcauses, hborn, houtcome⟩ := of_decide_eq_true hend
  exact ⟨c, hcauses, hborn, houtcome, attempts_isolated hc 2⟩

/-- The first session drops, and before its event is handled a second `connect` begins; its native
call succeeds. -/
def staleDropRun : List (Label Unit CallAction Environment) :=
  connectRun ++ [.env (.post .state [.int 3, .int 0]), .thread () .connect, .thread () nativeOk] ++
    [.env .drainBegin, .env .handle, .env .drainEnd] ++ List.replicate 6 (.thread () .go)

/-- **An older event settles an attempt**: the second `connect` of that run raises the code `6012`
of an event that was posted before it began. -/
theorem attempt_settled_by_older : ∃ c : Config Unit (Shared Unit) Pc,
    (callsMachine Unit .externalToken fun _ => "").Reach c ∧
      (c.shared.history 2).causes = [(.event 1, 6012)] ∧ (c.shared.history 2).bornAt = 2 ∧
      (c.shared.history 2).outcome = some (some (errorFromCode 6012 "")) ∧
      ¬ Isolated (fun _ => "") c.shared 2 := by
  have hrun : ((callsMachine Unit .externalToken fun _ => "").exec ⟨{}, fun _ => .idle none⟩
      staleDropRun).any (fun c => decide ((c.shared.history 2).causes = [(.event 1, 6012)] ∧
        (c.shared.history 2).bornAt = 2 ∧
        (c.shared.history 2).outcome = some (some (errorFromCode 6012 "")))) = true := by
    decide +kernel
  obtain ⟨c, hc, hend⟩ := exists_calls hrun
  obtain ⟨hcauses, hborn, houtcome⟩ := of_decide_eq_true hend
  refine ⟨c, hc, hcauses, hborn, houtcome, fun h => ?_⟩
  have hmem : (Cause.event 1, (6012 : ℤ)) ∈ (c.shared.history 2).causes := by simp [hcauses]
  rcases h.causes _ _ hmem with h | h | ⟨tag, htag, hle⟩
  · cases h
  · cases h
  · cases htag
    rw [hborn] at hle
    omega

end Tirtc
