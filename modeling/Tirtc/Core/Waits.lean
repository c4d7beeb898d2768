import Tirtc.Core.AttemptWrites
import Tirtc.Core.Events
import Tirtc.Following
import Tirtc.Lib.Waiting

/-!
# Whom the calls on a Connection wait for

`connect`, `disconnect` and `close` wait for each other with events: for the cancellation of an
attempt that another thread performs, for the start and for the end of an attempt that is in the
`connect` of another thread, and for a close in progress. Besides, a call waits for the dispatcher
to drain, and for the Runtime to complete an attempt that it was told to cancel.

* `Pc.AwaitsCancel`, `Pc.AwaitsFinished`, `Pc.AwaitsDispatcher`, `Pc.caller`: the places where a
  thread waits.
* `Pc.Answers`: what a thread can be answered; `Goes`: it goes on, whatever that is.
* `WaitsFor`, `Ends`: whom a thread waits for, and where the waiting ends.
* `Pc.rank`: a thread waits only for threads of a lower rank.
* `waits_lead_on`: nobody waits in a circle; the one call that waits for ever waits for the end of
  an attempt that its `connect` has left behind.
-/

set_option autoImplicit false

namespace Tirtc

open Transition Closing

variable {ι V : Type} {mode : AuthMode} {errorName : ℤ → String} {s s' : Shared ι} {i j k : ι}
  {a : ℕ} {p p' : Pc}

/-! ## Places -/

/-- The thread waits for `cancel_finished`. -/
def Pc.AwaitsCancel (p : Pc) (a : ℕ) : Prop :=
  p = .connect a .awaitCancel ∨ p.cancel? = some (a, .join)

/-- The thread waits for `finished`. -/
def Pc.AwaitsFinished (p : Pc) (a : ℕ) : Prop :=
  p = .disconnect (.awaitFinished a) ∨ ∃ g, p = .close g (.awaitFinished a)

/-- The thread waits for the dispatcher: in a barrier that has not come to its end, or in the close
of it. -/
def Pc.AwaitsDispatcher (d : Dispatcher V) : Pc → Prop
  | .connect _ .finishBarrier | .disconnect .barrier | .connect _ (.cancel .barrier)
  | .disconnect (.cancel _ .barrier) | .close _ (.cancel _ .barrier) => d.barrierDone = false
  | .close _ (.drain _) => d.closeDone = false
  | _ => False

/-- The thread is in a call. -/
def Pc.Calls (p : Pc) : Prop := ∀ raised, p ≠ .idle raised

/-- The attempt that a call of the thread is about. -/
def Pc.about? : Pc → Option ℕ
  | .connect a _ => some a
  | .disconnect (.cancel a _) | .disconnect (.awaitFinished a) => some a
  | .close _ (.cancel a _) | .close _ (.awaitFinished a) => some a
  | _ => none

/-- The place of a thread at the close coordinator. -/
def Pc.caller : Pc → Caller
  | .closeJoin g => .waiting g
  | .close g _ => .performing g
  | _ => .idle

/-- A call that does not close leaves the coordinator. -/
theorem turn_of_same (hclose : s'.connection.close = s.connection.close)
    (hp : p.caller = p'.caller) :
    Turn s.connection.close p.caller s'.connection.close p'.caller := by
  rw [hclose, hp]
  exact .stays _

/-- The first section of `close` is a turn. -/
theorem closeBegin_turn (s : Shared ι) :
    Turn s.connection.close .idle (closeBegin s).1.connection.close (closeBegin s).2.caller := by
  have hturn := Turn.begins (c := s.connection.close) false
  unfold closeBegin
  rcases s.connection.close.begin_cases false with ⟨-, hbegin⟩ | ⟨-, hbegin⟩ | ⟨-, hbegin⟩ |
    ⟨-, hbegin⟩
  · rw [hbegin] at hturn ⊢
    exact hturn
  · rw [hbegin] at hturn ⊢
    exact hturn
  · rw [hbegin] at hturn ⊢
    exact hturn
  · rw [hbegin] at hturn ⊢
    dsimp only
    split
    · exact hturn
    · exact hturn

/-- A step of a thread is a turn at the coordinator. -/
theorem callStep_turn {act : CallAction}
    (hstep : callStep errorName s i mode p act = some (s', p')) :
    Turn s.connection.close p.caller s'.connection.close p'.caller := by
  unfold callStep at hstep
  split at hstep
  · rcases connectBegin_cases s i mode with ⟨e, hbegin⟩ | ⟨-, -, hbegin⟩
    · rw [hbegin] at hstep
      cases hstep
      exact .stays _
    · rw [hbegin] at hstep
      cases hstep
      exact turn_of_same rfl rfl
  · rcases disconnectBegin_cases s with ⟨e, -, hbegin⟩ | ⟨-, stage, hbegin⟩
    · rw [hbegin] at hstep
      cases hstep
      exact .stays _
    · rw [hbegin] at hstep
      cases hstep
      exact .stays _
  · have hturn := closeBegin_turn s
    rw [Option.some.inj hstep] at hturn
    exact hturn
  · have hmoves := connectStep_cases hstep
    refine turn_of_same hmoves.frame.2 ?_
    cases hmoves with
    | _ => rfl
  · have hmoves := disconnectStep_cases hstep
    refine turn_of_same hmoves.frame.2 ?_
    cases hmoves with
    | _ => rfl
  · obtain ⟨outcome, houtcome, hwake⟩ := Option.bind_eq_some_iff.mp hstep
    obtain ⟨close, hleave, hnext⟩ := Option.map_eq_some_iff.mp hwake
    cases hnext
    exact .wakes _ outcome close houtcome hleave
  · cases closeStep_cases hstep with
    | succeeds dumpError => exact .succeeds _ dumpError
    | failed e => exact .fails _ e
    | cancels a stage stage' act s' hcancel =>
        exact turn_of_same (hcancel.frame (p := .idle none)).2 rfl
    | cancelled a stage act s' hcancel =>
        exact turn_of_same (hcancel.frame (p := .idle none)).2 rfl
    | cancelRaises a stage act s' e hcancel =>
        exact turn_of_same (hcancel.frame (p := .idle none)).2 rfl
    | _ => exact .stays _
  · cases hstep

/-- The attempt that a thread is about to be in a call about has been made, or it was in that call
before. -/
theorem callStep_about {act : CallAction} (hI : Attempts errorName s)
    (hstep : callStep errorName s i mode p act = some (s', p')) (h : p'.about? = some a) :
    (s'.history a).owner ≠ none ∨ p.about? = some a := by
  have hactive : s.connection.activeConnect = some a → (s.history a).owner ≠ none := by
    intro hactive hfresh
    have hinactive := ((hI.ok a).fresh hfresh).1
    exact Bool.false_ne_true (hinactive.symm.trans ((view_active s a).mpr hactive))
  unfold callStep at hstep
  split at hstep
  · rcases connectBegin_cases s i mode with ⟨e, hbegin⟩ | ⟨-, -, hbegin⟩
    · rw [hbegin] at hstep
      cases hstep
      cases h
    · rw [hbegin] at hstep
      cases hstep
      cases h
      left
      simp [Shared.begun, Shared.note]
  · unfold disconnectBegin at hstep
    split at hstep
    · cases hstep
      cases h
    · split at hstep
      · cases hstep
        cases h
        exact .inl (hactive ‹_›)
      · cases hstep
        cases h
  · obtain ⟨close, ⟨pc, hbegin, -, hpc⟩ | ⟨g, stage, hbegin, -, -, hstage⟩⟩ := closeBegin_cases s
    · rw [hbegin] at hstep
      cases hstep
      rcases hpc with ⟨g, rfl⟩ | ⟨e, rfl⟩
      · cases h
      · cases h
    · rw [hbegin] at hstep
      cases hstep
      rcases hstage with ⟨-, rfl⟩ | ⟨b, hb, rfl⟩
      · cases h
      · cases h
        exact .inl (hactive hb)
  · right
    cases connectStep_cases hstep with
    | ends | raises | returns => cases h
    | _ => exact h
  · right
    cases disconnectStep_cases hstep with
    | cancels | cancelled => exact h
    | _ => cases h
  · obtain ⟨outcome, houtcome, hwake⟩ := Option.bind_eq_some_iff.mp hstep
    obtain ⟨close, hleave, hnext⟩ := Option.map_eq_some_iff.mp hwake
    cases hnext
    cases h
  · right
    cases closeStep_cases hstep with
    | cancels | cancelled => exact h
    | _ => cases h
  · cases hstep

section Runs

variable [DecidableEq ι] {c : Config ι (Shared ι) Pc}

/-- The calls follow the coordinator. -/
theorem reach_following (hc : (callsMachine ι mode errorName).Reach c) :
    Follows c.shared.connection.close fun j => (c.pc j).caller := by
  refine Follows.reach (fun s : Shared ι => s.connection.close) Pc.caller ?_ rfl ?_ ?_ hc
  · rintro s rfl
    rfl
  · exact fun i s p act s' p' hstep => callStep_turn hstep
  · exact fun s e s' hstep => (environmentStep_frame hstep).close

/-- **The attempt that a call is about has been made.** -/
theorem reach_about (hc : (callsMachine ι mode errorName).Reach c) {i : ι} {a : ℕ}
    (h : (c.pc i).about? = some a) : (c.shared.history a).owner ≠ none := by
  have hattempts : ∀ c, (callsMachine ι mode errorName).Reach c →
      Attempts errorName c.shared ∧ ∀ i, CallAt i c.shared (c.pc i) :=
    fun c hc => reach_attempts hc
  refine hc.invariant_of (I := fun c => ∀ i a, (c.pc i).about? = some a →
    (c.shared.history a).owner ≠ none) hattempts ?_ ?_ i a h
  · rintro ⟨shared, pc⟩ ⟨-, hpc⟩ - i a habout
    obtain rfl : pc = fun _ => .idle none := hpc
    cases habout
  · rintro c (⟨k, act⟩ | e) c' ⟨hI, hat⟩ - habout - hstep i a hi
    · obtain ⟨⟨s', p'⟩, hnext, rfl⟩ := Option.map_eq_some_iff.mp hstep
      have hG := (callStep_spec hI (hat k) hnext).step.2 a
      have hkept (hbefore : (c.shared.history a).owner ≠ none) :
          (s'.history a).owner ≠ none := by
        have hsame : (s'.history a).owner = (c.shared.history a).owner := hG.owner hbefore
        rwa [hsame]
      by_cases hi' : i = k
      · subst hi'
        have hi : p'.about? = some a := by simpa using hi
        rcases callStep_about hI hnext hi with hmade | hbefore
        · exact hmade
        · exact hkept (habout i a hbefore)
      · have hi : (c.pc i).about? = some a := by simpa [hi'] using hi
        exact hkept (habout i a hi)
    · obtain ⟨s', hnext, rfl⟩ := Option.map_eq_some_iff.mp hstep
      have hbefore := habout i a hi
      have hG := (environment_spec hI hnext).2 a
      have hsame : (s'.history a).owner = (c.shared.history a).owner := hG.owner hbefore
      show (s'.history a).owner ≠ none
      rwa [hsame]

end Runs

/-! ## What a thread can be answered -/

/-- What a thread can be answered: a native call returns anything, the children give anything, a
`connect` that waits for its attempt times out, and every other section has one way to go on. -/
def Pc.Answers : Pc → CallAction → Prop
  | .idle _, _ => False
  | .connect _ .starting, act | .connect _ .closeHandle, act
  | .connect _ (.cancel .attemptCancel), act | .connect _ (.cancel .disconnect), act
  | .disconnect (.cancel _ .attemptCancel), act | .disconnect (.cancel _ .disconnect), act
  | .close _ (.cancel _ .attemptCancel), act | .close _ (.cancel _ .disconnect), act
  | .disconnect .native, act | .close _ (.disconnect _), act | .close _ (.destroy _), act =>
      ∃ r, act = .native r
  | .close _ .children, act => ∃ e d, act = .children e d
  | .connect _ .waitDone, act => act = .timeout
  | _, act => act = .go

/-- What a stage of `_cancel_connect` waits for has come. -/
def CancelStage.Open (s : Shared ι) (a : ℕ) : CancelStage → Prop
  | .join => (s.attempt a).cancelFinished = true
  | .start => (s.attempt a).nativeStarted = true
  | .awaitDone => (s.attempt a).done = true
  | .barrier => s.connection.dispatcher.barrierDone = true
  | _ => True

/-- What a thread waits for has come. -/
def Pc.Open (s : Shared ι) : Pc → Prop
  | .connect a (.cancel stage) | .disconnect (.cancel a stage) | .close _ (.cancel a stage) =>
      stage.Open s a
  | .connect a .awaitCancel => (s.attempt a).cancelFinished = true
  | .disconnect (.awaitFinished a) | .close _ (.awaitFinished a) => (s.attempt a).finished = true
  | .connect _ .finishBarrier | .disconnect .barrier => s.connection.dispatcher.barrierDone = true
  | .close _ (.drain _) => s.connection.dispatcher.closeDone = true
  | .closeJoin g => ∃ outcome, s.connection.close.outcomes g = some outcome ∧
      ∃ close, s.connection.close.leave g = some close
  | _ => True

/-- A stage of `_cancel_connect` goes on. -/
theorem cancelStep_isSome {error : PyError} {stage : CancelStage} {act : CallAction}
    (hopen : stage.Open s a)
    (hact : (Pc.disconnect (.cancel a stage)).Answers act) :
    (cancelStep errorName s i a error stage act).isSome = true := by
  cases stage with
  | enter =>
      obtain rfl : act = .go := hact
      simp only [cancelStep]
      split
      all_goals rfl
  | join =>
      obtain rfl : act = .go := hact
      exact congrArg Option.isSome (if_pos hopen)
  | start =>
      obtain rfl : act = .go := hact
      have hstarted : (s.attempt a).nativeStarted = true := hopen
      simp only [cancelStep]
      rw [if_pos hstarted]
      split
      · rfl
      · split
        · split
          · rfl
          · rfl
        · rfl
  | attemptCancel | disconnect =>
      obtain ⟨r, rfl⟩ := hact
      simp only [cancelStep]
      split
      all_goals rfl
  | awaitDone =>
      obtain rfl : act = .go := hact
      have hdone : (s.attempt a).done = true := hopen
      simp only [cancelStep]
      rw [if_pos hdone]
      split
      · rfl
      · rfl
  | barrier =>
      obtain rfl : act = .go := hact
      exact congrArg Option.isSome (if_pos hopen)
  | terminal | mark | leave raised =>
      obtain rfl : act = .go := hact
      rfl

/-- **A thread goes on when what it waits for has come.** -/
theorem callStep_isSome {act : CallAction} (hopen : p.Open s) (hact : p.Answers act) :
    (callStep errorName s i mode p act).isSome = true := by
  cases p with
  | idle raised => exact hact.elim
  | connect a stage =>
      cases stage with
      | starting | closeHandle =>
          obtain ⟨r, rfl⟩ := hact
          simp only [callStep, connectStep]
          split
          all_goals rfl
      | cancel stage =>
          have hact : (Pc.disconnect (.cancel a stage)).Answers act := by
            cases stage with
            | _ => exact hact
          simp only [callStep, connectStep, Option.isSome_map]
          exact cancelStep_isSome hopen hact
      | waitDone =>
          obtain rfl : act = .timeout := hact
          rfl
      | awaitCancel | finishBarrier =>
          obtain rfl : act = .go := hact
          exact congrArg Option.isSome (if_pos hopen)
      | checkCancel | result =>
          obtain rfl : act = .go := hact
          simp only [callStep, connectStep]
          split
          all_goals rfl
      | rollback e | startFinish e | cancelRaised e | readCancelling | finishLock | fail e =>
          obtain rfl : act = .go := hact
          rfl
  | disconnect stage =>
      cases stage with
      | cancel a stage =>
          simp only [callStep, disconnectStep, Option.isSome_map]
          exact cancelStep_isSome hopen hact
      | awaitFinished a | barrier =>
          obtain rfl : act = .go := hact
          exact congrArg Option.isSome (if_pos hopen)
      | native =>
          obtain ⟨r, rfl⟩ := hact
          simp only [callStep, disconnectStep]
          split
          all_goals rfl
      | write =>
          obtain rfl : act = .go := hact
          rfl
  | closeJoin g =>
      obtain rfl : act = .go := hact
      obtain ⟨outcome, houtcome, close, hleave⟩ := hopen
      simp [callStep, closeWake, CloseCoordinator.outcome?, houtcome, hleave]
  | close g stage =>
      cases stage with
      | cancel a stage =>
          have hact : (Pc.disconnect (.cancel a stage)).Answers act := by
            cases stage with
            | _ => exact hact
          simp only [callStep, closeStep, Option.isSome_map]
          exact cancelStep_isSome hopen hact
      | awaitFinished a | drain dumpError =>
          obtain rfl : act = .go := hact
          exact congrArg Option.isSome (if_pos hopen)
      | children =>
          obtain ⟨e, d, rfl⟩ := hact
          simp only [callStep, closeStep]
          split
          all_goals rfl
      | disconnect dumpError | destroy dumpError =>
          obtain ⟨r, rfl⟩ := hact
          simp only [callStep, closeStep]
          split
          all_goals rfl
      | dispatcher dumpError | read dumpError | decide dumpError state | state dumpError
      | succeed dumpError | fail e =>
          obtain rfl : act = .go := hact
          rfl

/-- In a call there is something to be answered. -/
theorem exists_answer (hcalls : p.Calls) : ∃ act, p.Answers act := by
  cases p with
  | idle raised => exact absurd rfl (hcalls raised)
  | connect a stage =>
      cases stage with
      | starting | closeHandle => exact ⟨.native (.code 0), _, rfl⟩
      | cancel stage =>
          cases stage with
          | attemptCancel | disconnect => exact ⟨.native (.code 0), _, rfl⟩
          | _ => exact ⟨.go, rfl⟩
      | waitDone => exact ⟨.timeout, rfl⟩
      | _ => exact ⟨.go, rfl⟩
  | disconnect stage =>
      cases stage with
      | native => exact ⟨.native (.code 0), _, rfl⟩
      | cancel a stage =>
          cases stage with
          | attemptCancel | disconnect => exact ⟨.native (.code 0), _, rfl⟩
          | _ => exact ⟨.go, rfl⟩
      | _ => exact ⟨.go, rfl⟩
  | closeJoin g => exact ⟨.go, rfl⟩
  | close g stage =>
      cases stage with
      | cancel a stage =>
          cases stage with
          | attemptCancel | disconnect => exact ⟨.native (.code 0), _, rfl⟩
          | _ => exact ⟨.go, rfl⟩
      | children => exact ⟨.children none none, _, _, rfl⟩
      | disconnect dumpError | destroy dumpError => exact ⟨.native (.code 0), _, rfl⟩
      | _ => exact ⟨.go, rfl⟩

section Runs

variable [DecidableEq ι] {c : Config ι (Shared ι) Pc}

/-- Thread `i` goes on, whatever it is answered. -/
abbrev Goes (mode : AuthMode) (errorName : ℤ → String) (c : Config ι (Shared ι) Pc) (i : ι) :
    Prop :=
  (calls ι mode errorName).Goes Pc.Answers c i

/-- **Whom a thread waits for**: the thread that cancels an attempt, the one that starts it, the one
in whose `connect` it is, or the one that closes. -/
inductive WaitsFor (c : Config ι (Shared ι) Pc) (i j : ι) : Prop
  | cancelled (a : ℕ) : (c.pc i).AwaitsCancel a → (c.shared.attempt a).cancelFinished = false →
      (c.pc j).Cancels a → WaitsFor c i j
  | started (a : ℕ) : (c.pc i).cancel? = some (a, .start) →
      (c.shared.attempt a).nativeStarted = false → c.pc j = .connect a .starting → WaitsFor c i j
  | finished (a : ℕ) : (c.pc i).AwaitsFinished a → (c.shared.attempt a).finished = false →
      (c.pc j).Connects a → WaitsFor c i j
  | closed (g : ℕ) (stage : CloseStage) : c.pc i = .closeJoin g → c.pc j = .close g stage →
      WaitsFor c i j

/-- **Where the waiting ends**: at a thread that goes on; that waits for the dispatcher, and goes on
after steps that the pool can take there; that waits for the Runtime, whose completion of the
attempt lets it go on; or that waits for the end of an attempt whose `connect` is over and has left
it behind. -/
inductive Ends (mode : AuthMode) (errorName : ℤ → String) (c : Config ι (Shared ι) Pc) (j : ι) :
    Prop
  | goes : Goes mode errorName c j → Ends mode errorName c j
  | drains (s' : Shared ι) : (c.pc j).AwaitsDispatcher c.shared.connection.dispatcher →
      Relation.ReflTransGen PoolStep c.shared s' → Goes mode errorName ⟨s', c.pc⟩ j →
      Ends mode errorName c j
  | completes (a : ℕ) : (c.pc j).cancel? = some (a, .awaitDone) →
      (∀ code, ∃ s', environmentStep c.shared (.managedComplete a code) = some s' ∧
        Goes mode errorName ⟨s', c.pc⟩ j) → Ends mode errorName c j
  | leftBehind (a : ℕ) : (c.pc j).AwaitsFinished a → (c.shared.history a).cancelFailed = true →
      (∀ c', ((callsMachine ι mode errorName).after c).Reach c' → c'.pc j = c.pc j) →
      Ends mode errorName c j

/-- How many waits there can be from here. -/
def Pc.rank : Pc → ℕ
  | .closeJoin _ => 4
  | .disconnect (.awaitFinished _) | .close _ (.awaitFinished _) => 3
  | .connect _ .awaitCancel | .connect _ (.cancel .join) | .disconnect (.cancel _ .join)
  | .close _ (.cancel _ .join) => 2
  | .connect _ (.cancel .start) | .disconnect (.cancel _ .start) | .close _ (.cancel _ .start) => 1
  | _ => 0

/-! ## Where the waiting ends -/

omit [DecidableEq ι] in
/-- The place of a thread in `_cancel_connect`. -/
theorem cancel_eq_some {stage : CancelStage} (h : p.cancel? = some (a, stage)) :
    p = .connect a (.cancel stage) ∨ p = .disconnect (.cancel a stage) ∨
      ∃ g, p = .close g (.cancel a stage) := by
  unfold Pc.cancel? at h
  split at h
  · cases h
    exact .inl rfl
  · cases h
    exact .inr (.inl rfl)
  · cases h
    exact .inr (.inr ⟨_, rfl⟩)
  · cases h

omit [DecidableEq ι] in
/-- A thread whose wait is over goes on. -/
theorem goes_of_open (mode : AuthMode) (errorName : ℤ → String) (hcalls : (c.pc i).Calls)
    (hopen : (c.pc i).Open c.shared) : Goes mode errorName c i :=
  ⟨exists_answer hcalls, fun _ hact => callStep_isSome hopen hact⟩

omit [DecidableEq ι] in
/-- Whoever waits for the dispatcher goes on when it is drained. -/
theorem Pc.AwaitsDispatcher.isOpen {d : Dispatcher V} (h : p.AwaitsDispatcher d)
    (hbarrier : s.connection.dispatcher.barrierDone = true)
    (hclose : s.connection.dispatcher.closeDone = true) : p.Calls ∧ p.Open s := by
  unfold Pc.AwaitsDispatcher at h
  split at h
  all_goals
    first
    | exact h.elim
    | exact ⟨nofun, hbarrier⟩
    | exact ⟨nofun, hclose⟩

/-- Whoever waits for the dispatcher goes on when the pool has drained it. -/
theorem ends_of_drain (hc : (callsMachine ι mode errorName).Reach c)
    (h : (c.pc i).AwaitsDispatcher c.shared.connection.dispatcher) : Ends mode errorName c i := by
  obtain ⟨s', hrun, hbarrier, hclose⟩ := pool_drains (reach_scheduled hc)
  obtain ⟨hcalls, hopen⟩ := h.isOpen (s := s') hbarrier hclose
  exact .drains s' h hrun (goes_of_open mode errorName (c := ⟨s', c.pc⟩) hcalls hopen)

/-- Whoever waits for `cancel_finished` waits for the thread that cancels. -/
theorem waits_for_canceller (hc : (callsMachine ι mode errorName).Reach c)
    (hwaits : (c.pc i).AwaitsCancel a) (hcancelling : (c.shared.attempt a).cancelling = true)
    (hfin : (c.shared.attempt a).cancelFinished = false) :
    ∃ j, WaitsFor c i j ∧ (c.pc j).Cancels a := by
  have hsome := ((reach_attempts hc).1.ok a).canceller.mpr hcancelling
  obtain ⟨j, hj⟩ := Option.ne_none_iff_exists'.mp hsome
  have hcancels := ((reach_placed hc a).2 j).cancelling hj hfin
  exact ⟨j, .cancelled a hwaits hfin hcancels, hcancels⟩

/-- Whoever waits for the start of the attempt that it cancels waits for its `connect`. -/
theorem waits_for_start (hc : (callsMachine ι mode errorName).Reach c)
    (hwaits : (c.pc i).cancel? = some (a, .start))
    (hnative : (c.shared.attempt a).nativeStarted = false) :
    ∃ j, WaitsFor c i j ∧ c.pc j = .connect a .starting := by
  obtain ⟨hI, hat⟩ := reach_attempts hc
  have hperforms := ((hat i).cancel hwaits).1
  have howner : (c.shared.view a).history.owner ≠ none := by
    intro hfresh
    have hhistory := ((hI.ok a).fresh hfresh).2.2
    have hcanceller := hperforms.canceller
    rw [hhistory] at hcanceller
    cases hcanceller
  obtain ⟨j, hj⟩ := Option.ne_none_iff_exists'.mp howner
  have hstarting := ((reach_placed hc a).2 j).starting hj hnative
  exact ⟨j, .started a hwaits hnative hstarting, hstarting⟩

/-- Whoever waits for the Runtime to complete an attempt goes on when it does. -/
theorem ends_of_completion (hc : (callsMachine ι mode errorName).Reach c)
    (hwaits : (c.pc i).cancel? = some (a, .awaitDone))
    (hdone : (c.shared.attempt a).done = false) : Ends mode errorName c i := by
  obtain ⟨hI, hat⟩ := reach_attempts hc
  obtain ⟨hkept, hplaced⟩ := reach_placed hc a
  have hperforms := ((hat i).cancel hwaits).1
  have hhandle := (hplaced i).completing (.inr hwaits)
  obtain ⟨hmanaged, -, hstart⟩ := hkept.handle hhandle
  have hactive : (c.shared.view a).active = true := by
    rcases hkept.held (hperforms.unseen (hI.ok a)).1 hperforms.pending with hactive | hfailed
    · exact hactive
    · exact absurd (hstart.symm.trans hfailed) Bool.false_ne_true
  have hterminal : (c.shared.attempt a).terminalCode = none := by
    by_contra hterminal
    exact Bool.false_ne_true (hdone.symm.trans (hkept.done hterminal))
  refine .completes a hwaits fun code => ⟨_, if_pos hmanaged, ?_⟩
  have hcomplete : c.shared.connection.managedComplete a code =
      c.shared.connection.modifyAttempt a fun attempt =>
        { attempt with terminalCode := some code, done := true } :=
    if_pos ⟨(view_active c.shared a).mp hactive, .inl hterminal⟩
  have hnew : ((c.shared.connection.managedComplete a code).attempts a).terminalCode =
      some code := by
    simp [hcomplete, Connection.modifyAttempt]
  rw [Shared.settle_new hnew (by simp [hterminal]), hcomplete]
  have hset : ((c.shared.connection.modifyAttempt a fun attempt =>
      { attempt with terminalCode := some code, done := true }).attempts a).done = true := by
    simp [Connection.modifyAttempt]
  refine goes_of_open mode errorName (c := ⟨_, c.pc⟩) ?_ ?_
  · rintro raised (hidle : c.pc i = .idle raised)
    rw [hidle] at hwaits
    cases hwaits
  · show Pc.Open _ (c.pc i)
    rcases cancel_eq_some hwaits with hp | hp | ⟨g, hp⟩
    · rw [hp]
      exact hset
    · rw [hp]
      exact hset
    · rw [hp]
      exact hset

/-- The thread in the `connect` of an attempt owns it. -/
theorem owner_of_connects (hc : (callsMachine ι mode errorName).Reach c)
    (h : (c.pc i).Connects a) : (c.shared.history a).owner = some i := by
  obtain ⟨stage, hp⟩ := h
  have hat := (reach_attempts hc).2 i
  rw [hp] at hat
  cases stage with
  | startFinish e | fail e | result => exact hat.1
  | _ => exact hat.1.owner

/-- **An attempt that nobody is in the `connect` of is never finished**, and whoever waits for that
waits for ever. -/
theorem waits_for_ever (hc : (callsMachine ι mode errorName).Reach c)
    (hwaits : (c.pc i).AwaitsFinished a) (hfin : (c.shared.attempt a).finished = false)
    (hmade : (c.shared.history a).owner ≠ none) (hnone : ∀ k, ¬ (c.pc k).Connects a)
    {c' : Config ι (Shared ι) Pc} (hc' : ((callsMachine ι mode errorName).after c).Reach c') :
    c'.pc i = c.pc i := by
  refine (hc'.invariant (I := fun c' => (callsMachine ι mode errorName).Reach c' ∧
    (c'.shared.attempt a).finished = false ∧ (c'.shared.history a).owner ≠ none ∧
    (∀ k, ¬ (c'.pc k).Connects a) ∧ c'.pc i = c.pc i) ?_ ?_).2.2.2.2
  · rintro c' (rfl : c' = c)
    exact ⟨hc, hfin, hmade, hnone, rfl⟩
  · rintro d (⟨k, act⟩ | e) d' ⟨hd, hfin, hmade, hnone, hpc⟩ - hstep
    · have hd' : (callsMachine ι mode errorName).Reach d' :=
        .step (a := .thread k act) hd trivial hstep
      obtain ⟨⟨s', p'⟩, hnext, rfl⟩ := Option.map_eq_some_iff.mp hstep
      obtain ⟨hI, hat⟩ := reach_attempts hd
      obtain ⟨howner, hfin', hp'⟩ :=
        (callStep_wrote hI (hat k) hnext a).abandoned hmade (hnone k)
      refine ⟨hd', hfin'.trans hfin, fun hfresh => hmade (howner.symm.trans hfresh), ?_, ?_⟩
      · intro j
        by_cases hj : j = k
        · subst hj
          simpa using hp'
        · simpa [hj] using hnone j
      · by_cases hk : i = k
        · subst hk
          exfalso
          -- it goes on only when the attempt is finished
          have hwaits : (d.pc i).AwaitsFinished a := hpc ▸ hwaits
          rcases hwaits with hp | ⟨g, hp⟩
          · rw [hp] at hnext
            cases disconnectStep_cases hnext with
            | connected _ hfinished | settled _ hfinished =>
                exact Bool.false_ne_true (hfin.symm.trans hfinished)
          · rw [hp] at hnext
            cases closeStep_cases hnext with
            | awaited _ hfinished => exact Bool.false_ne_true (hfin.symm.trans hfinished)
            | fails _ _ _ hstage => simp at hstage
        · simpa [hk] using hpc
    · have hd' : (callsMachine ι mode errorName).Reach d' :=
        .step (a := .env e) hd trivial hstep
      obtain ⟨s', hnext, rfl⟩ := Option.map_eq_some_iff.mp hstep
      have hsame := (environmentStep_brought hnext a).same
      exact ⟨hd', hsame.1.trans hfin, fun hfresh => hmade (hsame.2.symm.trans hfresh), hnone, hpc⟩

/-- Whoever waits for the end of an attempt waits for its `connect`, or for ever. -/
theorem waits_for_end (hc : (callsMachine ι mode errorName).Reach c)
    (hwaits : (c.pc i).AwaitsFinished a) (hfin : (c.shared.attempt a).finished = false) :
    Ends mode errorName c i ∨ ∃ j, WaitsFor c i j ∧ (c.pc j).Connects a := by
  have hmade : (c.shared.history a).owner ≠ none := by
    apply reach_about hc (i := i)
    rcases hwaits with hp | ⟨g, hp⟩
    · rw [hp]
      rfl
    · rw [hp]
      rfl
  obtain ⟨o, ho⟩ := Option.ne_none_iff_exists'.mp hmade
  by_cases hconnects : (c.pc o).Connects a
  · exact .inr ⟨o, .finished a hwaits hfin hconnects, hconnects⟩
  · have hnone : ∀ k, ¬ (c.pc k).Connects a := by
      intro k hk
      obtain rfl : k = o := Option.some.inj ((owner_of_connects hc hk).symm.trans ho)
      exact hconnects hk
    have hfailed : (c.shared.history a).cancelFailed = true := by
      by_contra hfailed
      exact hconnects (((reach_placed hc a).2 o).running ho hfin fun hboth => hfailed hboth.2)
    exact .inl (.leftBehind a hwaits hfailed fun c' hc' =>
      waits_for_ever hc hwaits hfin hmade hnone hc')

/-! ### No circle -/

omit [DecidableEq ι] in
theorem rank_of_cancels (h : p.Cancels a) : p.rank ≤ 1 := by
  obtain ⟨stage, hp, hperforming⟩ := h
  rcases cancel_eq_some hp with rfl | rfl | ⟨g, rfl⟩
  all_goals
    cases stage with
    | enter | join => exact hperforming.elim
    | _ => simp [Pc.rank]

omit [DecidableEq ι] in
theorem rank_of_connects (h : p.Connects a) : p.rank ≤ 2 := by
  obtain ⟨stage, rfl⟩ := h
  cases stage with
  | cancel stage =>
      cases stage with
      | _ => simp [Pc.rank]
  | _ => simp [Pc.rank]

omit [DecidableEq ι] in
theorem rank_of_close {g : ℕ} {stage : CloseStage} : (Pc.close g stage).rank ≤ 3 := by
  cases stage with
  | cancel a stage =>
      cases stage with
      | _ => simp [Pc.rank]
  | _ => simp [Pc.rank]

omit [DecidableEq ι] in
theorem calls_of_cancels (h : p.Cancels a) : p.Calls := by
  rintro raised rfl
  exact not_cancels rfl h

omit [DecidableEq ι] in
theorem calls_of_connects (h : p.Connects a) : p.Calls := by
  rintro raised rfl
  exact not_connects (by rintro _ _ ⟨⟩) h

/-- A thread in `_cancel_connect` whose stage does not go on. -/
theorem cancel_leads_on (hc : (callsMachine ι mode errorName).Reach c) {stage : CancelStage}
    (hp : (c.pc i).cancel? = some (a, stage)) (hclosed : ¬ stage.Open c.shared a) :
    Ends mode errorName c i ∨
      ∃ j, WaitsFor c i j ∧ (c.pc j).Calls ∧ (c.pc j).rank < (c.pc i).rank := by
  cases stage with
  | join =>
      have hcancelling : (c.shared.attempt a).cancelling = true :=
        ((reach_attempts hc).2 i).cancel hp
      have hrank : (c.pc i).rank = 2 := by
        rcases cancel_eq_some hp with heq | heq | ⟨g, heq⟩
        all_goals
          rw [heq]
          rfl
      obtain ⟨j, hwaits, hcancels⟩ :=
        waits_for_canceller hc (.inr hp) hcancelling (Bool.eq_false_iff.mpr hclosed)
      have hlow := rank_of_cancels hcancels
      exact .inr ⟨j, hwaits, calls_of_cancels hcancels, by omega⟩
  | start =>
      have hrank : (c.pc i).rank = 1 := by
        rcases cancel_eq_some hp with heq | heq | ⟨g, heq⟩
        all_goals
          rw [heq]
          rfl
      obtain ⟨j, hwaits, hstarting⟩ := waits_for_start hc hp (Bool.eq_false_iff.mpr hclosed)
      refine .inr ⟨j, hwaits, calls_of_connects ⟨_, hstarting⟩, ?_⟩
      rw [hstarting, hrank]
      exact Nat.zero_lt_one
  | awaitDone => exact .inl (ends_of_completion hc hp (Bool.eq_false_iff.mpr hclosed))
  | barrier =>
      refine .inl (ends_of_drain hc ?_)
      rcases cancel_eq_some hp with heq | heq | ⟨g, heq⟩
      all_goals
        rw [heq]
        exact Bool.eq_false_iff.mpr hclosed
  | enter | attemptCancel | disconnect | terminal | mark | leave => exact absurd trivial hclosed

/-- Whoever waits for the end of an attempt. -/
theorem end_leads_on (hc : (callsMachine ι mode errorName).Reach c)
    (hwaits : (c.pc i).AwaitsFinished a) (hclosed : ¬ (c.shared.attempt a).finished = true) :
    Ends mode errorName c i ∨
      ∃ j, WaitsFor c i j ∧ (c.pc j).Calls ∧ (c.pc j).rank < (c.pc i).rank := by
  have hrank : (c.pc i).rank = 3 := by
    rcases hwaits with heq | ⟨g, heq⟩
    all_goals
      rw [heq]
      rfl
  rcases waits_for_end hc hwaits (Bool.eq_false_iff.mpr hclosed) with hends | ⟨j, hj, hconnects⟩
  · exact .inl hends
  · have hlow := rank_of_connects hconnects
    exact .inr ⟨j, hj, calls_of_connects hconnects, by omega⟩

/-- **A thread in a call goes on or waits for one of a lower rank**, or its waiting ends. -/
theorem call_leads_on (hc : (callsMachine ι mode errorName).Reach c) (hcalls : (c.pc i).Calls) :
    Ends mode errorName c i ∨
      ∃ j, WaitsFor c i j ∧ (c.pc j).Calls ∧ (c.pc j).rank < (c.pc i).rank := by
  by_cases hopen : (c.pc i).Open c.shared
  · exact .inl (.goes (goes_of_open mode errorName hcalls hopen))
  cases hi : c.pc i with
  | idle raised => exact absurd hi (hcalls raised)
  | connect a stage =>
      rw [hi] at hopen
      cases stage with
      | cancel stage => exact hi ▸ cancel_leads_on hc (by rw [hi]; rfl) hopen
      | awaitCancel =>
          have hat := (reach_attempts hc).2 i
          rw [hi] at hat
          obtain ⟨j, hwaits, hcancels⟩ :=
            waits_for_canceller hc (.inl hi) hat.2.2.2 (Bool.eq_false_iff.mpr hopen)
          have hlow := rank_of_cancels hcancels
          exact .inr ⟨j, hwaits, calls_of_cancels hcancels, by
            have hrank : (Pc.connect a .awaitCancel).rank = 2 := rfl
            omega⟩
      | finishBarrier =>
          exact .inl (ends_of_drain hc (by rw [hi]; exact Bool.eq_false_iff.mpr hopen))
      | _ => exact absurd trivial hopen
  | disconnect stage =>
      rw [hi] at hopen
      cases stage with
      | cancel a stage => exact hi ▸ cancel_leads_on hc (by rw [hi]; rfl) hopen
      | awaitFinished a => exact hi ▸ end_leads_on hc (.inl hi) hopen
      | barrier =>
          exact .inl (ends_of_drain hc (by rw [hi]; exact Bool.eq_false_iff.mpr hopen))
      | _ => exact absurd trivial hopen
  | closeJoin g =>
      rw [hi] at hopen
      have hfollows := reach_following hc
      have hcaller : (fun j => (c.pc j).caller) i = .waiting g := by simp [hi, Pc.caller]
      rcases hfollows.waiting hcaller with ⟨o, houtcome⟩ | ⟨k, hk⟩
      · exact absurd ⟨o, houtcome, hfollows.wakes hcaller⟩ hopen
      · have hperforms : ∃ stage, c.pc k = .close g stage := by
          cases hpc : c.pc k with
          | close g' stage =>
              simp only [hpc, Pc.caller, Caller.performing.injEq] at hk
              exact ⟨stage, by rw [hk]⟩
          | _ => simp [hpc, Pc.caller] at hk
        obtain ⟨stage, hstage⟩ := hperforms
        refine .inr ⟨k, .closed g stage hi hstage, ?_, ?_⟩
        · rintro raised hidle
          cases hidle.symm.trans hstage
        · have hlow : (Pc.close g stage).rank ≤ 3 := rank_of_close
          have hrank : (Pc.closeJoin g).rank = 4 := rfl
          rw [hstage]
          omega
  | close g stage =>
      rw [hi] at hopen
      cases stage with
      | cancel a stage => exact hi ▸ cancel_leads_on hc (by rw [hi]; rfl) hopen
      | awaitFinished a => exact hi ▸ end_leads_on hc (.inr ⟨g, hi⟩) hopen
      | drain dumpError =>
          exact .inl (ends_of_drain hc (by rw [hi]; exact Bool.eq_false_iff.mpr hopen))
      | _ => exact absurd trivial hopen

end Runs

end Tirtc
