import Mathlib.Tactic.Common
import Tirtc.Following
import Tirtc.Storage.Playback

/-!
# Who may do what with a Replay

What the lock and the close coordinator keep apart, in every interleaving: an operation in its
native call has an open Replay to itself, and the teardown the handle.

* `Moves`, `playbackStep_cases`: the steps, inverted.
* `Ok`, `StageAt`, `At`: the invariant of the record, and what a thread knows at its place.
* `Leaves`: what a step of one thread leaves to the others.
* `Good`, `moves_good`: every step keeps all of it; `control`: the rely-guarantee proof.
* `PlaybackPc.caller`, `reach_follows`: the calls follow the close coordinator.
-/

set_option autoImplicit false
set_option linter.unusedSectionVars false

namespace Tirtc.Playback

open Transition Closing

variable {ι : Type} [DecidableEq ι] {errorName : ℤ → String} {s s' : Replay ι} {i : ι}
  {pc pc' : PlaybackPc} {act : PlaybackAction}

/-! ## The steps -/

/-- **What a step of thread `i` can do**: where it is, what moves it, what becomes of the record,
and where it goes. -/
inductive Moves (s : Replay ι) (i : ι) :
    PlaybackPc → PlaybackAction → Replay ι → PlaybackPc → Prop
  | refused (returned returned' : Returned) (call : ReplayCall) :
      Moves s i (.idle returned) (.call call) s (.idle returned')
  | calls (returned : Returned) (call : ReplayCall) (op : Operation) :
      prepare (s.related i) call = .ok (some op) →
      Moves s i (.idle returned) (.call call) s (.enter op)
  | toClose (returned : Returned) (call : ReplayCall) : s.related i = false →
      Moves s i (.idle returned) (.call call) s .enterClose
  | queueCallback (returned : Returned) : s.executing = none → 0 < s.queued →
      Moves s i (.idle returned) (.enterCallback .queue)
        { s with queued := s.queued - 1, executing := some i } (.idle returned)
  | directCallback (returned : Returned) (source : CallbackSource) :
      source = .direct ∨ source = .unlisted →
      Moves s i (.idle returned) (.enterCallback source)
        { s with directCallbacks := insert i s.directCallbacks } (.idle returned)
  | outputCallback (returned : Returned) : 0 < s.outputsQueued →
      Moves s i (.idle returned) (.enterCallback .output)
        { s with
          outputsQueued := s.outputsQueued - 1
          outputCallbacks := insert i s.outputCallbacks } (.idle returned)
  | callbackEnds (returned : Returned) : s.related i = true →
      Moves s i (.idle returned) .leaveCallback
        { s with
          executing := if s.executing = some i then none else s.executing
          directCallbacks := s.directCallbacks.erase i
          outputCallbacks := s.outputCallbacks.erase i } (.idle returned)
  | notEntered (op : Operation) (busy : Bool) (returned : Returned) :
      Moves s i (.enter op) (.enter busy) s (.idle returned)
  | entered (op : Operation) (busy : Bool) : s.lock = none → s.close.status = .open →
      op.refuse s.playbackRange = none →
      Moves s i (.enter op) (.enter busy) { s with lock := some i } (.native op)
  | again (op : Operation) (timedOut : Bool) : s.related i = false →
      Moves s i (.native op) (.native (.code 6026) timedOut) s.touch (.native op)
  | failed (op : Operation) (act : PlaybackAction) (e : Raised) :
      Moves s i (.native op) act { s.touch with lock := none } (.idle (.raised e))
  | accepted (op : Operation) (timedOut : Bool) :
      Moves s i (.native op) (.native (.code 0) timedOut) (s.touch.accept op) (.assign op .nothing)
  | speedRead (value : ℤ) (speed : ReplaySpeed) : replaySpeedFromNative value = some speed →
      Moves s i (.native .speed) (.speed 0 value) s.touch (.assign .speed (.speed speed))
  | timeRead (code : ℤ) (present : Bool) (value : ℤ) (returned : Returned) :
      Moves s i (.native .currentTime) (.time code present value) s.touch
        (.assign .currentTime returned)
  | assigned (op : Operation) (returned : Returned) :
      Moves s i (.assign op returned) .go { s.assign op returned with lock := none }
        (.idle returned)
  | joins (g : ℕ) : s.lock = none → s.close.begin.1 = .join g → s.close.status = .closing →
      s.close.begin.2.status = .closing →
      Moves s i .enterClose .go { s with close := s.close.begin.2 } (.joining g)
  | notClosed (returned : Returned) : s.lock = none → s.close.begin.2 = s.close →
      (∀ g, s.close.begin.1 ≠ .join g) → (∀ g, s.close.begin.1 ≠ .perform g) →
      Moves s i .enterClose .go s (.idle returned)
  | performs (g : ℕ) : s.lock = none → s.close.begin.1 = .perform g →
      (s.close.status = .open ∨ s.close.status = .closeFailed) →
      s.close.begin.2.status = .closing →
      Moves s i .enterClose .go { s with close := s.close.begin.2, closer := some i }
        (.closing g .children)
  | wakes (g : ℕ) (o : Option PyError) (c : CloseCoordinator) (returned : Returned) :
      s.lock = none → s.close.outcomes g = some o → s.close.leave g = some c →
      Moves s i (.joining g) .go { s with close := c } (.idle returned)
  | childFailed (g : ℕ) (e : PyError) (dumpError : Option PyError) :
      Moves s i (.closing g .children) (.children (some e) dumpError) s (.closing g (.fail e))
  | childrenClosed (g : ℕ) (dumpError : Option PyError) : s.outputCallbacks = ∅ →
      s.outputsQueued = 0 →
      Moves s i (.closing g .children) (.children none dumpError)
        { s with outputsDetached := true } (.closing g (.stop dumpError))
  | alreadyStopped (g : ℕ) (dumpError : Option PyError) : s.nativeStopped = true →
      Moves s i (.closing g (.stop dumpError)) .go s (.closing g (.dispatcher dumpError))
  | stopAgain (g : ℕ) (dumpError : Option PyError) (timedOut : Bool) : s.nativeStopped = false →
      Moves s i (.closing g (.stop dumpError)) (.native (.code 6026) timedOut) s.touch
        (.closing g (.stop dumpError))
  | notStopped (g : ℕ) (dumpError : Option PyError) (r : NativeResult) (timedOut : Bool)
      (e : PyError) : s.nativeStopped = false →
      Moves s i (.closing g (.stop dumpError)) (.native r timedOut) s.touch (.closing g (.fail e))
  | stops (g : ℕ) (dumpError : Option PyError) (timedOut : Bool) : s.nativeStopped = false →
      Moves s i (.closing g (.stop dumpError)) (.native (.code 0) timedOut)
        { s.touch with
          stopped := true
          nativeStopped := true
          closeStops := s.closeStops + 1 } (.closing g (.dispatcher dumpError))
  | dispatcherCloses (g : ℕ) (dumpError : Option PyError) :
      Moves s i (.closing g (.dispatcher dumpError)) .go { s with dispatcherClosed := true }
        (.closing g (.drain dumpError))
  | drained (g : ℕ) (dumpError : Option PyError) : s.executing = none → s.queued = 0 →
      Moves s i (.closing g (.drain dumpError)) .go s (.closing g (.destroy dumpError))
  | destroyAgain (g : ℕ) (dumpError : Option PyError) (timedOut : Bool) :
      Moves s i (.closing g (.destroy dumpError)) (.native (.code 6026) timedOut) s.touch
        (.closing g (.destroy dumpError))
  | notDestroyed (g : ℕ) (dumpError : Option PyError) (r : NativeResult) (timedOut : Bool)
      (e : PyError) :
      Moves s i (.closing g (.destroy dumpError)) (.native r timedOut) s.touch
        (.closing g (.fail e))
  | destroys (g : ℕ) (dumpError : Option PyError) (timedOut : Bool) :
      Moves s i (.closing g (.destroy dumpError)) (.native (.code 0) timedOut)
        { s.touch with destroyed := true } (.closing g (.parent dumpError))
  | parentLeft (g : ℕ) (dumpError : Option PyError) :
      Moves s i (.closing g (.parent dumpError)) .go { s with parentFinished := true }
        (.closing g (.succeed dumpError))
  | closed (g : ℕ) (dumpError : Option PyError) : s.lock = none →
      Moves s i (.closing g (.succeed dumpError)) .go
        { s with close := s.close.succeed g dumpError, closer := none }
        (.idle (closeReturned dumpError))
  | closeFailed (g : ℕ) (e : PyError) : s.lock = none →
      Moves s i (.closing g (.fail e)) .go { s with close := s.close.fail g e, closer := none }
        (.idle (.raised (.sdk e)))

/-- Only a thread outside the callbacks goes to the lock with a blocking operation, or to close. -/
theorem prepare_ok {related : Bool} {call : ReplayCall} {op : Option Operation}
    (h : prepare related call = .ok op) :
    (op = none → related = false) ∧ ∀ o, op = some o → o.blocking = true → related = false := by
  cases related with
  | false => simp
  | true =>
      cases call with
      | setSpeed speed =>
          cases speed with
          | none => cases h
          | some speed =>
              cases h
              simp [Operation.blocking]
      | pause | resume | speed | currentTime | startRecording =>
          cases h
          simp [Operation.blocking]
      | play _ _ _ | seek _ | stop | startRawDump | close => cases h

/-- A play begins inside its range. -/
def Operation.Sound : Operation → Prop
  | .play range initial => range.1 ≤ initial ∧ initial < range.2
  | _ => True

/-- The checks before the lock let no other play through. -/
theorem prepare_sound {related : Bool} {call : ReplayCall} {op : Operation}
    (h : prepare related call = .ok (some op)) : op.Sound := by
  cases call with
  | play startTime endTime initialTime =>
      simp only [prepare] at h
      split at h
      · cases h
      · split at h
        next range initial hplay =>
          cases h
          obtain ⟨-, -, hle, hlt, -⟩ := Storage.playRange_eq_ok.mp hplay
          exact ⟨hle, hlt⟩
        next => cases h
  | seek target =>
      simp only [prepare] at h
      split at h
      · cases h
      · split at h
        next =>
          cases h
          trivial
        next => cases h
  | setSpeed speed =>
      cases speed with
      | none => cases h
      | some speed =>
          cases h
          trivial
  | stop | startRawDump =>
      simp only [prepare] at h
      split at h
      · cases h
      · cases h
        trivial
  | close =>
      simp only [prepare] at h
      split at h <;> cases h
  | pause | resume | speed | currentTime | startRecording =>
      cases h
      trivial

/-- What an operation that does not read makes of its result. -/
theorem operationResult_cases {op : Operation} {r : NativeResult} {timedOut : Bool}
    (h : operationResult errorName s.touch i op r timedOut = some (s', pc')) :
    Moves s i (.native op) (.native r timedOut) s' pc' := by
  have hrelated : s.touch.related i = s.related i := rfl
  unfold operationResult at h
  split at h
  next hretried =>
    split at h
    next hagain =>
      obtain ⟨rfl, -⟩ := hagain
      cases h
      simp only [Bool.and_eq_true, Bool.not_eq_true'] at hretried
      exact .again op timedOut (hrelated.symm.trans hretried.2)
    next =>
      split at h
      next e hr =>
        cases h
        exact .failed op _ _
      next hr =>
        cases h
        obtain rfl := NativeResult.retryInUse_eq_none.mp hr
        exact .accepted op timedOut
  next =>
    split at h
    next e hr =>
      cases h
      exact .failed op _ _
    next hr =>
      cases h
      obtain rfl := NativeResult.check_eq_none.mp hr
      exact .accepted op timedOut

/-- What the native call of an operation can end in. -/
theorem nativeStep_cases {op : Operation} (h : nativeStep errorName s i op act = some (s', pc')) :
    Moves s i (.native op) act s' pc' := by
  cases op with
  | speed =>
      cases act with
      | speed code value =>
          simp only [nativeStep, readSpeed] at h
          split at h
          · cases h
            exact .failed _ _ _
          next hcode =>
            have hcode := NativeResult.check_eq_none.mp hcode
            cases hcode
            split at h
            next speed hspeed =>
              cases h
              exact .speedRead value speed hspeed
            next =>
              cases h
              exact .failed _ _ _
      | native r timedOut =>
          cases r with
          | raised e =>
              cases h
              exact .failed _ _ _
          | code c => cases h
      | _ => cases h
  | currentTime =>
      cases act with
      | time code present value =>
          cases h
          exact .timeRead code present value _
      | native r timedOut =>
          cases r with
          | raised e =>
              cases h
              exact .failed _ _ _
          | code c => cases h
      | _ => cases h
  | _ =>
      cases act with
      | native r timedOut => exact operationResult_cases h
      | _ => cases h

/-- What a close behind its first section can do. -/
theorem closeStep_cases {g : ℕ} {stage : ReplayCloseStage}
    (h : closeStep errorName s g stage act = some (s', pc')) :
    Moves s i (.closing g stage) act s' pc' := by
  cases stage with
  | children =>
      cases act with
      | children raised dumpError =>
          cases raised with
          | some e =>
              cases h
              exact .childFailed g e dumpError
          | none =>
              simp only [closeStep] at h
              split at h
              next hquiet =>
                cases h
                exact .childrenClosed g dumpError hquiet.1 hquiet.2
              next => cases h
      | _ => cases h
  | stop dumpError =>
      cases hstopped : s.nativeStopped with
      | true =>
          cases act with
          | go =>
              simp only [closeStep, closeStop, hstopped] at h
              cases h
              exact .alreadyStopped g dumpError hstopped
          | _ => simp [closeStep, closeStop, hstopped] at h
      | false =>
          cases act with
          | native r timedOut =>
              simp only [closeStep, closeStop, hstopped] at h
              split at h
              next hagain =>
                obtain ⟨rfl, -⟩ := hagain
                cases h
                exact .stopAgain g dumpError timedOut hstopped
              next =>
                split at h
                next e hr =>
                  cases h
                  exact .notStopped g dumpError r timedOut e hstopped
                next hr =>
                  cases h
                  obtain rfl := NativeResult.retryInUse_eq_none.mp hr
                  exact .stops g dumpError timedOut hstopped
          | _ => simp [closeStep, closeStop, hstopped] at h
  | dispatcher dumpError =>
      cases act with
      | go =>
          cases h
          exact .dispatcherCloses g dumpError
      | _ => cases h
  | drain dumpError =>
      cases act with
      | go =>
          simp only [closeStep] at h
          split at h
          next hquiet =>
            cases h
            exact .drained g dumpError hquiet.1 hquiet.2
          next => cases h
      | _ => cases h
  | destroy dumpError =>
      cases act with
      | native r timedOut =>
          simp only [closeStep, closeDestroy] at h
          split at h
          next hagain =>
            obtain ⟨rfl, -⟩ := hagain
            cases h
            exact .destroyAgain g dumpError timedOut
          next =>
            split at h
            next e hr =>
              cases h
              exact .notDestroyed g dumpError r timedOut e
            next hr =>
              cases h
              obtain rfl := NativeResult.retryInUse_eq_none.mp hr
              exact .destroys g dumpError timedOut
      | _ => cases h
  | parent dumpError =>
      cases act with
      | go =>
          cases h
          exact .parentLeft g dumpError
      | _ => cases h
  | succeed dumpError =>
      cases act with
      | go =>
          simp only [closeStep] at h
          split at h
          · cases h
          next hlock =>
            cases h
            exact .closed g dumpError (by simpa using hlock)
      | _ => cases h
  | fail e =>
      cases act with
      | go =>
          simp only [closeStep] at h
          split at h
          · cases h
          next hlock =>
            cases h
            exact .closeFailed g e (by simpa using hlock)
      | _ => cases h

/-- What the first section of a close can do. -/
theorem closeBegin_cases (h : closeBegin s i = some (s', pc')) :
    Moves s i .enterClose .go s' pc' := by
  unfold closeBegin at h
  split at h
  · cases h
  next hlock =>
    have hlock : s.lock = none := by simpa using hlock
    rcases s.close.begin_cases false with ⟨hst, hbegin⟩ | ⟨hst, hbegin⟩ | ⟨hst, hbegin⟩ |
      ⟨hst, hbegin⟩
    all_goals
      rw [hbegin] at h
      cases h
    · have hjoins := Moves.joins (s := s) (i := i) _ hlock (by rw [hbegin]) hst
        (by rw [hbegin]; exact hst)
      rwa [hbegin] at hjoins
    · exact .notClosed _ hlock (by rw [hbegin]) (by simp [hbegin]) (by simp [hbegin])
    · exact .notClosed _ hlock (by rw [hbegin]) (by simp [hbegin]) (by simp [hbegin])
    · have hperforms := Moves.performs (s := s) (i := i) _ hlock (by rw [hbegin]) hst
        (by rw [hbegin])
      rwa [hbegin] at hperforms

/-- **The steps, inverted.** -/
theorem playbackStep_cases (h : playbackStep errorName s i pc act = some (s', pc')) :
    Moves s i pc act s' pc' := by
  cases pc with
  | idle returned =>
      cases act with
      | call call =>
          simp only [playbackStep, callBegin] at h
          split at h
          next e hprepare =>
            cases h
            exact .refused _ _ _
          next op hprepare =>
            cases h
            exact .calls returned call op hprepare
          next hprepare =>
            cases h
            exact .toClose returned call ((prepare_ok hprepare).1 rfl)
      | enterCallback source =>
          cases source with
          | queue =>
              simp only [playbackStep, callbackBegin] at h
              split at h
              · cases h
              next hfree =>
                cases h
                simp only [Bool.or_eq_true, decide_eq_true_eq, not_or, Bool.not_eq_true,
                  Option.isSome_eq_false_iff, Option.isNone_iff_eq_none] at hfree
                exact .queueCallback returned hfree.1.2 (Nat.pos_of_ne_zero hfree.2)
          | direct | unlisted =>
              simp only [playbackStep, callbackBegin] at h
              split at h
              · cases h
              · cases h
                exact .directCallback returned _ (by simp)
          | output =>
              simp only [playbackStep, callbackBegin] at h
              split at h
              · cases h
              next hfree =>
                cases h
                simp only [Bool.or_eq_true, decide_eq_true_eq, not_or] at hfree
                exact .outputCallback returned (Nat.pos_of_ne_zero hfree.2)
      | leaveCallback =>
          simp only [playbackStep, callbackEnd] at h
          split at h
          next hrelated =>
            cases h
            exact .callbackEnds returned hrelated
          next => cases h
      | _ => cases h
  | enter op =>
      cases act with
      | enter busy =>
          simp only [playbackStep, enterStep] at h
          split at h
          next =>
            split at h
            · cases h
              exact .notEntered _ _ _
            · cases h
          next hfree =>
            simp only [Bool.or_eq_true, not_or, Bool.not_eq_true] at hfree
            split at h
            next e hclosed =>
              cases h
              exact .notEntered _ _ _
            next hopen =>
              split at h
              next e hrefuse =>
                cases h
                exact .notEntered _ _ _
              next hrefuse =>
                cases h
                exact .entered op busy (by simpa using hfree.1)
                  (CloseCoordinator.requireOpen_eq_none.mp hopen) hrefuse
      | _ => cases h
  | native op => exact nativeStep_cases h
  | assign op returned =>
      cases act with
      | go =>
          cases h
          exact .assigned op returned
      | _ => cases h
  | enterClose =>
      cases act with
      | go => exact closeBegin_cases h
      | _ => cases h
  | joining g =>
      cases act with
      | go =>
          simp only [playbackStep, wakeClose] at h
          split at h
          · cases h
          next hlock =>
            obtain ⟨o, houtcome, h⟩ := Option.bind_eq_some_iff.mp h
            obtain ⟨c, hleave, h⟩ := Option.map_eq_some_iff.mp h
            cases h
            exact .wakes g o c _ (by simpa using hlock) houtcome hleave
      | _ => cases h
  | closing g stage => exact closeStep_cases h

/-! ## What holds -/

/-- The record agrees with what the Runtime has accepted. -/
def Agree (s : Replay ι) : Prop := s.playbackRange = s.played ∧ s.nativeStopped = s.stopped

/-- The close of the dispatcher is over: no event is executed, and none comes any more. -/
def Drained (s : Replay ι) : Prop :=
  s.dispatcherClosed = true ∧ s.executing = none ∧ s.queued = 0

/-- The invariant of the record. -/
structure Ok (s : Replay ι) : Prop where
  held : s.lock ≠ none → s.close.status = .open
  closer : ∀ j, s.closer = some j → s.close.status = .closing
  agree : s.lock = none → Agree s
  outputs : s.outputsDetached = true → s.outputCallbacks = ∅ ∧ s.outputsQueued = 0
  closeStops : s.closeStops ≤ 1
  onlyStop : 0 < s.closeStops → s.nativeStopped = true ∧ s.close.status ≠ .open
  destroyed : s.destroyed = true → s.close.status = .closing ∨ s.close.status = .closed
  gone : s.destroyed = true → s.nativeStopped = true ∧ s.outputsDetached = true ∧ Drained s
  late : s.late = false

/-- What the thread that closes knows at a stage. -/
def StageAt (s : Replay ι) : ReplayCloseStage → Prop
  | .children | .fail _ => s.destroyed = false
  | .stop _ => s.destroyed = false ∧ s.outputsDetached = true
  | .dispatcher _ => s.destroyed = false ∧ s.outputsDetached = true ∧ s.nativeStopped = true
  | .drain _ =>
      s.destroyed = false ∧ s.outputsDetached = true ∧ s.nativeStopped = true ∧
        s.dispatcherClosed = true
  | .destroy _ =>
      s.destroyed = false ∧ s.outputsDetached = true ∧ s.nativeStopped = true ∧ Drained s
  | .parent _ | .succeed _ => s.destroyed = true

/-- Thread `i` has neither the lock nor the teardown. -/
def Apart (i : ι) (s : Replay ι) : Prop := s.lock ≠ some i ∧ s.closer ≠ some i

/-- What thread `i` knows at its place. -/
def At (i : ι) (s : Replay ι) : PlaybackPc → Prop
  | .idle _ => Apart i s
  | .enter op => Apart i s ∧ (op.blocking = true → s.related i = false) ∧ op.Sound
  | .native op =>
      s.lock = some i ∧ s.closer ≠ some i ∧ Agree s ∧ op.Sound ∧ op.refuse s.played = none
  | .assign op returned => s.lock = some i ∧ s.closer ≠ some i ∧ Agree (s.assign op returned)
  | .enterClose | .joining _ => Apart i s ∧ s.related i = false
  | .closing _ stage =>
      s.lock ≠ some i ∧ s.closer = some i ∧ s.related i = false ∧ StageAt s stage

/-- **What a step of `k` leaves to the others**: the lock and the teardown to the thread that has
them, with the fields that go with them; and to each thread its callback. -/
structure Leaves (k : Option ι) (s s' : Replay ι) : Prop where
  lock : ∀ j, k ≠ some j → (s'.lock = some j ↔ s.lock = some j)
  closer : ∀ j, k ≠ some j → (s'.closer = some j ↔ s.closer = some j)
  related : ∀ j, k ≠ some j → s'.related j = s.related j
  fields : ∀ j, k ≠ some j → s.lock = some j → s'.playbackRange = s.playbackRange ∧
    s'.played = s.played ∧ s'.nativeStopped = s.nativeStopped ∧ s'.stopped = s.stopped
  teardown : ∀ j, k ≠ some j → s.closer = some j → s'.destroyed = s.destroyed ∧
    s'.outputsDetached = s.outputsDetached ∧ s'.nativeStopped = s.nativeStopped ∧
    s'.dispatcherClosed = s.dispatcherClosed ∧ (Drained s → Drained s')

/-- What an operation stores depends on the fields that go with the lock. -/
theorem Agree.assign {t t' : Replay ι} {op : Operation} {returned : Returned}
    (hrange : t'.playbackRange = t.playbackRange) (hplayed : t'.played = t.played)
    (hstopped : t'.nativeStopped = t.nativeStopped) (hnewest : t'.stopped = t.stopped)
    (h : Agree (t.assign op returned)) : Agree (t'.assign op returned) := by
  unfold Agree at h ⊢
  cases op with
  | speed => cases returned <;> simpa [Replay.assign, hrange, hplayed, hstopped, hnewest] using h
  | _ => simpa [Replay.assign, hrange, hplayed, hstopped, hnewest] using h

/-- What a thread knows, no other thread takes back. -/
theorem At.stable {j : ι} {k : Option ι} (hk : k ≠ some j) (h : Leaves k s s')
    (hA : At j s pc) : At j s' pc := by
  have hapart : Apart j s → Apart j s' := fun hold =>
    ⟨fun hnew => hold.1 ((h.lock j hk).mp hnew), fun hnew => hold.2 ((h.closer j hk).mp hnew)⟩
  have hrelated : s'.related j = s.related j := h.related j hk
  cases pc with
  | idle returned => exact hapart hA
  | enter op => exact ⟨hapart hA.1, by rw [hrelated]; exact hA.2⟩
  | native op =>
      obtain ⟨hlock, hcloser, hagree, hsound, hrefuse⟩ := hA
      obtain ⟨hrange, hplayed, hstopped, hnewest⟩ := h.fields j hk hlock
      refine ⟨(h.lock j hk).mpr hlock, fun hnew => hcloser ((h.closer j hk).mp hnew), ?_, hsound,
        ?_⟩
      · exact ⟨hrange.trans (hagree.1.trans hplayed.symm),
          hstopped.trans (hagree.2.trans hnewest.symm)⟩
      · rw [hplayed]
        exact hrefuse
  | assign op returned =>
      obtain ⟨hlock, hcloser, hagree⟩ := hA
      obtain ⟨hrange, hplayed, hstopped, hnewest⟩ := h.fields j hk hlock
      exact ⟨(h.lock j hk).mpr hlock, fun hnew => hcloser ((h.closer j hk).mp hnew),
        hagree.assign hrange hplayed hstopped hnewest⟩
  | enterClose | joining g => exact ⟨hapart hA.1, hrelated.trans hA.2⟩
  | closing g stage =>
      obtain ⟨hlock, hcloser, hfree, hstage⟩ := hA
      obtain ⟨hdestroyed, houtputs, hstopped, hdispatcher, hdrained⟩ := h.teardown j hk hcloser
      refine ⟨fun hnew => hlock ((h.lock j hk).mp hnew), (h.closer j hk).mpr hcloser,
        hrelated.trans hfree, ?_⟩
      cases stage with
      | destroy dumpError =>
          obtain ⟨halive, hdetached, hstop, hquiet⟩ := hstage
          exact ⟨hdestroyed.trans halive, houtputs.trans hdetached, hstopped.trans hstop,
            hdrained hquiet⟩
      | _ => simpa [StageAt, hdestroyed, houtputs, hstopped, hdispatcher] using hstage

/-! ## Every step keeps it -/

/-- What a step of thread `i` to `pc'` owes. -/
structure Good (i : ι) (s s' : Replay ι) (pc' : PlaybackPc) : Prop where
  ok : Ok s'
  here : At i s' pc'
  leaves : Leaves (some i) s s'

/-- A step that changes nothing. -/
theorem Leaves.refl (k : Option ι) (s : Replay ι) : Leaves k s s where
  lock _ _ := Iff.rfl
  closer _ _ := Iff.rfl
  related _ _ := rfl
  fields _ _ _ := ⟨rfl, rfl, rfl, rfl⟩
  teardown _ _ _ := ⟨rfl, rfl, rfl, rfl, id⟩

/-- A native call that meets the handle is not late. -/
theorem touch_eq (h : s.destroyed = false) : s.touch = s := by
  have hsame : (s.late || s.destroyed) = s.late := by simp [h]
  unfold Replay.touch
  rw [hsame]

/-- Nothing is destroyed while somebody holds the lock. -/
theorem Ok.alive (hs : Ok s) {j : ι} (h : s.lock = some j) : s.destroyed = false := by
  have hopen : s.close.status = .open := hs.held (by simp [h])
  cases hdestroyed : s.destroyed with
  | false => rfl
  | true =>
      rcases hs.destroyed hdestroyed with hst | hst
      · cases hopen.symm.trans hst
      · cases hopen.symm.trans hst

/-- And nobody tears the Replay down. -/
theorem Ok.noCloser (hs : Ok s) {j : ι} (h : s.lock = some j) : s.closer = none := by
  cases hcloser : s.closer with
  | none => rfl
  | some k => cases (hs.held (by simp [h])).symm.trans (hs.closer k hcloser)

/-- Nobody holds the lock while somebody tears the Replay down. -/
theorem Ok.free (hs : Ok s) {j : ι} (h : s.closer = some j) : s.lock = none := by
  cases hlock : s.lock with
  | none => rfl
  | some k => cases (hs.noCloser hlock).symm.trans h

/-- A close has stopped nothing yet while the Replay is open. -/
theorem Ok.noStops (hs : Ok s) (hopen : s.close.status = .open) : s.closeStops = 0 := by
  by_contra hstops
  exact (hs.onlyStop (Nat.pos_of_ne_zero hstops)).2 hopen

/-- A step that changes nothing. -/
theorem good_same (hs : Ok s) (hA : At i s pc') : Good i s s pc' := ⟨hs, hA, .refl _ s⟩

/-- A step that changes only who is in a callback, and what waits for one. -/
theorem good_callback {queued outputsQueued : ℕ} {executing : Option ι} {direct output : Finset ι}
    {returned : Returned} (hs : Ok s) (hA : Apart i s)
    (hdrained : Drained s → executing = none ∧ queued = 0)
    (houtput : s.outputsDetached = true → output = ∅ ∧ outputsQueued = 0)
    (hothers : ∀ j, j ≠ i → (executing = some j ↔ s.executing = some j) ∧
      (j ∈ direct ↔ j ∈ s.directCallbacks) ∧ (j ∈ output ↔ j ∈ s.outputCallbacks)) :
    Good i s
      { s with
        queued := queued
        executing := executing
        directCallbacks := direct
        outputsQueued := outputsQueued
        outputCallbacks := output } (.idle returned) where
  ok :=
    { hs with
      outputs := houtput
      gone := fun h =>
        ⟨(hs.gone h).1, (hs.gone h).2.1, (hs.gone h).2.2.1, hdrained (hs.gone h).2.2⟩ }
  here := hA
  leaves :=
    { Leaves.refl (some i) s with
      related := by
        intro j hj
        have hne : j ≠ i := fun heq => hj (congrArg some heq.symm)
        obtain ⟨hexecuting, hdirect, houtputs⟩ := hothers j hne
        simp [Replay.related, hexecuting, hdirect, houtputs]
      teardown := fun _ _ _ => ⟨rfl, rfl, rfl, rfl, fun h => ⟨h.1, hdrained h⟩⟩ }

/-- A thread takes the lock of an open Replay. -/
theorem good_entered {op : Operation} (hs : Ok s) (hA : At i s (.enter op))
    (hlock : s.lock = none) (hopen : s.close.status = .open)
    (hrefuse : op.refuse s.playbackRange = none) :
    Good i s { s with lock := some i } (.native op) where
  ok := { hs with held := fun _ => hopen, agree := fun hfree => by cases hfree }
  here := by
    refine ⟨rfl, hA.1.2, hs.agree hlock, hA.2.2, ?_⟩
    rw [← (hs.agree hlock).1]
    exact hrefuse
  leaves :=
    { Leaves.refl (some i) s with
      lock := by
        intro j hj
        simp [hlock, hj]
      fields := by
        intro j _ hheld
        cases hlock.symm.trans hheld }

/-- What an operation stores. -/
theorem assign_eq (s : Replay ι) (op : Operation) (returned : Returned) :
    ∃ range stopped speed, s.assign op returned =
      { s with playbackRange := range, nativeStopped := stopped, speed := speed } := by
  cases op with
  | play range initial => exact ⟨some range, false, s.speed, rfl⟩
  | setSpeed speed => exact ⟨s.playbackRange, s.nativeStopped, speed, rfl⟩
  | stop => exact ⟨s.playbackRange, true, s.speed, rfl⟩
  | speed =>
      cases returned with
      | speed value => exact ⟨s.playbackRange, s.nativeStopped, value, rfl⟩
      | _ => exact ⟨s.playbackRange, s.nativeStopped, s.speed, rfl⟩
  | _ => exact ⟨s.playbackRange, s.nativeStopped, s.speed, rfl⟩

/-- What the Runtime notes of an operation that it accepts. -/
theorem accept_eq (s : Replay ι) (op : Operation) :
    ∃ played stopped speed, s.accept op =
      { s with played := played, stopped := stopped, nativeSpeed := speed } := by
  cases op with
  | play range initial => exact ⟨some range, false, s.nativeSpeed, rfl⟩
  | setSpeed speed => exact ⟨s.played, s.stopped, speed, rfl⟩
  | stop => exact ⟨s.played, true, s.nativeSpeed, rfl⟩
  | _ => exact ⟨s.played, s.stopped, s.nativeSpeed, rfl⟩

/-- What an operation that the Runtime has accepted stores agrees with it. -/
theorem agree_accepted {op : Operation} (h : Agree s) :
    Agree ((s.accept op).assign op .nothing) := by
  obtain ⟨hrange, hstopped⟩ := h
  cases op <;> simp [Agree, Replay.accept, Replay.assign, hrange, hstopped]

/-- A thread that holds the lock changes what goes with it. -/
theorem good_holding {t : Replay ι} (hs : Ok s) (hlock : s.lock = some i) (hA : At i t pc')
    (ht : ∃ played stopped speed, t =
      { s with played := played, stopped := stopped, nativeSpeed := speed }) :
    Good i s t pc' := by
  obtain ⟨played, stopped, speed, rfl⟩ := ht
  refine ⟨{ hs with agree := ?_ }, hA, { Leaves.refl (some i) s with fields := ?_ }⟩
  · intro hfree
    cases hfree.symm.trans hlock
  · intro j hj hheld
    exact absurd (hlock.symm.trans hheld) hj

/-- A thread gives the lock back. -/
theorem good_released {op : Operation} {returned returned' : Returned} (hs : Ok s)
    (hlock : s.lock = some i) (hagree : Agree (s.assign op returned)) :
    Good i s { s.assign op returned with lock := none } (.idle returned') := by
  have hnoCloser := hs.noCloser hlock
  have halive := hs.alive hlock
  have hstops := hs.noStops (hs.held (by simp [hlock]))
  obtain ⟨range, stopped, speed, heq⟩ := assign_eq s op returned
  rw [heq] at hagree ⊢
  refine ⟨{ hs with held := ?_, agree := ?_, onlyStop := ?_, gone := ?_ }, ?_,
    { Leaves.refl (some i) s with lock := ?_, fields := ?_, teardown := ?_ }⟩
  · intro h
    exact absurd rfl h
  · intro _
    exact hagree
  · intro h
    exact absurd hstops (Nat.ne_of_gt h)
  · intro h
    cases halive.symm.trans h
  · exact ⟨by simp, by simp [hnoCloser]⟩
  · intro j hj
    simp [hlock, hj]
  · intro j hj hheld
    exact absurd (hlock.symm.trans hheld) hj
  · intro j _ hheld
    cases hnoCloser.symm.trans hheld

/-! ### The close -/

/-- A step of the coordinator that begins or ends no teardown. -/
theorem good_coordinator {c : CloseCoordinator} (hs : Ok s) (hlock : s.lock = none)
    (hstatus : c.status = s.close.status) (hA : At i { s with close := c } pc') :
    Good i s { s with close := c } pc' where
  ok :=
    { hs with
      held := fun h => absurd hlock h
      closer := fun j hj => hstatus.trans (hs.closer j hj)
      onlyStop := fun h => ⟨(hs.onlyStop h).1, by rw [hstatus]; exact (hs.onlyStop h).2⟩
      destroyed := fun h => by rw [hstatus]; exact hs.destroyed h }
  here := hA
  leaves := { Leaves.refl (some i) s with }

/-- A thread begins the teardown. -/
theorem good_performs {g : ℕ} {c : CloseCoordinator} (hs : Ok s) (hA : At i s .enterClose)
    (hlock : s.lock = none) (hidle : s.close.status = .open ∨ s.close.status = .closeFailed)
    (hstatus : c.status = .closing) :
    Good i s { s with close := c, closer := some i } (.closing g .children) := by
  have halive : s.destroyed = false := by
    cases hdestroyed : s.destroyed with
    | false => rfl
    | true =>
        rcases hs.destroyed hdestroyed with hst | hst
        all_goals rcases hidle with hidle | hidle <;> cases hidle.symm.trans hst
  have hnoCloser : ∀ j, s.closer ≠ some j := by
    intro j hj
    have hst := hs.closer j hj
    rcases hidle with hidle | hidle <;> cases hidle.symm.trans hst
  refine ⟨{ hs with held := ?_, closer := ?_, onlyStop := ?_, destroyed := ?_ }, ?_,
    { Leaves.refl (some i) s with closer := ?_, teardown := ?_ }⟩
  · intro h
    exact absurd hlock h
  · intro _ _
    exact hstatus
  · intro h
    exact ⟨(hs.onlyStop h).1, by simp [hstatus]⟩
  · intro h
    exact .inl hstatus
  · exact ⟨hA.1.1, rfl, hA.2, halive⟩
  · intro j hj
    simp [hj, hnoCloser j]
  · intro j _ hj
    exact absurd hj (hnoCloser j)

/-- The thread that closes goes on, and changes only what goes with the teardown. -/
theorem good_closing {g : ℕ} {stage stage' : ReplayCloseStage} {t : Replay ι} (hs : Ok s)
    (hA : At i s (.closing g stage)) (ht : Ok t) (hstage : StageAt t stage')
    (hlock : t.lock = s.lock) (hcloser : t.closer = s.closer)
    (hexecuting : t.executing = s.executing) (hdirect : t.directCallbacks = s.directCallbacks)
    (houtput : t.outputCallbacks = s.outputCallbacks) :
    Good i s t (.closing g stage') := by
  obtain ⟨hnotHeld, hi, hfree, -⟩ := hA
  have hrelated : ∀ j, t.related j = s.related j := fun j => by
    unfold Replay.related
    rw [hexecuting, hdirect, houtput]
  refine ⟨ht, ⟨?_, hcloser.trans hi, (hrelated i).trans hfree, hstage⟩, ?_⟩
  · rw [hlock]
    exact hnotHeld
  · refine ⟨?_, ?_, fun j _ => hrelated j, ?_, ?_⟩
    · intro j _
      rw [hlock]
    · intro j _
      rw [hcloser]
    · intro j _ hheld
      cases (hs.free hi).symm.trans hheld
    · intro j hj hheld
      exact absurd (hi.symm.trans hheld) hj

/-- The thread that closes reports, and the teardown is over. -/
theorem good_reported {g : ℕ} {stage : ReplayCloseStage} {c : CloseCoordinator}
    {returned : Returned} (hs : Ok s) (hA : At i s (.closing g stage))
    (hopen : c.status ≠ .open) (hdestroyed : s.destroyed = true → c.status = .closed) :
    Good i s { s with close := c, closer := none } (.idle returned) := by
  obtain ⟨hnotHeld, hi, -, -⟩ := hA
  have hlock := hs.free hi
  refine ⟨{ hs with held := ?_, closer := ?_, onlyStop := ?_, destroyed := ?_ }, ?_,
    { Leaves.refl (some i) s with closer := ?_, teardown := ?_ }⟩
  · intro h
    exact absurd hlock h
  · intro j hj
    cases hj
  · intro h
    exact ⟨(hs.onlyStop h).1, hopen⟩
  · intro h
    exact .inr (hdestroyed h)
  · exact ⟨hnotHeld, by simp⟩
  · intro j hj
    simp [hi, hj]
  · intro j hj hheld
    exact absurd (hi.symm.trans hheld) hj

/-- **Every step keeps what everybody knows.** -/
theorem moves_good (hs : Ok s) (hA : At i s pc) (h : Moves s i pc act s' pc') :
    Good i s s' pc' := by
  cases h with
  | refused returned returned' call => exact good_same hs hA
  | calls returned call op hprepare =>
      exact good_same hs ⟨hA, fun hblocking => (prepare_ok hprepare).2 op rfl hblocking,
        prepare_sound hprepare⟩
  | toClose returned call hfree => exact good_same hs ⟨hA, hfree⟩
  | queueCallback returned hidle hqueued =>
      refine good_callback hs hA ?_ hs.outputs ?_
      · intro hdrained
        exact absurd hdrained.2.2 (Nat.ne_of_gt hqueued)
      · intro j hj
        simp [hidle, Ne.symm hj]
  | directCallback returned source hsource =>
      refine good_callback hs hA And.right hs.outputs ?_
      intro j hj
      simp [hj]
  | outputCallback returned hqueued =>
      refine good_callback hs hA And.right ?_ ?_
      · intro hdetached
        exact absurd (hs.outputs hdetached).2 (Nat.ne_of_gt hqueued)
      · intro j hj
        simp [hj]
  | callbackEnds returned hrelated =>
      refine good_callback hs hA ?_ ?_ ?_
      · intro hdrained
        exact ⟨by simp [hdrained.2.1], hdrained.2.2⟩
      · intro hdetached
        simp [hs.outputs hdetached]
      · intro j hj
        by_cases hmine : s.executing = some i
        · simp [hmine, hj, Ne.symm hj]
        · simp [hmine, hj]
  | notEntered op busy returned => exact good_same hs hA.1
  | entered op busy hlock hopen hrefuse => exact good_entered hs hA hlock hopen hrefuse
  | again op timedOut hfree =>
      rw [touch_eq (hs.alive hA.1)]
      exact good_same hs hA
  | failed op act e =>
      rw [touch_eq (hs.alive hA.1)]
      -- a call that fails assigns what a pause does, nothing
      have hnothing : s.assign .pause .nothing = s := rfl
      have hgood : Good i s { s.assign .pause .nothing with lock := none } (.idle (.raised e)) :=
        good_released hs hA.1 hA.2.2.1
      rwa [hnothing] at hgood
  | accepted op timedOut =>
      obtain ⟨hlock, hcloser, hagree, -⟩ := hA
      rw [touch_eq (hs.alive hlock)]
      have haccepted : Agree ((s.accept op).assign op .nothing) := agree_accepted hagree
      obtain ⟨played, stopped, speed, heq⟩ := accept_eq s op
      rw [heq] at haccepted ⊢
      exact good_holding hs hlock ⟨hlock, hcloser, haccepted⟩ ⟨played, stopped, speed, rfl⟩
  | speedRead value speed hspeed =>
      obtain ⟨hlock, hcloser, hagree, -⟩ := hA
      rw [touch_eq (hs.alive hlock)]
      exact good_same hs ⟨hlock, hcloser, hagree⟩
  | timeRead code present value returned =>
      obtain ⟨hlock, hcloser, hagree, -⟩ := hA
      rw [touch_eq (hs.alive hlock)]
      exact good_same hs ⟨hlock, hcloser, hagree⟩
  | assigned op returned => exact good_released hs hA.1 hA.2.2
  | joins g hlock hbegin hclosing hstatus =>
      exact good_coordinator hs hlock (hstatus.trans hclosing.symm) hA
  | notClosed returned hlock hsame hjoin hperform => exact good_same hs hA.1
  | performs g hlock hbegin hidle hstatus => exact good_performs hs hA hlock hidle hstatus
  | wakes g o c returned hlock houtcome hleave =>
      exact good_coordinator hs hlock (s.close.leave_spec hleave).1 hA.1
  | childFailed g e dumpError => exact good_closing hs hA hs hA.2.2.2 rfl rfl rfl rfl rfl
  | childrenClosed g dumpError hquiet hqueued =>
      have halive : s.destroyed = false := hA.2.2.2
      refine good_closing hs hA ?_ ⟨halive, rfl⟩ rfl rfl rfl rfl rfl
      exact { hs with
        outputs := fun _ => ⟨hquiet, hqueued⟩
        gone := fun h => by cases halive.symm.trans h }
  | alreadyStopped g dumpError hstopped =>
      obtain ⟨halive, hdetached⟩ : s.destroyed = false ∧ s.outputsDetached = true := hA.2.2.2
      exact good_closing hs hA hs ⟨halive, hdetached, hstopped⟩ rfl rfl rfl rfl rfl
  | stopAgain g dumpError timedOut hstopped =>
      rw [touch_eq hA.2.2.2.1]
      exact good_same hs hA
  | notStopped g dumpError r timedOut e hstopped =>
      rw [touch_eq hA.2.2.2.1]
      exact good_closing hs hA hs hA.2.2.2.1 rfl rfl rfl rfl rfl
  | stops g dumpError timedOut hstopped =>
      obtain ⟨halive, hdetached⟩ : s.destroyed = false ∧ s.outputsDetached = true := hA.2.2.2
      rw [touch_eq halive]
      -- a close that had stopped the playback would have said so
      have hnone : s.closeStops = 0 := by
        by_contra hstops
        cases hstopped.symm.trans (hs.onlyStop (Nat.pos_of_ne_zero hstops)).1
      have hclosing : s.close.status = .closing := hs.closer i hA.2.1
      refine good_closing hs hA ?_ ⟨halive, hdetached, rfl⟩ rfl rfl rfl rfl rfl
      refine { hs with agree := ?_, closeStops := ?_, onlyStop := ?_, gone := ?_ }
      · intro hlock
        exact ⟨(hs.agree hlock).1, rfl⟩
      · simp [hnone]
      · intro _
        exact ⟨rfl, by simp [hclosing]⟩
      · intro h
        cases halive.symm.trans h
  | dispatcherCloses g dumpError =>
      obtain ⟨halive, hdetached, hstopped⟩ :
        s.destroyed = false ∧ s.outputsDetached = true ∧ s.nativeStopped = true := hA.2.2.2
      refine good_closing hs hA ?_ ⟨halive, hdetached, hstopped, rfl⟩ rfl rfl rfl rfl rfl
      exact { hs with gone := fun h => by cases halive.symm.trans h }
  | drained g dumpError hexecuting hqueued =>
      obtain ⟨halive, hdetached, hstopped, hclosed⟩ := hA.2.2.2
      exact good_closing hs hA hs ⟨halive, hdetached, hstopped, hclosed, hexecuting, hqueued⟩
        rfl rfl rfl rfl rfl
  | destroyAgain g dumpError timedOut =>
      rw [touch_eq hA.2.2.2.1]
      exact good_same hs hA
  | notDestroyed g dumpError r timedOut e =>
      rw [touch_eq hA.2.2.2.1]
      exact good_closing hs hA hs hA.2.2.2.1 rfl rfl rfl rfl rfl
  | destroys g dumpError timedOut =>
      obtain ⟨halive, hdetached, hstopped, hclosed⟩ := hA.2.2.2
      rw [touch_eq halive]
      refine good_closing hs hA ?_ rfl rfl rfl rfl rfl rfl
      exact { hs with
        destroyed := fun _ => .inl (hs.closer i hA.2.1)
        gone := fun _ => ⟨hstopped, hdetached, hclosed⟩ }
  | parentLeft g dumpError =>
      refine good_closing hs hA ?_ hA.2.2.2 rfl rfl rfl rfl rfl
      exact { hs with }
  | closed g dumpError hlock =>
      exact good_reported hs hA (by simp [CloseCoordinator.succeed]) fun _ => rfl
  | closeFailed g e hlock =>
      have halive : s.destroyed = false := hA.2.2.2
      refine good_reported hs hA (by simp [CloseCoordinator.fail]) fun h => ?_
      cases halive.symm.trans h

/-- Nothing has happened yet. -/
theorem ok_start : Ok ({} : Replay ι) where
  held h := absurd rfl h
  closer j hj := by cases hj
  agree _ := ⟨rfl, rfl⟩
  outputs _ := ⟨rfl, rfl⟩
  closeStops := Nat.zero_le 1
  onlyStop h := absurd rfl (Nat.ne_of_gt h)
  destroyed h := by cases h
  gone h := by cases h
  late := rfl

/-- An event that comes in changes what waits. -/
theorem postingStep_eq {e : Posting} (h : postingStep s e = some s') :
    ∃ queued outputsQueued, s' = { s with queued := queued, outputsQueued := outputsQueued } := by
  cases e with
  | post =>
      obtain ⟨-, heq⟩ := Option.ite_none_left_eq_some.mp h
      cases heq
      exact ⟨s.queued + 1, s.outputsQueued, rfl⟩
  | output =>
      obtain ⟨-, heq⟩ := Option.ite_none_left_eq_some.mp h
      cases heq
      exact ⟨s.queued, s.outputsQueued + 1, rfl⟩

/-- An event that comes in is no matter to anybody. -/
theorem good_post {e : Posting} (hs : Ok s) (h : postingStep s e = some s') :
    Ok s' ∧ Leaves none s s' := by
  cases e with
  | post =>
      obtain ⟨hopen, heq⟩ := Option.ite_none_left_eq_some.mp h
      cases heq
      refine ⟨{ hs with gone := fun h => ?_ }, { Leaves.refl none s with teardown := ?_ }⟩
      · exact absurd (hs.gone h).2.2.1 hopen
      · intro j _ _
        exact ⟨rfl, rfl, rfl, rfl, fun h => absurd h.1 hopen⟩
  | output =>
      obtain ⟨hopen, heq⟩ := Option.ite_none_left_eq_some.mp h
      cases heq
      exact ⟨{ hs with outputs := fun h => absurd h hopen }, { Leaves.refl none s with }⟩

/-- **The rely-guarantee proof.** -/
theorem control (errorName : ℤ → String) :
    Threads.RelyGuarantee (playback ι errorName) (fun _ _ _ _ => True) (fun _ _ => True) Ok At
      Leaves where
  start := by
    rintro s rfl
    exact ⟨ok_start, fun i => ⟨by simp, by simp⟩⟩
  thread := by
    intro i s pc act s' pc' hs hA _ hstep
    have hgood := moves_good hs hA (playbackStep_cases hstep)
    exact ⟨hgood.ok, hgood.here, hgood.leaves⟩
  env := by
    intro s e s' hs _ hstep
    exact good_post hs hstep
  stable := by
    intro j k s s' pc hk _ _ hleaves hA
    exact hA.stable hk hleaves

/-- **The run lemma**: what holds in every reachable state. -/
theorem reach_control {c : Config ι (Replay ι) PlaybackPc}
    (hc : (playback ι errorName).machine.Reach c) :
    Ok c.shared ∧ ∀ i, At i c.shared (c.pc i) :=
  (control errorName).reach (hc.mono fun _ l _ => by cases l <;> trivial)

/-! ## The close coordinator -/

/-- Where a thread is with the coordinator. -/
def PlaybackPc.caller : PlaybackPc → Caller
  | .joining g => .waiting g
  | .closing g _ => .performing g
  | _ => .idle

/-- **Every step is a turn at the coordinator.** -/
theorem moves_turn (h : Moves s i pc act s' pc') :
    Turn s.close pc.caller s'.close pc'.caller := by
  cases h with
  | joins g hlock hbegin hclosing hstatus =>
      have hturn := Turn.begins (c := s.close) false
      rw [hbegin] at hturn
      exact hturn
  | notClosed returned hlock hsame hjoin hperform => exact .stays _
  | performs g hlock hbegin hidle hstatus =>
      have hturn := Turn.begins (c := s.close) false
      rw [hbegin] at hturn
      exact hturn
  | wakes g o c returned hlock houtcome hleave => exact .wakes g o c houtcome hleave
  | closed g dumpError hlock => exact .succeeds g dumpError
  | closeFailed g e hlock => exact .fails g e
  | accepted op timedOut =>
      have hclose : (s.touch.accept op).close = s.close := by
        obtain ⟨played, stopped, speed, heq⟩ := accept_eq s.touch op
        rw [heq]
        rfl
      rw [hclose]
      exact .stays _
  | assigned op returned =>
      have hclose : (s.assign op returned).close = s.close := by
        obtain ⟨range, stopped, speed, heq⟩ := assign_eq s op returned
        rw [heq]
      show Turn _ _ (s.assign op returned).close _
      rw [hclose]
      exact .stays _
  | _ => exact .stays _

/-- The calls follow the coordinator. -/
theorem reach_follows {c : Config ι (Replay ι) PlaybackPc}
    (hc : (playback ι errorName).machine.Reach c) :
    Follows c.shared.close fun j => (c.pc j).caller := by
  refine Follows.reach Replay.close PlaybackPc.caller (fun s hs => ?_) rfl
    (fun i s p a s' p' hstep => ?_) ?_ hc
  · obtain rfl : s = {} := hs
    rfl
  · exact moves_turn (playbackStep_cases hstep)
  · intro s e s' hstep
    obtain ⟨queued, outputsQueued, rfl⟩ := postingStep_eq hstep
    rfl

end Tirtc.Playback
