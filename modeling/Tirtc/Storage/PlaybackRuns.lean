import Tirtc.Storage.PlaybackControl

/-!
# What holds of a Replay in every run

* `replay_handle_exclusive`: one operation at a time is in a native call, none beside the teardown,
  and none after it; nor does a callback run then that the close has waited for.
* `positions_in_range`: the positions that go to the Runtime lie in the range of the newest play.
* `stopped_before_destroyed`: the playback is stopped before the handle is destroyed, and no close
  stops what another close has stopped.
* `Reports`, `SpeedAt`, `speed_up_to_date`: the speed, with a Runtime that reports what was set.
* `Answers`, `Ready`, `WaitsFor`: what a thread needs to go on, and for whom it waits; `AtQueue`: a
  close that waits for an event that no thread has taken.
* `callback_never_waits`: a call from a callback always goes on, and comes to its end.
* `waits_end`: whoever waits, waits for a thread that goes on, for one that waits for such a
  thread, or for a queue.
-/

set_option autoImplicit false
set_option linter.unusedSectionVars false

namespace Tirtc.Playback

open Transition Closing

variable {ι : Type} [DecidableEq ι] {errorName : ℤ → String} {s s' : Replay ι} {i : ι}
  {pc pc' : PlaybackPc} {act : PlaybackAction} {c : Config ι (Replay ι) PlaybackPc}

/-- The Replay that has just been made. -/
abbrev fresh : Config (Fin 2) (Replay (Fin 2)) PlaybackPc := ⟨{}, fun _ => .idle .nothing⟩

/-- A step of thread `i` to which the Runtime answers with code 0. -/
def nativeOk (i : Fin 2) : Label (Fin 2) PlaybackAction Posting :=
  .thread i (.native (.code 0) false)

theorem fresh_start : (playback (Fin 2) fun _ => "").machine.start fresh := ⟨rfl, rfl⟩

/-! ## The handle -/

/-- The lock belongs to the thread in the native call of an operation, or behind it. -/
theorem At.holder (hA : At i s pc) (h : s.lock = some i) :
    (∃ op, pc = .native op) ∨ ∃ op returned, pc = .assign op returned := by
  cases pc with
  | native op => exact .inl ⟨op, rfl⟩
  | assign op returned => exact .inr ⟨op, returned, rfl⟩
  | idle returned => exact absurd h hA.1
  | enter op => exact absurd h hA.1.1
  | enterClose | joining g => exact absurd h hA.1.1
  | closing g stage => exact absurd h hA.1

/-- An operation is refused when the handle is destroyed. -/
theorem Ok.refuses (hs : Ok s) (hdestroyed : s.destroyed = true) {op : Operation} {busy : Bool}
    (h : playbackStep errorName s i (.enter op) (.enter busy) = some (s', pc')) :
    ∃ e, pc' = .idle (.raised e) := by
  have hclosed : s.close.status ≠ .open := by
    rcases hs.destroyed hdestroyed with hst | hst <;> simp [hst]
  simp only [playbackStep, enterStep] at h
  split at h
  · split at h
    · cases h
      exact ⟨_, rfl⟩
    · cases h
  · split at h
    next e he =>
      cases h
      exact ⟨_, rfl⟩
    next hopen => exact absurd (CloseCoordinator.requireOpen_eq_none.mp hopen) hclosed

/-- What the check under the lock lets through. -/
theorem refuse_seek {range : Option (ℤ × ℤ)} {target start finish : ℤ}
    (h : (Operation.seek target).refuse range = none) (hrange : range = some (start, finish)) :
    start ≤ target ∧ target < finish := by
  subst hrange
  simp only [Operation.refuse] at h
  split at h
  · cases h
  next hin => omega

/-- **Every position that goes to the Runtime is one that is played**: in every run, a thread in the
native call of a seek has a target inside the range of the newest play that the Runtime has
accepted, whatever plays other threads make meanwhile; and the initial time of a play lies in its
own range. -/
theorem positions_in_range (hc : (playback ι errorName).machine.Reach c) :
    (∀ i target start finish, c.pc i = .native (.seek target) →
      c.shared.played = some (start, finish) → start ≤ target ∧ target < finish) ∧
      ∀ i range initial, c.pc i = .native (.play range initial) →
        range.1 ≤ initial ∧ initial < range.2 := by
  obtain ⟨-, hA⟩ := reach_control hc
  refine ⟨?_, ?_⟩
  · intro i target start finish hi hplayed
    have hi' := hA i
    rw [hi] at hi'
    exact refuse_seek hi'.2.2.2.2 hplayed
  · intro i range initial hi
    have hi' := hA i
    rw [hi] at hi'
    exact hi'.2.2.2.1

/-- The day after the epoch. -/
def nextDay : Datetime.Reading := { Datetime.epoch with days := 719164, days_range := by decide }

/-- Thread `0` plays a day, and thread `1` seeks to its beginning. -/
theorem positions_in_range_seek :
    ∃ c, (playback (Fin 2) fun _ => "").machine.Reach c ∧ c.pc 1 = .native (.seek 0) ∧
      c.shared.played = some (0, 86400000) ∧ (0 : ℤ) < 86400000 := by
  have hrun : ((playback (Fin 2) fun _ => "").machine.exec fresh
      [.thread 0 (.call (.play (.datetime Datetime.epoch.utc) (.datetime nextDay.utc) none)),
        .thread 0 (.enter false), nativeOk 0, .thread 0 .go,
        .thread 1 (.call (.seek (.datetime Datetime.epoch.utc))), .thread 1 (.enter false)]).any
        (fun c => decide (c.pc 1 = .native (.seek 0) ∧ c.shared.played = some (0, 86400000))) =
      true := by
    decide +kernel
  obtain ⟨c, hc, htest⟩ := Machine.exists_reach fresh_start hrun
  obtain ⟨hpc, hplayed⟩ := of_decide_eq_true htest
  exact ⟨c, hc, hpc, hplayed, ((positions_in_range hc).1 1 0 0 86400000 hpc hplayed).2⟩

/-! ## The end of the playback -/

/-- **A Replay is stopped before it is destroyed, and by one close at most**: in every run, when the
native close has succeeded, the newest play or stop that the Runtime has accepted is a stop; and
however often a close fails and is tried again, on whatever threads, the closes together make at
most one stop that is accepted, after which the Replay says that it is stopped. -/
theorem stopped_before_destroyed (hc : (playback ι errorName).machine.Reach c) :
    (c.shared.destroyed = true → c.shared.stopped = true) ∧ c.shared.closeStops ≤ 1 ∧
      (0 < c.shared.closeStops → c.shared.nativeStopped = true ∧ c.shared.stopped = true) := by
  obtain ⟨hs, hA⟩ := reach_control hc
  have hagree : c.shared.close.status ≠ .open → c.shared.nativeStopped = c.shared.stopped := by
    intro hopen
    have hlock : c.shared.lock = none := by
      by_contra hheld
      exact hopen (hs.held hheld)
    exact (hs.agree hlock).2
  refine ⟨?_, hs.closeStops, ?_⟩
  · intro hdestroyed
    have hopen : c.shared.close.status ≠ .open := by
      rcases hs.destroyed hdestroyed with hst | hst <;> simp [hst]
    rw [← hagree hopen]
    exact (hs.gone hdestroyed).1
  · intro hstops
    obtain ⟨hstopped, hopen⟩ := hs.onlyStop hstops
    exact ⟨hstopped, (hagree hopen).symm.trans hstopped⟩

/-- The first close stops the playback and comes no further; the second one goes on from there. -/
theorem stopped_before_destroyed_retried :
    ∃ c, (playback (Fin 2) fun _ => "").machine.Reach c ∧ c.shared.destroyed = true ∧
      c.shared.stopped = true ∧ c.shared.closeStops ≤ 1 := by
  have hrun : ((playback (Fin 2) fun _ => "").machine.exec fresh
      [.thread 0 (.call .close), .thread 0 .go, .thread 0 (.children none none), nativeOk 0,
        .thread 0 .go, .thread 0 .go, .thread 0 (.native (.code 6026) true), .thread 0 .go,
        .thread 1 (.call .close), .thread 1 .go, .thread 1 (.children none none), .thread 1 .go,
        .thread 1 .go, .thread 1 .go, nativeOk 1]).any (fun c => c.shared.destroyed) = true := by
    decide +kernel
  obtain ⟨c, hc, hdestroyed⟩ := Machine.exists_reach fresh_start hrun
  obtain ⟨hstopped, hstops, -⟩ := stopped_before_destroyed hc
  exact ⟨c, hc, hdestroyed, hstopped hdestroyed, hstops⟩

/-! ## The speed -/

/-- The Runtime reports the speed that was set last.
Source: `storage/__init__.py`, `Replay.speed` -/
def Reports (s : Replay ι) : PlaybackAction → Prop
  | .speed code value => code = 0 → value = replaySpeedToNative s.nativeSpeed
  | _ => True

instance (s : Replay ι) : (act : PlaybackAction) → Decidable (Reports s act)
  | .speed code value =>
      inferInstanceAs (Decidable (code = 0 → value = replaySpeedToNative s.nativeSpeed))
  | .call _ | .enter _ | .native _ _ | .time _ _ _ | .children _ _ | .go | .enterCallback _
  | .leaveCallback => isTrue trivial

/-- What a thread knows of the speed. -/
def SpeedAt (s : Replay ι) : PlaybackPc → Prop
  | .native _ => s.speed = s.nativeSpeed
  | .assign op returned =>
      (s.assign op returned).speed = s.nativeSpeed ∧
        (op = .speed → ∀ value, returned = .speed value → value = s.nativeSpeed)
  | _ => True

/-- The two tables are inverse to each other. -/
@[simp] theorem replaySpeedFromNative_toNative (speed : ReplaySpeed) :
    replaySpeedFromNative (replaySpeedToNative speed) = some speed :=
  replaySpeedFromNative_eq_some.mpr rfl

/-- The speed that an operation stores depends on the one before. -/
theorem assign_speed {t : Replay ι} (h : t.speed = s.speed) (op : Operation)
    (returned : Returned) : (t.assign op returned).speed = (s.assign op returned).speed := by
  cases op with
  | speed => cases returned <;> simp [Replay.assign, h]
  | _ => simp [Replay.assign, h]

/-- Only the thread that holds the lock changes the speed. -/
theorem moves_speed (hA : At i s pc) (h : Moves s i pc act s' pc') (hlock : s.lock ≠ some i) :
    s'.speed = s.speed ∧ s'.nativeSpeed = s.nativeSpeed := by
  cases h with
  | accepted op timedOut => exact absurd hA.1 hlock
  | assigned op returned => exact absurd hA.1 hlock
  | _ => exact ⟨rfl, rfl⟩

/-- What a thread knows of the speed, no other thread takes back. -/
theorem SpeedAt.stable {j : ι} (hne : j ≠ i) (hA : At i s pc) (hj : At j s pc')
    {pc'' : PlaybackPc} (h : Moves s i pc act s' pc'') (hspeed : SpeedAt s pc') :
    SpeedAt s' pc' := by
  cases pc' with
  | native op =>
      have hlock : s.lock ≠ some i := fun hi => hne (Option.some.inj (hj.1.symm.trans hi))
      obtain ⟨hsame, hnative⟩ := moves_speed hA h hlock
      exact hsame.trans (hspeed.trans hnative.symm)
  | assign op returned =>
      have hlock : s.lock ≠ some i := fun hi => hne (Option.some.inj (hj.1.symm.trans hi))
      obtain ⟨hsame, hnative⟩ := moves_speed hA h hlock
      refine ⟨?_, ?_⟩
      · rw [assign_speed hsame, hnative]
        exact hspeed.1
      · rw [hnative]
        exact hspeed.2
  | _ => trivial

/-- An event that comes in has no part in the speed. -/
theorem SpeedAt.post {queued outputsQueued : ℕ} (h : SpeedAt s pc) :
    SpeedAt { s with queued := queued, outputsQueued := outputsQueued } pc := by
  cases pc with
  | assign op returned =>
      have hsame : ({ s with queued := queued, outputsQueued := outputsQueued } : Replay ι).speed =
          s.speed := rfl
      exact ⟨(assign_speed hsame op returned).trans h.1, h.2⟩
  | _ => exact h

/-- **A step keeps the speed**, for the thread that takes it and for whoever takes the lock next. -/
theorem moves_speedAt (hA : At i s pc) (h : Moves s i pc act s' pc') (hreports : Reports s act)
    (hfree : s.lock = none → s.speed = s.nativeSpeed) (hspeed : SpeedAt s pc) :
    SpeedAt s' pc' ∧ (s'.lock = none → s'.speed = s'.nativeSpeed) := by
  cases h with
  | entered op busy hlock hopen hrefuse => exact ⟨hfree hlock, fun h => by cases h⟩
  | again op timedOut hrelated => exact ⟨hspeed, hfree⟩
  | failed op act e => exact ⟨trivial, fun _ => hspeed⟩
  | accepted op timedOut =>
      have hsame : s.speed = s.nativeSpeed := hspeed
      refine ⟨⟨?_, fun _ value hvalue => by cases hvalue⟩, ?_⟩
      · cases op <;> simp [Replay.assign, Replay.accept, Replay.touch, hsame]
      · intro hlock
        -- the lock is held until the speed is stored
        obtain ⟨played, stopped, speed, heq⟩ := accept_eq s.touch op
        rw [heq] at hlock
        cases hA.1.symm.trans hlock
  | speedRead value speed hvalue =>
      have hsame : s.speed = s.nativeSpeed := hspeed
      have hnumber : value = replaySpeedToNative s.nativeSpeed := hreports rfl
      rw [hnumber, replaySpeedFromNative_toNative, Option.some.injEq] at hvalue
      subst hvalue
      refine ⟨⟨rfl, fun _ v hv => ?_⟩, fun _ => hsame⟩
      cases hv
      rfl
  | timeRead code present value returned =>
      have hsame : s.speed = s.nativeSpeed := hspeed
      exact ⟨⟨hsame, fun hop => by cases hop⟩, fun _ => hsame⟩
  | assigned op returned =>
      obtain ⟨range, stopped, speed, heq⟩ := assign_eq s op returned
      have hstored := hspeed.1
      refine ⟨trivial, fun _ => ?_⟩
      rw [heq] at hstored ⊢
      exact hstored
  | _ => exact ⟨trivial, hfree⟩

/-- **The speed is the one set last**, with a Runtime that reports it: in every run, whenever no
operation is in progress, `_speed` is the speed of the newest `set_speed` that the Runtime has
accepted, from whatever thread; and reading the speed yields that one, never a `KeyError`. -/
theorem speed_up_to_date
    (hc : (playback ι errorName).machine.ReachWith
      (Threads.guard (fun _ s _ act => Reports s act) fun _ _ => True) c) :
    (c.shared.lock = none → c.shared.speed = c.shared.nativeSpeed) ∧
      (∀ i value, c.pc i = .assign .speed (.speed value) → value = c.shared.nativeSpeed) ∧
      ∀ i value c', c.pc i = .native .speed → Reports c.shared (.speed 0 value) →
        (playback ι errorName).machine.step c (.thread i (.speed 0 value)) = some c' →
        c'.pc i = .assign .speed (.speed c.shared.nativeSpeed) := by
  have hinv : (c.shared.lock = none → c.shared.speed = c.shared.nativeSpeed) ∧
      ∀ i, SpeedAt c.shared (c.pc i) := by
    refine hc.invariant_of (J := fun c => ∀ i, At i c.shared (c.pc i))
      (I := fun c => (c.shared.lock = none → c.shared.speed = c.shared.nativeSpeed) ∧
        ∀ i, SpeedAt c.shared (c.pc i)) ?_ ?_ ?_
    · intro c hc
      exact (reach_control hc.reach).2
    · rintro ⟨shared, pc⟩ ⟨hstart, hpc⟩ -
      obtain rfl : shared = {} := hstart
      obtain rfl : pc = fun _ => .idle .nothing := hpc
      exact ⟨fun _ => rfl, fun _ => trivial⟩
    · rintro c (⟨i, act⟩ | e) c' hA - ⟨hfree, hspeed⟩ hreports hstep
      · obtain ⟨⟨s', pc'⟩, hnext, rfl⟩ := Option.map_eq_some_iff.mp hstep
        have hmoves := playbackStep_cases hnext
        obtain ⟨hhere, hfree'⟩ := moves_speedAt (hA i) hmoves hreports hfree (hspeed i)
        refine ⟨hfree', ?_⟩
        intro j
        by_cases hj : j = i
        · subst hj
          simpa using hhere
        · simpa [hj] using (hspeed j).stable hj (hA i) (hA j) hmoves
      · obtain ⟨s', hnext, rfl⟩ := Option.map_eq_some_iff.mp hstep
        obtain ⟨queued, outputsQueued, rfl⟩ := postingStep_eq hnext
        exact ⟨hfree, fun j => (hspeed j).post⟩
  refine ⟨hinv.1, ?_, ?_⟩
  · intro i value hi
    have hi' := hinv.2 i
    rw [hi] at hi'
    exact hi'.2 rfl value rfl
  · intro i value c' hi hreports hstep
    obtain ⟨⟨s', pc'⟩, hnext, rfl⟩ := Option.map_eq_some_iff.mp hstep
    obtain rfl := hreports rfl
    rw [hi] at hnext
    have hread : playbackStep errorName c.shared i (.native .speed)
        (.speed 0 (replaySpeedToNative c.shared.nativeSpeed)) =
          some (c.shared.touch, .assign .speed (.speed c.shared.nativeSpeed)) := by
      simp [playbackStep, nativeStep, readSpeed, NativeResult.check]
    cases hread.symm.trans hnext
    simp

/-- Thread `0` sets the speed, and thread `1` reads it. -/
theorem speed_up_to_date_read :
    ∃ c, (playback (Fin 2) fun _ => "").machine.ReachWith
        (Threads.guard (fun _ s _ act => Reports s act) fun _ _ => True) c ∧
      c.shared.nativeSpeed = .x2 ∧ c.pc 1 = .assign .speed (.speed .x2) ∧
      .x2 = c.shared.nativeSpeed := by
  have hrun : (((playback (Fin 2) fun _ => "").machine.guarded fun c l => decide
      (Threads.guard (fun _ s _ act => Reports s act) (fun _ _ => True) c l)).exec fresh
      [.thread 0 (.call (.setSpeed (some .x2))), .thread 0 (.enter false), nativeOk 0,
        .thread 0 .go, .thread 1 (.call .speed), .thread 1 (.enter false),
        .thread 1 (.speed 0 1)]).any (fun c => decide
          (c.shared.nativeSpeed = .x2 ∧ c.pc 1 = .assign .speed (.speed .x2))) = true := by
    decide +kernel
  obtain ⟨c, hc, htest⟩ := Machine.exists_reachWith fresh_start hrun
  obtain ⟨hspeed, hpc⟩ := of_decide_eq_true htest
  exact ⟨c, hc, hspeed, hpc, (speed_up_to_date hc).2.1 1 .x2 hpc⟩

/-! ## Who waits for whom -/

/-- What a thread is answered with at its place: a thread outside the callbacks gets the lock when
nobody has it, a native function returns or raises, and the children are closed. A thread between
two calls, in a callback, ends that. -/
def Answers (s : Replay ι) (i : ι) : PlaybackPc → PlaybackAction → Prop
  | .idle _, .leaveCallback => True
  | .enter _, .enter busy => busy = true → s.related i = true
  | .native .speed, .speed _ _ | .native .currentTime, .time _ _ _ => True
  | .native op, .native r _ => (op = .speed ∨ op = .currentTime) → ∃ e, r = .raised e
  | .assign _ _, .go | .enterClose, .go | .joining _, .go => True
  | .closing _ .children, .children raised _ => raised = none
  | .closing _ (.stop _), .go => s.nativeStopped = true
  | .closing _ (.stop _), .native _ _ => s.nativeStopped = false
  | .closing _ (.destroy _), .native _ _ => True
  | .closing _ (.dispatcher _), .go | .closing _ (.drain _), .go | .closing _ (.parent _), .go
  | .closing _ (.succeed _), .go | .closing _ (.fail _), .go => True
  | _, _ => False

/-- Thread `i` can go on, whatever it is answered. -/
def Ready (errorName : ℤ → String) (s : Replay ι) (i : ι) (pc : PlaybackPc) : Prop :=
  ∀ act, Answers s i pc act → (playbackStep errorName s i pc act).isSome = true

/-- Thread `i` waits for thread `j`: for the lock, for the close that it performs, or for the end
of its callback. -/
def WaitsFor (c : Config ι (Replay ι) PlaybackPc) (i j : ι) : Prop :=
  match c.pc i with
  | .enter _ | .enterClose => c.shared.lock = some j
  | .joining g => c.shared.lock = some j ∨ ∃ stage, c.pc j = .closing g stage
  | .closing _ .children => j ∈ c.shared.outputCallbacks
  | .closing _ (.drain _) => c.shared.executing = some j
  | _ => False

/-- Thread `i` waits for an event that is in the queue of the Replay or of an Output, and that no
thread has taken yet. -/
def AtQueue (c : Config ι (Replay ι) PlaybackPc) (i : ι) : CallbackSource → Prop
  | .queue =>
      (∃ g dumpError, c.pc i = .closing g (.drain dumpError)) ∧ c.shared.executing = none ∧
        0 < c.shared.queued
  | .output =>
      (∃ g, c.pc i = .closing g .children) ∧ c.shared.outputCallbacks = ∅ ∧
        0 < c.shared.outputsQueued
  | .direct | .unlisted => False

/-- How far a call in a callback is from its end. -/
def PlaybackPc.left : PlaybackPc → ℕ
  | .enter _ => 3
  | .native _ => 2
  | .assign _ _ => 1
  | _ => 0

/-- A native call always goes on. -/
theorem ready_native (op : Operation) : Ready errorName s i (.native op) := by
  intro act hact
  cases op with
  | speed =>
      cases act with
      | speed code value =>
          simp only [playbackStep, nativeStep, readSpeed]
          split
          · rfl
          · split <;> rfl
      | native r timedOut =>
          obtain ⟨e, rfl⟩ := hact (.inl rfl)
          rfl
      | _ => exact hact.elim
  | currentTime =>
      cases act with
      | time code present value => rfl
      | native r timedOut =>
          obtain ⟨e, rfl⟩ := hact (.inr rfl)
          rfl
      | _ => exact hact.elim
  | _ =>
      cases act with
      | native r timedOut =>
          simp only [playbackStep, nativeStep, operationResult]
          split
          · split
            · rfl
            · split <;> rfl
          · split <;> rfl
      | _ => exact hact.elim

/-- So does what comes behind it. -/
theorem ready_assign (op : Operation) (returned : Returned) :
    Ready errorName s i (.assign op returned) := by
  intro act hact
  cases act with
  | go => rfl
  | _ => exact hact.elim

/-- A thread goes on when nobody has the lock. -/
theorem ready_enter {op : Operation} (h : s.lock = none ∨ s.related i = true) :
    Ready errorName s i (.enter op) := by
  intro act hact
  cases act with
  | enter busy =>
      simp only [playbackStep, enterStep]
      split
      next hbusy =>
        have hrelated : s.related i = true := by
          rcases h with hlock | hrelated
          · rw [hlock] at hbusy
            exact hact (by simpa using hbusy)
          · exact hrelated
        simp [hrelated]
      next =>
        split
        · rfl
        · split <;> rfl
  | _ => exact hact.elim

/-- So does a close. -/
theorem ready_enterClose (h : s.lock = none) : Ready errorName s i .enterClose := by
  intro act hact
  cases act with
  | go =>
      simp only [playbackStep, closeBegin, h, Option.isSome_none, Bool.false_eq_true, if_false]
      split <;> rfl
  | _ => exact hact.elim

/-- The thread that closes goes on, unless it waits for a callback or for a queue. -/
theorem ready_closing {g : ℕ} {stage : ReplayCloseStage} (hlock : s.lock = none)
    (hchildren : stage = .children → s.outputCallbacks = ∅ ∧ s.outputsQueued = 0)
    (hdrain : ∀ dumpError, stage = .drain dumpError → s.executing = none ∧ s.queued = 0) :
    Ready errorName s i (.closing g stage) := by
  intro act hact
  cases stage with
  | children =>
      cases act with
      | children raised dumpError =>
          obtain rfl : raised = none := hact
          simp [playbackStep, closeStep, hchildren rfl]
      | _ => exact hact.elim
  | stop dumpError =>
      cases act with
      | go =>
          have hstopped : s.nativeStopped = true := hact
          simp [playbackStep, closeStep, closeStop, hstopped]
      | native r timedOut =>
          have hstopped : s.nativeStopped = false := hact
          simp only [playbackStep, closeStep, closeStop, hstopped]
          split
          · rfl
          · split <;> rfl
      | _ => exact hact.elim
  | dispatcher dumpError =>
      cases act with
      | go => rfl
      | _ => exact hact.elim
  | drain dumpError =>
      cases act with
      | go => simp [playbackStep, closeStep, hdrain dumpError rfl]
      | _ => exact hact.elim
  | destroy dumpError =>
      cases act with
      | native r timedOut =>
          simp only [playbackStep, closeStep, closeDestroy]
          split
          · rfl
          · split <;> rfl
      | _ => exact hact.elim
  | parent dumpError =>
      cases act with
      | go => rfl
      | _ => exact hact.elim
  | succeed dumpError | fail e =>
      cases act with
      | go => simp [playbackStep, closeStep, hlock]
      | _ => exact hact.elim

/-- A thread in a callback always goes on. -/
theorem At.ready (hA : At i s pc) (hrelated : s.related i = true) : Ready errorName s i pc := by
  cases pc with
  | idle returned =>
      intro act hact
      cases act with
      | leaveCallback => simp [playbackStep, callbackEnd, hrelated]
      | _ => exact hact.elim
  | enter op => exact ready_enter (.inr hrelated)
  | native op => exact ready_native op
  | assign op returned => exact ready_assign op returned
  | enterClose | joining g => cases hrelated.symm.trans hA.2
  | closing g stage => cases hrelated.symm.trans hA.2.2.1

/-- **A call from a callback never waits**: in every run, a thread in a callback of the Replay (from
the queue or off it), or of an Output bound to it, goes on whatever the locks and the closes of the
other threads do and whatever it is answered, and each of its steps brings its call nearer to the
end; it tries nothing again. -/
theorem callback_never_waits (hc : (playback ι errorName).machine.Reach c) {i : ι}
    (hrelated : c.shared.related i = true) :
    Ready errorName c.shared i (c.pc i) ∧
      ∀ act s' pc', playbackStep errorName c.shared i (c.pc i) act = some (s', pc') →
        (∀ returned, c.pc i ≠ .idle returned) → pc'.left < (c.pc i).left := by
  obtain ⟨-, hA⟩ := reach_control hc
  refine ⟨(hA i).ready hrelated, ?_⟩
  intro act s' pc' hstep hcall
  have hA := hA i
  generalize c.pc i = pc at hA hstep hcall
  cases playbackStep_cases hstep with
  | refused returned | calls returned | toClose returned | queueCallback returned
  | directCallback returned | outputCallback returned | callbackEnds returned =>
      exact absurd rfl (hcall returned)
  | again op timedOut hfree => cases hrelated.symm.trans hfree
  | notEntered | entered | failed | accepted | speedRead | timeRead | assigned =>
      simp [PlaybackPc.left]
  | joins | notClosed | performs | wakes => cases hrelated.symm.trans hA.2
  | childFailed | childrenClosed | alreadyStopped | stopAgain | notStopped | stops
  | dispatcherCloses | drained | destroyAgain | notDestroyed | destroys | parentLeft | closed
  | closeFailed => cases hrelated.symm.trans hA.2.2.1

/-- Thread `0` comes from the callback of a task off the queue while thread `1` has the lock. -/
theorem callback_never_waits_busy :
    ∃ c, (playback (Fin 2) fun _ => "").machine.Reach c ∧ c.shared.lock = some 1 ∧
      c.pc 0 = .enter .pause ∧ Ready (fun _ => "") c.shared 0 (c.pc 0) := by
  have hrun : ((playback (Fin 2) fun _ => "").machine.exec fresh
      [.thread 0 (.enterCallback .direct), .thread 1 (.call .pause), .thread 1 (.enter false),
        .thread 0 (.call .pause)]).any (fun c => decide (c.shared.related 0 = true ∧
          c.shared.lock = some 1 ∧ c.pc 0 = .enter .pause)) = true := by
    decide +kernel
  obtain ⟨c, hc, htest⟩ := Machine.exists_reach fresh_start hrun
  obtain ⟨hrelated, hlock, hpc⟩ := of_decide_eq_true htest
  exact ⟨c, hc, hlock, hpc, (callback_never_waits hc hrelated).1⟩

/-- Whoever has the lock goes on. -/
theorem holder_ready (hA : ∀ j, At j c.shared (c.pc j)) {j : ι} (h : c.shared.lock = some j) :
    Ready errorName c.shared j (c.pc j) := by
  rcases (hA j).holder h with ⟨op, hj⟩ | ⟨op, returned, hj⟩
  · rw [hj]
    exact ready_native op
  · rw [hj]
    exact ready_assign op returned

/-- The thread that closes goes on, waits for a queue, or waits for a thread in a callback, which
goes on. -/
theorem closer_ready (hs : Ok c.shared) (hA : ∀ j, At j c.shared (c.pc j)) {i : ι} {g : ℕ}
    {stage : ReplayCloseStage} (hi : c.pc i = .closing g stage) :
    Ready errorName c.shared i (c.pc i) ∨ (∃ source, AtQueue c i source) ∨
      ∃ j, WaitsFor c i j ∧ Ready errorName c.shared j (c.pc j) := by
  have hi' := hA i
  rw [hi] at hi'
  have hlock := hs.free hi'.2.1
  have hgoes : (stage = .children →
        c.shared.outputCallbacks = ∅ ∧ c.shared.outputsQueued = 0) →
      (∀ e, stage = .drain e → c.shared.executing = none ∧ c.shared.queued = 0) →
      Ready errorName c.shared i (c.pc i) := by
    intro hchildren hdrain
    rw [hi]
    exact ready_closing hlock hchildren hdrain
  cases hstage : stage with
  | children =>
      subst hstage
      by_cases hquiet : c.shared.outputCallbacks = ∅
      · by_cases hqueued : c.shared.outputsQueued = 0
        · exact .inl (hgoes (fun _ => ⟨hquiet, hqueued⟩) (by simp))
        · exact .inr (.inl ⟨.output, ⟨g, hi⟩, hquiet, Nat.pos_of_ne_zero hqueued⟩)
      · obtain ⟨j, hj⟩ := Finset.nonempty_iff_ne_empty.mpr hquiet
        refine .inr (.inr ⟨j, ?_, (hA j).ready (by simp [Replay.related, hj])⟩)
        simpa [WaitsFor, hi] using hj
  | drain e =>
      subst hstage
      cases hexecuting : c.shared.executing with
      | some j =>
          refine .inr (.inr ⟨j, ?_, (hA j).ready (by simp [Replay.related, hexecuting])⟩)
          simpa [WaitsFor, hi] using hexecuting
      | none =>
          by_cases hqueued : c.shared.queued = 0
          · exact .inl (hgoes (by simp) fun _ _ => ⟨hexecuting, hqueued⟩)
          · exact .inr (.inl ⟨.queue, ⟨g, e, hi⟩, hexecuting, Nat.pos_of_ne_zero hqueued⟩)
  | _ => exact .inl (hgoes (by simp [hstage]) (by simp [hstage]))

/-- A thread between two calls that is in no callback of the Replay takes the event. -/
theorem AtQueue.served {i k : ι} {source : CallbackSource} (h : AtQueue c i source)
    {returned : Returned} (hfree : c.shared.related k = false) :
    (playbackStep errorName c.shared k (.idle returned) (.enterCallback source)).isSome = true := by
  cases source with
  | queue =>
      obtain ⟨-, hexecuting, hqueued⟩ := h
      simp [playbackStep, callbackBegin, hfree, hexecuting, Nat.ne_of_gt hqueued]
  | output =>
      obtain ⟨-, -, hqueued⟩ := h
      simp [playbackStep, callbackBegin, hfree, Nat.ne_of_gt hqueued]
  | direct | unlisted => exact h.elim

/-- **Nobody waits in a circle on a Replay**: in every run, a thread in a call goes on whatever it
is answered, or it waits for a thread that does, or for one that waits for such a thread; or the
close that it performs or waits for is at an event in the queue of the Replay or of an Output, which
any thread takes that is in no call and in no callback of the Replay. So the lock, the close
coordinator and the callbacks of the Replay never wait for each other in a circle, and only the pool
is left to wait for. -/
theorem waits_end (hc : (playback ι errorName).machine.Reach c) {i : ι}
    (hcall : ∀ returned, c.pc i ≠ .idle returned) :
    (Ready errorName c.shared i (c.pc i) ∨ (∃ source, AtQueue c i source) ∨
      ∃ j, WaitsFor c i j ∧
        (Ready errorName c.shared j (c.pc j) ∨ (∃ source, AtQueue c j source) ∨
          ∃ k, WaitsFor c j k ∧ Ready errorName c.shared k (c.pc k))) ∧
      ∀ j source, AtQueue c j source →
        ∀ k returned, c.pc k = .idle returned → c.shared.related k = false →
          (playbackStep errorName c.shared k (c.pc k) (.enterCallback source)).isSome = true := by
  obtain ⟨hs, hA⟩ := reach_control hc
  refine ⟨?_, fun j source hj k returned hk hfree => by rw [hk]; exact hj.served hfree⟩
  -- nobody has the lock, or somebody who goes on
  have hlocked : c.shared.lock = none ∨
      ∃ j, c.shared.lock = some j ∧ Ready errorName c.shared j (c.pc j) := by
    cases hlock : c.shared.lock with
    | none => exact .inl rfl
    | some j => exact .inr ⟨j, rfl, holder_ready hA hlock⟩
  cases hi : c.pc i with
  | idle returned => exact absurd hi (hcall returned)
  | native op => exact .inl (ready_native op)
  | assign op returned => exact .inl (ready_assign op returned)
  | enter op =>
      rcases hlocked with hlock | ⟨j, hj, hready⟩
      · exact .inl (ready_enter (.inl hlock))
      · exact .inr (.inr ⟨j, by simp [WaitsFor, hi, hj], .inl hready⟩)
  | enterClose =>
      rcases hlocked with hlock | ⟨j, hj, hready⟩
      · exact .inl (ready_enterClose hlock)
      · exact .inr (.inr ⟨j, by simp [WaitsFor, hi, hj], .inl hready⟩)
  | joining g =>
      rcases hlocked with hlock | ⟨j, hj, hready⟩
      · have hfollows := reach_follows hc
        have hwaiting : (fun j => (c.pc j).caller) i = .waiting g := by simp [hi, PlaybackPc.caller]
        rcases hfollows.waiting hwaiting with ⟨o, houtcome⟩ | ⟨k, hk⟩
        · left
          intro act hact
          cases act with
          | go =>
              obtain ⟨close, hleave⟩ := hfollows.wakes hwaiting
              simp [playbackStep, wakeClose, hlock, CloseCoordinator.outcome?, houtcome, hleave]
          | _ => exact hact.elim
        · have hperforms : ∃ stage, c.pc k = .closing g stage := by
            cases hpc : c.pc k with
            | closing g' stage =>
                simp only [hpc, PlaybackPc.caller, Caller.performing.injEq] at hk
                exact ⟨stage, by rw [hk]⟩
            | _ => simp [hpc, PlaybackPc.caller] at hk
          obtain ⟨stage, hstage⟩ := hperforms
          exact .inr (.inr ⟨k, by simp [WaitsFor, hi, hstage], closer_ready hs hA hstage⟩)
      · exact .inr (.inr ⟨j, by simp [WaitsFor, hi, hj], .inl hready⟩)
  | closing g stage =>
      rw [← hi]
      rcases closer_ready hs hA hi with hready | hqueue | ⟨j, hj, hready⟩
      · exact .inl hready
      · exact .inr (.inl hqueue)
      · exact .inr (.inr ⟨j, hj, .inl hready⟩)

/-- Thread `1` closes, and waits for the callback of thread `0`; another event waits behind it. -/
theorem waits_end_callback :
    ∃ c, (playback (Fin 2) fun _ => "").machine.Reach c ∧
      c.pc 1 = .closing 1 (.drain none) ∧ c.shared.executing = some 0 ∧ c.shared.queued = 1 ∧
      (Ready (fun _ => "") c.shared 1 (c.pc 1) ∨ (∃ source, AtQueue c 1 source) ∨
        ∃ j, WaitsFor c 1 j ∧
          (Ready (fun _ => "") c.shared j (c.pc j) ∨ (∃ source, AtQueue c j source) ∨
            ∃ k, WaitsFor c j k ∧ Ready (fun _ => "") c.shared k (c.pc k))) := by
  have hrun : ((playback (Fin 2) fun _ => "").machine.exec fresh
      [.env .post, .env .post, .thread 0 (.enterCallback .queue), .thread 1 (.call .close),
        .thread 1 .go, .thread 1 (.children none none), nativeOk 1, .thread 1 .go]).any (fun c =>
          decide (c.pc 1 = .closing 1 (.drain none) ∧ c.shared.executing = some 0 ∧
            c.shared.queued = 1)) = true := by
    decide +kernel
  obtain ⟨c, hc, htest⟩ := Machine.exists_reach fresh_start hrun
  obtain ⟨hpc, hexecuting, hqueued⟩ := of_decide_eq_true htest
  exact ⟨c, hc, hpc, hexecuting, hqueued, (waits_end hc (by simp [hpc])).1⟩

end Tirtc.Playback
