import Tirtc.Dispatch.Barriers
import Tirtc.Dispatch.TaskOrder

/-!
# The event callbacks of native tasks

A task calls the event callback of its object on whatever thread runs it. For the tasks that the
pool takes out of the queue this is the promise of the pool: one at a time, and none when `close`
has returned. A task that the queue has not taken (no GIL, no capsule, no sink, a closed
dispatcher) is run off the queue, and nothing holds its callbacks back.

* `InCallback`, `Enters`: a runner is in, or is about to enter, the callback of an object.
* `RunsOffQueue`: a task of the object is run off the queue, in a callback or not.
* `InTurn`: a task off the queue calls back while the dispatcher executes nothing and its close does
  not end, and no task calls back while another one is run off the queue.
* `Traces`, `step_traces`: what a step leaves in the runners, the closing threads and the pool.
* `Kept`, `reach_kept`: the pool threads run tasks of the dispatcher they drain, and a dispatcher
  whose `close` has returned has stopped.
* `callbacks_in_turn`: the promise, for runs in which the callbacks are in turn.
* `refused_out_of_turn`: two runs in which they are not.
-/

set_option autoImplicit false
set_option linter.unusedSectionVars false

namespace Tirtc

open Transition

namespace NativeTasks

variable {D ι : Type} [DecidableEq D] [DecidableEq ι] {s t u : NativeTasks D ι}

/-! ## Callbacks -/

/-- Runner `r` is in the event callback of the object of dispatcher `d`. -/
def InCallback (s : NativeTasks D ι) (d : D) (r : Runner ι) : Prop :=
  ∃ n, s.inFunction r = some (n, true) ∧ (s.task n).dispatcher = some d

/-- The next step of runner `r` enters the event callback of the object of dispatcher `d`. -/
def Enters (s : NativeTasks D ι) (d : D) (r : Runner ι) : Prop :=
  ∃ n t, s.inFunction r = some (n, false) ∧ (s.task n).dispatcher = some d ∧
    s.step (.callback r) = some t

end NativeTasks

/-- A runner other than a pool thread, which has its task from no queue. -/
def Runner.offQueue {ι : Type} : Runner ι → Bool
  | .pool _ => false
  | .thread _ | .destructor _ => true

namespace NativeTasks

variable {D ι : Type} [DecidableEq D] [DecidableEq ι] {s t u : NativeTasks D ι}

/-- Runner `r` runs a task of dispatcher `d` off the queue, in the callback or not. -/
def RunsOffQueue (s : NativeTasks D ι) (d : D) (r : Runner ι) : Prop :=
  r.offQueue = true ∧
    ∃ n callback, s.inFunction r = some (n, callback) ∧ (s.task n).dispatcher = some d

/-- **A callback in turn.** Nobody else runs a task of the object off the queue; and when the runner
is off the queue itself, the dispatcher executes no event, and if it is closed it has events left,
so that no `close` is at its end. -/
def InTurn (s : NativeTasks D ι) : TaskAction D ι → Prop
  | .callback r => ∀ d, Enters s d r →
      (∀ r', r' ≠ r → ¬ RunsOffQueue s d r') ∧
      (r.offQueue = true → (s.pool.dispatchers d).executing = false ∧
        ((s.pool.dispatchers d).closed = true → (s.pool.dispatchers d).events ≠ []))
  | _ => True

/-- The callbacks of every object are one at a time. -/
def OneAtATime (s : NativeTasks D ι) : Prop :=
  ∀ d r r', InCallback s d r → InCallback s d r' → r = r'

/-- No callback starts when `close` has returned. -/
def StopsAtClose (s : NativeTasks D ι) : Prop :=
  ∀ d r, Enters s d r → s.returned d = false

/-! ## What a step leaves -/

/-- **The traces of a step**: where a runner gets into the callback, a pool thread to a task, a
thread to the wait of `close`, and a `close` to its end. -/
structure Traces (s : NativeTasks D ι) (a : TaskAction D ι) (t : NativeTasks D ι) : Prop where
  made : s.made ≤ t.made
  dispatcher : ∀ n < s.made, (t.task n).dispatcher = (s.task n).dispatcher
  running : ∀ w d event, t.pool.worker w = .running d event →
    s.pool.worker w = .running d event ∨
      (event ∈ (s.pool.dispatchers d).events ∧ t.runs w = .before)
  inside : ∀ w, t.runs w = .inside true → s.runs w = .inside true ∨ a = .callback (.pool w)
  direct : ∀ i n, t.calls i = .direct n true →
    s.calls i = .direct n true ∨ a = .callback (.thread i)
  destroying : ∀ n, (t.task n).capsule = .destroying true →
    (s.task n).capsule = .destroying true ∨ a = .callback (.destructor n)
  closing : ∀ i d, t.calls i = .closing d →
    s.calls i = .closing d ∨ (t.pool.dispatchers d).closed = true
  returned : ∀ d, t.returned d = true → s.returned d = true ∨
    ∃ i, s.calls i = .closing d ∧ (s.pool.dispatchers d).closeDone = true ∧ t.pool = s.pool

namespace Traces

variable {a : TaskAction D ι}

/-- Nothing is done. -/
theorem refl (s : NativeTasks D ι) (a : TaskAction D ι) : Traces s a s where
  made := le_rfl
  dispatcher _ _ := rfl
  running _ _ _ h := .inl h
  inside _ h := .inl h
  direct _ _ h := .inl h
  destroying _ h := .inl h
  closing _ _ h := .inl h
  returned _ h := .inl h

/-- An update of something else. -/
theorem congr (h : Traces s a t) (hpool : u.pool = t.pool) (hmade : u.made = t.made)
    (htask : u.task = t.task) (hruns : u.runs = t.runs) (hcalls : u.calls = t.calls)
    (hreturned : u.returned = t.returned) : Traces s a u where
  made := by rw [hmade]; exact h.made
  dispatcher := by rw [htask]; exact h.dispatcher
  running := by rw [hpool, hruns]; exact h.running
  inside := by rw [hruns]; exact h.inside
  direct := by rw [hcalls]; exact h.direct
  destroying := by rw [htask]; exact h.destroying
  closing := by rw [hcalls, hpool]; exact h.closing
  returned := by rw [hreturned, hpool]; exact h.returned

/-- A thread goes on. -/
theorem goto (h : Traces s a t) {i : ι} {call : TaskCall D}
    (hdirect : ∀ n, call = .direct n true → a = .callback (.thread i))
    (hclosing : ∀ d, call = .closing d → (t.pool.dispatchers d).closed = true) :
    Traces s a (t.goto i call) where
  made := h.made
  dispatcher := h.dispatcher
  running := h.running
  inside := h.inside
  direct j n hj := by
    by_cases hji : j = i
    · subst hji
      exact .inr (hdirect n (by simpa [NativeTasks.goto] using hj))
    · exact h.direct j n (by simpa [NativeTasks.goto, hji] using hj)
  destroying := h.destroying
  closing j d hj := by
    by_cases hji : j = i
    · subst hji
      exact .inr (hclosing d (by simpa [NativeTasks.goto] using hj))
    · exact h.closing j d (by simpa [NativeTasks.goto, hji] using hj)
  returned := h.returned

/-- A record is written. -/
theorem modify (h : Traces s a t) {n : ℕ} {f : NativeTask D ι → NativeTask D ι}
    (hdispatcher : (f (t.task n)).dispatcher = (t.task n).dispatcher)
    (hcapsule : (f (t.task n)).capsule = .destroying true →
      (t.task n).capsule = .destroying true ∨ a = .callback (.destructor n)) :
    Traces s a (t.modify n f) where
  made := h.made
  dispatcher m hm := by
    rw [← h.dispatcher m hm]
    by_cases hmn : m = n
    · subst hmn
      simpa [NativeTasks.modify] using hdispatcher
    · simp [NativeTasks.modify, hmn]
  running := h.running
  inside := h.inside
  direct := h.direct
  destroying m hm := by
    by_cases hmn : m = n
    · subst hmn
      rcases hcapsule (by simpa [NativeTasks.modify] using hm) with hold | ha
      · exact h.destroying m hold
      · exact .inr ha
    · exact h.destroying m (by simpa [NativeTasks.modify, hmn] using hm)
  closing := h.closing
  returned := h.returned

/-- A thread takes a reference to a dispatcher. -/
theorem hold (h : Traces s a t) (i : ι) (d : D) : Traces s a (t.hold i d) :=
  h.congr rfl rfl rfl rfl rfl rfl

/-- A thread drops a reference to a dispatcher. -/
theorem unhold (h : Traces s a t) (i : ι) (d : D) : Traces s a (t.unhold i d) :=
  h.congr rfl rfl rfl rfl rfl rfl

/-- The function of a task is called. -/
theorem invoke (h : Traces s a t) (n : ℕ) : Traces s a (t.invoke n) :=
  (h.modify (n := n) (f := fun task =>
    { task with function := false, invocations := task.invocations + 1 }) rfl .inl).congr
    rfl rfl rfl rfl rfl rfl

/-- A pool thread goes on with its task. -/
theorem setRun (h : Traces s a t) {w : Fin 2} {run : PoolRun} (hpool : t.pool = s.pool)
    (hinside : run = .inside true → a = .callback (.pool w)) : Traces s a (t.setRun w run) where
  made := h.made
  dispatcher := h.dispatcher
  running v d event hv := .inl (by rw [← hpool]; exact hv)
  inside v hv := by
    by_cases hvw : v = w
    · subst hvw
      exact .inr (hinside (by simpa [NativeTasks.setRun] using hv))
    · exact h.inside v (by simpa [NativeTasks.setRun, hvw] using hv)
  direct := h.direct
  destroying := h.destroying
  closing := h.closing
  returned := h.returned

/-- A runner enters or leaves the event callback. -/
theorem setCallback {r : Runner ι} {n : ℕ} {callback : Bool}
    (ha : callback = true → a = .callback r) : Traces s a (s.setCallback n callback r) := by
  cases r with
  | pool w =>
      refine (refl s a).setRun rfl fun hrun => ha ?_
      simpa using hrun
  | thread i =>
      refine (refl s a).goto (fun m hm => ha ?_) ?_
      · simpa using (TaskCall.direct.inj hm).2
      · intro d hd
        cases hd
  | destructor m =>
      refine (refl s a).modify (f := fun task => { task with capsule := .destroying callback })
        rfl fun hcapsule => .inr (ha ?_)
      simpa using hcapsule

/-- The function of a task returns. -/
theorem leave (r : Runner ι) : Traces s a (s.leave r) := by
  cases r with
  | pool w => exact (refl s a).setRun rfl (by nofun)
  | thread i => exact (refl s a).goto (by nofun) (by nofun)
  | destructor m =>
      exact (refl s a).modify (f := fun task => { task with capsule := .freed }) rfl (by nofun)

/-- A section of a dispatcher. -/
theorem afterPost {d : D} {r : PostResult (List PyValue)} :
    Traces s a { s with pool := s.pool.afterPost d r } where
  made := le_rfl
  dispatcher _ _ := rfl
  running _ _ _ h := .inl h
  inside _ h := .inl h
  direct _ _ h := .inl h
  destroying _ h := .inl h
  closing _ _ h := .inl h
  returned _ h := .inl h

/-- A step of a pool thread that takes no task. -/
theorem worker {pool : Executor D (List PyValue)}
    (hworker : ∀ w d event, pool.worker w = .running d event →
      s.pool.worker w = .running d event) : Traces s a { s with pool := pool } where
  made := le_rfl
  dispatcher _ _ := rfl
  running w d event h := .inl (hworker w d event h)
  inside _ h := .inl h
  direct _ _ h := .inl h
  destroying _ h := .inl h
  closing _ _ h := .inl h
  returned _ h := .inl h

end Traces

/-- **The traces of every step.** -/
theorem step_traces {a : TaskAction D ι} (h : s.step a = some t) : Traces s a t := by
  have hself := Traces.refl s a
  cases a with
  | dispatch i d gil =>
      simp only [step, dispatchStep] at h
      split at h
      · split at h
        · cases h
        · have hmade : Traces s (.dispatch i d gil) { s with
              made := s.made + 1
              task :=
                Function.update s.task s.made { dispatcher := some d, caller := some i } } := by
            refine { hself with made := Nat.le_succ _, dispatcher := ?_, destroying := ?_ }
            · intro n hn
              simp [Nat.ne_of_lt hn]
            · intro n hn
              by_cases hnew : n = s.made
              · simp [hnew] at hn
              · exact .inl (by simpa [hnew] using hn)
          cases gil with
          | true =>
              obtain rfl := Option.some.inj h
              exact hmade.goto (by simp) (by simp)
          | false =>
              obtain rfl := Option.some.inj h
              exact (hmade.invoke _).goto (by simp) (by simp)
      · cases h
  | allocate i ok =>
      simp only [step, allocateStep] at h
      split at h
      next n _ =>
        cases ok with
        | true =>
            obtain rfl := Option.some.inj h
            exact (hself.modify rfl (by simp)).goto (by simp) (by simp)
        | false =>
            obtain rfl := Option.some.inj h
            exact (hself.invoke n).goto (by simp) (by simp)
      next => cases h
  | lookUp i reached =>
      simp only [step, lookUpStep] at h
      split at h
      · split at h
        · split at h
          · obtain rfl := Option.some.inj h
            exact (hself.hold i _).goto (by simp) (by simp)
          · obtain rfl := Option.some.inj h
            exact hself.goto (by simp) (by simp)
        · cases h
      · cases h
  | post i =>
      simp only [step, postStep] at h
      split at h
      next d n _ =>
        obtain ⟨r, hr, rfl⟩ := Option.map_eq_some_iff.mp h
        obtain ⟨pool, hpool, rfl⟩ := Option.map_eq_some_iff.mp hr
        obtain ⟨x, -, rfl⟩ := Option.map_eq_some_iff.mp hpool
        have hgone : Traces s (.post i)
            ((({ s with pool := s.pool.afterPost d x } : NativeTasks D ι).unhold i d).goto i
              (.release n)) :=
          (Traces.afterPost.unhold i d).goto (by simp) (by simp)
        split
        · exact hgone
        · exact (hgone.modify (n := n) (f := fun task => { task with accepted := true })
            rfl .inl).congr rfl rfl rfl rfl rfl rfl
      next => cases h
  | release i =>
      simp only [step, releaseStep] at h
      split at h
      · obtain rfl := Option.some.inj h
        exact (hself.modify rfl .inl).goto (by simp) (by simp)
      · cases h
  | run w =>
      simp only [step, runStep] at h
      split at h
      · obtain ⟨n, -, rfl⟩ := Option.map_eq_some_iff.mp h
        split
        · exact (hself.invoke n).setRun rfl (by simp)
        · exact hself.setRun rfl (by simp)
      · cases h
  | destroy n =>
      simp only [step, destroyStep] at h
      split at h
      · split at h
        · obtain rfl := Option.some.inj h
          exact (hself.invoke n).modify rfl (by simp)
        · obtain rfl := Option.some.inj h
          exact hself.modify rfl (by simp)
      · cases h
  | callback r =>
      simp only [step, callbackStep] at h
      split at h
      · split at h
        · split at h
          · cases h
          · obtain rfl := Option.some.inj h
            exact .setCallback fun _ => rfl
        · cases h
      · cases h
  | callbackEnd r =>
      simp only [step, callbackEndStep] at h
      split at h
      · obtain rfl := Option.some.inj h
        exact .setCallback (by simp)
      · cases h
  | functionEnd r =>
      simp only [step, functionEndStep] at h
      split at h
      · obtain rfl := Option.some.inj h
        exact .leave r
      · cases h
  | close i d =>
      simp only [step, closeStep] at h
      split at h
      · split at h
        · cases h
        · obtain ⟨r, hr, rfl⟩ := Option.map_eq_some_iff.mp h
          obtain ⟨pool, hpool, rfl⟩ := Option.map_eq_some_iff.mp hr
          obtain rfl := Option.some.inj hpool
          refine (Traces.afterPost.hold i d).goto (by simp) ?_
          intro e he
          obtain rfl := TaskCall.closing.inj he
          simp [Executor.afterPost, Dispatcher.close, NativeTasks.hold]
      · cases h
  | wake i =>
      simp only [step, wakeStep] at h
      split at h
      next d hcall =>
        split at h
        next hdone =>
          obtain rfl := Option.some.inj h
          have hreturned : Traces s (.wake i)
              { s with returned := Function.update s.returned d true } := by
            refine { hself with returned := fun e he => ?_ }
            by_cases hed : e = d
            · subst hed
              exact .inr ⟨i, hcall, hdone, rfl⟩
            · exact .inl (by simpa [hed] using he)
          exact hreturned.goto (by simp) (by simp)
        next => cases h
      next => cases h
  | nativeClose i code =>
      simp only [step, nativeCloseStep] at h
      split at h
      next d _ =>
        obtain rfl := Option.some.inj h
        have hdestroyed : Traces s (.nativeClose i code) { s with
            destroyed := if code = 0 then Function.update s.destroyed d true else s.destroyed } :=
          hself.congr rfl rfl rfl rfl rfl rfl
        exact (hdestroyed.unhold i d).goto (by simp) (by simp)
      next => cases h
  | discard d =>
      simp only [step] at h
      split at h
      · cases h
      · obtain ⟨pool, hpool, rfl⟩ := Option.map_eq_some_iff.mp h
        obtain rfl := Option.some.inj hpool
        exact .afterPost
  | handlerGone d =>
      obtain rfl := Option.some.inj h
      exact hself.congr rfl rfl rfl rfl rfl rfl
  | free d =>
      simp only [step, freeStep] at h
      split at h
      · obtain rfl := Option.some.inj h
        exact hself.congr rfl rfl rfl rfl rfl rfl
      · cases h
  | put d =>
      obtain ⟨pool, hpool, rfl⟩ := Option.map_eq_some_iff.mp h
      obtain ⟨-, rfl⟩ := Executor.put_cases hpool
      exact .worker fun _ _ _ hw => hw
  | get w =>
      obtain ⟨pool, hpool, rfl⟩ := Option.map_eq_some_iff.mp h
      obtain ⟨e, ready, -, -, rfl⟩ := Executor.get_cases hpool
      refine .worker ?_
      intro v d event hv
      by_cases hvw : v = w
      · simp [hvw] at hv
      · simpa [hvw] using hv
  | drainBegin w =>
      obtain ⟨r, hr, rfl⟩ := Option.map_eq_some_iff.mp h
      obtain ⟨pool, hpool, rfl⟩ := Option.map_eq_some_iff.mp hr
      obtain ⟨e, -, ⟨-, rfl⟩ | ⟨event, events, hevents, rfl⟩⟩ := Executor.drainBegin_cases hpool
      · refine { hself with running := ?_, inside := ?_,
                            closing := fun j d hj => .inl hj, returned := fun d hd => .inl hd }
        · intro v d event' hv
          by_cases hvw : v = w
          · simp [NativeTasks.setRun, Executor.advance, hvw] at hv
          · exact .inl (by simpa [NativeTasks.setRun, Executor.advance, hvw] using hv)
        · intro v hv
          by_cases hvw : v = w
          · simp [NativeTasks.setRun, hvw] at hv
          · exact .inl (by simpa [NativeTasks.setRun, hvw] using hv)
      · refine { hself with running := ?_, inside := ?_,
                            closing := fun j d hj => .inl hj, returned := fun d hd => .inl hd }
        · intro v d event' hv
          by_cases hvw : v = w
          · subst hvw
            have heq : Worker.running e event = .running d event' := by
              simpa [NativeTasks.setRun, Executor.advance] using hv
            obtain ⟨rfl, rfl⟩ := Worker.running.inj heq
            exact .inr ⟨by simp [hevents], by simp [NativeTasks.setRun]⟩
          · exact .inl (by simpa [NativeTasks.setRun, Executor.advance, hvw] using hv)
        · intro v hv
          by_cases hvw : v = w
          · simp [NativeTasks.setRun, hvw] at hv
          · exact .inl (by simpa [NativeTasks.setRun, hvw] using hv)
  | drainEnd w =>
      simp only [step] at h
      split at h
      · obtain ⟨pool, hpool, rfl⟩ := Option.map_eq_some_iff.mp h
        obtain ⟨e, event, -, rfl⟩ := Executor.drainEnd_cases hpool
        refine .worker ?_
        intro v d event hv
        by_cases hvw : v = w
        · subst hvw
          simp only [Executor.advance, Function.update_self] at hv
          split at hv <;> cases hv
        · simpa [Executor.advance, hvw] using hv
      · cases h
  | reschedule w =>
      obtain ⟨pool, hpool, rfl⟩ := Option.map_eq_some_iff.mp h
      obtain ⟨e, -, rfl⟩ := Executor.reschedule_cases hpool
      refine .worker ?_
      intro v d event hv
      by_cases hvw : v = w
      · simp [hvw] at hv
      · simpa [hvw] using hv

/-- Nobody gets into a callback by another step. -/
theorem Traces.inFunction {a : TaskAction D ι} (h : Traces s a t) {r : Runner ι} {n : ℕ}
    (hr : t.inFunction r = some (n, true)) :
    s.inFunction r = some (n, true) ∨ a = .callback r := by
  rcases inFunction_cases hr with ⟨w, rfl, hw, hrun⟩ | ⟨i, rfl, hcall⟩ | ⟨rfl, hn⟩
  · rcases h.inside w hrun with hinside | ha
    · refine .inl ?_
      cases hworker : t.pool.worker w with
      | running d event =>
          rcases h.running w d event hworker with hsame | ⟨-, hbefore⟩
          · rw [hworker] at hw
            change eventTask event = some n at hw
            simp [NativeTasks.inFunction, hsame, hinside, hw]
          · rw [hrun] at hbefore
            cases hbefore
      | _ =>
          rw [hworker] at hw
          cases hw
    · exact .inr ha
  · rcases h.direct i n hcall with hsame | ha
    · exact .inl (by simp [NativeTasks.inFunction, hsame])
    · exact .inr ha
  · rcases h.destroying n hn with hsame | ha
    · exact .inl (by simp [NativeTasks.inFunction, hsame])
    · exact .inr ha

/-! ## The pool threads and the closed dispatchers -/

/-- **What the pool keeps for the callbacks.** -/
structure Kept (s : NativeTasks D ι) : Prop where
  sound : Sound s
  own : ∀ w d event n, s.pool.worker w = .running d event → eventTask event = some n →
    n < s.made ∧ (s.task n).dispatcher = some d
  closing : ∀ i d, s.calls i = .closing d → (s.pool.dispatchers d).closed = true
  returned : ∀ d, s.returned d = true → (s.pool.dispatchers d).Stopped

/-- A step of the system is a section of each dispatcher, or nothing to it. -/
theorem Kept.section_of (hs : Kept s) {a : TaskAction D ι} (h : s.step a = some t) (d : D) :
    t.pool.dispatchers d = s.pool.dispatchers d ∨
      ∃ x, (s.pool.dispatchers d).step x = some (t.pool.dispatchers d) := by
  rcases (step_moves h).pool with heq | ⟨x, hx, -⟩
  · exact .inl (by rw [heq])
  · exact Executor.step_dispatchers hs.sound.phases hx d

/-- **The step lemma.** -/
theorem kept_step {a : TaskAction D ι} (hs : Kept s) (h : s.step a = some t) : Kept t := by
  have htraces := step_traces h
  have hclosed : ∀ d, (s.pool.dispatchers d).closed = true →
      (t.pool.dispatchers d).closed = true := by
    intro d hd
    rcases hs.section_of h d with heq | ⟨x, hx⟩
    · rw [heq]
      exact hd
    · exact (Dispatcher.closed_section hx hd).1
  refine ⟨sound_step hs.sound h, ?_, ?_, ?_⟩
  · intro w d event n hw hn
    have hold : n < s.made ∧ (s.task n).dispatcher = some d := by
      rcases htraces.running w d event hw with hsame | ⟨hmem, -⟩
      · exact hs.own w d event n hsame hn
      · obtain ⟨p, q, hline⟩ := hs.sound.lined d
        rw [hline.events] at hmem
        obtain ⟨m, hm, rfl⟩ := List.mem_map.mp hmem
        obtain rfl : m = n := Option.some.inj hn
        have hpending := (hline.mem m).mp (List.mem_append_right p hm)
        have hcapsule : (s.task m).capsule ≠ .absent := by
          intro habsent
          exact absurd hpending.function (by simp [((hs.sound.life.ok m).absent habsent).1])
        exact ⟨hs.sound.life.made hcapsule, hpending.dispatcher⟩
    exact ⟨hold.1.trans_le htraces.made, (htraces.dispatcher n hold.1).trans hold.2⟩
  · intro i d hi
    rcases htraces.closing i d hi with hsame | hnow
    · exact hclosed d (hs.closing i d hsame)
    · exact hnow
  · intro d hd
    rcases htraces.returned d hd with hsame | ⟨i, hi, hdone, hpool⟩
    · have hstopped := hs.returned d hsame
      rcases hs.section_of h d with heq | ⟨x, hx⟩
      · rw [heq]
        exact hstopped
      · exact Dispatcher.stopped_section hx hstopped
    · -- `close` returns: the wait has ended
      rw [hpool]
      simp only [Dispatcher.closeDone, Bool.and_eq_true, Bool.not_eq_true',
        List.isEmpty_iff] at hdone
      exact ⟨hs.closing i d hi, hdone.2, hdone.1⟩

/-- **The run lemma.** -/
theorem reach_kept (hs : (machine D ι).Reach s) : Kept s := by
  refine hs.invariant (I := Kept) ?_ fun _ _ _ hr _ h => kept_step hr h
  intro r hr
  refine ⟨reach_sound (.of_start hr), ?_, ?_, ?_⟩
  all_goals
    obtain ⟨capacity, frameCapacity, rfl⟩ := hr
    simp

/-- A pool thread in a function runs the dispatcher of its task. -/
theorem Kept.handling (hs : Kept s) {w : Fin 2} {n : ℕ} {callback : Bool} {d : D}
    (hw : s.inFunction (.pool w) = some (n, callback)) (hn : (s.task n).dispatcher = some d) :
    (s.pool.worker w).handling = some d := by
  rcases inFunction_cases hw with ⟨v, hv, htaken, -⟩ | ⟨_, hi, -⟩ | ⟨hm, -⟩
  · obtain rfl := Runner.pool.inj hv
    cases hworker : s.pool.worker w with
    | running e event =>
        rw [hworker] at htaken
        obtain ⟨-, he⟩ := hs.own w e event n hworker htaken
        rw [hn] at he
        obtain rfl := Option.some.inj he
        rfl
    | _ =>
        rw [hworker] at htaken
        cases htaken
  · cases hi
  · cases hm

/-- **The tasks of the queue**: no callback of theirs starts when `close` has returned. -/
theorem Kept.open_of_enters (hs : Kept s) {w : Fin 2} {d : D} (h : Enters s d (.pool w)) :
    s.returned d = false := by
  obtain ⟨n, _, hr, hn, -⟩ := h
  have hhandling := hs.handling hr hn
  cases hreturned : s.returned d with
  | false => rfl
  | true =>
      have hexecuting := (hs.sound.phases.executing d).mpr ⟨w, hhandling⟩
      rw [(hs.returned d hreturned).executing] at hexecuting
      cases hexecuting

/-- A runner is in a function of a task that has been made. -/
theorem Kept.made_of (hs : Kept s) {r : Runner ι} {n : ℕ} {callback : Bool}
    (hr : s.inFunction r = some (n, callback)) : n < s.made := by
  rcases inFunction_cases hr with ⟨w, rfl, hw, -⟩ | ⟨i, rfl, hi⟩ | ⟨rfl, hn⟩
  · cases hworker : s.pool.worker w with
    | running d event =>
        rw [hworker] at hw
        exact (hs.own w d event n hworker hw).1
    | _ =>
        rw [hworker] at hw
        cases hw
  · exact (hs.sound.life.call i n (by rw [hi]; rfl)).1
  · exact hs.sound.life.made (by simp [hn])

/-! ## One at a time -/

/-- The step that enters the callback. -/
theorem callback_cases {r : Runner ι} (h : s.step (.callback r) = some t) :
    ∃ n d, s.inFunction r = some (n, false) ∧ (s.task n).dispatcher = some d ∧
      t = s.setCallback n true r := by
  simp only [step, callbackStep] at h
  split at h
  next n hr =>
    split at h
    next d hn =>
      split at h
      · cases h
      · exact ⟨n, d, hr, hn, (Option.some.inj h).symm⟩
    next => cases h
  next => cases h

/-- Behind it the runner is in the callback of its task. -/
theorem inFunction_setCallback {r : Runner ι} {n : ℕ} {callback callback' : Bool}
    (hr : s.inFunction r = some (n, callback)) :
    (s.setCallback n callback' r).inFunction r = some (n, callback') := by
  rcases inFunction_cases hr with ⟨w, rfl, hw, -⟩ | ⟨i, rfl, -⟩ | ⟨rfl, -⟩
  · cases hworker : s.pool.worker w with
    | running d event =>
        rw [hworker] at hw
        change eventTask event = some n at hw
        simp [inFunction, setCallback, setRun, hworker, hw]
    | _ =>
        rw [hworker] at hw
        cases hw
  · simp [inFunction, setCallback, goto]
  · simp [inFunction, setCallback, modify]

/-- No task changes its dispatcher there. -/
theorem dispatcher_setCallback (s : NativeTasks D ι) (n m : ℕ) (callback : Bool) (r : Runner ι) :
    ((s.setCallback n callback r).task m).dispatcher = (s.task m).dispatcher := by
  cases r with
  | pool _ | thread _ => rfl
  | destructor k =>
      by_cases hm : m = k
      · subst hm
        simp [setCallback, modify]
      · simp [setCallback, modify, hm]

/-- A runner that is in a callback behind a step was in it before, or has entered it. -/
theorem inCallback_step {a : TaskAction D ι} {d : D} {r : Runner ι} (hs : Kept s)
    (h : s.step a = some t) (hr : InCallback t d r) :
    InCallback s d r ∨ (a = .callback r ∧ Enters s d r) := by
  obtain ⟨n, hin, hn⟩ := hr
  have htraces := step_traces h
  rcases htraces.inFunction hin with hsame | rfl
  · refine .inl ⟨n, hsame, ?_⟩
    rw [← htraces.dispatcher n (hs.made_of hsame)]
    exact hn
  · obtain ⟨m, e, hm, -, ht⟩ := callback_cases h
    refine .inr ⟨rfl, m, t, hm, ?_, h⟩
    have heq : some (n, true) = some (m, true) := by
      rw [← hin, ht, inFunction_setCallback hm]
    obtain ⟨rfl, -⟩ := Prod.mk.inj (Option.some.inj heq)
    rw [ht, dispatcher_setCallback] at hn
    exact hn

/-- A pool thread in a callback of the object executes its dispatcher. -/
theorem Kept.executing (hs : Kept s) {d : D} {w : Fin 2} (h : InCallback s d (.pool w)) :
    (s.pool.dispatchers d).executing = true := by
  obtain ⟨n, hw, hn⟩ := h
  exact (hs.sound.phases.executing d).mpr ⟨w, hs.handling hw hn⟩

/-- **A callback in turn is the only one of its object.** -/
theorem InTurn.alone {d : D} {r r' : Runner ι} (hs : Kept s) (h : InTurn s (.callback r))
    (hr : Enters s d r) (hr' : InCallback s d r') : r' = r := by
  obtain ⟨hothers, hoff⟩ := h d hr
  cases r' with
  | pool v =>
      have hexecuting := hs.executing hr'
      cases r with
      | pool w =>
          -- two pool threads with one dispatcher
          obtain ⟨n, hv, hn⟩ := hr'
          obtain ⟨m, _, hw, hm, -⟩ := hr
          have htoken := Worker.token_of_handling (hs.handling hv hn)
          have htoken' := Worker.token_of_handling (hs.handling hw hm)
          rw [hs.sound.phases.unique htoken htoken']
      | thread _ | destructor _ =>
          rw [(hoff rfl).1] at hexecuting
          cases hexecuting
  | thread _ | destructor _ =>
      obtain ⟨n, hin, hn⟩ := hr'
      by_contra hne
      exact hothers _ hne ⟨rfl, n, true, hin, hn⟩

/-- **A callback in turn starts before `close` has returned.** -/
theorem InTurn.open_of_enters {d : D} {r : Runner ι} (hs : Kept s) (h : InTurn s (.callback r))
    (hr : Enters s d r) : s.returned d = false := by
  cases r with
  | pool w => exact hs.open_of_enters hr
  | thread _ | destructor _ =>
      obtain ⟨-, hevents⟩ := (h d hr).2 rfl
      cases hreturned : s.returned d with
      | false => rfl
      | true =>
          have hstopped := hs.returned d hreturned
          exact absurd hstopped.events (hevents hstopped.closed)

/-- **The step lemma**: a step in turn keeps the callbacks one at a time. -/
theorem oneAtATime_step {a : TaskAction D ι} (hs : Kept s)
    (hone : OneAtATime s) (ha : InTurn s a) (h : s.step a = some t) : OneAtATime t := by
  intro d r r' hr hr'
  rcases inCallback_step hs h hr with hold | ⟨hcallback, henters⟩
  · rcases inCallback_step hs h hr' with hold' | ⟨rfl, henters'⟩
    · exact hone d r r' hold hold'
    · exact ha.alone hs henters' hold
  · subst hcallback
    rcases inCallback_step hs h hr' with hold' | ⟨hsame, -⟩
    · exact (ha.alone hs henters hold').symm
    · exact TaskAction.callback.inj hsame

/-- **The promise, while the callbacks are in turn**: in every state of such a run the callbacks of
an object are one at a time, and one that starts in turn starts before `close` has returned.
Source: `_dispatch.py`, `_native_task_sink` -/
theorem callbacks_in_turn (hs : (machine D ι).ReachWith InTurn s) :
    OneAtATime s ∧
    ∀ d r, InTurn s (.callback r) → Enters s d r → s.returned d = false := by
  have hkept : ∀ u, (machine D ι).ReachWith InTurn u → Kept u := fun _ hu => reach_kept hu.reach
  have hone : OneAtATime s := by
    refine hs.invariant_of (I := OneAtATime) hkept ?_ ?_
    · rintro _ ⟨capacity, frameCapacity, rfl⟩ _ d r r' ⟨n, hr, -⟩
      rcases inFunction_cases hr with ⟨_, _, hw, -⟩ | ⟨_, _, hi⟩ | ⟨_, hn⟩
      · cases hw
      · cases hi
      · cases hn
    · intro u a v hu _ hone ha hstep
      exact oneAtATime_step hu hone ha hstep
  exact ⟨hone, fun d r hr henters => hr.open_of_enters (hkept s hs) henters⟩

/-- A check for a callback in turn that looks at the threads and the tasks made. -/
def inTurn [Fintype ι] [Fintype D] (s : NativeTasks D ι) : TaskAction D ι → Bool
  | .callback r => decide
      ((∀ i, Runner.thread i ≠ r → s.inFunction (.thread i) = none) ∧
      (∀ n < s.made, Runner.destructor n ≠ r → s.inFunction (.destructor n) = none) ∧
      (r.offQueue = true → ∀ d, (s.pool.dispatchers d).executing = false ∧
        (s.pool.dispatchers d).closed = false))
  | _ => true

/-- A callback that passes the check is in turn. -/
theorem Kept.inTurn [Fintype ι] [Fintype D] (hs : Kept s) {a : TaskAction D ι}
    (h : s.inTurn a = true) : InTurn s a := by
  cases a with
  | callback r =>
      obtain ⟨hthreads, htasks, hoff⟩ := of_decide_eq_true h
      refine fun d _ => ⟨?_, fun hr => ⟨(hoff hr d).1, fun hclosed => ?_⟩⟩
      · rintro r' hne ⟨hoff', n, callback, hin, -⟩
        cases r' with
        | pool w => cases hoff'
        | thread i => cases (hthreads i hne).symm.trans hin
        | destructor m =>
            have hm : m = n := by
              rcases inFunction_cases hin with ⟨_, hw, -⟩ | ⟨_, hi, -⟩ | ⟨hm, -⟩
              · cases hw
              · cases hi
              · exact Runner.destructor.inj hm
            subst hm
            cases (htasks m (hs.made_of hin) hne).symm.trans hin
      · cases hclosed.symm.trans (hoff hr d).2
  | _ => trivial

/-- Task `0` is queued, and a pool thread is about to call the event callback for it. -/
def queuedCallback : List (TaskAction (Fin 1) (Fin 2)) :=
  [.dispatch 0 0 true, .allocate 0 true, .lookUp 0 true, .post 0, .release 0, .put 0, .get 0,
    .drainBegin 0, .run 0]

/-- It has called back, and task `1`, dispatched without the GIL, is about to. -/
def directCallback : List (TaskAction (Fin 1) (Fin 2)) :=
  queuedCallback ++ [.callback (.pool 0), .callbackEnd (.pool 0), .functionEnd (.pool 0),
    .drainEnd 0, .dispatch 1 0 false]

/-- Both callbacks of that run are in turn, and the second one starts before `close`. -/
theorem callbacks_in_turn_direct :
    ∃ s, (machine (Fin 1) (Fin 2)).ReachWith InTurn s ∧ (s.task 0).invocations = 1 ∧
      Enters s 0 (.thread 1) ∧ OneAtATime s ∧ s.returned 0 = false := by
  have hrun : (((machine (Fin 1) (Fin 2)).guarded fun s a => decide (s.inTurn a = true)).exec
      { pool := { dispatchers := fun _ => .init } } directCallback).any (fun s => decide (
        (s.inFunction (.thread 1) = some (1, false) ∧ (s.task 1).dispatcher = some 0 ∧
          (s.step (.callback (.thread 1))).isSome = true) ∧
        (s.task 0).invocations = 1 ∧ s.inTurn (.callback (.thread 1)) = true)) = true := by
    decide +kernel
  have hstart : (machine (Fin 1) (Fin 2)).start { pool := { dispatchers := fun _ => .init } } :=
    ⟨fun _ => 64, fun _ => none, rfl⟩
  obtain ⟨s, hchecked, htest⟩ := Machine.exists_reachWith hstart hrun
  obtain ⟨⟨hin, hn, hsome⟩, honce, hturn⟩ := of_decide_eq_true htest
  obtain ⟨t, ht⟩ := Option.isSome_iff_exists.mp hsome
  have hs : (machine (Fin 1) (Fin 2)).ReachWith InTurn s :=
    hchecked.mono_of fun u a hu ha => (reach_kept hu).inTurn ha
  have henters : Enters s 0 (.thread 1) := ⟨1, t, hin, hn, ht⟩
  obtain ⟨hone, hopen⟩ := callbacks_in_turn hs
  have hopen := hopen 0 (.thread 1) ((reach_kept hs.reach).inTurn hturn) henters
  exact ⟨s, hs, honce, henters, hone, hopen⟩

/-- A task is dispatched, refused and left to its destructor. -/
def refusedTask (n : ℕ) : List (TaskAction (Fin 1) (Fin 2)) :=
  [.dispatch 0 0 true, .allocate 0 true, .lookUp 0 true, .post 0, .release 0, .destroy n]

/-- The pool thread is in the callback when `close` is called, and task `1` is refused. -/
def refusedWhileClosing : List (TaskAction (Fin 1) (Fin 2)) :=
  queuedCallback ++ .callback (.pool 0) :: .close 1 0 :: refusedTask 1 ++
    [.callback (.destructor 1)]

/-- Both callbacks end, `close` returns, and task `2` is refused. -/
def refusedWhenClosed : List (TaskAction (Fin 1) (Fin 2)) :=
  refusedWhileClosing ++ .callbackEnd (.destructor 1) :: .callbackEnd (.pool 0) ::
    .functionEnd (.pool 0) :: .drainEnd 0 :: .wake 1 :: refusedTask 2

/-- **A refused task keeps to neither**: it calls the callback next to a pool thread, and when
`close` has returned. -/
theorem refused_out_of_turn :
    ¬ (∀ s, (machine (Fin 1) (Fin 2)).Reach s → OneAtATime s) ∧
    ¬ ∀ s, (machine (Fin 1) (Fin 2)).Reach s → StopsAtClose s := by
  have hstart : (machine (Fin 1) (Fin 2)).start { pool := { dispatchers := fun _ => .init } } :=
    ⟨fun _ => 64, fun _ => none, rfl⟩
  refine ⟨?_, ?_⟩
  · intro hone
    have hrun : ((machine (Fin 1) (Fin 2)).exec { pool := { dispatchers := fun _ => .init } }
        refusedWhileClosing).any (fun s => decide (
          (s.inFunction (.pool 0) = some (0, true) ∧ (s.task 0).dispatcher = some 0) ∧
          s.inFunction (.destructor 1) = some (1, true) ∧ (s.task 1).dispatcher = some 0)) =
        true := by
      decide +kernel
    obtain ⟨s, hs, hboth⟩ := Machine.exists_reach hstart hrun
    obtain ⟨hpool, hdestructor⟩ := of_decide_eq_true hboth
    have heq := hone s hs 0 (.pool 0) (.destructor 1) ⟨0, hpool⟩ ⟨1, hdestructor⟩
    cases heq
  · intro hstops
    have hrun : ((machine (Fin 1) (Fin 2)).exec { pool := { dispatchers := fun _ => .init } }
        refusedWhenClosed).any (fun s => decide (
          s.inFunction (.destructor 2) = some (2, false) ∧ (s.task 2).dispatcher = some 0 ∧
          (s.step (.callback (.destructor 2))).isSome = true ∧ s.returned 0 = true)) = true := by
      decide +kernel
    obtain ⟨s, hs, hlate⟩ := Machine.exists_reach hstart hrun
    obtain ⟨hin, hn, hsome, hreturned⟩ := of_decide_eq_true hlate
    obtain ⟨t, ht⟩ := Option.isSome_iff_exists.mp hsome
    have hopen := hstops s hs 0 (.destructor 2) ⟨2, t, hin, hn, ht⟩
    rw [hreturned] at hopen
    cases hopen

end NativeTasks

end Tirtc
