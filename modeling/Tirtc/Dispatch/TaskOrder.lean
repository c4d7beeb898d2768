import Tirtc.Dispatch.TaskLife

/-!
# Native tasks run exactly once, and in the order of acceptance

The queue of a dispatcher holds the tasks that it has accepted and nobody has run, in the order of
acceptance; before them comes the task that a pool thread has taken and not yet run. While a task is
among them its capsule is held, so that no destructor runs it out of turn, and its dispatcher is not
freed.

* `Pending`, `Taken`, `Lined`: the line of a dispatcher; `Released`: a freed dispatcher.
* `Sound`: the whole invariant; `lined_post`, `lined_drain`, `lined_run`, `lined_destroy`: the steps
  that touch the line; `sound_step`, `reach_sound`: the step lemma and the run lemma.
* `tasks_run_once`: what a handed-over task can rely on, for every run.
-/

set_option autoImplicit false
set_option linter.unusedSectionVars false

namespace Tirtc

open Transition

/-! ## A dispatcher that nothing of the pool refers to -/

/-- The dispatcher that a step of the pool posts to. -/
def ExecutorAction.postsTo {D V : Type} : ExecutorAction D V → Option D
  | .post d _ _ | .postNativeTask d _ => some d
  | _ => none

namespace Executor

variable {D V : Type} [DecidableEq D] {s t : Executor D V} {d : D}

omit [DecidableEq D] in
/-- The queue of `d` is empty, and `d` has no token. -/
structure Idle (s : Executor D V) (d : D) : Prop where
  events : (s.dispatchers d).events = []
  ready : d ∉ s.ready
  putting : d ∉ s.putting
  worker : ∀ w, (s.worker w).token ≠ some d

/-- Without a token, a dispatcher has no events. -/
theorem Phases.idle (hs : Phases s) (hready : d ∉ s.ready) (hputting : d ∉ s.putting)
    (hworker : ∀ w, (s.worker w).token ≠ some d) : Idle s d := by
  have hcount : Counting.countOf (fun w : Worker D V => w.token = some d) s.worker = 0 := by
    apply Nat.eq_zero_of_not_pos
    rw [Counting.countOf_pos (s.finite_token d)]
    rintro ⟨w, hw⟩
    exact hworker w hw
  have htokens : s.tokens d = 0 := by
    simp [tokens, List.count_eq_zero.mpr hready, List.count_eq_zero.mpr hputting, hcount]
  have hphase := hs.phase d
  rw [htokens] at hphase
  cases hphase with
  | quiet _ hevents _ => exact ⟨hevents, hready, hputting, hworker⟩

variable [FrameValues V]

/-- A section of another dispatcher. -/
theorem Idle.afterPost (h : Idle s d) {e : D} {r : PostResult V} (he : d ≠ e) :
    Idle (s.afterPost e r) d where
  events := by simpa [Executor.afterPost, he] using h.events
  ready := h.ready
  putting := by
    unfold Executor.afterPost
    dsimp only
    split
    · simp [he, h.putting]
    · exact h.putting
  worker := h.worker

/-- A section that neither schedules the dispatcher nor brings an event. -/
theorem Idle.quiet (h : Idle s d) {r : PostResult V} (hr : r.schedule = false)
    (hevents : r.dispatcher.events = []) : Idle (s.afterPost d r) d where
  events := by simpa [Executor.afterPost] using hevents
  ready := h.ready
  putting := by simpa [Executor.afterPost, hr] using h.putting
  worker := h.worker

/-- A pool thread goes on with another dispatcher. -/
theorem Idle.advance (h : Idle s d) {w : Fin 2} {e : D} {next : Dispatcher V}
    {worker : Worker D V} (he : d ≠ e) (hworker : worker.token ≠ some d) :
    Idle (s.advance w e next worker) d where
  events := by simpa [Executor.advance, he] using h.events
  ready := h.ready
  putting := h.putting
  worker v := by
    by_cases hv : v = w
    · subst hv
      simpa [Executor.advance] using hworker
    · simpa [Executor.advance, hv] using h.worker v

/-- **A dispatcher without a token stays so** unless it is posted to. -/
theorem idle_step {a : ExecutorAction D V} (h : Idle s d) (hstep : s.step a = some t)
    (ha : a.postsTo ≠ some d) : Idle t d := by
  cases a with
  | post e event latest =>
      obtain rfl := Option.some.inj hstep
      exact h.afterPost fun he => ha (he ▸ rfl)
  | postNativeTask e task =>
      obtain ⟨r, -, rfl⟩ := Option.map_eq_some_iff.mp hstep
      exact h.afterPost fun he => ha (he ▸ rfl)
  | close e =>
      obtain rfl := Option.some.inj hstep
      by_cases he : d = e
      · subst he
        exact h.quiet rfl h.events
      · exact h.afterPost he
  | discard e =>
      obtain rfl := Option.some.inj hstep
      by_cases he : d = e
      · subst he
        exact h.quiet rfl (by simp [Dispatcher.discard, h.events])
      · exact h.afterPost he
  | put e =>
      obtain ⟨hmem, rfl⟩ := put_cases hstep
      have he : d ≠ e := fun he => h.putting (he ▸ hmem)
      refine ⟨h.events, ?_, fun hd => h.putting (List.mem_of_mem_erase hd), h.worker⟩
      simp [h.ready, he]
  | get w =>
      obtain ⟨e, ready, hw, hready, rfl⟩ := get_cases hstep
      have hd := h.ready
      rw [hready, List.mem_cons, not_or] at hd
      refine ⟨h.events, hd.2, h.putting, fun v => ?_⟩
      by_cases hv : v = w
      · subst hv
        simpa using fun he : e = d => hd.1 he.symm
      · simpa [hv] using h.worker v
  | drainBegin w =>
      obtain ⟨e, hw, hcases⟩ := drainBegin_cases hstep
      have he : d ≠ e := fun he => h.worker w (by rw [hw, he]; rfl)
      have hne : ¬ e = d := fun h => he h.symm
      rcases hcases with ⟨-, rfl⟩ | ⟨event, events, -, rfl⟩
      · exact h.advance he (by simp)
      · exact h.advance he (by simpa using hne)
  | drainEnd w =>
      obtain ⟨e, event, hw, rfl⟩ := drainEnd_cases hstep
      have he : d ≠ e := fun he => h.worker w (by rw [hw, he]; rfl)
      have hne : ¬ e = d := fun h => he h.symm
      refine h.advance he ?_
      split
      · simpa using hne
      · simp
  | reschedule w =>
      obtain ⟨e, hw, rfl⟩ := reschedule_cases hstep
      have he : d ≠ e := fun he => h.worker w (by rw [hw, he]; rfl)
      refine ⟨h.events, ?_, h.putting, ?_⟩
      · simp [h.ready, he]
      · intro v
        by_cases hv : v = w
        · subst hv
          simp
        · simpa [hv] using h.worker v

end Executor

namespace NativeTasks

variable {D ι : Type}

/-! ## The line of a dispatcher -/

/-- The task has been accepted by `d`, and nobody has run it. -/
structure Pending (task : NativeTask D ι) (d : D) : Prop where
  accepted : task.accepted = true
  function : task.function = true
  dispatcher : task.dispatcher = some d

/-- Pool thread `w` has taken `event` out of the queue of `d`, and not yet run it. -/
def Taken (s : NativeTasks D ι) (w : Fin 2) (d : D) (event : Event (List PyValue)) : Prop :=
  s.pool.worker w = .running d event ∧ s.runs w = .before

/-- **The line of `d`**: what has been accepted is what has been run, then what a pool thread has
taken, then the queue. -/
structure Lined (s : NativeTasks D ι) (d : D) (p q : List ℕ) : Prop where
  accepted : s.accepted d = s.ran d ++ (p ++ q)
  events : (s.pool.dispatchers d).events = q.map taskEvent
  nodup : (p ++ q).Nodup
  mem : ∀ n, n ∈ p ++ q ↔ Pending (s.task n) d
  popped : ∀ w event, Taken s w d event → ∃ n, p = [n] ∧ event = taskEvent n
  taken : ∀ n ∈ p, ∃ w, Taken s w d (taskEvent n)

/-- A step that does not touch the line. -/
theorem Lined.congr {s t : NativeTasks D ι} {d : D} {p q : List ℕ} (h : Lined s d p q)
    (haccepted : t.accepted d = s.accepted d) (hran : t.ran d = s.ran d)
    (hevents : (t.pool.dispatchers d).events = (s.pool.dispatchers d).events)
    (hpending : ∀ n, Pending (t.task n) d ↔ Pending (s.task n) d)
    (htaken : ∀ w event, Taken t w d event ↔ Taken s w d event) : Lined t d p q where
  accepted := by rw [haccepted, hran, h.accepted]
  events := hevents.trans h.events
  nodup := h.nodup
  mem n := (h.mem n).trans (hpending n).symm
  popped w event hw := h.popped w event ((htaken w event).mp hw)
  taken n hn := by
    obtain ⟨w, hw⟩ := h.taken n hn
    exact ⟨w, (htaken w _).mpr hw⟩

/-- A freed dispatcher: nobody refers to it, and its queue is empty. -/
structure Released (s : NativeTasks D ι) (d : D) : Prop where
  idle : Executor.Idle s.pool d
  holding : s.holding d = []

/-- **The invariant.** -/
structure Sound [DecidableEq D] (s : NativeTasks D ι) : Prop where
  phases : Executor.Phases s.pool
  life : Life s
  lined : ∀ d, ∃ p q, Lined s d p q
  freed : ∀ d, s.freed d = true → Released s d

section Facts

variable [DecidableEq D]

/-- What a pool thread has taken is accepted and not yet run. -/
theorem Sound.taken {s : NativeTasks D ι} (hs : Sound s) {w : Fin 2} {n : ℕ}
    (hw : takenTask (s.pool.worker w) = some n) (hbefore : s.runs w = .before) :
    ∃ d, s.pool.worker w = .running d (taskEvent n) ∧ Pending (s.task n) d := by
  cases hrun : s.pool.worker w with
  | running d event =>
      obtain ⟨p, q, hline⟩ := hs.lined d
      obtain ⟨m, hp, rfl⟩ := hline.popped w event ⟨hrun, hbefore⟩
      obtain rfl : m = n := by
        rw [hrun] at hw
        exact Option.some.inj hw
      exact ⟨d, rfl, (hline.mem m).mp (by simp [hp])⟩
  | _ =>
      rw [hrun] at hw
      cases hw

/-- **A pending task is held**, by the queue of its dispatcher or by a pool thread. -/
theorem Sound.held {s : NativeTasks D ι} (hs : Sound s) {n : ℕ} {d : D}
    (hn : Pending (s.task n) d) : s.held n = true := by
  obtain ⟨p, q, hline⟩ := hs.lined d
  unfold NativeTasks.held
  dsimp only
  rw [hn.dispatcher]
  simp only [Bool.or_eq_true, Bool.and_eq_true, Bool.not_eq_true', decide_eq_true_eq]
  rcases List.mem_append.mp ((hline.mem n).mpr hn) with hp | hq
  · obtain ⟨w, hw, -⟩ := hline.taken n hp
    exact .inr ⟨w, by rw [hw]; rfl⟩
  · refine .inl (.inr ⟨?_, ?_⟩)
    · cases hfreed : s.freed d with
      | false => rfl
      | true =>
          have hevents := (hs.freed d hfreed).idle.events
          rw [hline.events, List.map_eq_nil_iff] at hevents
          rw [hevents] at hq
          cases hq
    · rw [hline.events]
      simp only [List.any_map, List.any_eq_true]
      exact ⟨n, hq, by simp⟩

theorem invoke_ran (s : NativeTasks D ι) (n : ℕ) (d : D) :
    (s.invoke n).ran d = if (s.task n).accepted = true ∧ (s.task n).dispatcher = some d then
      s.ran d ++ [n] else s.ran d := rfl

theorem invoke_task (s : NativeTasks D ι) (n m : ℕ) :
    (s.invoke n).task m = if m = n then
      { s.task n with function := false, invocations := (s.task n).invocations + 1 }
      else s.task m := by
  by_cases hm : m = n
  · subst hm
    simp [invoke, modify]
  · simp [invoke, modify, hm]

/-- A task that is not pending anywhere, and will not be: whoever runs it leaves the line. -/
theorem Lined.invoke {s : NativeTasks D ι} {d : D} {p q : List ℕ} (h : Lined s d p q) {n : ℕ}
    (hn : (s.task n).accepted = false) : Lined (s.invoke n) d p q := by
  refine h.congr rfl ?_ rfl ?_ fun w event => Iff.rfl
  · rw [invoke_ran, if_neg (by simp [hn])]
  · intro m
    rw [invoke_task]
    by_cases hm : m = n
    · rw [if_pos hm, hm]
      exact ⟨fun h => absurd h.function (by simp), fun h => absurd h.accepted (by simp [hn])⟩
    · rw [if_neg hm]

/-- A change of one task that keeps it pending, or not. -/
theorem Lined.modify {s : NativeTasks D ι} {d : D} {p q : List ℕ} (h : Lined s d p q) (n : ℕ)
    {f : NativeTask D ι → NativeTask D ι}
    (hf : Pending (f (s.task n)) d ↔ Pending (s.task n) d) : Lined (s.modify n f) d p q := by
  refine h.congr rfl rfl rfl (fun m => ?_) fun w event => Iff.rfl
  by_cases hm : m = n
  · subst hm
    simpa [NativeTasks.modify] using hf
  · simp [NativeTasks.modify, hm]

end Facts

/-! ## The steps, one by one -/

section Steps

variable [DecidableEq D] [DecidableEq ι] {s t : NativeTasks D ι} {i : ι} {d : D} {p q : List ℕ}

/-- The Runtime hands a task over: a new one, which no dispatcher has accepted. -/
theorem lined_dispatch {e : D} {gil : Bool} (hs : Life s) (h : Lined s d p q)
    (hstep : s.dispatchStep i e gil = some t) : Lined t d p q := by
  unfold dispatchStep at hstep
  have hfresh := hs.fresh s.made (Nat.le_refl _)
  split at hstep
  next =>
    split at hstep
    · cases hstep
    · have hmade : Lined { s with
          made := s.made + 1
          task := Function.update s.task s.made { dispatcher := some e, caller := some i } }
          d p q := by
        refine h.congr rfl rfl rfl (fun m => ?_) fun w event => Iff.rfl
        by_cases hm : m = s.made
        · rw [hm, hfresh]
          simp only [Function.update_self]
          exact ⟨fun h => absurd h.accepted (by simp), fun h => absurd h.accepted (by simp)⟩
        · simp [hm]
      cases gil with
      | true =>
          obtain rfl := Option.some.inj hstep
          exact hmade.congr rfl rfl rfl (fun _ => Iff.rfl) fun _ _ => Iff.rfl
      | false =>
          obtain rfl := Option.some.inj hstep
          refine (hmade.invoke (n := s.made) ?_).congr rfl rfl rfl (fun _ => Iff.rfl)
            fun _ _ => Iff.rfl
          simp
  next => cases hstep

/-- The capsule is made, or the function is called without one. -/
theorem lined_allocate {ok : Bool} (hs : Life s) (h : Lined s d p q)
    (hstep : s.allocateStep i ok = some t) : Lined t d p q := by
  unfold allocateStep at hstep
  split at hstep
  next n hcall =>
    have hct := (hs.call i n (by rw [hcall]; rfl)).2
    rw [hcall] at hct
    have haccepted := ((hs.ok n).absent hct.2.1).2.1
    cases ok with
    | true =>
        obtain rfl := Option.some.inj hstep
        have hline : Lined (s.modify n fun task =>
            { task with function := true, capsule := .live, frame := true }) d p q :=
          h.modify n ⟨fun h => absurd h.accepted (by simp [haccepted]),
            fun h => absurd h.accepted (by simp [haccepted])⟩
        exact hline.congr rfl rfl rfl (fun _ => Iff.rfl) fun _ _ => Iff.rfl
    | false =>
        obtain rfl := Option.some.inj hstep
        exact (h.invoke haccepted).congr rfl rfl rfl (fun _ => Iff.rfl) fun _ _ => Iff.rfl
  next => cases hstep

/-- The sink looks the dispatcher up. -/
theorem lined_lookUp {reached : Bool} (h : Lined s d p q)
    (hstep : s.lookUpStep i reached = some t) : Lined t d p q := by
  unfold lookUpStep at hstep
  split at hstep
  · split at hstep
    · split at hstep
      · obtain rfl := Option.some.inj hstep
        exact h.congr rfl rfl rfl (fun _ => Iff.rfl) fun _ _ => Iff.rfl
      · obtain rfl := Option.some.inj hstep
        exact h.congr rfl rfl rfl (fun _ => Iff.rfl) fun _ _ => Iff.rfl
    · cases hstep
  · cases hstep

/-- **`post_native_task`** puts the task at the end of the line. -/
theorem lined_post (hs : Life s) (h : Lined s d p q) (hstep : s.postStep i = some t) :
    ∃ q', Lined t d p q' := by
  unfold postStep at hstep
  split at hstep
  next e n hcall =>
    have hct := (hs.call i n (by rw [hcall]; rfl)).2
    rw [hcall] at hct
    obtain ⟨-, hway, hdispatcher⟩ := hct
    obtain ⟨r, hr, rfl⟩ := Option.map_eq_some_iff.mp hstep
    obtain ⟨pool, hpool, rfl⟩ := Option.map_eq_some_iff.mp hr
    obtain ⟨result, hresult, rfl⟩ := Option.map_eq_some_iff.mp hpool
    have hother : ∀ m, m ≠ e → ((s.pool.afterPost e result).dispatchers m).events =
        (s.pool.dispatchers m).events := fun m hm => by simp [Executor.afterPost, hm]
    unfold Dispatcher.postNativeTask at hresult
    dsimp only
    split at hresult
    next hclosed =>
      -- refused: the queue is as before
      obtain rfl := Option.some.inj hresult
      rw [if_pos hclosed]
      refine ⟨q, h.congr rfl rfl ?_ (fun _ => Iff.rfl) fun _ _ => Iff.rfl⟩
      by_cases hd : d = e
      · subst hd
        simp [goto, unhold, Executor.afterPost]
      · exact hother d hd
    next hopen =>
      split at hresult
      · cases hresult
      · obtain rfl := Option.some.inj hresult
        rw [if_neg hopen]
        have hnew : ∀ x, ¬ Pending (s.task n) x := by
          intro x h
          simpa [hway.accepted] using h.accepted
        by_cases hd : d = e
        · subst hd
          have hmem : n ∉ p ++ q := fun hn => hnew d ((h.mem n).mp hn)
          refine ⟨q ++ [n], ?_, ?_, ?_, ?_, h.popped, h.taken⟩
          · simp [accept, NativeTasks.modify, goto, unhold, h.accepted]
          · simp [accept, NativeTasks.modify, goto, unhold, Executor.afterPost, h.events, taskEvent]
          · rw [← List.append_assoc]
            exact List.nodup_append.mpr ⟨h.nodup, by simp, by
              rintro a ha b hb rfl
              obtain rfl := List.mem_singleton.mp hb
              exact hmem ha⟩
          · intro m
            rw [← List.append_assoc, List.mem_append, h.mem m, List.mem_singleton]
            by_cases hm : m = n
            · subst hm
              simp only [or_true, true_iff]
              exact ⟨by simp [accept, NativeTasks.modify],
                by simpa [accept, NativeTasks.modify, goto, unhold] using hway.function,
                by simpa [accept, NativeTasks.modify, goto, unhold] using hdispatcher⟩
            · simp [accept, NativeTasks.modify, goto, unhold, hm]
        · refine ⟨q, h.congr ?_ rfl (hother d hd) ?_ fun _ _ => Iff.rfl⟩
          · simp [accept, NativeTasks.modify, goto, unhold, hd]
          · intro m
            by_cases hm : m = n
            · subst hm
              refine ⟨fun hp => ?_, fun hp => absurd hp (hnew d)⟩
              have hsome : (s.task m).dispatcher = some d := by
                simpa [accept, NativeTasks.modify, goto, unhold] using hp.dispatcher
              rw [hdispatcher] at hsome
              exact absurd (Option.some.inj hsome).symm hd
            · simp [accept, NativeTasks.modify, goto, unhold, hm]
  next => cases hstep

/-- `dispatch_callback_task` drops its reference. -/
theorem lined_release (h : Lined s d p q) (hstep : s.releaseStep i = some t) : Lined t d p q := by
  unfold releaseStep at hstep
  split at hstep
  next n _ =>
    obtain rfl := Option.some.inj hstep
    have hline : Lined (s.modify n fun task => { task with frame := false }) d p q :=
      h.modify n ⟨fun h => ⟨h.1, h.2, h.3⟩, fun h => ⟨h.1, h.2, h.3⟩⟩
    exact hline.congr rfl rfl rfl (fun _ => Iff.rfl) fun _ _ => Iff.rfl
  next => cases hstep

/-- **A pool thread runs the task it has taken**, the first one of the line. -/
theorem lined_run {w : Fin 2} (hs : Sound s) (h : Lined s d p q) (hstep : s.runStep w = some t) :
    ∃ p', Lined t d p' q := by
  unfold runStep at hstep
  split at hstep
  next e event hw hbefore =>
    obtain ⟨n, hn, rfl⟩ := Option.map_eq_some_iff.mp hstep
    obtain ⟨e', hw', hpending⟩ := hs.taken (by rw [hw]; exact hn) hbefore
    obtain ⟨rfl, rfl⟩ : e = e' ∧ event = taskEvent n := by
      rw [hw] at hw'
      simpa using hw'
    rw [if_pos hpending.function]
    have hwas : Taken s w e (taskEvent n) := ⟨hw, hbefore⟩
    have htaken : ∀ v x event, Taken ((s.invoke n).setRun w (.inside false)) v x event ↔
        v ≠ w ∧ Taken s v x event := by
      intro v x event
      by_cases hv : v = w
      · subst hv
        simp [Taken, setRun]
      · simp [Taken, setRun, hv, NativeTasks.invoke, NativeTasks.modify]
    by_cases hd : d = e
    · subst hd
      obtain ⟨m, rfl, hm⟩ := h.popped w _ hwas
      obtain rfl : m = n := by
        have heq := congrArg eventTask hm
        simpa using heq.symm
      have hnodup : m ∉ q := (List.nodup_cons.mp h.nodup).1
      refine ⟨[], ?_, h.events, (List.nodup_cons.mp h.nodup).2, ?_, ?_, by simp⟩
      · show (s.accepted d) = (s.invoke m).ran d ++ ([] ++ q)
        rw [invoke_ran, if_pos ⟨hpending.accepted, hpending.dispatcher⟩, h.accepted]
        simp
      · intro k
        show k ∈ [] ++ q ↔ Pending ((s.invoke m).task k) d
        rw [invoke_task]
        by_cases hk : k = m
        · rw [if_pos hk, hk]
          exact ⟨fun h => absurd h hnodup, fun h => absurd h.function (by simp)⟩
        · rw [if_neg hk, ← h.mem k]
          simp [hk]
      · intro v event hv
        obtain ⟨hvw, hv⟩ := (htaken v d event).mp hv
        exact absurd (hs.phases.unique (d := d) (by simp [hv.1]) (by simp [hw])) hvw
    · refine ⟨p, h.congr rfl ?_ rfl ?_ ?_⟩
      · show (s.invoke n).ran d = s.ran d
        rw [invoke_ran, if_neg]
        rintro ⟨-, hdispatcher⟩
        rw [hpending.dispatcher] at hdispatcher
        exact hd (Option.some.inj hdispatcher).symm
      · intro k
        show Pending ((s.invoke n).task k) d ↔ _
        rw [invoke_task]
        by_cases hk : k = n
        · rw [if_pos hk, hk]
          refine ⟨fun h => absurd h.function (by simp), fun hp => ?_⟩
          have hdispatcher := hp.dispatcher
          rw [hpending.dispatcher] at hdispatcher
          exact absurd (Option.some.inj hdispatcher).symm hd
        · rw [if_neg hk]
      · intro v event
        rw [htaken]
        refine ⟨And.right, fun hv => ⟨?_, hv⟩⟩
        rintro rfl
        have heq := hv.1
        rw [hw] at heq
        simp only [Worker.running.injEq] at heq
        exact hd heq.1.symm
  next => cases hstep

/-- **A destructor** finds no task of the line: those are held. -/
theorem lined_destroy {n : ℕ} (hs : Sound s) (h : Lined s d p q)
    (hstep : s.destroyStep n = some t) : Lined t d p q := by
  unfold destroyStep at hstep
  split at hstep
  next hn =>
    have hnot : ∀ x, ¬ Pending (s.task n) x := by
      intro x hx
      simp [hs.held hx] at hn
    split at hstep
    next hfunction =>
      obtain rfl := Option.some.inj hstep
      have hfree : ¬ ((s.task n).accepted = true ∧ (s.task n).dispatcher = some d) := fun hx =>
        hnot d ⟨hx.1, hfunction, hx.2⟩
      refine h.congr rfl ?_ rfl ?_ fun _ _ => Iff.rfl
      · show (s.invoke n).ran d = s.ran d
        rw [invoke_ran, if_neg hfree]
      · intro k
        by_cases hk : k = n
        · subst hk
          refine ⟨fun hx => absurd hx.function ?_, fun hx => absurd hx (hnot d)⟩
          simp [NativeTasks.modify, NativeTasks.invoke]
        · simp [NativeTasks.modify, NativeTasks.invoke, hk]
    next =>
      obtain rfl := Option.some.inj hstep
      exact h.modify n ⟨fun h => ⟨h.1, h.2, h.3⟩, fun h => ⟨h.1, h.2, h.3⟩⟩
  next => cases hstep

/-- A runner goes on in its function, or returns from it. -/
theorem lined_runner {r : Runner ι} {n : ℕ} {callback : Bool} (h : Lined s d p q)
    (hr : s.inFunction r = some (n, callback)) (callback' : Bool) :
    Lined (s.setCallback n callback' r) d p q ∧ Lined (s.leave r) d p q := by
  have hcapsule : ∀ capsule, Lined (s.modify n fun task => { task with capsule := capsule })
      d p q := fun capsule => h.modify n ⟨fun h => ⟨h.1, h.2, h.3⟩, fun h => ⟨h.1, h.2, h.3⟩⟩
  rcases inFunction_cases hr with ⟨w, rfl, -, hrun⟩ | ⟨i, rfl, -⟩ | ⟨rfl, -⟩
  · -- the pool thread has begun with its task, and does not go back
    have htaken : ∀ run, run ≠ .before → ∀ v event, Taken (s.setRun w run) v d event ↔
        Taken s v d event := by
      intro run hne v event
      by_cases hv : v = w
      · subst hv
        simp [Taken, setRun, hrun, hne]
      · simp [Taken, setRun, hv]
    exact ⟨h.congr rfl rfl rfl (fun _ => Iff.rfl) (htaken _ (by simp)),
      h.congr rfl rfl rfl (fun _ => Iff.rfl) (htaken _ (by simp))⟩
  · exact ⟨h.congr rfl rfl rfl (fun _ => Iff.rfl) fun _ _ => Iff.rfl,
      h.congr rfl rfl rfl (fun _ => Iff.rfl) fun _ _ => Iff.rfl⟩
  · exact ⟨hcapsule _, hcapsule _⟩

/-- A step of the pool that moves no event and no pool thread in a task. -/
theorem lined_pool {pool : Executor D (List PyValue)} (h : Lined s d p q)
    (hevents : (pool.dispatchers d).events = (s.pool.dispatchers d).events)
    (hworker : ∀ w event, pool.worker w = .running d event ∧ s.runs w = .before ↔
      Taken s w d event) : Lined { s with pool := pool } d p q :=
  h.congr rfl rfl hevents (fun _ => Iff.rfl) hworker

omit [DecidableEq ι] in
/-- What the pool threads have taken after thread `w` has taken `event` out of the queue of `e`. -/
theorem taken_drain (s : NativeTasks D ι) (w : Fin 2) (e : D) (event : Event (List PyValue))
    (next : Dispatcher (List PyValue)) (v : Fin 2) (x : D) (event' : Event (List PyValue)) :
    Taken ({ s with pool := s.pool.advance w e next (.running e event) }.setRun w .before)
      v x event' ↔ (v = w ∧ x = e ∧ event' = event) ∨ (v ≠ w ∧ Taken s v x event') := by
  by_cases hv : v = w
  · subst hv
    simp only [Taken, setRun, Executor.advance, Function.update_self, Worker.running.injEq,
      and_true, true_and, ne_eq, not_true_eq_false, false_and, or_false]
    exact ⟨fun h => ⟨h.1.symm, h.2.symm⟩, fun h => ⟨h.1.symm, h.2.symm⟩⟩
  · simp [Taken, setRun, Executor.advance, hv]

/-- **The first section of `_drain_one`** takes the first task of the queue. -/
theorem lined_drain {w : Fin 2} (hs : Sound s) (h : Lined s d p q)
    (hstep : s.step (.drainBegin w) = some t) : ∃ p' q', Lined t d p' q' := by
  obtain ⟨r, hr, rfl⟩ := Option.map_eq_some_iff.mp hstep
  obtain ⟨pool, hpool, rfl⟩ := Option.map_eq_some_iff.mp hr
  obtain ⟨e, hw, ⟨hev, rfl⟩ | ⟨event, events, hev, rfl⟩⟩ := Executor.drainBegin_cases hpool
  · refine ⟨p, q, h.congr rfl rfl ?_ (fun _ => Iff.rfl) ?_⟩
    · by_cases hd : d = e
      · subst hd
        simp [setRun, Executor.advance]
      · simp [setRun, Executor.advance, hd]
    · intro v event
      by_cases hv : v = w
      · subst hv
        simp [Taken, setRun, Executor.advance, hw]
      · simp [Taken, setRun, Executor.advance, hv]
  · have htaken := taken_drain s w e event
    by_cases hd : d = e
    · subst hd
      -- this thread holds the token, so that no other has taken a task of `d`
      have hidle : ∀ v event', ¬ Taken s v d event' := by
        intro v event' hv
        have hx := (hs.phases.executing d).mpr ⟨v, by simp [hv.1]⟩
        rw [hs.phases.not_executing hw] at hx
        cases hx
      have hp : p = [] := by
        cases p with
        | nil => rfl
        | cons n _ =>
            obtain ⟨v, hv⟩ := h.taken n List.mem_cons_self
            exact absurd hv (hidle v _)
      subst hp
      rw [h.events] at hev
      obtain ⟨n, q', rfl, rfl, rfl⟩ := List.map_eq_cons_iff.mp hev
      refine ⟨[n], q', ?_, ?_, h.nodup, h.mem, ?_, ?_⟩
      · exact h.accepted
      · simp [setRun, Executor.advance]
      · intro v event' hv
        rcases (htaken _ v d event').mp hv with ⟨-, -, rfl⟩ | ⟨-, hv⟩
        · exact ⟨n, rfl, rfl⟩
        · exact absurd hv (hidle v event')
      · intro m hm
        obtain rfl := List.mem_singleton.mp hm
        exact ⟨w, (htaken _ w d _).mpr (.inl ⟨rfl, rfl, rfl⟩)⟩
    · refine ⟨p, q, h.congr rfl rfl ?_ (fun _ => Iff.rfl) ?_⟩
      · simp [setRun, Executor.advance, hd]
      · intro v event'
        rw [htaken]
        refine ⟨?_, fun hv => .inr ⟨?_, hv⟩⟩
        · intro hv
          rcases hv with ⟨-, hx, -⟩ | ⟨-, hv⟩
          · exact absurd hx hd
          · exact hv
        · rintro rfl
          have heq := hv.1
          rw [hw] at heq
          cases heq

/-! ## Every step -/

theorem setCallback_pool (s : NativeTasks D ι) (n : ℕ) (callback : Bool) (r : Runner ι) :
    (s.setCallback n callback r).pool = s.pool ∧ (s.setCallback n callback r).freed = s.freed ∧
      (s.setCallback n callback r).holding = s.holding := by
  cases r <;> exact ⟨rfl, rfl, rfl⟩

theorem leave_pool (s : NativeTasks D ι) (r : Runner ι) :
    (s.leave r).pool = s.pool ∧ (s.leave r).freed = s.freed ∧
      (s.leave r).holding = s.holding := by
  cases r <;> exact ⟨rfl, rfl, rfl⟩

/-- **What a step does to the pool and to the references**: it leaves the pool alone or is one of
its steps, which posts only for a thread in `post_native_task`; and a freed dispatcher gets no
reference. -/
structure Moves (s : NativeTasks D ι) (a : TaskAction D ι) (t : NativeTasks D ι) : Prop where
  pool : t.pool = s.pool ∨ ∃ x, s.pool.step x = some t.pool ∧
    ∀ d, x.postsTo = some d → ∃ i n, s.calls i = .post d n
  freed : ∀ d, t.freed d = true → s.freed d = true ∨ a = .free d
  holding : ∀ d, s.freed d = true → s.holding d = [] → t.holding d = []

omit [DecidableEq ι] in
/-- A step that leaves the pool and the references alone. -/
theorem Moves.nothing {a : TaskAction D ι} (hpool : t.pool = s.pool) (hfreed : t.freed = s.freed)
    (hholding : t.holding = s.holding) : Moves s a t where
  pool := .inl hpool
  freed d hd := .inl (hfreed ▸ hd)
  holding d _ hd := by rw [hholding, hd]

omit [DecidableEq ι] in
/-- A step of the pool alone, which posts nothing. -/
theorem Moves.poolStep {a : TaskAction D ι} {x : ExecutorAction D (List PyValue)}
    (h : s.poolStep x = some t) (hx : x.postsTo = none) : Moves s a t := by
  obtain ⟨pool, hstep, rfl⟩ := Option.map_eq_some_iff.mp h
  exact ⟨.inr ⟨x, hstep, by simp [hx]⟩, fun _ hd => .inl hd, fun _ _ hd => hd⟩

omit [DecidableEq ι] in
/-- A live dispatcher gets a reference. -/
theorem Moves.hold {a : TaskAction D ι} (h : Moves s a t) (hd : s.freed d = false) :
    Moves s a (t.hold i d) where
  pool := h.pool
  freed := h.freed
  holding e he hnil := by
    have hne : e ≠ d := by
      rintro rfl
      rw [hd] at he
      cases he
    simpa [NativeTasks.hold, hne] using h.holding e he hnil

/-- A reference is dropped. -/
theorem Moves.unhold {a : TaskAction D ι} (h : Moves s a t) (d : D) :
    Moves s a (t.unhold i d) where
  pool := h.pool
  freed := h.freed
  holding e he hnil := by
    have hnil := h.holding e he hnil
    by_cases hed : e = d
    · subst hed
      simp [NativeTasks.unhold, hnil]
    · simpa [NativeTasks.unhold, hed] using hnil

/-- A step on something else. -/
theorem Moves.congr {t' : NativeTasks D ι} {a : TaskAction D ι} (h : Moves s a t)
    (hpool : t'.pool = t.pool) (hfreed : t'.freed = t.freed) (hholding : t'.holding = t.holding) :
    Moves s a t' :=
  ⟨by rw [hpool]; exact h.pool, fun d hd => h.freed d (hfreed ▸ hd),
    fun d hd hnil => by rw [hholding]; exact h.holding d hd hnil⟩

theorem step_moves {a : TaskAction D ι} (h : s.step a = some t) : Moves s a t := by
  cases a with
  | dispatch i d gil =>
      simp only [step, dispatchStep] at h
      split at h
      · split at h
        · cases h
        · cases gil <;> obtain rfl := Option.some.inj h <;> exact .nothing rfl rfl rfl
      · cases h
  | allocate i ok =>
      simp only [step, allocateStep] at h
      split at h
      · cases ok <;> obtain rfl := Option.some.inj h <;> exact .nothing rfl rfl rfl
      · cases h
  | lookUp i reached =>
      simp only [step, lookUpStep] at h
      split at h
      · split at h
        next d _ =>
          split at h
          next hreached =>
            obtain rfl := Option.some.inj h
            have hfreed : reached = true ∧ s.freed d = false := by simpa using hreached
            have hself : Moves s (.lookUp i reached) s := .nothing rfl rfl rfl
            exact (hself.hold hfreed.2).congr rfl rfl rfl
          next =>
            obtain rfl := Option.some.inj h
            exact .nothing rfl rfl rfl
        next => cases h
      · cases h
  | post i =>
      simp only [step, postStep] at h
      split at h
      next d n hcall =>
        obtain ⟨r, hr, rfl⟩ := Option.map_eq_some_iff.mp h
        obtain ⟨pool, hstep, rfl⟩ := Option.map_eq_some_iff.mp hr
        have hposts : ∀ e, (ExecutorAction.postNativeTask d [PyValue.object n]).postsTo = some e →
            ∃ i n, s.calls i = .post e n := fun e he => by
          obtain rfl := Option.some.inj he
          exact ⟨i, n, hcall⟩
        have hpool : Moves s (.post i) { s with pool := pool } :=
          ⟨.inr ⟨_, hstep, hposts⟩, fun _ hd => .inl hd, fun _ _ hd => hd⟩
        split <;> exact (hpool.unhold d).congr rfl rfl rfl
      next => cases h
  | release i =>
      simp only [step, releaseStep] at h
      split at h
      · obtain rfl := Option.some.inj h
        exact .nothing rfl rfl rfl
      · cases h
  | run w =>
      simp only [step, runStep] at h
      split at h
      · obtain ⟨n, -, rfl⟩ := Option.map_eq_some_iff.mp h
        split <;> exact .nothing rfl rfl rfl
      · cases h
  | destroy n =>
      simp only [step, destroyStep] at h
      split at h
      · split at h <;> obtain rfl := Option.some.inj h <;> exact .nothing rfl rfl rfl
      · cases h
  | callback r =>
      simp only [step, callbackStep] at h
      split at h
      next n _ =>
        split at h
        · split at h
          · cases h
          · obtain rfl := Option.some.inj h
            obtain ⟨hpool, hfreed, hholding⟩ := setCallback_pool s n true r
            exact .nothing hpool hfreed hholding
        · cases h
      next => cases h
  | callbackEnd r =>
      simp only [step, callbackEndStep] at h
      split at h
      next n _ =>
        obtain rfl := Option.some.inj h
        obtain ⟨hpool, hfreed, hholding⟩ := setCallback_pool s n false r
        exact .nothing hpool hfreed hholding
      next => cases h
  | functionEnd r =>
      simp only [step, functionEndStep] at h
      split at h
      · obtain rfl := Option.some.inj h
        obtain ⟨hpool, hfreed, hholding⟩ := leave_pool s r
        exact .nothing hpool hfreed hholding
      · cases h
  | close i d =>
      simp only [step, closeStep] at h
      split at h
      · split at h
        next => cases h
        next hfreed =>
          obtain ⟨r, hr, rfl⟩ := Option.map_eq_some_iff.mp h
          have hpool : Moves s (.close i d) r := .poolStep hr rfl
          exact (hpool.hold (by simpa using hfreed)).congr rfl rfl rfl
      · cases h
  | wake i =>
      simp only [step, wakeStep] at h
      split at h
      · split at h
        · obtain rfl := Option.some.inj h
          exact .nothing rfl rfl rfl
        · cases h
      · cases h
  | nativeClose i code =>
      simp only [step, nativeCloseStep] at h
      split at h
      next d _ =>
        obtain rfl := Option.some.inj h
        have hself : Moves s (.nativeClose i code) { s with
            destroyed := if code = 0 then Function.update s.destroyed d true else s.destroyed } :=
          .nothing rfl rfl rfl
        exact (hself.unhold d).congr rfl rfl rfl
      next => cases h
  | discard d =>
      simp only [step] at h
      split at h
      · cases h
      · exact .poolStep h rfl
  | handlerGone d =>
      obtain rfl := Option.some.inj h
      exact .nothing rfl rfl rfl
  | free d =>
      simp only [step, freeStep] at h
      split at h
      · obtain rfl := Option.some.inj h
        refine ⟨.inl rfl, fun e he => ?_, fun _ _ hnil => hnil⟩
        by_cases hed : e = d
        · exact .inr (hed ▸ rfl)
        · exact .inl (by simpa [hed] using he)
      · cases h
  | put d => exact .poolStep h rfl
  | get w => exact .poolStep h rfl
  | drainBegin w =>
      obtain ⟨r, hr, rfl⟩ := Option.map_eq_some_iff.mp h
      have hpool : Moves s (.drainBegin w) r := .poolStep hr rfl
      exact hpool.congr rfl rfl rfl
  | drainEnd w =>
      simp only [step] at h
      split at h
      · exact .poolStep h rfl
      · cases h
  | reschedule w => exact .poolStep h rfl

omit [DecidableEq ι] in
/-- The pool keeps its invariant. -/
theorem Moves.phases {a : TaskAction D ι} (h : Moves s a t) (hs : Executor.Phases s.pool) :
    Executor.Phases t.pool := by
  rcases h.pool with heq | ⟨x, hx, -⟩
  · exact heq ▸ hs
  · exact Executor.phases_step hs hx

/-- A freed dispatcher is released, and stays so. -/
theorem released_step {a : TaskAction D ι} (hs : Sound s) (h : s.step a = some t) (d : D)
    (hd : t.freed d = true) : Released t d := by
  have hmoves := step_moves h
  by_cases hfreed : s.freed d = true
  · obtain ⟨hidle, hnil⟩ := hs.freed d hfreed
    refine ⟨?_, hmoves.holding d hfreed hnil⟩
    rcases hmoves.pool with heq | ⟨x, hx, hposts⟩
    · rw [heq]
      exact hidle
    · refine Executor.idle_step hidle hx ?_
      intro hpost
      obtain ⟨i, n, hcall⟩ := hposts d hpost
      have hmem := hs.life.holds i d (by rw [hcall]; rfl)
      rw [hnil] at hmem
      cases hmem
  · -- it is freed by this step
    obtain rfl := (hmoves.freed d hd).resolve_left hfreed
    simp only [step, freeStep] at h
    split at h
    next hfree =>
      obtain rfl := Option.some.inj h
      obtain ⟨-, hnil, hready, hputting, hworker⟩ := hfree
      exact ⟨hs.phases.idle hready hputting hworker, hnil⟩
    next => cases h

/-- **Every step keeps the line of every dispatcher.** -/
theorem lined_step {a : TaskAction D ι} (hs : Sound s) (h : s.step a = some t) (d : D) :
    ∃ p q, Lined t d p q := by
  obtain ⟨p, q, hline⟩ := hs.lined d
  have hplain : ∀ {x pool}, s.pool.step x = some pool →
      (pool.dispatchers d).events = (s.pool.dispatchers d).events → pool.worker = s.pool.worker →
      Lined { s with pool := pool } d p q := fun {x pool} _ hevents hworker =>
    lined_pool hline hevents fun w event => by rw [hworker]; rfl
  cases a with
  | dispatch i e gil => exact ⟨p, q, lined_dispatch hs.life hline h⟩
  | allocate i ok => exact ⟨p, q, lined_allocate hs.life hline h⟩
  | lookUp i reached => exact ⟨p, q, lined_lookUp hline h⟩
  | post i =>
      obtain ⟨q', hline'⟩ := lined_post hs.life hline h
      exact ⟨p, q', hline'⟩
  | release i => exact ⟨p, q, lined_release hline h⟩
  | run w =>
      obtain ⟨p', hline'⟩ := lined_run hs hline h
      exact ⟨p', q, hline'⟩
  | destroy n => exact ⟨p, q, lined_destroy hs hline h⟩
  | callback r =>
      simp only [step, callbackStep] at h
      split at h
      next n hr =>
        split at h
        · split at h
          · cases h
          · obtain rfl := Option.some.inj h
            exact ⟨p, q, (lined_runner hline hr true).1⟩
        · cases h
      next => cases h
  | callbackEnd r =>
      simp only [step, callbackEndStep] at h
      split at h
      next n hr =>
        obtain rfl := Option.some.inj h
        exact ⟨p, q, (lined_runner hline hr false).1⟩
      next => cases h
  | functionEnd r =>
      simp only [step, functionEndStep] at h
      split at h
      next n hr =>
        obtain rfl := Option.some.inj h
        exact ⟨p, q, (lined_runner hline hr false).2⟩
      next => cases h
  | close i e =>
      simp only [step, closeStep] at h
      split at h
      · split at h
        · cases h
        · obtain ⟨r, hr, rfl⟩ := Option.map_eq_some_iff.mp h
          obtain ⟨pool, hpool, rfl⟩ := Option.map_eq_some_iff.mp hr
          obtain rfl : s.pool.afterPost e _ = pool := Option.some.inj hpool
          refine ⟨p, q, (hplain hpool ?_ rfl).congr rfl rfl rfl (fun _ => Iff.rfl)
            fun _ _ => Iff.rfl⟩
          by_cases hd : d = e
          · subst hd
            simp [Executor.afterPost, Dispatcher.close]
          · simp [Executor.afterPost, hd]
      · cases h
  | wake i =>
      simp only [step, wakeStep] at h
      split at h
      · split at h
        · obtain rfl := Option.some.inj h
          exact ⟨p, q, hline.congr rfl rfl rfl (fun _ => Iff.rfl) fun _ _ => Iff.rfl⟩
        · cases h
      · cases h
  | nativeClose i code =>
      simp only [step, nativeCloseStep] at h
      split at h
      · obtain rfl := Option.some.inj h
        exact ⟨p, q, hline.congr rfl rfl rfl (fun _ => Iff.rfl) fun _ _ => Iff.rfl⟩
      · cases h
  | discard e =>
      simp only [step] at h
      split at h
      · cases h
      · obtain ⟨pool, hpool, rfl⟩ := Option.map_eq_some_iff.mp h
        obtain rfl : s.pool.afterPost e _ = pool := Option.some.inj hpool
        refine ⟨p, q, hplain hpool ?_ rfl⟩
        by_cases hd : d = e
        · -- the queue holds nothing but tasks, and they stay
          subst hd
          have hall : ∀ event ∈ q.map taskEvent, event.kind = .nativeTask := by
            intro event hmem
            obtain ⟨n, -, rfl⟩ := List.mem_map.mp hmem
            rfl
          simp only [Executor.afterPost, Function.update_self, Dispatcher.discard, hline.events]
          exact List.filter_eq_self.mpr (by simpa using hall)
        · simp [Executor.afterPost, hd]
  | handlerGone e =>
      obtain rfl := Option.some.inj h
      exact ⟨p, q, hline.congr rfl rfl rfl (fun _ => Iff.rfl) fun _ _ => Iff.rfl⟩
  | free e =>
      simp only [step, freeStep] at h
      split at h
      · obtain rfl := Option.some.inj h
        exact ⟨p, q, hline.congr rfl rfl rfl (fun _ => Iff.rfl) fun _ _ => Iff.rfl⟩
      · cases h
  | put e =>
      obtain ⟨pool, hpool, rfl⟩ := Option.map_eq_some_iff.mp h
      obtain ⟨-, rfl⟩ := Executor.put_cases hpool
      exact ⟨p, q, hplain hpool rfl rfl⟩
  | get w =>
      obtain ⟨pool, hpool, rfl⟩ := Option.map_eq_some_iff.mp h
      obtain ⟨e, ready, hw, -, rfl⟩ := Executor.get_cases hpool
      refine ⟨p, q, lined_pool hline rfl fun v event => ?_⟩
      by_cases hv : v = w
      · subst hv
        simp [Taken, hw]
      · simp [Taken, hv]
  | drainBegin w => exact lined_drain hs hline h
  | drainEnd w =>
      simp only [step] at h
      split at h
      next hafter =>
        obtain ⟨pool, hpool, rfl⟩ := Option.map_eq_some_iff.mp h
        obtain ⟨e, event, hw, rfl⟩ := Executor.drainEnd_cases hpool
        refine ⟨p, q, lined_pool hline ?_ ?_⟩
        · by_cases hd : d = e
          · subst hd
            simp [Executor.advance, Dispatcher.drainEnd]
          · simp [Executor.advance, hd]
        · intro v event
          by_cases hv : v = w
          · subst hv
            simp [Taken, hafter]
          · simp [Taken, Executor.advance, hv]
      next => cases h
  | reschedule w =>
      obtain ⟨pool, hpool, rfl⟩ := Option.map_eq_some_iff.mp h
      obtain ⟨e, hw, rfl⟩ := Executor.reschedule_cases hpool
      refine ⟨p, q, lined_pool hline rfl fun v event => ?_⟩
      by_cases hv : v = w
      · subst hv
        simp [Taken, hw]
      · simp [Taken, hv]

/-- **The step lemma.** -/
theorem sound_step {a : TaskAction D ι} (hs : Sound s) (h : s.step a = some t) : Sound t where
  phases := (step_moves h).phases hs.phases
  life := by
    refine life_step hs.life (fun w n hw hbefore => ?_) h
    obtain ⟨d, -, hpending⟩ := hs.taken hw hbefore
    exact ⟨hpending.accepted, hpending.function⟩
  lined := lined_step hs h
  freed := released_step hs h

/-- **The run lemma.** -/
theorem reach_sound (hs : (machine D ι).Reach s) : Sound s := by
  refine hs.invariant (I := Sound) ?_ fun _ _ _ hr _ h => sound_step hr h
  rintro r ⟨capacity, frameCapacity, rfl⟩
  have hpool : (Executor.machine D (List PyValue)).Reach
      { dispatchers := fun d => .init (capacity d) (frameCapacity d) } :=
    .of_start ⟨capacity, frameCapacity, rfl⟩
  refine ⟨Executor.reach_phases hpool, ?_, fun d => ⟨[], [], ?_⟩, by simp⟩
  · exact ⟨fun _ _ => rfl, fun _ => taskOk_empty, by simp [TaskCall.task], by simp [TaskCall.holds],
      by simp, by simp⟩
  · exact ⟨rfl, rfl, by simp, fun n => ⟨by simp, fun h => absurd h.accepted (by simp)⟩,
      fun w event hw => by simp [Taken] at hw, by simp⟩

/-! ## The promise -/

/-- The task has still to run, and will: a thread is handing it over, it is in the queue of a
dispatcher that has its token, a pool thread has taken it, or its destructor is due. -/
def Outstanding (s : NativeTasks D ι) (n : ℕ) : Prop :=
  (∃ i, (s.calls i).task = some n) ∨
  (∃ d, taskEvent n ∈ (s.pool.dispatchers d).events ∧ s.pool.tokens d = 1) ∨
  (∃ w, takenTask (s.pool.worker w) = some n) ∨
  ∃ t, s.step (.destroy n) = some t

/-- No task that has been handed over is lost. -/
theorem Sound.outstanding (hs : Sound s) {n : ℕ} (hn : n < s.made)
    (hzero : (s.task n).invocations = 0) : Outstanding s n := by
  by_cases hcapsule : (s.task n).capsule = .absent
  · obtain ⟨i, hi⟩ := hs.life.waiting n hn hcapsule hzero
    exact .inl ⟨i, by rw [hi]; rfl⟩
  have hok := hs.life.ok n
  have hfunction : (s.task n).function = true := by
    have honce := hok.once hcapsule
    cases hf : (s.task n).function with
    | true => rfl
    | false => simp [hf, hzero] at honce
  have hlive : (s.task n).capsule = .live := by
    by_contra hnot
    simp [(hok.gone hcapsule hnot).1] at hfunction
  cases hheld : s.held n with
  | false =>
      have hstep : s.step (.destroy n) = some ((s.invoke n).modify n fun task =>
          { task with capsule := .destroying false }) := by
        simp only [step, destroyStep, hlive, hheld, hfunction, and_self, if_true]
      exact .inr (.inr (.inr ⟨_, hstep⟩))
  | true =>
      simp only [NativeTasks.held, Bool.or_eq_true, decide_eq_true_eq] at hheld
      rcases hheld with (hframe | hqueue) | hworker
      · obtain ⟨i, hi⟩ := hs.life.frame n hframe
        exact .inl ⟨i, frame_task hi⟩
      · split at hqueue
        next d hd =>
          obtain ⟨p, q, hline⟩ := hs.lined d
          rw [hline.events] at hqueue
          simp only [Bool.and_eq_true, List.any_map, List.any_eq_true, Function.comp_apply,
            eventTask_taskEvent, beq_iff_eq, Option.some.injEq] at hqueue
          obtain ⟨-, m, hm, rfl⟩ := hqueue
          have hmem : taskEvent m ∈ (s.pool.dispatchers d).events := by
            rw [hline.events]
            exact List.mem_map_of_mem hm
          have hne : (s.pool.dispatchers d).events ≠ [] := List.ne_nil_of_mem hmem
          exact .inr (.inl ⟨d, hmem, ((hs.phases.phase d).of_events hne).1⟩)
        next => cases hqueue
      · exact .inr (.inr (.inl hworker))

/-- **Every native callback task runs exactly once.** In every run no task is invoked twice, a task
whose capsule is freed has been invoked, no task that has not been invoked is lost, and the tasks
that a dispatcher has accepted are invoked in the order of acceptance.
Source: `native/extension.c`, `dispatch_callback_task`, and `_dispatch.py`, `_Dispatcher` -/
theorem tasks_run_once (hs : (machine D ι).Reach s) :
    (∀ n, (s.task n).invocations ≤ 1) ∧
    (∀ n, (s.task n).capsule = .freed → (s.task n).invocations = 1) ∧
    (∀ n < s.made, (s.task n).invocations = 0 → Outstanding s n) ∧
    ∀ d, s.ran d <+: s.accepted d := by
  have hsound := reach_sound hs
  refine ⟨?_, ?_, fun n hn hzero => hsound.outstanding hn hzero, ?_⟩
  · intro n
    have hmost := (hsound.life.ok n).most
    omega
  · intro n hfreed
    have hok := hsound.life.ok n
    have honce := hok.once (by simp [hfreed])
    rw [(hok.gone (by simp [hfreed]) (by simp [hfreed])).1] at honce
    simpa using honce
  · intro d
    obtain ⟨p, q, hline⟩ := hsound.lined d
    rw [hline.accepted]
    exact List.prefix_append _ _

/-- Task `0` is queued; the dispatcher is closed, and refuses task `1`, whose destructor runs it;
then a pool thread runs task `0`. -/
def refusedWhileQueued : List (TaskAction (Fin 1) (Fin 2)) :=
  [.dispatch 0 0 true, .allocate 0 true, .lookUp 0 true, .post 0, .release 0, .put 0, .get 0,
    .close 1 0, .dispatch 0 0 true, .allocate 0 true, .lookUp 0 true, .post 0, .release 0,
    .destroy 1, .functionEnd (.destructor 1), .drainBegin 0, .run 0, .functionEnd (.pool 0)]

/-- Both have been run, and the accepted one by the pool. -/
theorem tasks_run_once_refused :
    ∃ s, (machine (Fin 1) (Fin 2)).Reach s ∧
      (s.task 1).capsule = .freed ∧ (s.task 1).invocations = 1 ∧ s.ran 0 <+: s.accepted 0 := by
  have hstart : (machine (Fin 1) (Fin 2)).start { pool := { dispatchers := fun _ => .init } } :=
    ⟨fun _ => 64, fun _ => none, rfl⟩
  have hrun : ((machine (Fin 1) (Fin 2)).exec { pool := { dispatchers := fun _ => .init } }
      refusedWhileQueued).any (fun s => decide ((s.task 1).capsule = .freed)) = true := by
    decide +kernel
  obtain ⟨s, hs, hfreed⟩ := Machine.exists_reach hstart hrun
  have hcapsule : (s.task 1).capsule = .freed := of_decide_eq_true hfreed
  obtain ⟨-, honce, -, hprefix⟩ := tasks_run_once hs
  exact ⟨s, hs, hcapsule, honce 1 hcapsule, hprefix 0⟩

end Steps

end NativeTasks

end Tirtc
