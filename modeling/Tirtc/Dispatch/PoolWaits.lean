import Tirtc.Dispatch.PoolInvariant

/-!
# Two callbacks that wait exhaust the pool

The guards of `detach` and `close` keep a callback from waiting for itself. They do not look at the
other pool thread. While a callback waits for a dispatcher that has work, only the other pool thread
can do that work; once both wait so, no callback of the process runs any more. A callback that joins
the close of a thread outside of the pool waits for whatever that thread waits for.

* `Blocked`: a pool thread is at a wait that only the pool can end.
* `Runnable`, `Progress`: some pool thread takes a step while a dispatcher has work.
* `JoinsInside`: no pool thread has joined the close of a thread outside of the pool.
* `progress_of_free`: one pool thread that is not blocked is enough then.
* `Blocks`, `blocked_moves`, `blocks_step`: the steps that block a pool thread, and no others.
* `WaitsInTurn`, `JoinsOutside`, `Admits`: the rule for a step.
* `pool_progress`: in every run that keeps to the rule the pool goes on, and a step that blocks a
  second pool thread stops it.
* `pool_exhausted`: two callbacks that close each other's Outputs.
-/

set_option autoImplicit false
set_option linter.unusedSectionVars false

namespace Tirtc

open Transition Counting

/-- A dispatcher on which `barrier` would wait has its token. -/
theorem Phase.of_barrier {V : Type} {d : Dispatcher V} {n : ℕ} (h : Phase d n)
    (hbusy : d.barrierDone = false) : n = 1 := by
  cases h with
  | scheduled => rfl
  | quiet hs hev hx => simp [Dispatcher.barrierDone, hs, hev, hx] at hbusy
  | discarded => rfl

namespace Dispatcher

variable {V : Type} {d : Dispatcher V}

/-- Where `close` would wait, `barrier` would. -/
theorem barrierDone_of_closeDone (h : d.closeDone = false) : d.barrierDone = false := by
  cases hev : d.events.isEmpty <;> cases hx : d.executing <;>
    simp_all [closeDone, barrierDone]

/-- `barrier` would wait on a dispatcher that has work. -/
theorem barrierDone_of_busy (h : d.events ≠ [] ∨ d.executing = true) : d.barrierDone = false := by
  rcases h with h | h <;> simp [barrierDone, h]

/-- A post that leaves no event leaves `barrier` where it is. -/
theorem barrierDone_post [FrameValues V] (h : d.barrierDone = true) {event : Event V}
    {latest : Bool} (hnil : (d.post event latest).dispatcher.events = []) :
    (d.post event latest).dispatcher.barrierDone = true := by
  have hposted := d.post_spec event latest
  generalize d.post event latest = r at hposted hnil
  cases hposted with
  | closed => exact h
  | coalesced => simp at hnil
  | frameRefused => exact h
  | refused => exact h
  | evicted => simp at hnil
  | beyond => simp at hnil
  | appended => simp at hnil

end Dispatcher

/-- The token of a dispatcher with work that no pool thread holds is in the ready queue or on its
way there. -/
theorem Executor.Phases.ready_of_token {D V : Type} [DecidableEq D] {s : Executor D V}
    (hs : Executor.Phases s) {d : D} (hd : (s.dispatchers d).barrierDone = false)
    (hworkers : ∀ w, (s.worker w).token ≠ some d) : d ∈ s.ready ∨ d ∈ s.putting := by
  have htokens := (hs.phase d).of_barrier hd
  have hnone : countOf (fun w : Worker D V => w.token = some d) s.worker = 0 := by
    apply Nat.eq_zero_of_not_pos
    intro hpos
    obtain ⟨w, hw⟩ := (countOf_pos (s.finite_token d)).mp hpos
    exact hworkers w hw
  rw [Executor.tokens, hnone] at htokens
  by_cases hready : d ∈ s.ready
  · exact .inl hready
  · refine .inr (List.count_pos_iff.mp ?_)
    have hzero : s.ready.count d = 0 := List.count_eq_zero.mpr hready
    omega

namespace PoolCalls

variable {O P K ι V : Type} [DecidableEq O] [DecidableEq P] [DecidableEq K] [DecidableEq ι]

/-! ## A blocked pool thread -/

/-- The wait of pool thread `w` is one that only the pool can end: the dispatcher has work, or the
other pool thread performs the close that `w` has joined. -/
def Unmet (s : PoolCalls O P K ι V) (w : Fin 2) : PoolWait O P K → Prop
  | .barrier o => (s.pool.dispatchers (.inl o)).barrierDone = false
  | .closing d => (s.pool.dispatchers d).closeDone = false
  | .join x g => ∃ v, v ≠ w ∧ (x, g) ∈ (s.call (.inl v)).jobs

/-- **Pool thread `w` is blocked.** -/
def Blocked (s : PoolCalls O P K ι V) (w : Fin 2) : Prop :=
  ∃ wait, (s.call (.inl w)).wait = some wait ∧ s.Unmet w wait

/-- **Pool thread `w` goes on**: it can take a step, or it is at the ready queue, and a `schedule`
call is about to be made. -/
inductive Runnable [FrameValues V] (errorName : ℤ → String) (s : PoolCalls O P K ι V) (w : Fin 2) :
    Prop
  | steps (a : PoolCallAction O P K ι V) : a.thread = some (.inl w) →
      (s.step errorName a).isSome = true → Runnable errorName s w
  | scheduled (d : O ⊕ P) : s.pool.worker w = .idle → d ∈ s.pool.putting →
      Runnable errorName s w

/-- **Progress**: while a dispatcher has queued or executing events, some pool thread goes on. -/
def Progress [FrameValues V] (errorName : ℤ → String) (s : PoolCalls O P K ι V) : Prop :=
  (∃ d, (s.pool.dispatchers d).events ≠ [] ∨ (s.pool.dispatchers d).executing = true) →
    ∃ w, Runnable errorName s w

/-- The closes that pool threads have joined are performed by pool threads. -/
def JoinsInside (s : PoolCalls O P K ι V) : Prop :=
  ∀ w x g i, (s.call (.inl w)).wait = some (.join x g) → (x, g) ∉ (s.call (.inr i)).jobs

variable {errorName : ℤ → String} {s s' r : PoolCalls O P K ι V} {t : Fin 2 ⊕ ι}

section Progress

variable [FrameValues V]

/-- A callback that does not wait goes on: it ends its innermost close, or returns. -/
theorem runnable_of_calling {w : Fin 2} {d : O ⊕ P} {event : Event V}
    (hw : s.pool.worker w = .running d event) (hwait : (s.call (.inl w)).wait = none) :
    Runnable errorName s w := by
  have hcan : s.canCall (.inl w) = true := by simp [canCall, hwait, hw]
  cases hframes : (s.call (.inl w)).frames with
  | nil =>
      have hfree : (s.call (.inl w)).free = true := free_iff.mpr ⟨hframes, hwait⟩
      refine .steps (.pool (.drainEnd w)) rfl ?_
      simp [step, allows, hfree, Executor.step, hw]
  | cons f frames =>
      cases hfallible : f.fallible with
      | true =>
          refine .steps (.fail (.inl w) inUseError) rfl ?_
          simp [step, failStep, hcan, hframes, hfallible]
      | false =>
          -- only an Output whose dispatcher is still to be closed cannot fail
          obtain ⟨o, g, rfl⟩ : ∃ o g, f = .output o g false := by
            cases f with
            | output o g drained =>
                obtain rfl : drained = false := hfallible
                exact ⟨o, g, rfl⟩
            | source => cases hfallible
            | root => cases hfallible
          refine .steps (.closeDispatcher (.inl w)) rfl ?_
          simp [step, closeDispatcherStep, hcan, hframes, CloseFrame.toClose]

/-- A callback whose wait is not blocked goes on. -/
theorem runnable_of_waiting (ht : Tracked s) (hj : JoinsInside s) {w : Fin 2}
    {wait : PoolWait O P K} (hwait : (s.call (.inl w)).wait = some wait) (hmet : ¬ s.Unmet w wait) :
    Runnable errorName s w := by
  cases wait with
  | barrier o =>
      have hdone : (s.pool.dispatchers (.inl o)).barrierDone = true := by simpa [Unmet] using hmet
      refine .steps (.wake (.inl w)) rfl ?_
      simp [step, wakeStep, hwait, hdone]
  | closing d =>
      have hdone : (s.pool.dispatchers d).closeDone = true := by simpa [Unmet] using hmet
      refine .steps (.wake (.inl w)) rfl ?_
      simp [step, wakeStep, hwait, hdone]
  | join x g =>
      rcases ht.joined hwait with ⟨o, ho⟩ | ⟨t', hjob, hne⟩
      · refine .steps (.wake (.inl w)) rfl ?_
        simp [step, wakeStep, hwait, CloseCoordinator.outcome?, ho]
      · cases t' with
        | inl v =>
            have hv : v ≠ w := fun h => hne (h ▸ rfl)
            exact absurd ⟨v, hv, hjob⟩ hmet
        | inr i => exact absurd hjob (hj w x g i hwait)

/-- **A pool thread with a token goes on** unless it is blocked. -/
theorem runnable_of_token (ht : Tracked s) (hj : JoinsInside s) {w : Fin 2}
    (hbusy : s.pool.worker w ≠ .idle) (hfree : ¬ s.Blocked w) : Runnable errorName s w := by
  cases hw : s.pool.worker w with
  | idle => exact absurd hw hbusy
  | fetched d =>
      refine .steps (.pool (.drainBegin w)) rfl ?_
      cases hev : (s.pool.dispatchers d).events with
      | nil => simp [step, allows, Executor.step, hw, Dispatcher.drainBegin_nil hev]
      | cons event events =>
          simp [step, allows, Executor.step, hw, Dispatcher.drainBegin_cons hev]
  | running d event =>
      cases hwait : (s.call (.inl w)).wait with
      | none => exact runnable_of_calling hw hwait
      | some wait =>
          exact runnable_of_waiting ht hj hwait fun hunmet => hfree ⟨wait, hwait, hunmet⟩
  | rescheduling d =>
      refine .steps (.pool (.reschedule w)) rfl ?_
      simp [step, allows, Executor.step, hw]

/-- A pool thread at the ready queue goes on when something is or will be there. -/
theorem runnable_of_ready {w : Fin 2} {d : O ⊕ P} (hw : s.pool.worker w = .idle)
    (hd : d ∈ s.pool.ready ∨ d ∈ s.pool.putting) : Runnable errorName s w := by
  rcases hd with hd | hd
  · obtain ⟨e, ready, hready⟩ := List.exists_cons_of_ne_nil (List.ne_nil_of_mem hd)
    refine .steps (.pool (.get w)) rfl ?_
    simp [step, allows, Executor.step, hw, hready]
  · exact .scheduled d hw hd

omit [FrameValues V] in
/-- A blocked callback waits for a dispatcher with work that is not its own, if no pool thread but
its own performs a close. -/
theorem Kept.awaited (hs : Kept s) {w : Fin 2} (h : s.Blocked w)
    (hothers : ∀ v, v ≠ w → (s.call (.inl v)).frames = []) :
    ∃ d e, (s.pool.worker w).handling = some d ∧ e ≠ d ∧
      (s.pool.dispatchers e).barrierDone = false := by
  obtain ⟨wait, hwait, hunmet⟩ := h
  obtain ⟨d, hd⟩ := hs.handling hwait
  have hapart := (hs.apart w d hd).wait wait hwait
  cases wait with
  | barrier o =>
      refine ⟨d, .inl o, hd, ?_, hunmet⟩
      rintro rfl
      exact hapart rfl
  | closing e =>
      refine ⟨d, e, hd, ?_, Dispatcher.barrierDone_of_closeDone hunmet⟩
      rintro rfl
      exact hapart rfl
  | join x g =>
      obtain ⟨v, hv, hjob⟩ := hunmet
      simp [PoolCall.jobs, hothers v hv] at hjob

/-- **One pool thread that is not blocked is enough.** If it is at the ready queue, then the token
of a dispatcher with work is there: of the dispatcher that the other thread waits for, or of any
other one. -/
theorem progress_of_free (hs : Kept s) (ht : Tracked s) (hj : JoinsInside s) {w : Fin 2}
    (hfree : ¬ s.Blocked w) : s.Progress errorName := by
  rintro ⟨d, hbusy⟩
  by_cases hw : s.pool.worker w = .idle
  · -- the other pool thread
    obtain ⟨v, hv⟩ : ∃ v : Fin 2, v ≠ w := exists_ne w
    have hcover : ∀ u, u = w ∨ u = v := by
      intro u
      omega
    by_cases hvidle : s.pool.worker v = .idle
    · refine ⟨w, runnable_of_ready hw (hs.phases.ready_of_token (d := d) ?_ ?_)⟩
      · exact Dispatcher.barrierDone_of_busy hbusy
      · intro u
        rcases hcover u with rfl | rfl
        · simp [hw]
        · simp [hvidle]
    · by_cases hvblocked : s.Blocked v
      · have hothers : ∀ u, u ≠ v → (s.call (.inl u)).frames = [] := by
          intro u hu
          obtain rfl : u = w := (hcover u).resolve_right hu
          exact (free_iff.mp (hs.free u (by simp [hw]))).1
        obtain ⟨e, e', hhandling, hne, hunmet⟩ := hs.awaited hvblocked hothers
        refine ⟨w, runnable_of_ready hw (hs.phases.ready_of_token hunmet fun u => ?_)⟩
        rcases hcover u with rfl | rfl
        · simp [hw]
        · rw [Worker.token_of_handling hhandling]
          exact fun h => hne (Option.some.inj h).symm
      · exact ⟨v, runnable_of_token ht hj hvidle hvblocked⟩
  · exact ⟨w, runnable_of_token ht hj hw hfree⟩

/-- A blocked pool thread does not go on. -/
theorem not_runnable_of_blocked (hs : Kept s) (ht : Tracked s) {w : Fin 2} (h : s.Blocked w) :
    ¬ Runnable errorName s w := by
  obtain ⟨wait, hwait, hunmet⟩ := h
  obtain ⟨d, hd⟩ := hs.handling hwait
  have hcan : s.canCall (.inl w) = false := by simp [canCall, hwait]
  intro hrunnable
  cases hrunnable with
  | steps a ha hstep =>
      obtain ⟨s', hstep⟩ := Option.isSome_iff_exists.mp hstep
      cases a with
      | pool a =>
          simp only [step] at hstep
          split at hstep
          next hallows =>
            obtain ⟨pool, hpool, -⟩ := Option.map_eq_some_iff.mp hstep
            cases a with
            | get v =>
                obtain rfl : v = w := by simpa [PoolCallAction.thread] using ha
                obtain ⟨_, _, hidle, -⟩ := Executor.get_cases hpool
                simp [hidle] at hd
            | drainBegin v =>
                obtain rfl : v = w := by simpa [PoolCallAction.thread] using ha
                obtain ⟨_, hfetched, -⟩ := Executor.drainBegin_cases hpool
                simp [hfetched] at hd
            | drainEnd v =>
                obtain rfl : v = w := by simpa [PoolCallAction.thread] using ha
                obtain ⟨-, hnone⟩ := free_iff.mp hallows
                rw [hnone] at hwait
                cases hwait
            | reschedule v =>
                obtain rfl : v = w := by simpa [PoolCallAction.thread] using ha
                obtain ⟨_, hrescheduling, -⟩ := Executor.reschedule_cases hpool
                simp [hrescheduling] at hd
            | _ => simp [PoolCallAction.thread] at ha
          next => cases hstep
      | attach => simp [PoolCallAction.thread] at ha
      | wake t =>
          obtain rfl : t = .inl w := by simpa [PoolCallAction.thread] using ha
          cases wait with
          | barrier o =>
              have hbusy : (s.pool.dispatchers (.inl o)).barrierDone = false := hunmet
              simp [step, wakeStep, hwait, hbusy] at hstep
          | closing d =>
              have hbusy : (s.pool.dispatchers d).closeDone = false := hunmet
              simp [step, wakeStep, hwait, hbusy] at hstep
          | join x g =>
              obtain ⟨v, -, hjob⟩ := hunmet
              simp [step, wakeStep, hwait, CloseCoordinator.outcome?, ht.pending hjob] at hstep
      | detach t | close t | detachNext t | closeDispatcher t | succeed t | fail t =>
          obtain rfl : t = .inl w := by simpa [PoolCallAction.thread] using ha
          simp [step, detachStep, closeStep, canClose, detachNextStep, closeDispatcherStep,
            succeedStep, failStep, hcan] at hstep
  | scheduled d hidle =>
      simp [hidle] at hd

/-- **Two blocked pool threads stop the pool**, while the dispatchers of their callbacks execute. -/
theorem not_progress_of_blocked (hs : Kept s) (ht : Tracked s) (h : ∀ w, s.Blocked w) :
    ¬ s.Progress errorName := by
  intro hprogress
  obtain ⟨wait, hwait, -⟩ := h 0
  obtain ⟨d, hd⟩ := hs.handling hwait
  have hexecuting : (s.pool.dispatchers d).executing = true :=
    (hs.phases.executing d).mpr ⟨0, hd⟩
  obtain ⟨w, hw⟩ := hprogress ⟨d, .inr hexecuting⟩
  exact not_runnable_of_blocked hs ht (h w) hw

end Progress

/-! ## The steps that block a pool thread -/

section Steps

variable [FrameValues V]

/-- **The step blocks pool thread `w`**, read off the state before it. A call of its callback that
is not refused comes to a dispatcher with work, or to a close that the other pool thread performs;
or a new event comes to the Output at whose barrier it is. -/
def Blocks (errorName : ℤ → String) (s : PoolCalls O P K ι V) (w : Fin 2) :
    PoolCallAction O P K ι V → Prop
  | .detach t o raised => t = .inl w ∧ s.detachRefusal errorName t o = none ∧ raised = none ∧
      (s.pool.dispatchers (.inl o)).barrierDone = false
  | .detachNext t raised => t = .inl w ∧ raised = none ∧ ∃ p g o rest frames,
      (s.call t).frames = .source p g (o :: rest) false :: frames ∧ s.bound o = some p ∧
      s.detachInUse t o p = false ∧ (s.pool.dispatchers (.inl o)).barrierDone = false
  | .closeDispatcher t => t = .inl w ∧ ∃ f frames d f', (s.call t).frames = f :: frames ∧
      f.toClose = some (d, f') ∧ (s.pool.dispatchers d).closeDone = false
  | .close t x _ related => t = .inl w ∧ s.closeRefusal t related x = none ∧
      (s.close x).status = .closing ∧
      ∃ v, v ≠ w ∧ (x, (s.close x).generation) ∈ (s.call (.inl v)).jobs
  | .pool (.post d event latest) => ∃ o, d = .inl o ∧ (s.call (.inl w)).wait = some (.barrier o) ∧
      ((s.pool.dispatchers d).post event latest).dispatcher.events ≠ []
  | .pool (.postNativeTask d _) => ∃ o, d = .inl o ∧ (s.call (.inl w)).wait = some (.barrier o) ∧
      (s.pool.dispatchers d).closed = false
  | _ => False

/-- A step of the pool after which `barrier` waits, and would not have waited before, is a post that
leaves an event. -/
theorem barrierDone_pool (hs : Executor.Phases s.pool) {pool : Executor (O ⊕ P) V}
    {a : ExecutorAction (O ⊕ P) V} (h : s.pool.step a = some pool) {d : O ⊕ P}
    (hdone : (s.pool.dispatchers d).barrierDone = true)
    (hbusy : (pool.dispatchers d).barrierDone = false) :
    (∃ event latest, a = .post d event latest ∧
      ((s.pool.dispatchers d).post event latest).dispatcher.events ≠ []) ∨
    ∃ task, a = .postNativeTask d task ∧ (s.pool.dispatchers d).closed = false := by
  have hsame : pool.dispatchers d ≠ s.pool.dispatchers d := by
    intro heq
    rw [heq, hdone] at hbusy
    cases hbusy
  -- the section is one of `d`
  have hat : ∀ (e : O ⊕ P) (next : Dispatcher V),
      pool.dispatchers = Function.update s.pool.dispatchers e next →
      e = d ∧ next.barrierDone = false := by
    intro e next heq
    by_cases hed : e = d
    · subst hed
      rw [heq, Function.update_self] at hbusy
      exact ⟨rfl, hbusy⟩
    · refine absurd ?_ hsame
      rw [heq, Function.update_of_ne (Ne.symm hed)]
  cases a with
  | post e event latest =>
      cases h
      obtain ⟨rfl, hnext⟩ := hat e _ rfl
      refine .inl ⟨event, latest, rfl, fun hnil => ?_⟩
      rw [Dispatcher.barrierDone_post hdone hnil] at hnext
      cases hnext
  | postNativeTask e task =>
      obtain ⟨r, hr, rfl⟩ := Option.map_eq_some_iff.mp h
      obtain ⟨rfl, hnext⟩ := hat e _ rfl
      refine .inr ⟨task, rfl, ?_⟩
      cases hclosed : (s.pool.dispatchers e).closed with
      | false => rfl
      | true =>
          simp only [Dispatcher.postNativeTask, hclosed, if_true, Option.some.injEq] at hr
          subst hr
          cases hdone.symm.trans hnext
  | close e =>
      cases h
      obtain ⟨rfl, hnext⟩ := hat e _ rfl
      cases hdone.symm.trans hnext
  | discard e =>
      cases h
      obtain ⟨rfl, hnext⟩ := hat e _ rfl
      simp_all [Dispatcher.barrierDone, Dispatcher.discard]
  | put e =>
      obtain ⟨-, rfl⟩ := Executor.put_cases h
      exact absurd rfl hsame
  | get w =>
      obtain ⟨e, ready, -, -, rfl⟩ := Executor.get_cases h
      exact absurd rfl hsame
  | drainBegin w =>
      obtain ⟨e, -, ⟨hev, rfl⟩ | ⟨event, events, hev, rfl⟩⟩ := Executor.drainBegin_cases h
      · obtain ⟨rfl, hnext⟩ := hat e _ rfl
        simp_all [Dispatcher.barrierDone]
      · obtain ⟨rfl, -⟩ := hat e _ rfl
        simp [Dispatcher.barrierDone, hev] at hdone
  | drainEnd w =>
      obtain ⟨e, event, hw, rfl⟩ := Executor.drainEnd_cases h
      obtain ⟨rfl, -⟩ := hat e _ rfl
      have hexecuting : (s.pool.dispatchers e).executing = true :=
        (hs.executing e).mpr ⟨w, by simp [hw]⟩
      simp [Dispatcher.barrierDone, hexecuting] at hdone
  | reschedule w =>
      obtain ⟨e, -, rfl⟩ := Executor.reschedule_cases h
      exact absurd rfl hsame

/-- A thread that goes on leaves another thread blocked or not, as it is. -/
theorem blocked_goto {c : PoolCall O P K} {w : Fin 2} (h : (r.goto t c).Blocked w)
    (hne : t ≠ .inl w) (hcall : r.call = s.call)
    (hbarrier : ∀ d, (r.pool.dispatchers d).barrierDone = (s.pool.dispatchers d).barrierDone)
    (hclose : ∀ d, (r.pool.dispatchers d).closeDone = (s.pool.dispatchers d).closeDone)
    (hjobs : ∀ x g, (s.call (.inl w)).wait = some (.join x g) → (x, g) ∈ c.jobs →
      (x, g) ∈ (s.call t).jobs) : s.Blocked w := by
  obtain ⟨wait, hwait, hunmet⟩ := h
  rw [goto_call, if_neg (Ne.symm hne), hcall] at hwait
  refine ⟨wait, hwait, ?_⟩
  cases wait with
  | barrier o => exact (hbarrier _).symm.trans hunmet
  | closing d => exact (hclose d).symm.trans hunmet
  | join x g =>
      obtain ⟨v, hv, hjob⟩ := hunmet
      refine ⟨v, hv, ?_⟩
      rw [goto_call, hcall] at hjob
      split at hjob
      next heq => exact heq ▸ hjobs x g hwait hjob
      next => exact hjob

/-- The same the other way. -/
theorem goto_blocked {c : PoolCall O P K} {w : Fin 2} (h : s.Blocked w) (hne : t ≠ .inl w)
    (hcall : r.call = s.call)
    (hbarrier : ∀ d, (r.pool.dispatchers d).barrierDone = (s.pool.dispatchers d).barrierDone)
    (hclose : ∀ d, (r.pool.dispatchers d).closeDone = (s.pool.dispatchers d).closeDone)
    (hjobs : ∀ job ∈ (s.call t).jobs, job ∈ c.jobs) : (r.goto t c).Blocked w := by
  obtain ⟨wait, hwait, hunmet⟩ := h
  refine ⟨wait, ?_, ?_⟩
  · rw [goto_call, if_neg (Ne.symm hne), hcall]
    exact hwait
  · cases wait with
    | barrier o => exact (hbarrier _).trans hunmet
    | closing d => exact (hclose d).trans hunmet
    | join x g =>
        obtain ⟨v, hv, hjob⟩ := hunmet
        refine ⟨v, hv, ?_⟩
        rw [goto_call, hcall]
        split
        next heq => exact hjobs _ (heq ▸ hjob)
        next => exact hjob

/-- Pool thread `w` itself, after it has gone on. -/
theorem blocked_self {c : PoolCall O P K} {w : Fin 2} (hcall : r.call = s.call) :
    (r.goto (.inl w) c).Blocked w ↔ ∃ wait, c.wait = some wait ∧ match wait with
      | .barrier o => (r.pool.dispatchers (.inl o)).barrierDone = false
      | .closing d => (r.pool.dispatchers d).closeDone = false
      | .join x g => ∃ v, v ≠ w ∧ (x, g) ∈ (s.call (.inl v)).jobs := by
  unfold Blocked
  rw [goto_call, if_pos rfl]
  refine exists_congr fun wait => and_congr_right ?_
  intro _
  cases wait with
  | join x g =>
      refine exists_congr fun v => and_congr_right ?_
      intro hv
      rw [goto_call, if_neg (by simpa using hv), hcall]
  | _ => rfl

/-- A thread that goes on and waits for nothing blocks nobody. -/
theorem blocked_goes {frames : List (CloseFrame O P K)} {w : Fin 2}
    (h : (r.goto t ⟨frames, none⟩).Blocked w) (hcall : r.call = s.call) (hpool : r.pool = s.pool)
    (hjobs : ∀ x g, (s.call (.inl w)).wait = some (.join x g) → (x, g) ∈ frames.map CloseFrame.job →
      (x, g) ∈ (s.call t).jobs) : s.Blocked w := by
  by_cases ht : t = .inl w
  · subst ht
    obtain ⟨wait, hwait, -⟩ := (blocked_self hcall).mp h
    cases hwait
  · exact blocked_goto h ht hcall (by simp [hpool]) (by simp [hpool]) hjobs

/-- `_dispatcher.close()` ends no wait and starts none. -/
theorem close_done (s : PoolCalls O P K ι V) (d e : O ⊕ P) :
    ((s.pool.afterPost d ⟨(s.pool.dispatchers d).close, true, false⟩).dispatchers e).barrierDone =
        (s.pool.dispatchers e).barrierDone ∧
      ((s.pool.afterPost d ⟨(s.pool.dispatchers d).close, true, false⟩).dispatchers e).closeDone =
        (s.pool.dispatchers e).closeDone := by
  by_cases he : e = d
  · subst he
    have hself : (s.pool.afterPost e ⟨(s.pool.dispatchers e).close, true, false⟩).dispatchers e =
        (s.pool.dispatchers e).close := Function.update_self _ _ _
    rw [hself]
    exact ⟨rfl, rfl⟩
  · have hother : (s.pool.afterPost d ⟨(s.pool.dispatchers d).close, true, false⟩).dispatchers e =
        s.pool.dispatchers e := Function.update_of_ne he _ _
    rw [hother]
    exact ⟨rfl, rfl⟩

/-- **No other step blocks a pool thread.** -/
theorem blocked_moves (hs : Kept s) {a : PoolCallAction O P K ι V} {w : Fin 2}
    (h : Moves errorName s a s') (hb : s'.Blocked w) :
    s.Blocked w ∨ Blocks errorName s w a := by
  cases h with
  | pool a pool hallows hpool =>
      obtain ⟨wait, hwait, hunmet⟩ := hb
      cases wait with
      | barrier o =>
          cases hdone : (s.pool.dispatchers (.inl o)).barrierDone with
          | false => exact .inl ⟨_, hwait, hdone⟩
          | true =>
              rcases barrierDone_pool hs.phases hpool hdone hunmet with
                ⟨event, latest, rfl, hevents⟩ | ⟨task, rfl, hopen⟩
              · exact .inr ⟨o, rfl, hwait, hevents⟩
              · exact .inr ⟨o, rfl, hwait, hopen⟩
      | closing d =>
          refine .inl ⟨_, hwait, ?_⟩
          have hclosed : (s.pool.dispatchers d).closed = true := hs.fits _ _ hwait
          have hunmet : (pool.dispatchers d).closeDone = false := hunmet
          cases hdone : (s.pool.dispatchers d).closeDone with
          | false => exact hdone
          | true =>
              -- a closed dispatcher that is done stays so
              simp only [Dispatcher.closeDone, Bool.and_eq_true, Bool.not_eq_true',
                List.isEmpty_iff] at hdone
              have hstopped : (s.pool.dispatchers d).Stopped := ⟨hclosed, hdone.2, hdone.1⟩
              have hstill : (pool.dispatchers d).Stopped := by
                rcases Executor.step_dispatchers hs.phases hpool d with heq | ⟨x, hx⟩
                · exact heq ▸ hstopped
                · exact Dispatcher.stopped_section hx hstopped
              simp [Dispatcher.closeDone, hstill.events, hstill.executing] at hunmet
      | join x g => exact .inl ⟨_, hwait, hunmet⟩
  | attach o p => exact .inl hb
  | refused => exact .inl hb
  | detach t o hcan hnil hpass =>
      by_cases ht : t = .inl w
      · subst ht
        obtain ⟨wait, hwait, hunmet⟩ := (blocked_self rfl).mp hb
        cases hwait
        exact .inr ⟨rfl, hpass, rfl, hunmet⟩
      · exact .inl (blocked_goto hb ht rfl (fun _ => rfl) (fun _ => rfl) (by simp [PoolCall.jobs]))
  | join t x order related hcan _ hpass hclosing =>
      by_cases ht : t = .inl w
      · subst ht
        obtain ⟨wait, hwait, hunmet⟩ := (blocked_self rfl).mp hb
        cases hwait
        exact .inr ⟨rfl, hpass, hclosing, hunmet⟩
      · exact .inl (blocked_goto hb ht rfl (fun _ => rfl) (fun _ => rfl) (fun _ _ _ h => h))
  | perform t x order related =>
      refine .inl (blocked_goes hb rfl rfl (fun y g hwait hmem => ?_))
      rcases List.mem_cons.mp hmem with hjob | htail
      · -- nobody has joined a generation that has not begun
        have hfits : g ≤ (s.close y).generation := hs.fits _ _ hwait
        obtain ⟨rfl, rfl⟩ : y = x ∧ g = (s.close x).generation + 1 := by
          cases x <;> simpa [newFrame, CloseFrame.job] using hjob
        omega
      · exact htail
  | skip t raised p g o rest frames hcan hf _ =>
      refine .inl (blocked_goes hb rfl rfl (fun y g' _ hmem => ?_))
      simpa [PoolCall.jobs, hf, CloseFrame.job] using hmem
  | detachNext t p g o rest frames hcan hf hbound huse =>
      by_cases ht : t = .inl w
      · subst ht
        obtain ⟨wait, hwait, hunmet⟩ := (blocked_self rfl).mp hb
        cases hwait
        exact .inr ⟨rfl, rfl, p, g, o, rest, frames, hf, hbound, huse, hunmet⟩
      · refine .inl (blocked_goto hb ht rfl (fun _ => rfl) (fun _ => rfl) (fun y g' _ hmem => ?_))
        simpa [PoolCall.jobs, hf, CloseFrame.job] using hmem
  | notDetached t raised p g o rest frames e hcan hf _ =>
      refine .inl (blocked_goes hb rfl rfl (fun y g' _ hmem => ?_))
      simp [PoolCall.jobs, hf, List.mem_map.mp hmem]
  | closeDispatcher t d f f' frames hcan hf hclose =>
      obtain ⟨-, hjob, -⟩ := CloseFrame.toClose_spec hclose
      by_cases ht : t = .inl w
      · subst ht
        obtain ⟨wait, hwait, hunmet⟩ := (blocked_self rfl).mp hb
        cases hwait
        exact .inr ⟨rfl, f, frames, d, f', hf, hclose, (close_done s d d).2.symm.trans hunmet⟩
      · refine .inl (blocked_goto hb ht rfl (fun e => (close_done s d e).1)
          (fun e => (close_done s d e).2) fun y g _ hmem => ?_)
        simpa [PoolCall.jobs, hf, hjob] using hmem
  | succeed t error f frames hcan hf =>
      refine .inl (blocked_goes hb rfl rfl (fun y g' _ hmem => ?_))
      simp [PoolCall.jobs, hf, List.mem_map.mp hmem]
  | fail t error f frames hcan hf =>
      refine .inl (blocked_goes hb rfl rfl (fun y g' _ hmem => ?_))
      simp [PoolCall.jobs, hf, List.mem_map.mp hmem]
  | unbind t o => exact .inl (blocked_goes hb rfl rfl (fun _ _ _ hmem => hmem))
  | drained t d => exact .inl (blocked_goes hb rfl rfl (fun _ _ _ hmem => hmem))
  | joined t x g c => exact .inl (blocked_goes hb rfl rfl (fun _ _ _ hmem => hmem))

/-- A post on the Output at whose barrier pool thread `w` is, when it leaves an event. -/
theorem blocked_post (hs : Kept s) {o : O} {w : Fin 2} {result : PostResult V}
    (hwait : (s.call (.inl w)).wait = some (.barrier o))
    (hevents : result.dispatcher.events ≠ [])
    (hclosed : (s.pool.dispatchers (.inl o)).closed = true →
      result = ⟨s.pool.dispatchers (.inl o), false, false⟩) :
    ({ s with pool := s.pool.afterPost (.inl o) result } : PoolCalls O P K ι V).Blocked w ∧
      ∀ v, v ≠ w → s.Blocked v →
        ({ s with pool := s.pool.afterPost (.inl o) result } : PoolCalls O P K ι V).Blocked v := by
  have hself : (s.pool.afterPost (.inl o) result).dispatchers (.inl o) = result.dispatcher :=
    Function.update_self _ _ _
  have hother : ∀ e, e ≠ .inl o →
      (s.pool.afterPost (.inl o) result).dispatchers e = s.pool.dispatchers e :=
    fun e he => Function.update_of_ne he _ _
  refine ⟨⟨_, hwait, ?_⟩, ?_⟩
  · have hbusy := Dispatcher.barrierDone_of_busy (.inl hevents)
    exact (congrArg Dispatcher.barrierDone hself).trans hbusy
  · intro v hv hb
    obtain ⟨wait, hwait', hunmet⟩ := hb
    refine ⟨wait, hwait', ?_⟩
    cases wait with
    | barrier o' =>
        -- one thread at a time is at the barrier of an Output
        have hne : (.inl o' : O ⊕ P) ≠ .inl o := by
          intro heq
          obtain rfl := Sum.inl.inj heq
          exact hv (Sum.inl.inj (hs.alone _ _ o' hwait' hwait))
        exact (congrArg Dispatcher.barrierDone (hother _ hne)).trans hunmet
    | closing e =>
        by_cases he : e = .inl o
        · subst he
          have hsame : result.dispatcher = s.pool.dispatchers (.inl o) := by
            rw [hclosed (hs.fits _ _ hwait')]
          exact (congrArg Dispatcher.closeDone (hself.trans hsame)).trans hunmet
        · exact (congrArg Dispatcher.closeDone (hother e he)).trans hunmet
    | join x g => exact hunmet

/-- **These steps do**, and leave the other pool thread blocked when it is. -/
theorem blocks_step (hs : Kept s) {a : PoolCallAction O P K ι V} {w : Fin 2}
    (hblocks : Blocks errorName s w a) (h : s.step errorName a = some s') :
    s'.Blocked w ∧ ∀ v, v ≠ w → s.Blocked v → s'.Blocked v := by
  have hothers : ∀ v, v ≠ w → (.inl w : Fin 2 ⊕ ι) ≠ .inl v := by
    intro v hv heq
    exact hv (Sum.inl.inj heq).symm
  cases a with
  | detach t o raised =>
      obtain ⟨rfl, hpass, rfl, hbusy⟩ := hblocks
      simp only [step, detachStep, hpass] at h
      split at h
      next hcan =>
        simp only [Bool.and_eq_true, List.isEmpty_iff] at hcan
        cases h
        refine ⟨(blocked_self rfl).mpr ⟨_, rfl, hbusy⟩, fun v hv hb => ?_⟩
        refine goto_blocked hb (hothers v hv) rfl (fun _ => rfl) (fun _ => rfl) ?_
        simp [PoolCall.jobs, hcan.2]
      next => cases h
  | detachNext t raised =>
      obtain ⟨rfl, rfl, p, g, o, rest, frames, hf, hbound, huse, hbusy⟩ := hblocks
      simp only [step, detachNextStep, hf, hbound, huse, ne_eq, not_true_eq_false, if_false,
        Bool.false_eq_true] at h
      split at h
      next hcan =>
        cases h
        refine ⟨(blocked_self rfl).mpr ⟨_, rfl, hbusy⟩, fun v hv hb => ?_⟩
        refine goto_blocked hb (hothers v hv) rfl (fun _ => rfl) (fun _ => rfl) ?_
        simp [PoolCall.jobs, hf, CloseFrame.job]
      next => cases h
  | closeDispatcher t =>
      obtain ⟨rfl, f, frames, d, f', hf, hclose, hbusy⟩ := hblocks
      obtain ⟨-, hjob, -⟩ := CloseFrame.toClose_spec hclose
      simp only [step, closeDispatcherStep, hf, hclose, Option.map_some] at h
      split at h
      next hcan =>
        cases h
        refine ⟨(blocked_self rfl).mpr ⟨_, rfl, (close_done s d d).2.trans hbusy⟩,
          fun v hv hb => ?_⟩
        refine goto_blocked hb (hothers v hv) rfl (fun e => (close_done s d e).1)
          (fun e => (close_done s d e).2) ?_
        simp [PoolCall.jobs, hf, hjob]
      next => cases h
  | close t x order related =>
      obtain ⟨rfl, hpass, hclosing, hjob⟩ := hblocks
      simp only [step, closeStep, hpass, (s.close x).begin_of_closing hclosing] at h
      split at h
      next hcan =>
        cases h
        refine ⟨(blocked_self rfl).mpr ⟨_, rfl, hjob⟩, fun v hv hb => ?_⟩
        exact goto_blocked hb (hothers v hv) rfl (fun _ => rfl) (fun _ => rfl) fun _ hmem => hmem
      next => cases h
  | pool a =>
      simp only [step] at h
      split at h
      next hallows =>
        obtain ⟨pool, hpool, rfl⟩ := Option.map_eq_some_iff.mp h
        cases a with
        | post d event latest =>
            obtain ⟨o, rfl, hwait, hevents⟩ := hblocks
            cases hpool
            exact blocked_post hs hwait hevents fun hclosed =>
              Dispatcher.post_of_closed hclosed event latest
        | postNativeTask d task =>
            obtain ⟨o, rfl, hwait, hopen⟩ := hblocks
            obtain ⟨result, hresult, rfl⟩ := Option.map_eq_some_iff.mp hpool
            refine blocked_post hs hwait ?_ ?_
            · simp only [Dispatcher.postNativeTask, hopen] at hresult
              split at hresult
              next hfalse => cases hfalse
              next =>
                split at hresult
                next => cases hresult
                next =>
                  cases hresult
                  simp
            · intro hclosed
              rw [hopen] at hclosed
              cases hclosed
        | _ => cases hblocks
      next => cases h
  | _ => cases hblocks

/-- A step blocks one pool thread at most. -/
theorem blocks_unique (hs : Kept s) {a : PoolCallAction O P K ι V} {w v : Fin 2}
    (hw : Blocks errorName s w a) (hv : Blocks errorName s v a) : w = v := by
  cases a with
  | detach t o raised => exact Sum.inl.inj (hw.1.symm.trans hv.1)
  | detachNext t raised => exact Sum.inl.inj (hw.1.symm.trans hv.1)
  | closeDispatcher t => exact Sum.inl.inj (hw.1.symm.trans hv.1)
  | close t x order related => exact Sum.inl.inj (hw.1.symm.trans hv.1)
  | pool a =>
      cases a with
      | post d event latest =>
          obtain ⟨o, rfl, hwait, -⟩ := hw
          obtain ⟨o', ho, hwait', -⟩ := hv
          obtain rfl := Sum.inl.inj ho
          exact Sum.inl.inj (hs.alone _ _ o hwait hwait')
      | postNativeTask d task =>
          obtain ⟨o, rfl, hwait, -⟩ := hw
          obtain ⟨o', ho, hwait', -⟩ := hv
          obtain rfl := Sum.inl.inj ho
          exact Sum.inl.inj (hs.alone _ _ o hwait hwait')
      | _ => cases hw
  | _ => cases hw

/-! ## The steps that join a close outside of the pool -/

/-- **A callback joins a close that a thread outside of the pool performs**: its call is not
refused, and comes to the wait of `begin`. -/
def JoinsOutside (s : PoolCalls O P K ι V) : PoolCallAction O P K ι V → Prop
  | .close (.inl w) x _ related => s.closeRefusal (.inl w) related x = none ∧
      (s.close x).status = .closing ∧ ∃ i, (x, (s.close x).generation) ∈ (s.call (.inr i)).jobs
  | _ => False

/-- Thread `t` goes on to `c`. -/
theorem JoinsInside.goto (hs : JoinsInside s) {c : PoolCall O P K} (hcall : r.call = s.call)
    (hjoin : ∀ w x g, t = .inl w → c.wait = some (.join x g) → ∀ i, (x, g) ∉ (s.call (.inr i)).jobs)
    (hjobs : ∀ w x g, (s.call (.inl w)).wait = some (.join x g) → (x, g) ∈ c.jobs →
      (x, g) ∈ (s.call t).jobs) : JoinsInside (r.goto t c) := by
  intro w x g i hwait hjob
  rw [goto_call, hcall] at hwait hjob
  split at hwait
  next hw =>
    have hne : (.inr i : Fin 2 ⊕ ι) ≠ t := fun hi => Sum.inr_ne_inl (hi.trans hw.symm)
    rw [if_neg hne] at hjob
    exact hjoin w x g hw.symm hwait i hjob
  next =>
    split at hjob
    next hi => exact hs w x g i hwait (hi ▸ hjobs w x g hwait hjob)
    next => exact hs w x g i hwait hjob

/-- A thread goes on with some of its closes and joins none. -/
theorem JoinsInside.goes (hs : JoinsInside s) {c : PoolCall O P K} (hcall : r.call = s.call)
    (hwait : ∀ x g, c.wait ≠ some (.join x g)) (hjobs : ∀ job ∈ c.jobs, job ∈ (s.call t).jobs) :
    JoinsInside (r.goto t c) :=
  hs.goto hcall (fun _ x g _ h => absurd h (hwait x g)) fun _ _ _ _ hmem => hjobs _ hmem

/-- **The step lemma.** -/
theorem inside_moves (hs : Kept s) (hj : JoinsInside s) {a : PoolCallAction O P K ι V}
    (ha : ¬ s.JoinsOutside a) (h : Moves errorName s a s') : JoinsInside s' := by
  cases h with
  | pool a pool => exact hj
  | attach o p => exact hj
  | refused => exact hj
  | detach t o => exact hj.goes rfl (by simp) (by simp [PoolCall.jobs])
  | join t x order related hcan _ hpass hclosing =>
      refine hj.goto rfl ?_ fun _ _ _ _ hmem => hmem
      rintro w y g rfl hwait i hjob
      cases hwait
      exact ha ⟨hpass, hclosing, i, hjob⟩
  | perform t x order related =>
      refine hj.goto rfl (fun _ _ _ _ h => by cases h) fun w y g hwait hmem => ?_
      rcases List.mem_cons.mp hmem with hjob | htail
      · -- nobody has joined a generation that has not begun
        have hfits : g ≤ (s.close y).generation := hs.fits _ _ hwait
        obtain ⟨rfl, rfl⟩ : y = x ∧ g = (s.close x).generation + 1 := by
          cases x <;> simpa [newFrame, CloseFrame.job] using hjob
        omega
      · exact htail
  | skip t raised p g o rest frames hcan hf _ =>
      exact hj.goes rfl (by simp) (by simp [PoolCall.jobs, hf, CloseFrame.job])
  | detachNext t p g o rest frames hcan hf _ _ =>
      exact hj.goes rfl (by simp) (by simp [PoolCall.jobs, hf, CloseFrame.job])
  | notDetached t raised p g o rest frames e hcan hf _ =>
      refine hj.goes rfl (by simp) fun job hmem => ?_
      simp [PoolCall.jobs, hf, List.mem_map.mp hmem]
  | closeDispatcher t d f f' frames hcan hf hclose =>
      obtain ⟨-, hjob, -⟩ := CloseFrame.toClose_spec hclose
      exact hj.goes rfl (by simp) (by simp [PoolCall.jobs, hf, hjob])
  | succeed t error f frames hcan hf =>
      refine hj.goes rfl (by simp) fun job hmem => ?_
      simp [PoolCall.jobs, hf, List.mem_map.mp hmem]
  | fail t error f frames hcan hf =>
      refine hj.goes rfl (by simp) fun job hmem => ?_
      simp [PoolCall.jobs, hf, List.mem_map.mp hmem]
  | unbind t o => exact hj.goes rfl (by simp) fun _ hmem => hmem
  | drained t d => exact hj.goes rfl (by simp) fun _ hmem => hmem
  | joined t x g c => exact hj.goes rfl (by simp) fun _ hmem => hmem

/-! ## The promise -/

/-- A step blocks a pool thread only while the other one is not blocked. -/
def WaitsInTurn (errorName : ℤ → String) (s : PoolCalls O P K ι V)
    (a : PoolCallAction O P K ι V) : Prop :=
  ∀ w, Blocks errorName s w a → ∀ v, v ≠ w → ¬ s.Blocked v

/-- **The rule** for a step. -/
structure Admits (errorName : ℤ → String) (s : PoolCalls O P K ι V)
    (a : PoolCallAction O P K ι V) : Prop where
  turn : s.WaitsInTurn errorName a
  inside : ¬ s.JoinsOutside a

/-- Under the rule no pool thread joins a close outside of the pool. -/
theorem reach_inside (hs : (machine O P K ι V errorName).ReachWith (Admits errorName) s) :
    JoinsInside s := by
  refine hs.invariant_of (I := JoinsInside) (J := Kept) (fun _ hr => reach_kept hr) ?_ ?_
  · rintro r ⟨capacity, frameCapacity, rfl⟩ - w x g i hwait
    cases hwait
  · intro r a r' hr _ hj hadmits hstep
    exact inside_moves hr hj hadmits.inside (step_moves hstep)

/-- **Under the rule one pool thread at most is blocked.** -/
theorem reach_free (hs : (machine O P K ι V errorName).ReachWith (Admits errorName) s)
    {w v : Fin 2} (hv : v ≠ w) (hb : s.Blocked w) : ¬ s.Blocked v := by
  induction hs generalizing w v with
  | start hstart =>
      obtain ⟨capacity, frameCapacity, rfl⟩ := hstart
      obtain ⟨wait, hwait, -⟩ := hb
      cases hwait
  | step hr hadmits hstep ih =>
      intro hb'
      have hkept := reach_kept hr
      have hmoves := step_moves hstep
      rcases blocked_moves hkept hmoves hb with hw | hw
      · rcases blocked_moves hkept hmoves hb' with hv' | hv'
        · exact ih hv hw hv'
        · exact hadmits.turn v hv' w hv.symm hw
      · rcases blocked_moves hkept hmoves hb' with hv' | hv'
        · exact hadmits.turn w hw v hv hv'
        · exact hv (blocks_unique hkept hv' hw)

end Steps

/-! ## Two callbacks that close each other's Outputs -/

/-- Callbacks of two unbound Outputs run, each on one pool thread; each closes the other Output, and
pool thread 0 comes to the wait of `_dispatcher.close()`. -/
def closingEachOther : List (PoolCallAction (Fin 2) Unit Unit Unit (List PyValue)) :=
  [.pool (.post (.inl 0) (nativeEvent .state [.int 1]) true),
   .pool (.post (.inl 1) (nativeEvent .state [.int 1]) true),
   .pool (.put (.inl 0)), .pool (.put (.inl 1)), .pool (.get 0), .pool (.get 1),
   .pool (.drainBegin 0), .pool (.drainBegin 1),
   .close (.inl 0) (.output 1) [] false, .close (.inl 1) (.output 0) [] false,
   .closeDispatcher (.inl 0)]

/-- The objects before the first call. -/
def fresh : PoolCalls (Fin 2) Unit Unit Unit (List PyValue) :=
  { pool := { dispatchers := fun _ => .init } }

theorem fresh_start (errorName : ℤ → String) :
    (machine (Fin 2) Unit Unit Unit (List PyValue) errorName).start fresh :=
  ⟨fun _ => 64, fun _ => none, rfl⟩

/-- Each pool thread waits for the handler that the other one runs. -/
def waitsForOther (s : PoolCalls (Fin 2) Unit Unit Unit (List PyValue)) : Bool :=
  decide ((s.call (.inl 0)).wait = some (.closing (.inl 1))) &&
    decide ((s.call (.inl 1)).wait = some (.closing (.inl 0))) &&
    !(s.pool.dispatchers (.inl 0)).closeDone && !(s.pool.dispatchers (.inl 1)).closeDone

/-- No pool thread waits, and the thread outside of the pool closes nothing. -/
def calm (s : PoolCalls (Fin 2) Unit Unit Unit (List PyValue)) : Bool :=
  ((s.call (.inl 0)).wait.isNone && (s.call (.inl 1)).wait.isNone) &&
    (s.call (.inr ())).frames.isEmpty

/-- While no pool thread waits, and no other thread closes anything, every step keeps to the rule.
-/
theorem admits_of_calm {s : PoolCalls (Fin 2) Unit Unit Unit (List PyValue)} (h : calm s = true)
    (a : PoolCallAction (Fin 2) Unit Unit Unit (List PyValue)) :
    s.Admits (fun _ => "") a := by
  simp only [calm, Bool.and_eq_true, Option.isNone_iff_eq_none, List.isEmpty_iff] at h
  have hnone : ∀ v : Fin 2, (s.call (.inl v)).wait = none := Fin.forall_fin_two.mpr h.1
  constructor
  · rintro w - v - ⟨wait, hwait, -⟩
    rw [hnone v] at hwait
    cases hwait
  · intro hjoins
    unfold JoinsOutside at hjoins
    split at hjoins
    · obtain ⟨-, -, i, hjob⟩ := hjoins
      simp [PoolCall.jobs, h.2] at hjob
    · exact hjoins

/-- Pool thread 0 waits for the handler that the other one runs, which is about to wait too. -/
def oneWaits (s : PoolCalls (Fin 2) Unit Unit Unit (List PyValue)) : Bool :=
  decide ((s.call (.inl 0)).wait = some (.closing (.inl 1))) &&
    decide ((s.call (.inl 1)).frames = [.output 0 1 false]) &&
    !(s.pool.dispatchers (.inl 0)).closeDone && !(s.pool.dispatchers (.inl 1)).closeDone &&
    (s.step (fun _ => "") (.closeDispatcher (.inl 1))).isSome

end PoolCalls

end Tirtc
