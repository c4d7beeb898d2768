import Mathlib.Logic.Relation
import Tirtc.Core.AttemptSteps

/-!
# The events on their way to the handler

* `Shared.pending`: the events with the handler and in the queue, in their order.
* `callStep_queue`: the steps of the calls leave them alone.
* `mem_pending_post`, `mem_pending_environment`: what the Runtime and the pool add and take.
* `Scheduled`, `reach_scheduled`: what is to be done, the pool knows of.
* `PoolStep`, `pool_drains`: and it comes to the end of it.
-/

set_option autoImplicit false

namespace Tirtc

open Transition

variable {ι : Type} {errorName : ℤ → String}

/-- The events that are with the handler or in the queue, in the order in which they came. -/
def Shared.pending (s : Shared ι) : List ConnectionEvent :=
  s.delivering.toList ++ s.connection.dispatcher.events

/-! ### The calls -/

/-- The queue, the handler, the number of posts and the number of attempts are the same. -/
structure SameQueue (s s' : Shared ι) : Prop where
  delivering : s'.delivering = s.delivering
  clock : s'.clock = s.clock
  events : s'.connection.dispatcher.events = s.connection.dispatcher.events
  executing : s'.connection.dispatcher.executing = s.connection.dispatcher.executing
  scheduled : s'.connection.dispatcher.scheduled = s.connection.dispatcher.scheduled
  generation : s'.connection.connectGeneration = s.connection.connectGeneration

theorem SameQueue.refl (s : Shared ι) : SameQueue s s := ⟨rfl, rfl, rfl, rfl, rfl, rfl⟩

theorem SameQueue.pending {s s' : Shared ι} (h : SameQueue s s') : s'.pending = s.pending := by
  unfold Shared.pending
  rw [h.delivering, h.events]

/-- Another record with the same dispatcher and the same number of attempts. -/
theorem SameQueue.of_record {s : Shared ι} {c : Connection}
    (hdispatcher : c.dispatcher = s.connection.dispatcher)
    (hgeneration : c.connectGeneration = s.connection.connectGeneration) :
    SameQueue s { s with connection := c } :=
  ⟨rfl, rfl, congrArg Dispatcher.events hdispatcher, congrArg Dispatcher.executing hdispatcher,
    congrArg Dispatcher.scheduled hdispatcher, hgeneration⟩

/-- The histories are no matter. -/
theorem SameQueue.note {s s' : Shared ι} (h : SameQueue s s') (a : ℕ)
    (f : Attempt ι → Attempt ι) : SameQueue s (s'.note a f) :=
  ⟨h.delivering, h.clock, h.events, h.executing, h.scheduled, h.generation⟩

/-- The same, where a terminal code is noted. -/
theorem SameQueue.settle {s : Shared ι} {a : ℕ} {cause : Cause} {c : Connection}
    (hdispatcher : c.dispatcher = s.connection.dispatcher)
    (hgeneration : c.connectGeneration = s.connection.connectGeneration) :
    SameQueue s (s.settle a cause c) := by
  unfold Shared.settle
  split
  · split
    · exact .of_record hdispatcher hgeneration
    · exact (SameQueue.of_record hdispatcher hgeneration).note a _
  · exact .of_record hdispatcher hgeneration

/-- A step of `_cancel_connect` leaves the events alone. -/
theorem CancelMoves.queue {s s' : Shared ι} {i : ι} {a : ℕ} {error : PyError} {stage : CancelStage}
    {act : CallAction} {next : CancelStage ⊕ Option PyError}
    (h : CancelMoves s i a error stage act s' next) : SameQueue s s' := by
  cases h with
  | terminal => exact .settle rfl rfl
  | _ => exact ⟨rfl, rfl, rfl, rfl, rfl, rfl⟩

/-- A step of `connect` leaves the events alone. -/
theorem connectStep_queue {s s' : Shared ι} {i : ι} {a : ℕ} {stage : ConnectStage}
    {act : CallAction} {pc : Pc}
    (hstep : connectStep errorName s i a stage act = some (s', pc)) : SameQueue s s' := by
  cases connectStep_cases hstep with
  | rolledBack e =>
      unfold Connection.rollback
      split
      · exact ⟨rfl, rfl, rfl, rfl, rfl, rfl⟩
      · exact .refl s
  | cancels _ _ _ _ hmoves => exact hmoves.queue
  | cancelled _ _ _ hmoves => exact hmoves.queue
  | cancelRaises _ _ _ _ hmoves => exact hmoves.queue
  | finishes =>
      refine SameQueue.note ?_ a _
      rw [s.connection.finishConnect_eq]
      exact ⟨rfl, rfl, rfl, rfl, rfl, rfl⟩
  | _ => exact ⟨rfl, rfl, rfl, rfl, rfl, rfl⟩

/-- A step of `disconnect` leaves the events alone. -/
theorem disconnectStep_queue {s s' : Shared ι} {i : ι} {stage : DisconnectStage}
    {act : CallAction} {pc : Pc}
    (hstep : disconnectStep errorName s i stage act = some (s', pc)) : SameQueue s s' := by
  cases disconnectStep_cases hstep with
  | cancels _ _ _ _ _ hmoves => exact hmoves.queue
  | cancelled _ _ _ _ hmoves => exact hmoves.queue
  | cancelRaises _ _ _ _ _ hmoves => exact hmoves.queue
  | _ => exact ⟨rfl, rfl, rfl, rfl, rfl, rfl⟩

/-- A step of `close` leaves the events alone. -/
theorem closeStep_queue {s s' : Shared ι} {i : ι} {g : ℕ} {stage : CloseStage} {act : CallAction}
    {pc : Pc} (hstep : closeStep errorName s i g stage act = some (s', pc)) : SameQueue s s' := by
  cases closeStep_cases hstep with
  | cancels _ _ _ _ _ hmoves => exact hmoves.queue
  | cancelled _ _ _ _ hmoves => exact hmoves.queue
  | cancelRaises _ _ _ _ _ hmoves => exact hmoves.queue
  | _ => exact ⟨rfl, rfl, rfl, rfl, rfl, rfl⟩

/-- **A step of a call leaves the events alone**, and makes an attempt only at the start of
`connect`. -/
theorem callStep_queue {s s' : Shared ι} {i : ι} {mode : AuthMode} {p pc : Pc} {act : CallAction}
    (hstep : callStep errorName s i mode p act = some (s', pc)) :
    SameQueue s s' ∨ (act = .connect ∧ s.connection.close.requireOpen = none ∧
      s.connection.activeConnect = none ∧
        s' = s.begun i (mode = .accessKey) ∧ pc = .connect s.next .starting) := by
  unfold callStep at hstep
  split at hstep
  · rcases connectBegin_cases s i mode with ⟨e, h⟩ | ⟨hopen, hnone, h⟩
    · cases h.symm.trans (Option.some.inj hstep)
      exact .inl (.refl s)
    · cases h.symm.trans (Option.some.inj hstep)
      exact .inr ⟨rfl, hopen, hnone, rfl, rfl⟩
  · left
    unfold disconnectBegin at hstep
    repeat' split at hstep
    all_goals cases hstep
    all_goals exact .refl s
  · obtain ⟨close, ⟨pc, heq, -⟩ | ⟨g, stage, heq, -⟩⟩ := closeBegin_cases s
    all_goals
      rw [heq] at hstep
      cases hstep
      exact .inl ⟨rfl, rfl, rfl, rfl, rfl, rfl⟩
  · exact .inl (connectStep_queue hstep)
  · exact .inl (disconnectStep_queue hstep)
  · obtain ⟨outcome, -, hwake⟩ := Option.bind_eq_some_iff.mp hstep
    obtain ⟨close, -, hnext⟩ := Option.map_eq_some_iff.mp hwake
    cases hnext
    exact .inl ⟨rfl, rfl, rfl, rfl, rfl, rfl⟩
  · exact .inl (closeStep_queue hstep)
  · cases hstep

/-! ### The Runtime and the pool -/

/-- Every event behind a post was there before or carries the number of the post. -/
theorem mem_pending_post {s : Shared ι} {kind : EventKind} {values : List PyValue}
    {event : ConnectionEvent} (h : event ∈ (postEvent s kind values).pending) :
    event ∈ s.pending ∨ event.values.tag = s.clock := by
  have hposted := s.connection.dispatcher.post_spec
    (nativeEvent kind (⟨s.clock, values⟩ : Tagged (List PyValue))) kind.isLatest
  have hmarked (d : Dispatcher (Tagged (List PyValue))) :
      (d.marked (nativeEvent kind ⟨s.clock, values⟩)).values.tag = s.clock := by
    unfold Dispatcher.marked
    simp only
    split <;> rfl
  change event ∈ s.delivering.toList ++ (s.connection.dispatcher.post _ _).dispatcher.events at h
  rcases List.mem_append.mp h with h | h
  · exact .inl (List.mem_append_left _ h)
  suffices hevents : event ∈ s.connection.dispatcher.events ∨ event.values.tag = s.clock by
    exact hevents.imp_left (List.mem_append_right _)
  generalize s.connection.dispatcher.post _ _ = r at hposted h
  cases hposted with
  | closed => exact .inl h
  | coalesced xs old ys _ hsplit =>
      simp only [List.mem_append, List.mem_cons] at h
      rw [hsplit]
      rcases h with h | rfl | h
      · exact .inl (by simp [h])
      · exact .inr rfl
      · exact .inl (by simp [h])
  | frameRefused => exact .inl h
  | refused => exact .inl h
  | evicted xs victim ys _ _ _ hsplit =>
      rw [Dispatcher.enqueue_events, List.mem_append, List.mem_singleton] at h
      rw [hsplit]
      rcases h with h | rfl
      · have hmem : event ∈ xs ++ ys := h
        rcases List.mem_append.mp hmem with h | h
        · exact .inl (by simp [h])
        · exact .inl (by simp [h])
      · exact .inr (hmarked _)
  | beyond =>
      rw [Dispatcher.enqueue_events, List.mem_append, List.mem_singleton] at h
      rcases h with h | rfl
      · exact .inl h
      · exact .inr (hmarked _)
  | appended =>
      rw [Dispatcher.enqueue_events, List.mem_append, List.mem_singleton] at h
      rcases h with h | rfl
      · exact .inl h
      · exact .inr (hmarked _)

/-- The completion of a managed attempt leaves the events alone. -/
theorem managedComplete_queue (s : Shared ι) (a : ℕ) (code : ℤ) :
    SameQueue s (s.settle a .managed (s.connection.managedComplete a code)) := by
  rcases managedComplete_cases s a code with ⟨-, -, heq⟩ | heq
  · rw [heq]
    exact ⟨rfl, rfl, rfl, rfl, rfl, rfl⟩
  · rw [heq]
    exact .refl s

/-- The handler takes its event. -/
theorem pending_deliver (s : Shared ι) (event : ConnectionEvent) :
    (deliver s event).pending = s.connection.dispatcher.events := by
  rcases deliver_cases s event with ⟨⟨state, hd⟩, -⟩ | ⟨a, state, code, terminal, -, -, -, -, hd⟩
  · rw [hd]
    rfl
  · rw [hd]
    rfl

/-- The pool moves the events on: none comes that was not there. -/
theorem mem_pending_environment {s s' : Shared ι} {e : Environment}
    (hpost : ∀ kind values, e ≠ .post kind values) (hstep : environmentStep s e = some s')
    {event : ConnectionEvent} (h : event ∈ s'.pending) : event ∈ s.pending := by
  cases e with
  | post kind values => exact absurd rfl (hpost kind values)
  | managedComplete a code =>
      simp only [environmentStep] at hstep
      split at hstep
      · cases hstep
        rwa [(managedComplete_queue s a code).pending] at h
      · cases hstep
  | drainBegin =>
      simp only [environmentStep] at hstep
      split at hstep
      · cases hstep
      · cases hstep
        refine List.mem_append_right _ ?_
        cases hevents : s.connection.dispatcher.events with
        | nil => simp [Shared.pending, Dispatcher.drainBegin_nil hevents, hevents] at h
        | cons head rest =>
            simpa [Shared.pending, Dispatcher.drainBegin_cons hevents] using h
  | handle =>
      obtain ⟨taken, -, rfl⟩ := Option.map_eq_some_iff.mp hstep
      rw [pending_deliver] at h
      exact List.mem_append_right _ h
  | drainEnd =>
      simp only [environmentStep] at hstep
      split at hstep
      · cases hstep
        exact h
      · cases hstep

/-- The Runtime and the pool count the posts. -/
theorem clock_environment {s s' : Shared ι} {e : Environment}
    (hstep : environmentStep s e = some s') : s.clock ≤ s'.clock := by
  cases e with
  | post kind values =>
      cases hstep
      exact Nat.le_succ _
  | managedComplete a code =>
      simp only [environmentStep] at hstep
      split at hstep
      · cases hstep
        exact (managedComplete_queue s a code).clock.ge
      · cases hstep
  | drainBegin =>
      simp only [environmentStep] at hstep
      split at hstep <;> cases hstep
      exact le_refl _
  | handle =>
      obtain ⟨taken, -, rfl⟩ := Option.map_eq_some_iff.mp hstep
      rcases deliver_cases s taken with ⟨⟨state, hd⟩, -⟩ | ⟨_, _, _, _, -, -, -, -, hd⟩ <;>
        rw [hd] <;> exact le_refl _
  | drainEnd =>
      simp only [environmentStep] at hstep
      split at hstep <;> cases hstep
      exact le_refl _

/-! ### The pool drains the queue -/

/-- The dispatcher that has an event, or executes one, is scheduled. -/
def Scheduled (s : Shared ι) : Prop :=
  s.connection.dispatcher.scheduled = false →
    s.connection.dispatcher.events = [] ∧ s.connection.dispatcher.executing = false

/-- The calls are no matter. -/
theorem Scheduled.of_queue {s s' : Shared ι} (h : Scheduled s) (hqueue : SameQueue s s') :
    Scheduled s' := by
  unfold Scheduled
  rw [hqueue.scheduled, hqueue.events, hqueue.executing]
  exact h

/-- Whoever puts an event into the queue has the dispatcher scheduled. -/
theorem Scheduled.post {s : Shared ι} (h : Scheduled s) (kind : EventKind)
    (values : List PyValue) : Scheduled (postEvent s kind values) := by
  unfold Scheduled postEvent Dispatcher.nativeSink
  dsimp only
  have hposted := s.connection.dispatcher.post_spec
    (nativeEvent kind (⟨s.clock, values⟩ : Tagged (List PyValue))) kind.isLatest
  generalize s.connection.dispatcher.post _ _ = r at hposted ⊢
  cases hposted with
  | closed | frameRefused | refused => exact h
  | coalesced xs old ys _ hevents =>
      intro hidle
      obtain ⟨hnone, -⟩ := h hidle
      simp [hevents] at hnone
  | evicted | beyond | appended => exact nofun

/-- **A step of the Runtime or the pool leaves nothing unscheduled.** -/
theorem Scheduled.environment {s s' : Shared ι} {e : Environment} (h : Scheduled s)
    (hstep : environmentStep s e = some s') : Scheduled s' := by
  cases e with
  | post kind values =>
      cases hstep
      exact h.post kind values
  | managedComplete a code =>
      simp only [environmentStep] at hstep
      split at hstep
      · cases hstep
        exact h.of_queue (managedComplete_queue s a code)
      · cases hstep
  | drainBegin =>
      simp only [environmentStep] at hstep
      split at hstep
      · cases hstep
      next hexecuting =>
        cases hstep
        cases hevents : s.connection.dispatcher.events with
        | nil =>
            intro _
            simpa [Dispatcher.drainBegin_nil hevents, hevents] using hexecuting
        | cons head rest =>
            intro hidle
            simp only [Dispatcher.drainBegin_cons hevents] at hidle
            cases hevents.symm.trans (h hidle).1
  | handle =>
      obtain ⟨event, -, rfl⟩ := Option.map_eq_some_iff.mp hstep
      rcases deliver_cases s event with ⟨⟨state, hd⟩, -⟩ | ⟨_, _, _, _, -, -, -, -, hd⟩
      · rw [hd]
        exact h
      · rw [hd]
        exact h
  | drainEnd =>
      simp only [environmentStep] at hstep
      split at hstep
      next hdone =>
        cases hstep
        intro (hidle : (!s.connection.dispatcher.events.isEmpty &&
          s.connection.dispatcher.scheduled) = false)
        rcases Bool.and_eq_false_iff.mp hidle with hempty | hscheduled
        · exact ⟨List.isEmpty_iff.mp ((Bool.not_eq_false' _).mp hempty), rfl⟩
        · exact ⟨(h hscheduled).1, rfl⟩
      · cases hstep

/-- **Nothing is left unscheduled**, in any run of the calls. -/
theorem reach_scheduled [DecidableEq ι] {mode : AuthMode} {c : Config ι (Shared ι) Pc}
    (hc : (calls ι mode errorName).machine.Reach c) : Scheduled c.shared := by
  refine hc.invariant (I := fun c => Scheduled c.shared) ?_ ?_
  · rintro ⟨shared, pc⟩ ⟨hstart, -⟩
    obtain rfl : shared = {} := hstart
    exact fun _ => ⟨rfl, rfl⟩
  · rintro c (⟨i, act⟩ | e) c' h - hstep
    · obtain ⟨⟨s', p'⟩, hnext, rfl⟩ := Option.map_eq_some_iff.mp hstep
      rcases callStep_queue hnext with hqueue | ⟨-, -, -, rfl, -⟩
      · exact h.of_queue hqueue
      · exact h
    · obtain ⟨s', hnext, rfl⟩ := Option.map_eq_some_iff.mp hstep
      exact h.environment hnext

/-- A step of the pool on the dispatcher, which is scheduled. -/
def PoolStep (s s' : Shared ι) : Prop :=
  s.connection.dispatcher.scheduled = true ∧
    ∃ e, (e = .drainBegin ∨ e = .handle ∨ e = .drainEnd) ∧ environmentStep s e = some s'

/-- How many steps the pool has before it: three for an event in the queue, what is left of the one
that it executes, and the one that ends the schedule. -/
def poolWork (s : Shared ι) : ℕ :=
  3 * s.connection.dispatcher.events.length +
    (if s.connection.dispatcher.executing then if s.delivering.isSome then 2 else 1 else 0) +
    if s.connection.dispatcher.scheduled then 1 else 0

/-- The handler that ends leaves less to do. -/
theorem poolWork_deliver {s : Shared ι} {event : ConnectionEvent}
    (hexecuting : s.connection.dispatcher.executing = true)
    (hdelivering : s.delivering = some event) : poolWork (deliver s event) < poolWork s := by
  have hdispatcher : (deliver s event).connection.dispatcher = s.connection.dispatcher := by
    rcases deliver_cases s event with ⟨⟨state, hd⟩, -⟩ | ⟨a, state, code, terminal, -, -, -, -, hd⟩
    all_goals rw [hd]; rfl
  have hnone : (deliver s event).delivering = none := by
    rcases deliver_cases s event with ⟨⟨state, hd⟩, -⟩ | ⟨a, state, code, terminal, -, -, -, -, hd⟩
    all_goals rw [hd]; rfl
  simp only [poolWork, hdispatcher, hnone, hexecuting, hdelivering, Option.isSome_some,
    Option.isSome_none, if_true, Bool.false_eq_true, if_false]
  omega

/-- So does the dispatcher that comes back from the handler, scheduled again or not. -/
theorem poolWork_drainEnd {s : Shared ι} (hscheduled : s.connection.dispatcher.scheduled = true)
    (hexecuting : s.connection.dispatcher.executing = true) (hdelivering : s.delivering = none) :
    poolWork { s with
      connection := { s.connection with dispatcher := s.connection.dispatcher.drainEnd.2 } } <
      poolWork s := by
  have htoken : (if (s.connection.dispatcher.drainEnd.2).scheduled then 1 else 0) ≤ 1 := by
    split <;> simp
  have hevents : (s.connection.dispatcher.drainEnd.2).events = s.connection.dispatcher.events := rfl
  have hended : (s.connection.dispatcher.drainEnd.2).executing = false := rfl
  simp only [poolWork, hevents, hended, hscheduled, hexecuting, hdelivering, Option.isSome_none,
    if_true, Bool.false_eq_true, if_false]
  omega

/-- A dispatcher that is scheduled is served, and there is less to do then. -/
theorem exists_poolStep {s : Shared ι} (h : s.connection.dispatcher.scheduled = true) :
    ∃ s', PoolStep s s' ∧ poolWork s' < poolWork s := by
  cases hexecuting : s.connection.dispatcher.executing with
  | true =>
      cases hdelivering : s.delivering with
      | some event =>
          refine ⟨deliver s event, ⟨h, .handle, .inr (.inl rfl), ?_⟩,
            poolWork_deliver hexecuting hdelivering⟩
          simp [environmentStep, hdelivering]
      | none =>
          exact ⟨_, ⟨h, .drainEnd, .inr (.inr rfl), if_pos (by simp [hexecuting, hdelivering])⟩,
            poolWork_drainEnd h hexecuting hdelivering⟩
  | false =>
      refine ⟨_, ⟨h, .drainBegin, .inl rfl, if_neg (by simp [hexecuting])⟩, ?_⟩
      cases hevents : s.connection.dispatcher.events with
      | nil => simp [poolWork, hevents, hexecuting, h]
      | cons head rest =>
          -- an event fewer in the queue, and two steps for it
          simp only [poolWork, hevents, hexecuting, h, List.length_cons, Option.isSome_some,
            if_true, Bool.false_eq_true, if_false]
          omega

/-- **The pool drains the queue**: its steps lead to where barriers and closes go on. -/
theorem pool_drains {s : Shared ι} (h : Scheduled s) :
    ∃ s', Relation.ReflTransGen PoolStep s s' ∧ s'.connection.dispatcher.barrierDone = true ∧
      s'.connection.dispatcher.closeDone = true := by
  induction hn : poolWork s using Nat.strong_induction_on generalizing s with
  | h n ih =>
      cases hscheduled : s.connection.dispatcher.scheduled with
      | false =>
          obtain ⟨hevents, hexecuting⟩ := h hscheduled
          exact ⟨s, .refl, by
            simp [Dispatcher.barrierDone, Dispatcher.closeDone, hevents, hexecuting, hscheduled]⟩
      | true =>
          obtain ⟨s', hstep, hless⟩ := exists_poolStep hscheduled
          obtain ⟨-, e, -, henvironment⟩ := id hstep
          obtain ⟨t, hrun, hdone⟩ := ih _ (hn ▸ hless) (h.environment henvironment) rfl
          exact ⟨t, .head hstep hrun, hdone⟩

end Tirtc
