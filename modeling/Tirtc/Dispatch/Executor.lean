import Tirtc.Dispatch.Dispatcher
import Tirtc.Lib.Counting

/-!
# The callback executor: one token per dispatcher

`_dispatch._CallbackExecutor` drains all dispatchers of the process with two threads and one ready
queue. A dispatcher that has events has one token: an entry of the ready queue, a `schedule` call
that was decided under the lock and not yet made, or a pool thread inside `_drain_one`.

* `Executor`, `machine`: any number of dispatchers, posting threads and pool steps.
* `tokens`: the number of tokens of a dispatcher.
* `Phase d n`: a dispatcher with `n` tokens is scheduled, quiet or discarded; one lemma says how
  each section moves between the phases.
* `phases_step`, `reach_phases`: the step lemma and the run lemma.
* `serial_delivery`: at most one token, and exactly one while events are queued.
* `simulates_dispatcher`, `reach_dispatcher`: each dispatcher of the pool runs as
  `Dispatcher.machine`, which drains only while no handler runs.
-/

set_option autoImplicit false

namespace Tirtc

open Counting Transition

/-- Where a pool thread is in `_CallbackExecutor._run`: at `self._ready.get()`, before the first
section of `_drain_one`, in the handler, or before the `schedule` call at its end. -/
inductive Worker (D V : Type)
  | idle
  | fetched (d : D)
  | running (d : D) (event : Event V)
  | rescheduling (d : D)

namespace Worker

variable {D V : Type}

/-- The dispatcher whose token the thread holds. -/
def token : Worker D V → Option D
  | .idle => none
  | .fetched d => some d
  | .running d _ => some d
  | .rescheduling d => some d

/-- The dispatcher whose handler the thread runs. -/
def handling : Worker D V → Option D
  | .running d _ => some d
  | _ => none

@[simp] theorem token_idle : (idle : Worker D V).token = none := rfl
@[simp] theorem token_fetched (d : D) : (fetched d : Worker D V).token = some d := rfl
@[simp] theorem token_running (d : D) (event : Event V) : (running d event).token = some d := rfl
@[simp] theorem token_rescheduling (d : D) : (rescheduling d : Worker D V).token = some d := rfl
@[simp] theorem handling_idle : (idle : Worker D V).handling = none := rfl
@[simp] theorem handling_fetched (d : D) : (fetched d : Worker D V).handling = none := rfl
@[simp] theorem handling_running (d : D) (event : Event V) :
    (running d event).handling = some d := rfl
@[simp] theorem handling_rescheduling (d : D) :
    (rescheduling d : Worker D V).handling = none := rfl

/-- A thread in a handler holds the token. -/
theorem token_of_handling {w : Worker D V} {d : D} (h : w.handling = some d) :
    w.token = some d := by
  cases w <;> simp_all [handling, token]

end Worker

/-- All dispatchers of the process, the ready queue, the `schedule` calls of posting threads that
are decided and not yet made, and the two pool threads.
Source: `_dispatch.py`, `_CallbackExecutor` -/
structure Executor (D V : Type) where
  dispatchers : D → Dispatcher V
  ready : List D := []
  putting : List D := []
  worker : Fin 2 → Worker D V := fun _ => .idle

/-- The lock-held sections, the `put` and the `get`. `barrier` and the wait of `close` change
nothing. -/
inductive ExecutorAction (D V : Type)
  | post (d : D) (event : Event V) (latest : Bool)
  | postNativeTask (d : D) (task : V)
  | close (d : D)
  | discard (d : D)
  | put (d : D)
  | get (w : Fin 2)
  | drainBegin (w : Fin 2)
  | drainEnd (w : Fin 2)
  | reschedule (w : Fin 2)

namespace Executor

variable {D V : Type} [DecidableEq D]

/-- A section of dispatcher `d` that may decide to schedule. -/
def afterPost (s : Executor D V) (d : D) (r : PostResult V) : Executor D V :=
  { s with
    dispatchers := Function.update s.dispatchers d r.dispatcher
    putting := if r.schedule then d :: s.putting else s.putting }

/-- Pool thread `w` leaves dispatcher `d` as `next` and goes to `worker`. -/
def advance (s : Executor D V) (w : Fin 2) (d : D) (next : Dispatcher V) (worker : Worker D V) :
    Executor D V :=
  { s with
    dispatchers := Function.update s.dispatchers d next
    worker := Function.update s.worker w worker }

/-- One section, `put` or `get`. -/
def step [FrameValues V] (s : Executor D V) : ExecutorAction D V → Option (Executor D V)
  | .post d event latest => some (s.afterPost d ((s.dispatchers d).post event latest))
  | .postNativeTask d task => ((s.dispatchers d).postNativeTask task).map (s.afterPost d)
  | .close d => some (s.afterPost d ⟨(s.dispatchers d).close, true, false⟩)
  | .discard d => some (s.afterPost d ⟨(s.dispatchers d).discard, true, false⟩)
  | .put d =>
      if d ∈ s.putting then some { s with putting := s.putting.erase d, ready := s.ready ++ [d] }
      else none
  | .get w =>
      match s.worker w, s.ready with
      | .idle, d :: ready =>
          some { s with ready := ready, worker := Function.update s.worker w (.fetched d) }
      | _, _ => none
  | .drainBegin w =>
      match s.worker w with
      | .fetched d =>
          match (s.dispatchers d).drainBegin with
          | (none, next) => some (s.advance w d next .idle)
          | (some event, next) => some (s.advance w d next (.running d event))
      | _ => none
  | .drainEnd w =>
      match s.worker w with
      | .running d _ =>
          let (pending, next) := (s.dispatchers d).drainEnd
          some (s.advance w d next (if pending then .rescheduling d else .idle))
      | _ => none
  | .reschedule w =>
      match s.worker w with
      | .rescheduling d =>
          some { s with ready := s.ready ++ [d], worker := Function.update s.worker w .idle }
      | _ => none

section Steps

variable [FrameValues V] {s t : Executor D V} {w : Fin 2}

theorem put_cases {d : D} (h : s.step (.put d) = some t) :
    d ∈ s.putting ∧ t = { s with putting := s.putting.erase d, ready := s.ready ++ [d] } := by
  simp only [step] at h
  split at h
  next hmem => exact ⟨hmem, (Option.some.inj h).symm⟩
  next => cases h

theorem get_cases (h : s.step (.get w) = some t) :
    ∃ d ready, s.worker w = .idle ∧ s.ready = d :: ready ∧
      t = { s with ready := ready, worker := Function.update s.worker w (.fetched d) } := by
  simp only [step] at h
  split at h
  next d ready hw hr => exact ⟨d, ready, hw, hr, (Option.some.inj h).symm⟩
  next => cases h

/-- The first section of `_drain_one` finds nothing, or takes the first event to the handler. -/
theorem drainBegin_cases (h : s.step (.drainBegin w) = some t) :
    ∃ d, s.worker w = .fetched d ∧
      (((s.dispatchers d).events = [] ∧
        t = s.advance w d { s.dispatchers d with scheduled := false } .idle) ∨
      ∃ event events, (s.dispatchers d).events = event :: events ∧
        t = s.advance w d
          { s.dispatchers d with
            events := events
            frameCount := if event.frame then (s.dispatchers d).frameCount - 1
              else (s.dispatchers d).frameCount
            executing := true } (.running d event)) := by
  simp only [step] at h
  split at h
  next d hw =>
    refine ⟨d, hw, ?_⟩
    cases hev : (s.dispatchers d).events with
    | nil =>
        rw [Dispatcher.drainBegin_nil hev] at h
        exact .inl ⟨rfl, (Option.some.inj h).symm⟩
    | cons event events =>
        rw [Dispatcher.drainBegin_cons hev] at h
        exact .inr ⟨event, events, rfl, (Option.some.inj h).symm⟩
  next => cases h

theorem drainEnd_cases (h : s.step (.drainEnd w) = some t) :
    ∃ d event, s.worker w = .running d event ∧
      t = s.advance w d (s.dispatchers d).drainEnd.2
        (if (s.dispatchers d).drainEnd.1 then .rescheduling d else .idle) := by
  simp only [step] at h
  split at h
  next d event hw => exact ⟨d, event, hw, (Option.some.inj h).symm⟩
  next => cases h

theorem reschedule_cases (h : s.step (.reschedule w) = some t) :
    ∃ d, s.worker w = .rescheduling d ∧
      t = { s with ready := s.ready ++ [d], worker := Function.update s.worker w .idle } := by
  simp only [step] at h
  split at h
  next d hw => exact ⟨d, hw, (Option.some.inj h).symm⟩
  next => cases h

end Steps

/-- The runs of the pool on fresh dispatchers of any capacities. -/
def machine (D V : Type) [DecidableEq D] [FrameValues V] :
    Machine (Executor D V) (ExecutorAction D V) where
  start s := ∃ (capacity : D → ℕ) (frameCapacity : D → Option ℕ),
    s = { dispatchers := fun d => .init (capacity d) (frameCapacity d) }
  step := step

/-- The tokens of a dispatcher: entries of the ready queue, `schedule` calls to come, and pool
threads between `get` and the end of `_drain_one`. -/
noncomputable def tokens (s : Executor D V) (d : D) : ℕ :=
  s.ready.count d + s.putting.count d + countOf (fun w => w.token = some d) s.worker

end Executor

/-! ## The phases of a dispatcher -/

/-- **The phases of a dispatcher with `n` tokens.** After `discard` the token may still be on its
way although nothing is scheduled any more. -/
inductive Phase {V : Type} (d : Dispatcher V) : ℕ → Prop
  | scheduled : d.scheduled = true → Phase d 1
  | quiet : d.scheduled = false → d.events = [] → d.executing = false → Phase d 0
  | discarded : d.scheduled = false → d.events = [] → d.executing = false → d.closed = true →
      Phase d 1

namespace Phase

variable {V : Type} {d : Dispatcher V} {n : ℕ}

/-- At most one token. -/
theorem le_one (h : Phase d n) : n ≤ 1 := by
  cases h <;> omega

/-- Queued events have their token. -/
theorem of_events (h : Phase d n) (hev : d.events ≠ []) : n = 1 ∧ d.scheduled = true := by
  cases h with
  | scheduled hs => exact ⟨rfl, hs⟩
  | quiet _ he => exact absurd he hev
  | discarded _ he => exact absurd he hev

/-- A section that changes neither the flags nor the emptiness of the queue. -/
theorem congr {d' : Dispatcher V} (h : Phase d n) (hs : d'.scheduled = d.scheduled)
    (he : d.events = [] → d'.events = []) (hx : d'.executing = d.executing)
    (hc : d.closed = true → d'.closed = true) : Phase d' n := by
  cases h with
  | scheduled h₁ => exact .scheduled (hs.trans h₁)
  | quiet h₁ h₂ h₃ => exact .quiet (hs.trans h₁) (he h₂) (hx.trans h₃)
  | discarded h₁ h₂ h₃ h₄ => exact .discarded (hs.trans h₁) (he h₂) (hx.trans h₃) (hc h₄)

/-- An accepted event: the section schedules exactly when no token is there. -/
theorem enqueue {d' : Dispatcher V} (h : Phase d n) (hopen : d.closed = false)
    (hs : d'.scheduled = true) : Phase d' (n + (!d.scheduled).toNat) := by
  cases h with
  | scheduled h₁ => simpa [h₁] using Phase.scheduled hs
  | quiet h₁ => simpa [h₁] using Phase.scheduled hs
  | discarded _ _ _ h₄ => simp [hopen] at h₄

/-- `post` -/
theorem post [FrameValues V] (h : Phase d n) (event : Event V) (latest : Bool) :
    Phase (d.post event latest).dispatcher (n + (d.post event latest).schedule.toNat) := by
  cases hopen : d.closed with
  | true => simpa [d.post_of_closed hopen event latest] using h
  | false =>
      have hposted := d.post_spec event latest
      generalize d.post event latest = r at hposted
      cases hposted with
      | closed => exact h
      | coalesced xs old ys _ hsplit =>
          exact h.congr rfl (fun hev => by simp [hev] at hsplit) rfl id
      | frameRefused => exact h.congr rfl id rfl id
      | refused => exact h
      | evicted => exact h.enqueue hopen rfl
      | beyond => exact h.enqueue hopen rfl
      | appended => exact h.enqueue hopen rfl

/-- `post_native_task` behind its wait -/
theorem postNativeTask {r : PostResult V} {task : V} (h : Phase d n)
    (hr : d.postNativeTask task = some r) : Phase r.dispatcher (n + r.schedule.toNat) := by
  unfold Dispatcher.postNativeTask at hr
  split at hr
  · cases hr
    exact h
  · next hopen =>
      split at hr
      · cases hr
      · cases hr
        exact h.enqueue (by simpa using hopen) rfl

/-- `close` -/
theorem close (h : Phase d n) : Phase d.close n :=
  h.congr rfl id rfl fun _ => rfl

/-- `discard` -/
theorem discard (h : Phase d n) : Phase d.discard n := by
  cases h with
  | quiet h₁ h₂ h₃ =>
      exact .quiet (by simp [Dispatcher.discard, h₁]) (by simp [Dispatcher.discard, h₂]) h₃
  | discarded h₁ h₂ h₃ =>
      exact .discarded (by simp [Dispatcher.discard, h₁]) (by simp [Dispatcher.discard, h₂]) h₃ rfl
  | scheduled h₁ =>
      -- the token stays; the flag goes when neither a native task nor a handler is left
      by_cases hrest : d.discard.events = [] ∧ d.executing = false
      · refine .discarded ?_ hrest.1 hrest.2 rfl
        have hev := hrest.1
        simp only [Dispatcher.discard] at hev ⊢
        simp [hev, hrest.2]
      · refine .scheduled ?_
        simp only [Dispatcher.discard] at hrest ⊢
        simp only [List.isEmpty_iff, Bool.not_eq_true', h₁, Bool.and_true,
          Bool.and_eq_false_imp]
        intro hev
        cases hx : d.executing with
        | true => rfl
        | false => exact absurd ⟨hev, hx⟩ hrest

/-- The first section of `_drain_one` with an empty queue gives the token back. -/
theorem drainNothing (hev : d.events = []) (hx : d.executing = false) :
    Phase { d with scheduled := false } 0 :=
  .quiet rfl hev hx

/-- The first section of `_drain_one` with an event keeps the token. -/
theorem drainEvent {d' : Dispatcher V} (h : Phase d 1) (hev : d.events ≠ [])
    (hs : d'.scheduled = d.scheduled) : Phase d' 1 :=
  .scheduled (hs.trans (h.of_events hev).2)

/-- The last section of `_drain_one` keeps the token while events are queued. -/
theorem drainEnd (h : Phase d 1) (hx : d.executing = true) :
    Phase d.drainEnd.2 d.drainEnd.1.toNat := by
  cases h with
  | discarded _ _ h₃ => simp [hx] at h₃
  | scheduled h₁ =>
      cases hev : d.events with
      | nil =>
          have hpending : d.drainEnd.1.toNat = 0 := by simp [Dispatcher.drainEnd, hev]
          rw [hpending]
          exact .quiet (by simp [Dispatcher.drainEnd, hev]) hev rfl
      | cons event events =>
          have hpending : d.drainEnd.1.toNat = 1 := by simp [Dispatcher.drainEnd, hev]
          rw [hpending]
          exact .scheduled (by simp [Dispatcher.drainEnd, hev, h₁])

end Phase

namespace Executor

variable {D V : Type} [DecidableEq D]

/-! ## The tokens of a step -/

omit [DecidableEq D] in
/-- Only finitely many pool threads hold a token: there are two. -/
theorem finite_token (s : Executor D V) (d : D) :
    FinitelyMany (fun w : Worker D V => w.token = some d) s.worker := Set.toFinite _

/-- **The invariant of the pool**: every dispatcher is in a phase that fits the number of its
tokens, and it is executing exactly while a pool thread runs its handler. -/
structure Phases (s : Executor D V) : Prop where
  phase : ∀ d, Phase (s.dispatchers d) (s.tokens d)
  executing : ∀ d, (s.dispatchers d).executing = true ↔ ∃ w, (s.worker w).handling = some d

/-- A pool thread that holds a token of `d` holds the only one. -/
theorem Phases.unique {s : Executor D V} (hs : Phases s) {d : D} {w w' : Fin 2}
    (hw : (s.worker w).token = some d) (hw' : (s.worker w').token = some d) : w = w' := by
  refine eq_of_countOf_le_one (s.finite_token d) ?_ hw hw'
  have h := (hs.phase d).le_one
  unfold tokens at h
  omega

/-- A dispatcher whose token a pool thread holds has one token. -/
theorem Phases.holds {s : Executor D V} (hs : Phases s) {d : D} {w : Fin 2}
    (hw : (s.worker w).token = some d) : s.tokens d = 1 := by
  have h := (hs.phase d).le_one
  have hpos := countOf_pos_of (s.finite_token d) hw
  unfold tokens at h ⊢
  omega

/-- The handler of a fetched dispatcher runs on no thread, since this one holds the token. -/
theorem Phases.not_executing {s : Executor D V} (hs : Phases s) {d : D} {w : Fin 2}
    (hw : s.worker w = .fetched d) : (s.dispatchers d).executing = false := by
  have htoken : (s.worker w).token = some d := by simp [hw]
  rw [← Bool.not_eq_true, hs.executing]
  rintro ⟨v, hv⟩
  have hvw := hs.unique (Worker.token_of_handling hv) htoken
  simp [hvw, hw] at hv

/-- Where the tokens are after a pool thread has moved on from `d`. -/
theorem tokens_advance (s : Executor D V) (w : Fin 2) (d : D) (next : Dispatcher V)
    (worker : Worker D V) (e : D) :
    (s.advance w d next worker).tokens e + (if (s.worker w).token = some e then 1 else 0) =
      s.tokens e + if worker.token = some e then 1 else 0 := by
  have h := countOf_update (s.finite_token e) w worker
  simp only [tokens, advance]
  omega

/-- A section of `d` that changes no pool thread keeps the invariant when it keeps the phase of
`d` with the token it decides to send. -/
theorem phases_afterPost {s : Executor D V} (hs : Phases s) {d : D} {r : PostResult V}
    (hphase : Phase r.dispatcher (s.tokens d + r.schedule.toNat))
    (hx : r.dispatcher.executing = (s.dispatchers d).executing) : Phases (s.afterPost d r) where
  phase e := by
    have htokens : (s.afterPost d r).tokens e =
        s.tokens e + if d = e then r.schedule.toNat else 0 := by
      cases hr : r.schedule with
      | false => simp [tokens, afterPost, hr]
      | true =>
          simp only [tokens, afterPost, hr, if_true, Bool.toNat_true, List.count_cons, beq_iff_eq]
          omega
    rw [htokens]
    by_cases he : d = e
    · subst he
      simpa [afterPost] using hphase
    · simpa [afterPost, he, Ne.symm he] using hs.phase e
  executing e := by
    by_cases he : e = d
    · subst he
      simpa [afterPost, hx] using hs.executing e
    · simpa [afterPost, he] using hs.executing e

/-- A token that only changes its place. -/
theorem phases_congr {s t : Executor D V} (hs : Phases s) (hd : t.dispatchers = s.dispatchers)
    (htokens : ∀ d, t.tokens d = s.tokens d)
    (hhandling : ∀ d, (∃ w, (t.worker w).handling = some d) ↔
      ∃ w, (s.worker w).handling = some d) : Phases t where
  phase d := by
    rw [hd, htokens]
    exact hs.phase d
  executing d := by
    rw [hd, hhandling]
    exact hs.executing d

omit [DecidableEq D] in
/-- A pool thread that runs no handler before or after moves nobody's handler. -/
theorem handling_update {s : Executor D V} {w : Fin 2} {worker : Worker D V}
    (hw : (s.worker w).handling = none) (hworker : worker.handling = none) (d : D) :
    (∃ v, (Function.update s.worker w worker v).handling = some d) ↔
      ∃ v, (s.worker v).handling = some d := by
  constructor
  · rintro ⟨v, hv⟩
    by_cases hvw : v = w
    · subst hvw
      simp [hworker] at hv
    · exact ⟨v, by simpa [hvw] using hv⟩
  · rintro ⟨v, hv⟩
    have hvw : v ≠ w := by
      rintro rfl
      simp [hw] at hv
    exact ⟨v, by simpa [hvw] using hv⟩

/-- A pool thread that holds the token of `d` takes `d` one section further. -/
theorem phases_advance {s : Executor D V} (hs : Phases s) {d : D} {w : Fin 2}
    {next : Dispatcher V} {worker : Worker D V} (hw : (s.worker w).token = some d)
    (hworker : ∀ e, worker.token = some e → e = d)
    (hphase : Phase next (if worker.token = some d then 1 else 0))
    (hx : next.executing = true ↔ worker.handling = some d) :
    Phases (s.advance w d next worker) where
  phase e := by
    have h := s.tokens_advance w d next worker e
    by_cases he : e = d
    · subst he
      rw [if_pos hw, hs.holds hw] at h
      have htokens : (s.advance w e next worker).tokens e =
          if worker.token = some e then 1 else 0 := by omega
      rw [htokens]
      simpa [advance] using hphase
    · have hne : (s.worker w).token ≠ some e := by
        rw [hw]
        exact fun h => he (Option.some.inj h).symm
      rw [if_neg hne, if_neg fun h => he (hworker e h), Nat.add_zero, Nat.add_zero] at h
      rw [h]
      simpa [advance, he] using hs.phase e
  executing e := by
    -- no other pool thread runs a handler of `d`, and this one runs none of `e`
    by_cases he : e = d
    · subst he
      have honly : (∃ v, (Function.update s.worker w worker v).handling = some e) ↔
          worker.handling = some e := by
        constructor
        · rintro ⟨v, hv⟩
          by_cases hvw : v = w
          · subst hvw
            simpa using hv
          · rw [Function.update_of_ne hvw] at hv
            exact absurd (hs.unique (Worker.token_of_handling hv) hw) hvw
        · exact fun h => ⟨w, by simpa using h⟩
      simpa [advance, hx] using honly.symm
    · have hother : (∃ v, (Function.update s.worker w worker v).handling = some e) ↔
          ∃ v, (s.worker v).handling = some e := by
        constructor
        · rintro ⟨v, hv⟩
          by_cases hvw : v = w
          · subst hvw
            rw [Function.update_self] at hv
            exact absurd (hworker e (Worker.token_of_handling hv)) he
          · exact ⟨v, by simpa [hvw] using hv⟩
        · rintro ⟨v, hv⟩
          have hvw : v ≠ w := by
            rintro rfl
            exact he (Option.some.inj ((Worker.token_of_handling hv).symm.trans hw))
          exact ⟨v, by simpa [hvw] using hv⟩
      simpa [advance, he, hother] using hs.executing e

variable [FrameValues V]

/-- **The step lemma**: every section, `put` and `get` keeps the invariant. -/
theorem phases_step {s t : Executor D V} {a : ExecutorAction D V} (hs : Phases s)
    (h : s.step a = some t) : Phases t := by
  cases a with
  | post d event latest =>
      cases h
      refine phases_afterPost hs ((hs.phase d).post event latest) ?_
      exact (s.dispatchers d).post_executing event latest
  | postNativeTask d task =>
      obtain ⟨r, hr, rfl⟩ := Option.map_eq_some_iff.mp h
      refine phases_afterPost hs ((hs.phase d).postNativeTask hr) ?_
      exact Dispatcher.postNativeTask_executing hr
  | close d =>
      cases h
      exact phases_afterPost hs (hs.phase d).close rfl
  | discard d =>
      cases h
      exact phases_afterPost hs (hs.phase d).discard rfl
  | put d =>
      obtain ⟨hmem, rfl⟩ := put_cases h
      refine phases_congr hs rfl (fun e => ?_) fun e => Iff.rfl
      by_cases he : d = e
      · subst he
        have hpos : 0 < s.putting.count d := List.count_pos_iff.mpr hmem
        simp only [tokens, List.count_append, List.count_singleton_self, List.count_erase_self]
        omega
      · simp [tokens, List.count_append, List.count_erase, he]
  | get w =>
      obtain ⟨d, ready, hw, hr, rfl⟩ := get_cases h
      refine phases_congr hs rfl (fun e => ?_) (handling_update (by simp [hw]) rfl)
      have hcount := countOf_update (s.finite_token e) w (Worker.fetched d)
      simp only [hw, Worker.token_idle, Worker.token_fetched, Option.some.injEq,
        reduceCtorEq, if_false] at hcount
      simp only [tokens, hr, List.count_cons, beq_iff_eq]
      omega
  | drainBegin w =>
      obtain ⟨d, hw, ⟨hev, rfl⟩ | ⟨event, events, hev, rfl⟩⟩ := drainBegin_cases h
      · have hx := hs.not_executing hw
        exact phases_advance hs (by simp [hw]) (by simp) (Phase.drainNothing hev hx) (by simp [hx])
      · have htoken : (s.worker w).token = some d := by simp [hw]
        have hphase := hs.holds htoken ▸ hs.phase d
        refine phases_advance hs htoken (by simp) ?_ (by simp)
        rw [Worker.token_running, if_pos rfl]
        exact hphase.drainEvent (by simp [hev]) rfl
  | drainEnd w =>
      obtain ⟨d, event, hw, rfl⟩ := drainEnd_cases h
      have htoken : (s.worker w).token = some d := by simp [hw]
      have hx : (s.dispatchers d).executing = true := (hs.executing d).mpr ⟨w, by simp [hw]⟩
      have hend := (hs.holds htoken ▸ hs.phase d).drainEnd hx
      cases hp : (s.dispatchers d).drainEnd.1 with
      | true =>
          rw [hp] at hend
          exact phases_advance hs htoken (by simp) (by simpa using hend)
            (by simp [Dispatcher.drainEnd])
      | false =>
          rw [hp] at hend
          exact phases_advance hs htoken (by simp) (by simpa using hend)
            (by simp [Dispatcher.drainEnd])
  | reschedule w =>
      obtain ⟨d, hw, rfl⟩ := reschedule_cases h
      refine phases_congr hs rfl (fun e => ?_) (handling_update (by simp [hw]) rfl)
      have hcount := countOf_update (s.finite_token e) w Worker.idle
      simp only [hw, Worker.token_idle, Worker.token_rescheduling, Option.some.injEq,
        reduceCtorEq, if_false] at hcount
      simp only [tokens, List.count_append, List.count_singleton, beq_iff_eq]
      omega

/-- **The run lemma.** -/
theorem reach_phases {s : Executor D V} (hs : (machine D V).Reach s) : Phases s := by
  refine hs.invariant (I := Phases) ?_ fun _ _ _ hr _ h => phases_step hr h
  rintro r ⟨capacity, frameCapacity, rfl⟩
  have htokens (d : D) : tokens ({ dispatchers := fun d => .init (capacity d) (frameCapacity d) } :
      Executor D V) d = 0 := by
    have h := countOf_const_eq_zero (ι := Fin 2) (p := fun w : Worker D V => w.token = some d)
      (v := .idle) (by simp)
    simpa [tokens] using h
  refine ⟨?_, ?_⟩
  · intro d
    rw [htokens]
    exact .quiet rfl rfl rfl
  · intro d
    simp [Dispatcher.init]

/-! ## Each dispatcher runs on its own -/

/-- A change of one dispatcher by one of its sections, seen from any dispatcher. -/
theorem update_step {s : Executor D V} {e : D} {next : Dispatcher V} (x : Dispatcher.Section V)
    (h : (s.dispatchers e).step x = some next) (d : D) :
    Function.update s.dispatchers e next d = s.dispatchers d ∨
      ∃ x, (s.dispatchers d).step x = some (Function.update s.dispatchers e next d) := by
  by_cases hd : d = e
  · subst hd
    exact .inr ⟨x, by simpa using h⟩
  · exact .inl (by simp [hd])

/-- A pool step is a section of one dispatcher and nothing to the others; a drain begins only
while no handler of that dispatcher runs. -/
theorem step_dispatchers {s t : Executor D V} {a : ExecutorAction D V} (hs : Phases s)
    (h : s.step a = some t) (d : D) :
    t.dispatchers d = s.dispatchers d ∨
      ∃ x, (s.dispatchers d).step x = some (t.dispatchers d) := by
  cases a with
  | post e event latest =>
      cases h
      exact update_step (.post event latest) rfl d
  | postNativeTask e task =>
      obtain ⟨r, hr, rfl⟩ := Option.map_eq_some_iff.mp h
      exact update_step (.postNativeTask task) (by simp [Dispatcher.step, hr]) d
  | close e =>
      cases h
      exact update_step .close rfl d
  | discard e =>
      cases h
      exact update_step .discard rfl d
  | put e =>
      obtain ⟨-, rfl⟩ := put_cases h
      exact .inl rfl
  | get w =>
      obtain ⟨e, ready, -, -, rfl⟩ := get_cases h
      exact .inl rfl
  | drainBegin w =>
      obtain ⟨e, hw, ⟨hev, rfl⟩ | ⟨event, events, hev, rfl⟩⟩ := drainBegin_cases h
      · refine update_step .drainBegin ?_ d
        simp [Dispatcher.step, hs.not_executing hw, Dispatcher.drainBegin_nil hev]
      · refine update_step .drainBegin ?_ d
        simp [Dispatcher.step, hs.not_executing hw, Dispatcher.drainBegin_cons hev]
  | drainEnd w =>
      obtain ⟨e, event, hw, rfl⟩ := drainEnd_cases h
      have hx : (s.dispatchers e).executing = true := (hs.executing e).mpr ⟨w, by simp [hw]⟩
      exact update_step .drainEnd (by simp [Dispatcher.step, hx]) d
  | reschedule w =>
      obtain ⟨e, -, rfl⟩ := reschedule_cases h
      exact .inl rfl

/-- **Each dispatcher of the pool runs as a single one**, drained serially. -/
theorem simulates_dispatcher (d : D) :
    Machine.Simulates (machine D V) (Dispatcher.machine V) fun s x => x = s.dispatchers d where
  start := by
    rintro s ⟨capacity, frameCapacity, rfl⟩
    exact ⟨_, ⟨capacity d, frameCapacity d, rfl⟩, rfl⟩
  step := by
    rintro s a t _ hs rfl h
    rcases step_dispatchers (reach_phases hs) h d with hd | ⟨x, hx⟩
    · exact ⟨[], _, rfl, hd.symm⟩
    · refine ⟨[x], _, ?_, rfl⟩
      exact Machine.exec_cons_eq_some.mpr ⟨_, hx, rfl⟩

/-- So what holds of every dispatcher by itself holds of each dispatcher of the pool. -/
theorem reach_dispatcher {s : Executor D V} (hs : (machine D V).Reach s) (d : D) :
    (Dispatcher.machine V).Reach (s.dispatchers d) := by
  obtain ⟨x, hx, rfl⟩ := (simulates_dispatcher d).reach hs
  exact hx

/-! ## The promise -/

/-- **Serial delivery without lost wake-ups.** In every reachable state each dispatcher has at most
one token, its handler runs on at most one pool thread, and while it has queued events it has
exactly one token and is scheduled.
Source: `_dispatch.py`, `_Dispatcher` and `_CallbackExecutor` -/
theorem serial_delivery {s : Executor D V} (hs : (machine D V).Reach s) (d : D) :
    s.tokens d ≤ 1 ∧
    (∀ w w', (s.worker w).handling = some d → (s.worker w').handling = some d → w = w') ∧
    ((s.dispatchers d).events ≠ [] →
      s.tokens d = 1 ∧ (s.dispatchers d).scheduled = true) := by
  have hP := reach_phases hs
  refine ⟨(hP.phase d).le_one, fun w w' hw hw' => ?_, (hP.phase d).of_events⟩
  exact hP.unique (Worker.token_of_handling hw) (Worker.token_of_handling hw')

/-- Two commands are posted to one of two dispatchers, and a pool thread is in the handler of the
first one. -/
def twoCommands : List (ExecutorAction (Fin 2) (List PyValue)) :=
  [.post 0 (nativeEvent .command [.int 8193, .bytes []]) false,
   .post 0 (nativeEvent .command [.int 8194, .bytes []]) false, .put 0, .get 1, .drainBegin 1]

/-- In that state the handling thread holds the token of the event still queued. -/
theorem serial_delivery_running :
    ∃ s, (machine (Fin 2) (List PyValue)).exec { dispatchers := fun _ => .init } twoCommands =
        some s ∧
      (s.worker 1).handling = some 0 ∧ s.tokens 0 = 1 ∧ (s.dispatchers 0).scheduled = true := by
  refine ⟨_, rfl, rfl, ?_⟩
  have hstart : (machine (Fin 2) (List PyValue)).start { dispatchers := fun _ => .init } :=
    ⟨fun _ => 64, fun _ => none, rfl⟩
  have hs : (machine (Fin 2) (List PyValue)).Reach _ :=
    Machine.Reach.exec (.of_start hstart)
      (rfl : (machine (Fin 2) (List PyValue)).exec _ twoCommands = _)
  exact (serial_delivery hs 0).2.2 (List.cons_ne_nil _ _)

end Executor

end Tirtc
