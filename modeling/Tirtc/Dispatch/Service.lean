import Mathlib.Algebra.BigOperators.Fin
import Tirtc.Dispatch.Executor

/-!
# The pool serves every dispatcher

What is queued is work for the pool, and each section of a pool thread, and each `put` that a
posting thread still owes, makes it less. A handler is one section here: it returns.

* `ExecutorAction.serves`, `ExecutorAction.posts`: the sections that serve, and those that queue.
* `Worker.left`, `Executor.work`: what is left to do.
* `work_serves`, `work_posts`, `work_exec`: a section that serves lowers it, a post adds 8 at most.
* `quiet_of_rest`: where nothing can serve, everything has been served.
* `pool_serves`: both, for every run.
* `Executor.fetched`, `fifo`, `round_robin`: the dispatchers that are fetched, in their order.
-/

set_option autoImplicit false

namespace Tirtc

open Counting Transition

/-- The sections of the pool threads, and the `put` of a thread that has posted. -/
def ExecutorAction.serves {D V : Type} : ExecutorAction D V → Bool
  | .put _ | .get _ | .drainBegin _ | .drainEnd _ | .reschedule _ => true
  | _ => false

/-- The sections that may queue an event. -/
def ExecutorAction.posts {D V : Type} : ExecutorAction D V → Bool
  | .post _ _ _ | .postNativeTask _ _ => true
  | _ => false

/-! ## What is left to do -/

section Work

variable {D V : Type}

/-- The sections that a pool thread has before it, for a dispatcher whose queue makes `load d`. -/
def Worker.left (load : D → ℕ) : Worker D V → ℕ
  | .idle => 0
  | .fetched d => 2 + load d
  | .running d _ => 5 + load d
  | .rescheduling d => 4 + load d

section Left

variable (load : D → ℕ) (d : D) (event : Event V)

@[simp] theorem Worker.left_idle : (idle : Worker D V).left load = 0 := rfl

@[simp] theorem Worker.left_fetched : (fetched d : Worker D V).left load = 2 + load d := rfl

@[simp] theorem Worker.left_running : (running d event).left load = 5 + load d := rfl

@[simp] theorem Worker.left_rescheduling :
    (rescheduling d : Worker D V).left load = 4 + load d := rfl

end Left

/-- A thread without a token is idle. -/
theorem Worker.idle_of_token {w : Worker D V} (h : w.token = none) : w = .idle := by
  cases w with
  | idle => rfl
  | fetched d => cases h
  | running d event => cases h
  | rescheduling d => cases h

namespace Executor

variable [DecidableEq D] (s : Executor D V)

/-- Four sections for each event of the queue. -/
def load (d : D) : ℕ := 4 * (s.dispatchers d).events.length

/-- The work for queues that make `load`. -/
def workOf (load : D → ℕ) (ready putting : List D) (worker : Fin 2 → Worker D V) : ℕ :=
  (ready.map fun d => 3 + load d).sum + (putting.map fun d => 4 + load d).sum +
    ((worker 0).left load + (worker 1).left load)

/-- **What is left to do**, token by token: a dispatcher with a queue has one. -/
def work : ℕ := workOf s.load s.ready s.putting s.worker

variable {s} {t : Executor D V} {load load' : D → ℕ} {d : D} {k : ℕ}

omit [DecidableEq D] in
/-- The two threads, one of them first. -/
theorem two_eq (f : Fin 2 → ℕ) (w : Fin 2) : f 0 + f 1 = f w + f w.rev := by
  obtain rfl | rfl : w = 0 ∨ w = 1 := by omega
  · rfl
  · exact Nat.add_comm _ _

/-- The queue of one dispatcher grows, those of the others do not. -/
structure Grows (load load' : D → ℕ) (d : D) (k : ℕ) : Prop where
  others : ∀ e, e ≠ d → load' e ≤ load e
  self : load' d ≤ load d + k

theorem Grows.sum_le (h : Grows load load' d k) (c : ℕ) (l : List D) :
    (l.map fun e => c + load' e).sum ≤ (l.map fun e => c + load e).sum + k * l.count d := by
  induction l with
  | nil => simp
  | cons e rest ih =>
      simp only [List.map_cons, List.sum_cons, List.count_cons, beq_iff_eq]
      by_cases he : e = d
      · subst he
        have hself := h.self
        rw [if_pos rfl, Nat.mul_add]
        omega
      · have hother := h.others e he
        rw [if_neg he, Nat.add_zero]
        omega

theorem Grows.left_le (h : Grows load load' d k) (w : Worker D V) :
    w.left load' ≤ w.left load + k * if w.token = some d then 1 else 0 := by
  have hload : ∀ e, load' e ≤ load e + k * if e = d then 1 else 0 := by
    intro e
    by_cases he : e = d
    · subst he
      simpa using h.self
    · simpa [he] using h.others e he
  cases w with
  | idle => simp [Worker.left]
  | fetched e =>
      have he := hload e
      simp only [Worker.left, Worker.token_fetched, Option.some.injEq]
      omega
  | running e event =>
      have he := hload e
      simp only [Worker.left, Worker.token_running, Option.some.injEq]
      omega
  | rescheduling e =>
      have he := hload e
      simp only [Worker.left, Worker.token_rescheduling, Option.some.injEq]
      omega

omit [DecidableEq D] in
/-- The threads with a property, one by one. -/
theorem countOf_two (p : Worker D V → Prop) [DecidablePred p] (worker : Fin 2 → Worker D V) :
    countOf p worker = (if p (worker 0) then 1 else 0) + if p (worker 1) then 1 else 0 := by
  have hset : {w | p (worker w)} = ↑(Finset.univ.filter fun w => p (worker w)) := by
    ext w
    simp
  unfold countOf
  rw [hset, Set.ncard_coe_finset, Finset.card_filter, Fin.sum_univ_two]

/-- **The work grows with the queue**, for each token of the dispatcher. -/
theorem Grows.workOf_le (h : Grows load load' d k) (ready putting : List D)
    (worker : Fin 2 → Worker D V) :
    workOf load' ready putting worker ≤ workOf load ready putting worker +
      k * (ready.count d + putting.count d + countOf (fun w => w.token = some d) worker) := by
  have hready := h.sum_le 3 ready
  have hputting := h.sum_le 4 putting
  have hzero := h.left_le (worker 0)
  have hone := h.left_le (worker 1)
  unfold workOf
  rw [countOf_two]
  simp only [Nat.mul_add]
  omega

omit [DecidableEq D] in
/-- A pool thread goes on. -/
theorem workOf_update (load : D → ℕ) (ready putting : List D) (worker : Fin 2 → Worker D V)
    (w : Fin 2)
    (v : Worker D V) :
    workOf load ready putting (Function.update worker w v) + (worker w).left load =
      workOf load ready putting worker + v.left load := by
  have hne : w.rev ≠ w := by
    obtain rfl | rfl : w = 0 ∨ w = 1 := by omega
    · decide
    · decide
  unfold workOf
  rw [two_eq (fun u => (Function.update worker w v u).left load) w,
    two_eq (fun u => (worker u).left load) w]
  simp only [Function.update_self, Function.update_of_ne hne]
  omega

/-- A pool thread that leaves the queue as it is. -/
theorem load_advance {w : Fin 2} {next : Dispatcher V} {worker : Worker D V}
    (h : next.events = (s.dispatchers d).events) : (s.advance w d next worker).load = s.load := by
  funext e
  by_cases he : e = d
  · subst he
    simp [load, advance, h]
  · simp [load, advance, he]

/-! ## The sections -/

section Sections

variable [FrameValues V] {w : Fin 2} {a : ExecutorAction D V}

/-- **A section that serves lowers the work.** -/
theorem work_serves (h : s.step a = some t) (ha : a.serves = true) : t.work < s.work := by
  cases a with
  | post => cases ha
  | postNativeTask => cases ha
  | close => cases ha
  | discard => cases ha
  | put d =>
      obtain ⟨hmem, rfl⟩ := put_cases h
      have herase := List.sum_map_erase (fun d => 4 + s.load d) hmem
      have hload : Executor.load { s with putting := s.putting.erase d, ready := s.ready ++ [d] } =
          s.load := rfl
      unfold work workOf
      rw [hload]
      simp only [List.map_append, List.map_cons, List.map_nil, List.sum_append, List.sum_cons,
        List.sum_nil]
      omega
  | get w =>
      obtain ⟨d, ready, hw, hr, rfl⟩ := get_cases h
      have hupdate := workOf_update s.load ready s.putting s.worker w (.fetched d)
      rw [hw] at hupdate
      show workOf s.load ready s.putting (Function.update s.worker w (.fetched d)) < s.work
      have hready : s.work = 3 + s.load d + workOf s.load ready s.putting s.worker := by
        unfold work workOf
        rw [hr]
        simp only [List.map_cons, List.sum_cons]
        omega
      simp only [Worker.left_idle, Worker.left_fetched] at hupdate
      omega
  | drainBegin w =>
      obtain ⟨d, hw, ⟨hev, rfl⟩ | ⟨event, events, hev, rfl⟩⟩ := drainBegin_cases h
      · have hload : (s.advance w d { s.dispatchers d with scheduled := false } .idle).load =
            s.load := load_advance rfl
        have hupdate := workOf_update s.load s.ready s.putting s.worker w .idle
        rw [hw] at hupdate
        unfold work
        rw [hload]
        show workOf s.load s.ready s.putting (Function.update s.worker w .idle) < _
        simp only [Worker.left_idle, Worker.left_fetched] at hupdate
        omega
      · generalize hnext : ({ s.dispatchers d with
            events := events
            frameCount := if event.frame then (s.dispatchers d).frameCount - 1
              else (s.dispatchers d).frameCount
            executing := true } : Dispatcher V) = next
        have hevents : next.events = events := by rw [← hnext]
        have hself : (s.advance w d next (.running d event)).load d + 4 = s.load d := by
          simp only [load, advance, Function.update_self, hevents, hev, List.length_cons]
          omega
        have hgrows : Grows s.load (s.advance w d next (.running d event)).load d 0 := by
          refine ⟨?_, by omega⟩
          intro e he
          simp [load, advance, he]
        have hmono := hgrows.workOf_le s.ready s.putting (Function.update s.worker w .idle)
        -- thread `w` without the event, before and after
        have hbefore := workOf_update s.load s.ready s.putting s.worker w .idle
        have hafter := workOf_update (s.advance w d next (.running d event)).load s.ready s.putting
          (Function.update s.worker w .idle) w (.running d event)
        rw [hw] at hbefore
        rw [Function.update_self, Function.update_idem] at hafter
        show workOf _ s.ready s.putting (Function.update s.worker w (.running d event)) < s.work
        simp only [Worker.left_idle, Worker.left_fetched, Worker.left_running] at hbefore hafter
        unfold work
        omega
  | drainEnd w =>
      obtain ⟨d, event, hw, rfl⟩ := drainEnd_cases h
      generalize hworker : (if (s.dispatchers d).drainEnd.1 then .rescheduling d else .idle :
        Worker D V) = worker
      have hleft : worker.left s.load ≤ 4 + s.load d := by
        rw [← hworker]
        split
        · exact le_refl _
        · exact Nat.zero_le _
      have hload : (s.advance w d (s.dispatchers d).drainEnd.2 worker).load = s.load :=
        load_advance rfl
      have hupdate := workOf_update s.load s.ready s.putting s.worker w worker
      rw [hw] at hupdate
      unfold work
      rw [hload]
      show workOf s.load s.ready s.putting (Function.update s.worker w worker) < _
      simp only [Worker.left_running] at hupdate
      omega
  | reschedule w =>
      obtain ⟨d, hw, rfl⟩ := reschedule_cases h
      have hupdate := workOf_update s.load (s.ready ++ [d]) s.putting s.worker w .idle
      rw [hw] at hupdate
      show workOf s.load (s.ready ++ [d]) s.putting (Function.update s.worker w .idle) < s.work
      have hready : workOf s.load (s.ready ++ [d]) s.putting s.worker = 3 + s.load d + s.work := by
        unfold work workOf
        simp only [List.map_append, List.map_cons, List.map_nil, List.sum_append, List.sum_cons,
          List.sum_nil]
        omega
      simp only [Worker.left_idle, Worker.left_rescheduling] at hupdate
      omega

omit [FrameValues V] in
/-- A section of a dispatcher that queues one event at most. -/
theorem work_afterPost (hs : Phases s) {d : D} {r : PostResult V}
    (hlength : r.dispatcher.events.length ≤ (s.dispatchers d).events.length + 1)
    (hphase : Phase r.dispatcher (s.tokens d + r.schedule.toNat)) :
    (s.afterPost d r).work ≤ s.work + 8 := by
  have hgrows : Grows s.load (s.afterPost d r).load d 4 := by
    refine ⟨?_, ?_⟩
    · intro e he
      simp [load, afterPost, he]
    · simp only [load, afterPost, Function.update_self]
      omega
  have hle := hgrows.workOf_le s.ready s.putting s.worker
  have htokens : s.ready.count d + s.putting.count d +
      countOf (fun w => w.token = some d) s.worker = s.tokens d := rfl
  have hone := hphase.le_one
  rw [htokens] at hle
  cases hschedule : r.schedule with
  | false =>
      have hwork : (s.afterPost d r).work =
          workOf (s.afterPost d r).load s.ready s.putting s.worker := by
        simp [work, afterPost, hschedule]
      rw [hwork]
      unfold work
      omega
  | true =>
      -- there was no token, and so there were no events
      rw [hschedule, Bool.toNat_true] at hone
      have hnone : s.tokens d = 0 := by omega
      have hempty : (s.dispatchers d).events = [] := by
        by_contra hev
        have htoken := ((hs.phase d).of_events hev).1
        omega
      have hload : (s.afterPost d r).load d ≤ 4 := by
        have hself := hgrows.self
        rw [show s.load d = 0 by simp [load, hempty]] at hself
        exact hself
      have hwork : (s.afterPost d r).work = 4 + (s.afterPost d r).load d +
          workOf (s.afterPost d r).load s.ready s.putting s.worker := by
        simp only [work, workOf, afterPost, hschedule, if_true, List.map_cons, List.sum_cons]
        omega
      rw [hwork]
      unfold work
      rw [hnone] at hle
      omega

/-- Any other section adds nothing, and a post adds 8 at most. -/
theorem work_posts (hs : Phases s) (h : s.step a = some t) (ha : a.serves = false) :
    t.work ≤ s.work + if a.posts then 8 else 0 := by
  cases a with
  | post d event latest =>
      cases h
      refine work_afterPost hs ?_ ((hs.phase d).post event latest)
      have hposted := (s.dispatchers d).post_spec event latest
      generalize (s.dispatchers d).post event latest = r at hposted
      cases hposted with
      | closed => exact Nat.le_succ _
      | coalesced xs old ys _ hsplit => simp [hsplit]
      | frameRefused => exact Nat.le_succ _
      | refused => exact Nat.le_succ _
      | evicted xs victim ys _ _ _ hsplit =>
          simp [Dispatcher.enqueue, Dispatcher.without, hsplit]
      | beyond => simp [Dispatcher.enqueue]
      | appended => simp [Dispatcher.enqueue]
  | postNativeTask d task =>
      obtain ⟨r, hr, rfl⟩ := Option.map_eq_some_iff.mp h
      refine work_afterPost hs ?_ ((hs.phase d).postNativeTask hr)
      unfold Dispatcher.postNativeTask at hr
      split at hr
      · cases hr
        exact Nat.le_succ _
      · split at hr
        · cases hr
        · cases hr
          simp
  | close d =>
      cases h
      have hload : (s.afterPost d ⟨(s.dispatchers d).close, true, false⟩).load = s.load := by
        funext e
        by_cases he : e = d
        · subst he
          simp [load, afterPost, Dispatcher.close]
        · simp [load, afterPost, he]
      unfold work
      rw [hload]
      exact le_refl _
  | discard d =>
      cases h
      have hgrows :
          Grows s.load (s.afterPost d ⟨(s.dispatchers d).discard, true, false⟩).load d 0 := by
        refine ⟨?_, ?_⟩
        · intro e he
          simp [load, afterPost, he]
        · simp only [load, afterPost, Function.update_self, Dispatcher.discard]
          have hle := List.length_filter_le
            (fun event : Event V => decide (event.kind = .nativeTask)) (s.dispatchers d).events
          omega
      have hle := hgrows.workOf_le s.ready s.putting s.worker
      rw [Nat.zero_mul] at hle
      exact hle
  | put => cases ha
  | get => cases ha
  | drainBegin => cases ha
  | drainEnd => cases ha
  | reschedule => cases ha

/-- **The run lemma**: a run serves no more than what was left to do and what it has queued. -/
theorem work_exec {as : List (ExecutorAction D V)} (hs : Phases s)
    (hrun : (machine D V).exec s as = some t) :
    as.countP ExecutorAction.serves + t.work ≤ s.work + 8 * as.countP ExecutorAction.posts := by
  induction as generalizing s with
  | nil =>
      cases hrun
      simp
  | cons a as ih =>
      obtain ⟨r, hstep, hrest⟩ := Machine.exec_cons_eq_some.mp hrun
      have hr := ih (phases_step hs hstep) hrest
      rw [List.countP_cons, List.countP_cons]
      cases hserves : a.serves with
      | true =>
          have hlower := work_serves hstep hserves
          rw [if_pos rfl]
          omega
      | false =>
          have hraise := work_posts hs hstep hserves
          cases hposts : a.posts with
          | true =>
              rw [hposts] at hraise
              simp only [if_true] at hraise ⊢
              simp only [Bool.false_eq_true, if_false]
              omega
          | false =>
              rw [hposts] at hraise
              simp only [Bool.false_eq_true, if_false] at hraise ⊢
              omega

/-- **Where nothing can serve, everything is served.** -/
theorem quiet_of_rest (hs : Phases s) (hrest : ∀ a, a.serves = true → s.step a = none) (d : D) :
    (s.dispatchers d).events = [] ∧ (s.dispatchers d).scheduled = false ∧
      (s.dispatchers d).executing = false := by
  have hputting : s.putting = [] := by
    apply List.eq_nil_iff_forall_not_mem.mpr
    intro e he
    have hnone := hrest (.put e) rfl
    simp [step, he] at hnone
  have hworker : ∀ w, s.worker w = .idle := by
    intro w
    cases hw : s.worker w with
    | idle => rfl
    | fetched e =>
        have hnone := hrest (.drainBegin w) rfl
        simp only [step, hw] at hnone
        split at hnone
        · cases hnone
        · cases hnone
    | running e event =>
        have hnone := hrest (.drainEnd w) rfl
        simp [step, hw] at hnone
    | rescheduling e =>
        have hnone := hrest (.reschedule w) rfl
        simp [step, hw] at hnone
  have hready : s.ready = [] := by
    cases hr : s.ready with
    | nil => rfl
    | cons e ready =>
        have hnone := hrest (.get 0) rfl
        simp [step, hworker 0, hr] at hnone
  have htokens : s.tokens d = 0 := by
    unfold tokens
    rw [countOf_two, hputting, hready, hworker 0, hworker 1]
    simp
  have hphase := hs.phase d
  rw [htokens] at hphase
  cases hphase with
  | quiet hscheduled hevents hexecuting => exact ⟨hevents, hscheduled, hexecuting⟩

/-- With idle pool threads and nothing to put or to get, nothing can serve. -/
theorem rest_of_idle (hputting : s.putting = []) (hready : s.ready = [])
    (hworker : ∀ w, s.worker w = .idle) (ha : a.serves = true) : s.step a = none := by
  cases a with
  | put d => simp [step, hputting]
  | get w => simp [step, hready]
  | drainBegin w => simp [step, hworker w]
  | drainEnd w => simp [step, hworker w]
  | reschedule w => simp [step, hworker w]
  | post => cases ha
  | postNativeTask => cases ha
  | close => cases ha
  | discard => cases ha

/-- **The pool serves every dispatcher.** A run from any reachable state, in any interleaving, has
at most as many sections that serve as work was left, and 8 more for each post; and when none of
them is possible any more, every queue is empty, nothing is scheduled and no handler runs, so that
no `barrier` and no `close` waits. -/
theorem pool_serves (hs : (machine D V).Reach s) :
    (∀ as t, (machine D V).exec s as = some t → as.countP ExecutorAction.serves ≤
      s.work + 8 * as.countP ExecutorAction.posts) ∧
    ((∀ a, a.serves = true → s.step a = none) → ∀ d, (s.dispatchers d).barrierDone = true ∧
      (s.dispatchers d).closeDone = true ∧ (s.dispatchers d).scheduled = false) := by
  have hphases := reach_phases hs
  refine ⟨?_, ?_⟩
  · intro as t hrun
    have hwork := work_exec hphases hrun
    omega
  · intro hrest d
    obtain ⟨hevents, hscheduled, hexecuting⟩ := quiet_of_rest hphases hrest d
    simp [Dispatcher.barrierDone, Dispatcher.closeDone, hevents, hscheduled, hexecuting]

end Sections

/-- Two commands are posted and the pool serves both. Then nothing is left to serve, and a barrier
returns. -/
theorem pool_serves_both :
    ∃ s, (machine (Fin 2) (List PyValue)).Reach s ∧
      (∀ as t, (machine (Fin 2) (List PyValue)).exec s as = some t →
        as.countP ExecutorAction.serves ≤ s.work + 8 * as.countP ExecutorAction.posts) ∧
      (s.dispatchers 0).barrierDone = true := by
  have hrun : ((machine (Fin 2) (List PyValue)).exec { dispatchers := fun _ => .init }
      (twoCommands ++ [.drainEnd 1, .reschedule 1, .get 0, .drainBegin 0, .drainEnd 0])).any
      (fun s => s.putting.isEmpty && s.ready.isEmpty && (s.worker 0).token.isNone &&
        (s.worker 1).token.isNone) = true := by
    decide +kernel
  obtain ⟨s, hs, htest⟩ := Machine.exists_reach (M := machine (Fin 2) (List PyValue))
    ⟨fun _ => 64, fun _ => none, rfl⟩ hrun
  simp only [Bool.and_eq_true, List.isEmpty_iff, Option.isNone_iff_eq_none] at htest
  obtain ⟨⟨⟨hputting, hready⟩, hzero⟩, hone⟩ := htest
  refine ⟨s, hs, (pool_serves hs).1, ((pool_serves hs).2 ?_ 0).1⟩
  intro a
  apply rest_of_idle hputting hready
  intro w
  obtain rfl | rfl : w = 0 ∨ w = 1 := by omega
  · exact Worker.idle_of_token hzero
  · exact Worker.idle_of_token hone

/-! ## The order in which dispatchers are fetched -/

section Order

variable [FrameValues V] {as : List (ExecutorAction D V)}

/-- The dispatcher that a section fetches. -/
def fetches (s : Executor D V) : ExecutorAction D V → Option D
  | .get _ => s.ready.head?
  | _ => none

/-- The dispatchers that a run fetches, in their order. -/
def fetched : Executor D V → List (ExecutorAction D V) → List D
  | _, [] => []
  | s, a :: as =>
      match s.step a with
      | some t => (s.fetches a).toList ++ fetched t as
      | none => []

/-- One section takes from the front of the ready queue, or puts at its end. -/
theorem fifo_step {a : ExecutorAction D V} (h : s.step a = some t) :
    ∃ put, s.ready ++ put = (s.fetches a).toList ++ t.ready := by
  cases a with
  | post d event latest =>
      cases h
      exact ⟨[], List.append_nil _⟩
  | postNativeTask d task =>
      obtain ⟨r, -, rfl⟩ := Option.map_eq_some_iff.mp h
      exact ⟨[], List.append_nil _⟩
  | close d =>
      cases h
      exact ⟨[], List.append_nil _⟩
  | discard d =>
      cases h
      exact ⟨[], List.append_nil _⟩
  | put d =>
      obtain ⟨-, rfl⟩ := put_cases h
      exact ⟨[d], rfl⟩
  | get w =>
      obtain ⟨d, ready, -, hr, rfl⟩ := get_cases h
      refine ⟨[], ?_⟩
      simp [fetches, hr]
  | drainBegin w =>
      obtain ⟨d, -, ⟨-, rfl⟩ | ⟨event, events, -, rfl⟩⟩ := drainBegin_cases h
      · exact ⟨[], List.append_nil _⟩
      · exact ⟨[], List.append_nil _⟩
  | drainEnd w =>
      obtain ⟨d, event, -, rfl⟩ := drainEnd_cases h
      exact ⟨[], List.append_nil _⟩
  | reschedule w =>
      obtain ⟨d, -, rfl⟩ := reschedule_cases h
      exact ⟨[d], rfl⟩

/-- **First in, first out**, along a run. -/
theorem fifo (hrun : (machine D V).exec s as = some t) :
    ∃ put, s.ready ++ put = fetched s as ++ t.ready := by
  induction as generalizing s with
  | nil =>
      cases hrun
      exact ⟨[], List.append_nil _⟩
  | cons a as ih =>
      obtain ⟨r, hstep, hrest⟩ := Machine.exec_cons_eq_some.mp hrun
      have hstep : s.step a = some r := hstep
      obtain ⟨put, hput⟩ := fifo_step hstep
      obtain ⟨later, hlater⟩ := ih hrest
      refine ⟨put ++ later, ?_⟩
      have hfetched : fetched s (a :: as) = (s.fetches a).toList ++ fetched r as := by
        simp only [fetched, hstep]
      rw [hfetched, ← List.append_assoc, hput, List.append_assoc, hlater, List.append_assoc]

/-- **Nobody is overtaken twice**: while a dispatcher is in the ready queue, whatever is posted to
the others and however long their queues are, each of them is fetched once at most, and only those
in front of it are. -/
theorem round_robin (hs : (machine D V).Reach s) {d : D} (hd : d ∈ s.ready)
    (hrun : (machine D V).exec s as = some t) (hwaits : d ∉ fetched s as) :
    d ∈ t.ready ∧ (fetched s as).Nodup ∧
      ∃ front behind, s.ready = front ++ d :: behind ∧ fetched s as <+: front := by
  have hphases := reach_phases hs
  obtain ⟨put, hput⟩ := fifo hrun
  obtain ⟨front, behind, hready⟩ := List.append_of_mem hd
  -- what is fetched comes from the front, and does not reach `d`
  have hfront : fetched s as <+: front := by
    have hfetched : fetched s as <+: front ++ d :: (behind ++ put) := by
      rw [hready, List.append_assoc, List.cons_append] at hput
      rw [hput]
      exact List.prefix_append _ _
    rcases List.prefix_or_prefix_of_prefix hfetched (List.prefix_append _ _) with h | h
    · exact h
    · obtain ⟨rest, hrest⟩ := h
      rw [← hrest, List.prefix_append_right_inj] at hfetched
      cases rest with
      | nil => simp [← hrest]
      | cons e rest =>
          obtain ⟨tail, htail⟩ := hfetched
          rw [List.cons_append, List.cons.injEq] at htail
          obtain ⟨rfl, -⟩ := htail
          exact absurd (by simp [← hrest]) hwaits
  refine ⟨?_, ?_, front, behind, hready, hfront⟩
  · have hmem : d ∈ fetched s as ++ t.ready := hput ▸ List.mem_append_left put hd
    exact (List.mem_append.mp hmem).resolve_left hwaits
  · have hnodup : s.ready.Nodup := by
      apply List.nodup_iff_count_le_one.mpr
      intro e
      have hone := (hphases.phase e).le_one
      unfold tokens at hone
      omega
    rw [hready] at hnodup
    exact (hfront.sublist.trans (List.sublist_append_left _ _)).nodup hnodup

end Order

/-- One round for one event. -/
def oneRound : List (ExecutorAction (Fin 2) (List PyValue)) :=
  [.get 0, .drainBegin 0, .drainEnd 0, .reschedule 0]

/-- Of two dispatchers, the second is behind the first, which has two commands. After a round of the
first it is the turn of the second. -/
theorem round_robin_second :
    ∃ s t, (machine (Fin 2) (List PyValue)).Reach s ∧ s.ready = [0, 1] ∧
      (machine (Fin 2) (List PyValue)).exec s oneRound = some t ∧ 1 ∈ t.ready ∧
      (fetched s oneRound).Nodup := by
  have hrun : ((machine (Fin 2) (List PyValue)).exec { dispatchers := fun _ => .init }
      [.post 0 (nativeEvent .command [.int 8193, .bytes []]) false,
        .post 0 (nativeEvent .command [.int 8194, .bytes []]) false, .put 0,
        .post 1 (nativeEvent .command [.int 8195, .bytes []]) false, .put 1]).any
      (fun s => s.ready = [0, 1] ∧ fetched s oneRound = [0] ∧
        ((machine (Fin 2) (List PyValue)).exec s oneRound).isSome) = true := by
    decide +kernel
  obtain ⟨s, hs, htest⟩ := Machine.exists_reach (M := machine (Fin 2) (List PyValue))
    ⟨fun _ => 64, fun _ => none, rfl⟩ hrun
  obtain ⟨hready, hfetched, hsome⟩ := of_decide_eq_true htest
  obtain ⟨t, ht⟩ := Option.isSome_iff_exists.mp hsome
  obtain ⟨hmem, hnodup, -⟩ := round_robin hs (d := 1) (by simp [hready]) ht (by simp [hfetched])
  exact ⟨s, t, hs, hready, ht, hmem, hnodup⟩

end Executor

end Work

end Tirtc
