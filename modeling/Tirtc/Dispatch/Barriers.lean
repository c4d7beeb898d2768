import Tirtc.Dispatch.Executor
import Tirtc.Dispatch.Fates

/-!
# `close` and `barrier` are barriers

Any number of threads call `close` and `barrier` on the dispatchers of a pool, whose native sinks
are posted to from any threads, while `discard` is called and handlers go.

* `Barriers`, `machine`: the pool with its callers, and a ledger for each dispatcher.
* `Stopped`: a dispatcher that is closed, drained and not executing. No section of it ends that:
  `stopped_section`, `stopped_step`.
* `Kept`: the pool, the ledgers and the pool threads agree; `kept_step`, `forward_step`: every step
  keeps it, and moves every fate forward.
* `Waited`: what the callers rely on, `waited_step`.
* `close_and_barrier`: what `close` and `barrier` promise when they return, for every run.
-/

set_option autoImplicit false

namespace Tirtc

open Transition

/-! ## The system -/

/-- Where a thread is: in no call, at the wait of `close` or `barrier`, or back from it. A call of
`barrier` keeps the number of posts made before it.
Source: `_dispatch.py`, `_Dispatcher.close` and `_Dispatcher.barrier` -/
inductive WaitCall (D : Type)
  | idle
  | closing (d : D)
  | closed (d : D)
  | barrier (d : D) (since : ℕ)
  | passed (d : D) (since : ℕ)
  deriving DecidableEq

/-- The thread is at a wait. -/
def WaitCall.waits {D : Type} : WaitCall D → Bool
  | .closing _ | .barrier _ _ => true
  | _ => false

/-- The pool, the threads `ι`, and for each dispatcher its ledger and whether its weakly referenced
handler is alive. `looked` is what a pool thread in `_drain_one` has found of the handler. -/
structure Barriers (D ι V : Type) where
  pool : Executor D (Tagged V)
  ledger : D → Ledger := fun _ => {}
  alive : D → Bool := fun _ => true
  looked : Fin 2 → Option Bool := fun _ => none
  calls : ι → WaitCall D := fun _ => .idle

/-- The steps: a call of the sink, the sections of `close` and `barrier` and the end of their
waits, `discard`, a handler that goes, and the steps of the pool. -/
inductive BarrierAction (D ι V : Type)
  | post (d : D) (kind : EventKind) (values : V)
  | close (i : ι) (d : D)
  | barrier (i : ι) (d : D)
  | wake (i : ι)
  | discard (d : D)
  | die (d : D)
  | put (d : D)
  | get (w : Fin 2)
  | drainBegin (w : Fin 2)
  | lookUp (w : Fin 2)
  | drainEnd (w : Fin 2)
  | reschedule (w : Fin 2)

namespace Barriers

variable {D ι V : Type} [DecidableEq D] [DecidableEq ι] [FrameValues V]

/-- A step of the pool alone. -/
def poolStep (s : Barriers D ι V) (a : ExecutorAction D (Tagged V)) : Option (Barriers D ι V) :=
  (s.pool.step a).map fun pool => { s with pool := pool }

/-- The ledger of `d` becomes `l`. -/
def setLedger (s : Barriers D ι V) (d : D) (l : Ledger) : Barriers D ι V :=
  { s with ledger := Function.update s.ledger d l }

/-- Pool thread `w` has found `found` of the handler. -/
def setLooked (s : Barriers D ι V) (w : Fin 2) (found : Option Bool) : Barriers D ι V :=
  { s with looked := Function.update s.looked w found }

section Fields

omit [DecidableEq ι] [FrameValues V]

variable (s : Barriers D ι V) (d : D) (l : Ledger) (w : Fin 2) (found : Option Bool)

@[simp] theorem setLedger_pool : (s.setLedger d l).pool = s.pool := rfl
@[simp] theorem setLedger_alive : (s.setLedger d l).alive = s.alive := rfl
@[simp] theorem setLedger_looked : (s.setLedger d l).looked = s.looked := rfl
@[simp] theorem setLedger_calls : (s.setLedger d l).calls = s.calls := rfl

theorem setLedger_ledger (e : D) :
    (s.setLedger d l).ledger e = if e = d then l else s.ledger e := by
  by_cases he : e = d
  · subst he
    simp [setLedger]
  · simp [setLedger, he]

omit [DecidableEq D]

@[simp] theorem setLooked_pool : (s.setLooked w found).pool = s.pool := rfl
@[simp] theorem setLooked_ledger : (s.setLooked w found).ledger = s.ledger := rfl
@[simp] theorem setLooked_alive : (s.setLooked w found).alive = s.alive := rfl
@[simp] theorem setLooked_calls : (s.setLooked w found).calls = s.calls := rfl

theorem setLooked_looked (v : Fin 2) :
    (s.setLooked w found).looked v = if v = w then found else s.looked v := by
  by_cases hv : v = w
  · subst hv
    simp [setLooked]
  · simp [setLooked, hv]

end Fields

/-- Thread `i` goes to `call`. -/
def goto (s : Barriers D ι V) (i : ι) (call : WaitCall D) : Barriers D ι V :=
  { s with calls := Function.update s.calls i call }

/-- One step. `_drain_one` looks the weak handler up behind its first section, and calls it when it
is still there. -/
def step (s : Barriers D ι V) : BarrierAction D ι V → Option (Barriers D ι V)
  | .post d kind values =>
      (s.poolStep (.post d ((s.ledger d).next kind values) kind.isLatest)).map fun t =>
        t.setLedger d ((s.ledger d).post (s.pool.dispatchers d) kind values)
  | .close i d =>
      if (s.calls i).waits then none
      else (s.poolStep (.close d)).map fun t => t.goto i (.closing d)
  | .barrier i d =>
      if (s.calls i).waits then none else some (s.goto i (.barrier d (s.ledger d).posts))
  | .wake i =>
      match s.calls i with
      | .closing d =>
          if (s.pool.dispatchers d).closeDone then some (s.goto i (.closed d)) else none
      | .barrier d since =>
          if (s.pool.dispatchers d).barrierDone then some (s.goto i (.passed d since)) else none
      | _ => none
  | .discard d =>
      (s.poolStep (.discard d)).map fun t =>
        t.setLedger d ((s.ledger d).discard (s.pool.dispatchers d))
  | .die d => some { s with alive := Function.update s.alive d false }
  | .put d => s.poolStep (.put d)
  | .get w => s.poolStep (.get w)
  | .drainBegin w =>
      (s.poolStep (.drainBegin w)).map fun t =>
        match t.pool.worker w with
        | .running d event =>
            (t.setLedger d ((s.ledger d).set event.tag .popped)).setLooked w none
        | _ => t
  | .lookUp w =>
      match s.pool.worker w, s.looked w with
      | .running d event, none =>
          some ((s.setLedger d ((s.ledger d).set event.tag (.called (s.alive d)))).setLooked w
            (some (s.alive d)))
      | _, _ => none
  | .drainEnd w =>
      match s.pool.worker w, s.looked w with
      | .running d event, some handed =>
          (s.poolStep (.drainEnd w)).map fun t =>
            t.setLedger d ((s.ledger d).set event.tag (.finished handed))
      | _, _ => none
  | .reschedule w => s.poolStep (.reschedule w)

/-- The runs on fresh dispatchers of any capacities. -/
def machine (D ι V : Type) [DecidableEq D] [DecidableEq ι] [FrameValues V] :
    Machine (Barriers D ι V) (BarrierAction D ι V) where
  start s := ∃ (capacity : D → ℕ) (frameCapacity : D → Option ℕ),
    s = { pool := { dispatchers := fun d => .init (capacity d) (frameCapacity d) } }
  step := step

end Barriers

/-! ## A dispatcher that has stopped -/

namespace Dispatcher

variable {V : Type} [FrameValues V] {d d' : Dispatcher V} {x : Dispatcher.Section V}

/-- Closed, drained, and no handler runs. -/
structure Stopped (d : Dispatcher V) : Prop where
  closed : d.closed = true
  events : d.events = []
  executing : d.executing = false

/-- What a section does to a closed dispatcher: it opens it not again, and it brings neither an
event nor a handler to one that is drained. -/
theorem closed_section (h : d.step x = some d') (hd : d.closed = true) :
    d'.closed = true ∧ (d.events = [] → d'.events = [] ∧
      (d.executing = false → d'.executing = false)) := by
  cases x with
  | post event latest =>
      obtain rfl := Option.some.inj h
      rw [d.post_of_closed hd]
      exact ⟨hd, fun hev => ⟨hev, id⟩⟩
  | postNativeTask task =>
      obtain ⟨r, hr, rfl⟩ := Option.map_eq_some_iff.mp h
      simp only [postNativeTask, hd, if_true, Option.some.injEq] at hr
      exact hr ▸ ⟨hd, fun hev => ⟨hev, id⟩⟩
  | drainBegin =>
      simp only [step] at h
      split at h
      · cases h
      · obtain rfl := Option.some.inj h
        cases hev : d.events with
        | nil =>
            rw [drainBegin_nil hev]
            exact ⟨hd, fun _ => ⟨hev, id⟩⟩
        | cons event events =>
            rw [drainBegin_cons hev]
            exact ⟨hd, fun hnil => by cases hnil⟩
  | drainEnd =>
      simp only [step] at h
      split at h
      · obtain rfl := Option.some.inj h
        exact ⟨hd, fun hev => ⟨hev, fun _ => rfl⟩⟩
      · cases h
  | close =>
      obtain rfl := Option.some.inj h
      exact ⟨rfl, fun hev => ⟨hev, id⟩⟩
  | discard =>
      obtain rfl := Option.some.inj h
      refine ⟨rfl, fun hev => ⟨?_, id⟩⟩
      simp [discard, hev]

/-- **No section starts a dispatcher again** that has stopped. -/
theorem stopped_section (h : d.step x = some d') (hd : d.Stopped) : d'.Stopped := by
  obtain ⟨hclosed, hdrained⟩ := closed_section h hd.closed
  obtain ⟨hevents, hexecuting⟩ := hdrained hd.events
  exact ⟨hclosed, hevents, hexecuting hd.executing⟩

end Dispatcher

/-! ## The pool, the ledgers and the pool threads agree -/

namespace Barriers

variable {D ι V : Type}

/-- The fate of an event that a pool thread has in hand, by what it has found. -/
def inHand : Option Bool → Fate
  | none => .popped
  | some handed => .called handed

theorem inHand_current (found : Option Bool) : (inHand found).Current := by
  cases found <;> trivial

/-- **The pool, the ledgers and the pool threads agree.** -/
structure Kept [DecidableEq D] (s : Barriers D ι V) : Prop where
  phases : Executor.Phases s.pool
  fits : ∀ d, (s.ledger d).Fits (s.pool.dispatchers d).events
  found : ∀ w d event, s.pool.worker w = .running d event →
    (s.ledger d).fate event.tag = inHand (s.looked w)
  current : ∀ d n, ((s.ledger d).fate n).Current →
    ∃ w event, s.pool.worker w = .running d event ∧ event.tag = n
  missed : ∀ d n, (s.ledger d).fate n = .called false ∨ (s.ledger d).fate n = .finished false →
    s.alive d = false

/-- **`t` is later than `s`**, for dispatcher `d`: a closed one is not opened, a stopped one not
started, no post is taken back and no fate that is over changes. -/
structure Forward (s t : Barriers D ι V) (d : D) : Prop where
  closed : (s.pool.dispatchers d).closed = true → (t.pool.dispatchers d).closed = true
  stopped : (s.pool.dispatchers d).Stopped → (t.pool.dispatchers d).Stopped
  posts : (s.ledger d).posts ≤ (t.ledger d).posts
  ended : ∀ n, ((s.ledger d).fate n).Over → (t.ledger d).fate n = (s.ledger d).fate n
  alive : s.alive d = false → t.alive d = false

theorem Forward.trans {s t r : Barriers D ι V} {d : D} (h : Forward s t d) (h' : Forward t r d) :
    Forward s r d where
  closed hc := h'.closed (h.closed hc)
  stopped hs := h'.stopped (h.stopped hs)
  posts := Nat.le_trans h.posts h'.posts
  ended n hn := by
    have heq := h.ended n hn
    exact (h'.ended n (heq ▸ hn)).trans heq
  alive ha := h'.alive (h.alive ha)

variable [DecidableEq D]

section

variable [FrameValues V]

/-- A step of the pool is forward for every dispatcher. -/
theorem forward_pool {s : Barriers D ι V} {a : ExecutorAction D (Tagged V)}
    {pool : Executor D (Tagged V)} (hs : Kept s) (h : s.pool.step a = some pool) (d : D) :
    Forward s { s with pool := pool } d := by
  refine ⟨?_, ?_, Nat.le_refl _, fun _ _ => rfl, id⟩
  · intro hc
    rcases Executor.step_dispatchers hs.phases h d with heq | ⟨x, hx⟩
    · exact heq ▸ hc
    · exact (Dispatcher.closed_section hx hc).1
  · intro hst
    rcases Executor.step_dispatchers hs.phases h d with heq | ⟨x, hx⟩
    · exact heq ▸ hst
    · exact Dispatcher.stopped_section hx hst

end

/-- A ledger that moves forward. -/
theorem forward_setLedger {s : Barriers D ι V} {e : D} {l : Ledger}
    (hposts : (s.ledger e).posts ≤ l.posts)
    (hover : ∀ n, ((s.ledger e).fate n).Over → l.fate n = (s.ledger e).fate n) (d : D) :
    Forward s (s.setLedger e l) d := by
  refine ⟨id, id, ?_, ?_, id⟩
  · by_cases hd : d = e
    · subst hd
      simpa [setLedger] using hposts
    · simp [setLedger, hd]
  · intro n hn
    by_cases hd : d = e
    · subst hd
      simpa [setLedger] using hover n hn
    · simp [setLedger, hd]

/-- A ledger in which one post that was not over has another fate. -/
theorem forward_set {s : Barriers D ι V} {e : D} {n : ℕ} {f : Fate}
    (hn : ¬ ((s.ledger e).fate n).Over) (d : D) :
    Forward s (s.setLedger e ((s.ledger e).set n f)) d := by
  refine forward_setLedger (l := (s.ledger e).set n f) (Nat.le_refl _) (fun m hm => ?_) d
  have hne : m ≠ n := by
    rintro rfl
    exact hn hm
  exact Function.update_of_ne hne _ _

omit [DecidableEq D] in
theorem forward_setLooked (s : Barriers D ι V) (w : Fin 2) (found : Option Bool) (d : D) :
    Forward s (s.setLooked w found) d :=
  ⟨id, id, Nat.le_refl _, fun _ _ => rfl, id⟩

/-! ### The steps, one by one -/

variable [FrameValues V]

/-- A step of the pool that moves no event and no handler. -/
theorem kept_pool {s : Barriers D ι V} {a : ExecutorAction D (Tagged V)}
    {pool : Executor D (Tagged V)} (hs : Kept s) (h : s.pool.step a = some pool)
    (hevents : ∀ d, (pool.dispatchers d).events = (s.pool.dispatchers d).events)
    (hrunning : ∀ w d event, pool.worker w = .running d event ↔
      s.pool.worker w = .running d event) : Kept { s with pool := pool } where
  phases := Executor.phases_step hs.phases h
  fits d := by
    rw [hevents d]
    exact hs.fits d
  found w d event hw := hs.found w d event ((hrunning w d event).mp hw)
  current d n hn := by
    obtain ⟨w, event, hw, htag⟩ := hs.current d n hn
    exact ⟨w, event, (hrunning w d event).mpr hw, htag⟩
  missed := hs.missed

/-- A step of the pool that changes the queue of one dispatcher, with its ledger. -/
theorem kept_ledger {s : Barriers D ι V} {a : ExecutorAction D (Tagged V)}
    {pool : Executor D (Tagged V)} {e : D} {l : Ledger} (hs : Kept s)
    (h : s.pool.step a = some pool) (hworker : pool.worker = s.pool.worker)
    (hother : ∀ d, d ≠ e → (pool.dispatchers d).events = (s.pool.dispatchers d).events)
    (hfits : l.Fits (pool.dispatchers e).events) (hlater : Ledger.Later (s.ledger e) l) :
    Kept ({ s with pool := pool }.setLedger e l) := by
  have hself : ({ s with pool := pool }.setLedger e l).ledger e = l := Function.update_self _ _ _
  have hrest : ∀ d, d ≠ e →
      ({ s with pool := pool }.setLedger e l).ledger d = s.ledger d := fun d hd =>
    Function.update_of_ne hd _ _
  refine ⟨Executor.phases_step hs.phases h, ?_, ?_, ?_, ?_⟩
  · intro d
    by_cases hd : d = e
    · subst hd
      rw [hself]
      exact hfits
    · rw [hrest d hd]
      exact (hother d hd).symm ▸ hs.fits d
  · intro w d event hw
    have hrun : s.pool.worker w = .running d event := by rw [← hworker]; exact hw
    by_cases hd : d = e
    · subst hd
      rw [hself]
      have hfound := hs.found w d event hrun
      have htaken := (inHand_current (s.looked w)).taken
      exact (hlater.taken event.tag (.inl (hfound ▸ htaken))).trans hfound
    · rw [hrest d hd]
      exact hs.found w d event hrun
  · intro d n hn
    have hrun : ∃ w event, s.pool.worker w = .running d event ∧ event.tag = n := by
      by_cases hd : d = e
      · subst hd
        rw [hself] at hn
        have heq := hlater.taken n (.inr hn.taken)
        exact hs.current d n (heq ▸ hn)
      · rw [hrest d hd] at hn
        exact hs.current d n hn
    obtain ⟨w, event, hw, htag⟩ := hrun
    exact ⟨w, event, by rw [← hw, ← hworker]; rfl, htag⟩
  · intro d n hn
    by_cases hd : d = e
    · subst hd
      rw [hself] at hn
      refine hs.missed d n ?_
      have htaken : (l.fate n).Taken := by
        rcases hn with hn | hn <;> rw [hn] <;> trivial
      rw [← hlater.taken n (.inr htaken)]
      exact hn
    · rw [hrest d hd] at hn
      exact hs.missed d n hn

/-- A pool thread takes an event out of the queue of `e`. -/
theorem kept_pop {s : Barriers D ι V} {w : Fin 2} {pool : Executor D (Tagged V)} {e : D}
    {event : Event (Tagged V)} {events : List (Event (Tagged V))} (hs : Kept s)
    (h : s.pool.step (.drainBegin w) = some pool) (hw : s.pool.worker w = .fetched e)
    (hev : (s.pool.dispatchers e).events = event :: events)
    (hpool : (pool.dispatchers e).events = events ∧
      (∀ d, d ≠ e → pool.dispatchers d = s.pool.dispatchers d) ∧
      pool.worker = Function.update s.pool.worker w (.running e event)) :
    Kept (({ s with pool := pool }.setLedger e ((s.ledger e).set event.tag .popped)).setLooked w
      none) := by
  obtain ⟨hevents, hother, hworker⟩ := hpool
  -- this thread holds the token of `e`, so that no other runs its handler
  have hidle : ∀ v event', s.pool.worker v ≠ .running e event' := by
    intro v event' hv
    have hx := (hs.phases.executing e).mpr ⟨v, by simp [hv]⟩
    rw [hs.phases.not_executing hw] at hx
    cases hx
  have hrunning : ∀ v d event', pool.worker v = .running d event' ↔
      (v = w ∧ d = e ∧ event' = event) ∨ (v ≠ w ∧ s.pool.worker v = .running d event') := by
    intro v d event'
    rw [hworker]
    by_cases hv : v = w
    · subst hv
      simp only [Function.update_self, Worker.running.injEq, true_and, ne_eq, not_true_eq_false,
        false_and, or_false]
      exact ⟨fun h => ⟨h.1.symm, h.2.symm⟩, fun h => ⟨h.1.symm, h.2.symm⟩⟩
    · simp [hv]
  have hfits := hs.fits e
  rw [hev] at hfits
  refine ⟨Executor.phases_step hs.phases h, ?_, ?_, ?_, ?_⟩
  · intro d
    rw [setLooked_ledger, setLedger_ledger]
    by_cases hd : d = e
    · subst hd
      rw [if_pos rfl]
      exact hevents ▸ hfits.pop
    · rw [if_neg hd]
      exact (hother d hd) ▸ hs.fits d
  · intro v d event' hv
    rw [setLooked_ledger, setLedger_ledger, setLooked_looked]
    rcases (hrunning v d event').mp hv with ⟨rfl, rfl, rfl⟩ | ⟨hne, hrun⟩
    · simp [Ledger.set, inHand]
    · have hd : d ≠ e := fun hd => hidle v event' (hd ▸ hrun)
      rw [if_neg hd, if_neg hne]
      exact hs.found v d event' hrun
  · intro d n hn
    rw [setLooked_ledger, setLedger_ledger] at hn
    by_cases hd : d = e
    · subst hd
      rw [if_pos rfl] at hn
      by_cases htag : n = event.tag
      · exact ⟨w, event, (hrunning w d event).mpr (.inl ⟨rfl, rfl, rfl⟩), htag.symm⟩
      · have hn : ((s.ledger d).fate n).Current := by simpa [Ledger.set, htag] using hn
        obtain ⟨v, event', hv, -⟩ := hs.current d n hn
        exact absurd hv (hidle v event')
    · rw [if_neg hd] at hn
      obtain ⟨v, event', hv, htag⟩ := hs.current d n hn
      have hne : v ≠ w := fun h => by simp [h, hw] at hv
      exact ⟨v, event', (hrunning v d event').mpr (.inr ⟨hne, hv⟩), htag⟩
  · intro d n hn
    rw [setLooked_ledger, setLedger_ledger] at hn
    refine hs.missed d n ?_
    by_cases hd : d = e
    · subst hd
      rw [if_pos rfl] at hn
      by_cases htag : n = event.tag
      · simp [Ledger.set, htag] at hn
      · simpa [Ledger.set, htag] using hn
    · rw [if_neg hd] at hn
      exact hn

omit [FrameValues V] in
/-- A pool thread looks the weak handler up. -/
theorem kept_lookUp {s : Barriers D ι V} {w : Fin 2} {e : D} {event : Event (Tagged V)}
    (hs : Kept s) (hw : s.pool.worker w = .running e event) :
    Kept ((s.setLedger e ((s.ledger e).set event.tag (.called (s.alive e)))).setLooked w
      (some (s.alive e))) := by
  have hcurrent : ((s.ledger e).fate event.tag).Current :=
    (hs.found w e event hw) ▸ inHand_current _
  refine ⟨hs.phases, ?_, ?_, ?_, ?_⟩
  · intro d
    rw [setLooked_ledger, setLedger_ledger]
    by_cases hd : d = e
    · subst hd
      rw [if_pos rfl]
      exact (hs.fits d).set hcurrent (by simp)
    · rw [if_neg hd]
      exact hs.fits d
  · intro v d event' hv
    rw [setLooked_ledger, setLedger_ledger, setLooked_looked]
    have hrun : s.pool.worker v = .running d event' := hv
    by_cases hvw : v = w
    · subst hvw
      obtain ⟨rfl, rfl⟩ : e = d ∧ event = event' := by
        rw [hw] at hrun
        simpa using hrun
      simp [Ledger.set, inHand]
    · have hd : d ≠ e := fun hd => hvw (hs.phases.unique (d := d) (by simp [hrun])
        (by simp [hw, hd]))
      rw [if_neg hd, if_neg hvw]
      exact hs.found v d event' hrun
  · intro d n hn
    rw [setLooked_ledger, setLedger_ledger] at hn
    by_cases hd : d = e
    · subst hd
      rw [if_pos rfl] at hn
      by_cases htag : n = event.tag
      · exact ⟨w, event, hw, htag.symm⟩
      · exact hs.current d n (by simpa [Ledger.set, htag] using hn)
    · rw [if_neg hd] at hn
      exact hs.current d n hn
  · intro d n hn
    rw [setLooked_ledger, setLedger_ledger] at hn
    by_cases hd : d = e
    · subst hd
      rw [if_pos rfl] at hn
      by_cases htag : n = event.tag
      · simpa [Ledger.set, htag] using hn
      · exact hs.missed d n (by simpa [Ledger.set, htag] using hn)
    · rw [if_neg hd] at hn
      exact hs.missed d n hn

/-- A pool thread comes back from the handler. -/
theorem kept_finish {s : Barriers D ι V} {w : Fin 2} {pool : Executor D (Tagged V)} {e : D}
    {event : Event (Tagged V)} {handed : Bool} (hs : Kept s)
    (h : s.pool.step (.drainEnd w) = some pool) (hw : s.pool.worker w = .running e event)
    (hfound : s.looked w = some handed) :
    Kept ({ s with pool := pool }.setLedger e
      ((s.ledger e).set event.tag (.finished handed))) := by
  have hfate : (s.ledger e).fate event.tag = .called handed := by
    rw [hs.found w e event hw, hfound]
    rfl
  obtain ⟨e', event', hw', rfl⟩ := Executor.drainEnd_cases h
  obtain ⟨rfl, rfl⟩ : e = e' ∧ event = event' := by
    rw [hw] at hw'
    simpa using hw'
  have hcurrent : ((s.ledger e).fate event.tag).Current := hfate ▸ trivial
  set pool := s.pool.advance w e (s.pool.dispatchers e).drainEnd.2
    (if (s.pool.dispatchers e).drainEnd.1 then .rescheduling e else .idle)
  have hevents : ∀ d, (pool.dispatchers d).events = (s.pool.dispatchers d).events := by
    intro d
    by_cases hd : d = e
    · subst hd
      simp [pool, Executor.advance, Dispatcher.drainEnd]
    · simp [pool, Executor.advance, hd]
  have hrunning : ∀ v d event', pool.worker v = .running d event' ↔
      v ≠ w ∧ s.pool.worker v = .running d event' := by
    intro v d event'
    by_cases hv : v = w
    · subst hv
      simp only [pool, Executor.advance, Function.update_self, ne_eq, not_true_eq_false,
        false_and, iff_false]
      split <;> simp
    · simp [pool, Executor.advance, hv]
  refine ⟨Executor.phases_step hs.phases h, ?_, ?_, ?_, ?_⟩
  · intro d
    rw [setLedger_ledger]
    by_cases hd : d = e
    · subst hd
      rw [if_pos rfl]
      exact (hevents d).symm ▸ (hs.fits d).set hcurrent (by simp)
    · rw [if_neg hd]
      exact (hevents d).symm ▸ hs.fits d
  · intro v d event' hv
    obtain ⟨hvw, hrun⟩ := (hrunning v d event').mp hv
    have hd : d ≠ e := fun hd => hvw (hs.phases.unique (d := d) (by simp [hrun])
      (by simp [hw, hd]))
    rw [setLedger_ledger, if_neg hd]
    exact hs.found v d event' hrun
  · intro d n hn
    rw [setLedger_ledger] at hn
    by_cases hd : d = e
    · subst hd
      rw [if_pos rfl] at hn
      have htag : n ≠ event.tag := by
        rintro rfl
        simp [Ledger.set, Fate.Current] at hn
      obtain ⟨v, event', hv, rfl⟩ := hs.current d n (by simpa [Ledger.set, htag] using hn)
      have hvw : v ≠ w := by
        rintro rfl
        rw [hw] at hv
        simp only [Worker.running.injEq, true_and] at hv
        exact htag (congrArg Event.tag hv.symm)
      exact ⟨v, event', (hrunning v d event').mpr ⟨hvw, hv⟩, rfl⟩
    · rw [if_neg hd] at hn
      obtain ⟨v, event', hv, htag⟩ := hs.current d n hn
      have hvw : v ≠ w := by
        rintro rfl
        rw [hw] at hv
        simp only [Worker.running.injEq] at hv
        exact hd hv.1.symm
      exact ⟨v, event', (hrunning v d event').mpr ⟨hvw, hv⟩, htag⟩
  · intro d n hn
    rw [setLedger_ledger] at hn
    by_cases hd : d = e
    · subst hd
      rw [if_pos rfl] at hn
      by_cases htag : n = event.tag
      · subst htag
        simp only [Ledger.set, Function.update_self, reduceCtorEq, Fate.finished.injEq,
          false_or] at hn
        exact hs.missed d event.tag (.inl (hn ▸ hfate))
      · exact hs.missed d n (by simpa [Ledger.set, htag] using hn)
    · rw [if_neg hd] at hn
      exact hs.missed d n hn

omit [FrameValues V] in
/-- A handler that goes. -/
theorem kept_die {s : Barriers D ι V} (hs : Kept s) (e : D) :
    Kept { s with alive := Function.update s.alive e false } where
  phases := hs.phases
  fits := hs.fits
  found := hs.found
  current := hs.current
  missed d n hn := by
    by_cases hd : d = e
    · simp [hd]
    · simpa [hd] using hs.missed d n hn

variable [DecidableEq ι]

omit [FrameValues V] in
/-- A call that comes or returns. -/
theorem kept_goto {s : Barriers D ι V} (hs : Kept s) (i : ι) (call : WaitCall D) :
    Kept (s.goto i call) :=
  ⟨hs.phases, hs.fits, hs.found, hs.current, hs.missed⟩

/-! ### Every step -/

/-- **Every step keeps the agreement and moves every dispatcher forward.** -/
theorem kept_step {s t : Barriers D ι V} {a : BarrierAction D ι V} (hs : Kept s)
    (h : s.step a = some t) : Kept t ∧ ∀ d, Forward s t d := by
  cases a with
  | post e kind values =>
      simp only [step] at h
      obtain ⟨r, hr, rfl⟩ := Option.map_eq_some_iff.mp h
      obtain ⟨pool, hpool, rfl⟩ := Option.map_eq_some_iff.mp hr
      have hfits := hs.fits e
      have hshape : pool = s.pool.afterPost e ((s.pool.dispatchers e).nativeSink kind
          ((s.ledger e).next kind values).values) := (Option.some.inj hpool).symm
      have hlater := hfits.post_later kind values
      refine ⟨kept_ledger hs hpool ?_ ?_ ?_ hlater, fun d =>
        (forward_pool hs hpool d).trans
          (forward_setLedger (s := { s with pool := pool }) hlater.posts hlater.ended d)⟩
      · rw [hshape]
        rfl
      · intro d hd
        rw [hshape]
        simp [Executor.afterPost, hd]
      · rw [hshape]
        simpa [Executor.afterPost] using hfits.post kind values
  | close i e =>
      simp only [step] at h
      split at h
      · cases h
      · obtain ⟨r, hr, rfl⟩ := Option.map_eq_some_iff.mp h
        obtain ⟨pool, hpool, rfl⟩ := Option.map_eq_some_iff.mp hr
        have hshape : pool = s.pool.afterPost e ⟨(s.pool.dispatchers e).close, true, false⟩ :=
          (Option.some.inj hpool).symm
        refine ⟨kept_goto (kept_pool hs hpool ?_ ?_) i _, fun d =>
          (forward_pool hs hpool d).trans ⟨id, id, Nat.le_refl _, fun _ _ => rfl, id⟩⟩
        · intro d
          rw [hshape]
          by_cases hd : d = e
          · subst hd
            simp [Executor.afterPost, Dispatcher.close]
          · simp [Executor.afterPost, hd]
        · intro w d event
          rw [hshape]
          rfl
  | barrier i e =>
      simp only [step] at h
      split at h
      · cases h
      · obtain rfl := Option.some.inj h
        exact ⟨kept_goto hs i _, fun d => ⟨id, id, Nat.le_refl _, fun _ _ => rfl, id⟩⟩
  | wake i =>
      simp only [step] at h
      split at h
      · split at h
        · obtain rfl := Option.some.inj h
          exact ⟨kept_goto hs i _, fun d => ⟨id, id, Nat.le_refl _, fun _ _ => rfl, id⟩⟩
        · cases h
      · split at h
        · obtain rfl := Option.some.inj h
          exact ⟨kept_goto hs i _, fun d => ⟨id, id, Nat.le_refl _, fun _ _ => rfl, id⟩⟩
        · cases h
      · cases h
  | discard e =>
      simp only [step] at h
      obtain ⟨r, hr, rfl⟩ := Option.map_eq_some_iff.mp h
      obtain ⟨pool, hpool, rfl⟩ := Option.map_eq_some_iff.mp hr
      have hshape : pool = s.pool.afterPost e ⟨(s.pool.dispatchers e).discard, true, false⟩ :=
        (Option.some.inj hpool).symm
      have hlater := Ledger.discard_later (l := s.ledger e) (s.pool.dispatchers e)
      refine ⟨kept_ledger hs hpool ?_ ?_ ?_ hlater, fun d =>
        (forward_pool hs hpool d).trans
          (forward_setLedger (s := { s with pool := pool }) hlater.posts hlater.ended d)⟩
      · rw [hshape]
        rfl
      · intro d hd
        rw [hshape]
        simp [Executor.afterPost, hd]
      · rw [hshape]
        simpa [Executor.afterPost] using (hs.fits e).discard
  | die e =>
      obtain rfl := Option.some.inj h
      refine ⟨kept_die hs e, fun d => ⟨id, id, Nat.le_refl _, fun _ _ => rfl, fun ha => ?_⟩⟩
      by_cases hd : d = e
      · simp [hd]
      · simpa [hd] using ha
  | put e =>
      obtain ⟨pool, hpool, rfl⟩ := Option.map_eq_some_iff.mp h
      obtain ⟨-, hshape⟩ := Executor.put_cases hpool
      refine ⟨kept_pool hs hpool ?_ ?_, forward_pool hs hpool⟩
      · intro d
        rw [hshape]
      · intro w d event
        rw [hshape]
  | get w =>
      obtain ⟨pool, hpool, rfl⟩ := Option.map_eq_some_iff.mp h
      obtain ⟨e, ready, hw, -, hshape⟩ := Executor.get_cases hpool
      refine ⟨kept_pool hs hpool ?_ ?_, forward_pool hs hpool⟩
      · intro d
        rw [hshape]
      · intro v d event
        rw [hshape]
        by_cases hv : v = w
        · subst hv
          simp [hw]
        · simp [hv]
  | drainBegin w =>
      obtain ⟨r, hr, rfl⟩ := Option.map_eq_some_iff.mp h
      obtain ⟨pool, hpool, rfl⟩ := Option.map_eq_some_iff.mp hr
      obtain ⟨e, hw, ⟨hev, hshape⟩ | ⟨event, events, hev, hshape⟩⟩ :=
        Executor.drainBegin_cases hpool
      · have hworker : pool.worker w = .idle := by simp [hshape, Executor.advance]
        simp only [hworker]
        refine ⟨kept_pool hs hpool ?_ ?_, forward_pool hs hpool⟩
        · intro d
          rw [hshape]
          by_cases hd : d = e
          · subst hd
            simp [Executor.advance]
          · simp [Executor.advance, hd]
        · intro v d event
          rw [hshape]
          by_cases hv : v = w
          · subst hv
            simp [Executor.advance, hw]
          · simp [Executor.advance, hv]
      · have hworker : pool.worker w = .running e event := by simp [hshape, Executor.advance]
        have hqueued : (s.ledger e).fate event.tag = .queued :=
          ((hs.fits e).queued event.tag).mpr (by simp [hev])
        simp only [hworker]
        refine ⟨kept_pop hs hpool hw hev ⟨?_, ?_, ?_⟩, ?_⟩
        · simp [hshape, Executor.advance]
        · intro d hd
          simp [hshape, Executor.advance, hd]
        · simp [hshape, Executor.advance]
        · intro d
          have hset : Forward { s with pool := pool } ({ s with pool := pool }.setLedger e
              ((s.ledger e).set event.tag .popped)) d :=
            forward_set (s := { s with pool := pool }) (by simp [hqueued, Fate.Over]) d
          exact ((forward_pool hs hpool d).trans hset).trans (forward_setLooked _ w none d)
  | lookUp w =>
      simp only [step] at h
      split at h
      next e event hw hlooked =>
        obtain rfl := Option.some.inj h
        have hpopped : (s.ledger e).fate event.tag = .popped := by
          rw [hs.found w e event hw, hlooked]
          rfl
        exact ⟨kept_lookUp hs hw, fun d =>
          (forward_set (by simp [hpopped, Fate.Over]) d).trans (forward_setLooked _ w _ d)⟩
      next => cases h
  | drainEnd w =>
      simp only [step] at h
      split at h
      next e event handed hw hlooked =>
        obtain ⟨r, hr, rfl⟩ := Option.map_eq_some_iff.mp h
        obtain ⟨pool, hpool, rfl⟩ := Option.map_eq_some_iff.mp hr
        have hcalled : (s.ledger e).fate event.tag = .called handed := by
          rw [hs.found w e event hw, hlooked]
          rfl
        refine ⟨kept_finish hs hpool hw hlooked, fun d => (forward_pool hs hpool d).trans ?_⟩
        exact forward_set (s := { s with pool := pool }) (by simp [hcalled, Fate.Over]) d
      next => cases h
  | reschedule w =>
      obtain ⟨pool, hpool, rfl⟩ := Option.map_eq_some_iff.mp h
      obtain ⟨e, hw, hshape⟩ := Executor.reschedule_cases hpool
      refine ⟨kept_pool hs hpool ?_ ?_, forward_pool hs hpool⟩
      · intro d
        rw [hshape]
      · intro v d event
        rw [hshape]
        by_cases hv : v = w
        · subst hv
          simp [hw]
        · simp [hv]

/-- **The run lemma.** -/
theorem reach_kept {s : Barriers D ι V} (hs : (machine D ι V).Reach s) : Kept s := by
  refine hs.invariant (I := Kept) ?_ fun _ _ _ hr _ h => (kept_step hr h).1
  rintro r ⟨capacity, frameCapacity, rfl⟩
  have hpool : (Executor.machine D (Tagged V)).Reach
      { dispatchers := fun d => .init (capacity d) (frameCapacity d) } :=
    .of_start ⟨capacity, frameCapacity, rfl⟩
  refine ⟨Executor.reach_phases hpool, fun d => ⟨.nil 0, by simp, by simp [Dispatcher.init]⟩,
    by simp, fun d n hn => hn.elim, by simp⟩

/-! ## What the callers rely on -/

/-- **What the callers of `close` and `barrier` rely on**, at their waits and behind them. -/
structure Waited (s : Barriers D ι V) : Prop where
  closing : ∀ i d, s.calls i = .closing d → (s.pool.dispatchers d).closed = true
  closed : ∀ i d, s.calls i = .closed d → (s.pool.dispatchers d).Stopped
  since : ∀ i d since, s.calls i = .barrier d since ∨ s.calls i = .passed d since →
    since ≤ (s.ledger d).posts
  passed : ∀ i d since, s.calls i = .passed d since →
    ∀ n < since, ((s.ledger d).fate n).Over

omit [DecidableEq D] [FrameValues V] [DecidableEq ι] in
/-- A step forward that moves no caller. -/
theorem Waited.forward {s t : Barriers D ι V} (hs : Waited s) (h : ∀ d, Forward s t d)
    (hcalls : t.calls = s.calls) : Waited t where
  closing i d hi := (h d).closed (hs.closing i d (hcalls ▸ hi))
  closed i d hi := (h d).stopped (hs.closed i d (hcalls ▸ hi))
  since i d since hi := Nat.le_trans (hs.since i d since (hcalls ▸ hi)) (h d).posts
  passed i d since hi n hn := by
    have hover := hs.passed i d since (hcalls ▸ hi) n hn
    rw [(h d).ended n hover]
    exact hover

omit [DecidableEq D] [FrameValues V] in
/-- A caller that comes to its wait, or leaves it with what it relies on. -/
theorem Waited.goto {s : Barriers D ι V} (hs : Waited s) (i : ι) {call : WaitCall D}
    (hclosing : ∀ d, call = .closing d → (s.pool.dispatchers d).closed = true)
    (hclosed : ∀ d, call = .closed d → (s.pool.dispatchers d).Stopped)
    (hsince : ∀ d since, call = .barrier d since ∨ call = .passed d since →
      since ≤ (s.ledger d).posts)
    (hpassed : ∀ d since, call = .passed d since → ∀ n < since, ((s.ledger d).fate n).Over) :
    Waited (s.goto i call) := by
  have hself : (s.goto i call).calls i = call := Function.update_self _ _ _
  have hother : ∀ j, j ≠ i → (s.goto i call).calls j = s.calls j := fun j hj =>
    Function.update_of_ne hj _ _
  refine ⟨?_, ?_, ?_, ?_⟩
  · intro j d hj
    by_cases h : j = i
    · exact hclosing d (by rw [← hself, ← hj, h])
    · exact hs.closing j d (hother j h ▸ hj)
  · intro j d hj
    by_cases h : j = i
    · exact hclosed d (by rw [← hself, ← hj, h])
    · exact hs.closed j d (hother j h ▸ hj)
  · intro j d since hj
    by_cases h : j = i
    · rw [h, hself] at hj
      exact hsince d since hj
    · exact hs.since j d since (hother j h ▸ hj)
  · intro j d since hj
    by_cases h : j = i
    · exact hpassed d since (by rw [← hself, ← hj, h])
    · exact hs.passed j d since (hother j h ▸ hj)

theorem over_of_not_current {f : Fate} (hposted : f ≠ .unposted) (hqueued : f ≠ .queued)
    (hcurrent : ¬ f.Current) : f.Over := by
  cases f with
  | unposted => exact absurd rfl hposted
  | queued => exact absurd rfl hqueued
  | popped | called _ => exact absurd trivial hcurrent
  | _ => trivial

omit [DecidableEq ι] [FrameValues V] in
/-- **When a dispatcher is drained and not executing, everything posted is over.** -/
theorem Kept.over {s : Barriers D ι V} (hs : Kept s) {d : D}
    (hev : (s.pool.dispatchers d).events = []) (hx : (s.pool.dispatchers d).executing = false)
    {n : ℕ} (hn : n < (s.ledger d).posts) : ((s.ledger d).fate n).Over := by
  have hfits := hs.fits d
  apply over_of_not_current
  · exact fun h => Nat.not_le.mpr hn ((hfits.unposted n).mp h)
  · intro h
    have hmem := (hfits.queued n).mp h
    simp [hev] at hmem
  · intro h
    obtain ⟨w, event, hw, -⟩ := hs.current d n h
    have hrunning := (hs.phases.executing d).mpr ⟨w, by simp [hw]⟩
    rw [hx] at hrunning
    cases hrunning

/-- The steps other than the calls move no caller. -/
theorem calls_of_step {s t : Barriers D ι V} {a : BarrierAction D ι V} (h : s.step a = some t)
    (hclose : ∀ i d, a ≠ .close i d) (hbarrier : ∀ i d, a ≠ .barrier i d)
    (hwake : ∀ i, a ≠ .wake i) : t.calls = s.calls := by
  have hpool : ∀ {a r}, s.poolStep a = some r → r.calls = s.calls := fun hr => by
    obtain ⟨pool, -, rfl⟩ := Option.map_eq_some_iff.mp hr
    rfl
  cases a with
  | post d kind values =>
      simp only [step] at h
      obtain ⟨r, hr, rfl⟩ := Option.map_eq_some_iff.mp h
      exact (hpool hr : r.calls = s.calls)
  | close i d => exact absurd rfl (hclose i d)
  | barrier i d => exact absurd rfl (hbarrier i d)
  | wake i => exact absurd rfl (hwake i)
  | discard d =>
      simp only [step] at h
      obtain ⟨r, hr, rfl⟩ := Option.map_eq_some_iff.mp h
      exact (hpool hr : r.calls = s.calls)
  | die d =>
      obtain rfl := Option.some.inj h
      rfl
  | put d => exact hpool h
  | get w => exact hpool h
  | drainBegin w =>
      simp only [step] at h
      obtain ⟨r, hr, rfl⟩ := Option.map_eq_some_iff.mp h
      have hcalls : r.calls = s.calls := hpool hr
      split <;> exact hcalls
  | lookUp w =>
      simp only [step] at h
      split at h
      · obtain rfl := Option.some.inj h
        rfl
      · cases h
  | drainEnd w =>
      simp only [step] at h
      split at h
      · obtain ⟨r, hr, rfl⟩ := Option.map_eq_some_iff.mp h
        exact (hpool hr : r.calls = s.calls)
      · cases h
  | reschedule w => exact hpool h

/-- **The step lemma of the callers.** -/
theorem waited_step {s t : Barriers D ι V} {a : BarrierAction D ι V} (hk : Kept s)
    (hs : Waited s) (h : s.step a = some t) : Waited t := by
  have hforward := (kept_step hk h).2
  cases a with
  | close i e =>
      simp only [step] at h
      split at h
      · cases h
      · obtain ⟨r, hr, rfl⟩ := Option.map_eq_some_iff.mp h
        obtain ⟨pool, hpool, rfl⟩ := Option.map_eq_some_iff.mp hr
        have hclosed : (pool.dispatchers e).closed = true := by
          obtain rfl : s.pool.afterPost e _ = pool := Option.some.inj hpool
          simp [Executor.afterPost, Dispatcher.close]
        have hw : Waited { s with pool := pool } :=
          hs.forward (forward_pool hk hpool) rfl
        refine hw.goto i (fun d hd => ?_) (by simp) (by simp) (by simp)
        obtain rfl := WaitCall.closing.inj hd
        exact hclosed
  | barrier i e =>
      simp only [step] at h
      split at h
      · cases h
      · obtain rfl := Option.some.inj h
        refine hs.goto i (by simp) (by simp) (fun d since hd => ?_) (by simp)
        obtain ⟨rfl, rfl⟩ : e = d ∧ (s.ledger e).posts = since := by simpa using hd
        exact Nat.le_refl _
  | wake i =>
      simp only [step] at h
      split at h
      next e hi =>
        split at h
        next hdone =>
          obtain rfl := Option.some.inj h
          have hdone : (s.pool.dispatchers e).executing = false ∧
              (s.pool.dispatchers e).events = [] := by
            simpa [Dispatcher.closeDone] using hdone
          refine hs.goto i (by simp) (fun d hd => ?_) (by simp) (by simp)
          obtain rfl := WaitCall.closed.inj hd
          exact ⟨hs.closing i e hi, hdone.2, hdone.1⟩
        next => cases h
      next e since hi =>
        split at h
        next hdone =>
          obtain rfl := Option.some.inj h
          have hdone : ((s.pool.dispatchers e).events = [] ∧
              (s.pool.dispatchers e).executing = false) ∧
              (s.pool.dispatchers e).scheduled = false := by
            simpa [Dispatcher.barrierDone] using hdone
          have hle := hs.since i e since (.inl hi)
          refine hs.goto i (by simp) (by simp) ?_ ?_
          · intro d since' hd
            obtain ⟨rfl, rfl⟩ : e = d ∧ since = since' := by simpa using hd
            exact hle
          · intro d since' hd n hn
            obtain ⟨rfl, rfl⟩ := WaitCall.passed.inj hd
            exact hk.over hdone.1.1 hdone.1.2 (Nat.lt_of_lt_of_le hn hle)
        next => cases h
      next => cases h
  | _ => exact hs.forward hforward (calls_of_step h (by simp) (by simp) (by simp))

/-- **The run lemma of the callers.** -/
theorem reach_waited {s : Barriers D ι V} (hs : (machine D ι V).Reach s) : Waited s := by
  refine hs.invariant_of (I := Waited) (J := Kept) (fun _ hr => reach_kept hr) ?_
    fun _ _ _ hk _ hw _ h => waited_step hk hw h
  rintro r ⟨capacity, frameCapacity, rfl⟩ -
  exact ⟨by simp, by simp, by simp, by simp⟩

/-! ## The promise -/

/-- The step calls the handler of `d`. -/
def Starts (s : Barriers D ι V) (a : BarrierAction D ι V) (d : D) : Prop :=
  ∃ w event, a = .lookUp w ∧ s.pool.worker w = .running d event ∧ s.alive d = true

/-- The step is a post that `d` accepts. -/
def Accepts (s : Barriers D ι V) (a : BarrierAction D ι V) (d : D) : Prop :=
  ∃ kind values, a = .post d kind values ∧
    ((s.pool.dispatchers d).nativeSink kind ((s.ledger d).next kind values).values).accepted = true

/-- The post was refused, superseded, evicted or discarded, or its event was handed to the handler,
unless that is dead. -/
def Served (alive : Bool) : Fate → Prop
  | .refused | .superseded | .evicted | .discarded | .finished true => True
  | .finished false => alive = false
  | _ => False

omit [DecidableEq ι] in
/-- A stopped dispatcher calls no handler and takes no post. -/
theorem Kept.silent {s : Barriers D ι V} (hs : Kept s) {d : D}
    (hd : (s.pool.dispatchers d).Stopped) (a : BarrierAction D ι V) :
    ¬ Starts s a d ∧ ¬ Accepts s a d := by
  constructor
  · rintro ⟨w, event, -, hw, -⟩
    have hrunning := (hs.phases.executing d).mpr ⟨w, by simp [hw]⟩
    rw [hd.executing] at hrunning
    cases hrunning
  · rintro ⟨kind, values, -, haccepted⟩
    unfold Dispatcher.nativeSink at haccepted
    rw [Dispatcher.post_of_closed hd.closed] at haccepted
    cases haccepted

/-- A stopped dispatcher stays so in every run. -/
theorem stopped_exec {s t : Barriers D ι V} {as : List (BarrierAction D ι V)} (hs : Kept s)
    {d : D} (hd : (s.pool.dispatchers d).Stopped) (h : (machine D ι V).exec s as = some t) :
    Kept t ∧ (t.pool.dispatchers d).Stopped :=
  Machine.exec_invariant (I := fun s => Kept s ∧ (s.pool.dispatchers d).Stopped)
    (fun _ _ _ hr hstep => ⟨(kept_step hr.1 hstep).1, ((kept_step hr.1 hstep).2 d).stopped hr.2⟩)
    h ⟨hs, hd⟩

/-- **`close` and `barrier` are barriers.** When `close` has returned, no handler of the dispatcher
runs, its queue is empty, every post has been served, and in every later state no step calls the
handler or is accepted; when `barrier` has returned, everything posted before the call is over.
Source: `_dispatch.py`, `_Dispatcher.close` and `_Dispatcher.barrier` -/
theorem close_and_barrier {s : Barriers D ι V} (hs : (machine D ι V).Reach s) (i : ι) (d : D) :
    (s.calls i = .closed d →
      (∀ w, (s.pool.worker w).handling ≠ some d) ∧ (s.pool.dispatchers d).events = [] ∧
      (∀ n < (s.ledger d).posts, Served (s.alive d) ((s.ledger d).fate n)) ∧
      ∀ as t, (machine D ι V).exec s as = some t → ∀ a, ¬ Starts t a d ∧ ¬ Accepts t a d) ∧
    ∀ since, s.calls i = .passed d since → ∀ n < since, ((s.ledger d).fate n).Over := by
  have hk := reach_kept hs
  have hw := reach_waited hs
  refine ⟨fun hi => ?_, fun since hi => hw.passed i d since hi⟩
  have hstopped := hw.closed i d hi
  refine ⟨?_, hstopped.events, ?_, ?_⟩
  · intro w hrun
    have hx := (hk.phases.executing d).mpr ⟨w, hrun⟩
    rw [hstopped.executing] at hx
    cases hx
  · intro n hn
    have hover := hk.over hstopped.events hstopped.executing hn
    cases hfate : (s.ledger d).fate n with
    | finished handed =>
        cases handed with
        | true => trivial
        | false => exact hk.missed d n (.inr hfate)
    | refused | superseded | evicted | discarded => trivial
    | _ =>
        rw [hfate] at hover
        exact hover.elim
  · intro as t hrun a
    obtain ⟨hkt, hst⟩ := stopped_exec hk hstopped hrun
    exact hkt.silent hst a

/-- Two commands for one dispatcher: the first is in the handler when `close` is called, and the
second is handed over before it returns. -/
def closeWhileRunning : List (BarrierAction (Fin 1) (Fin 1) (List PyValue)) :=
  [.post 0 .command [.int 8193], .post 0 .command [.int 8194], .put 0, .get 0, .drainBegin 0,
    .lookUp 0, .close 0 0, .drainEnd 0, .reschedule 0, .get 1, .drainBegin 1, .lookUp 1,
    .drainEnd 1, .wake 0]

/-- What `close` promises when it returns from there. -/
theorem close_and_barrier_running :
    ∃ s, (machine (Fin 1) (Fin 1) (List PyValue)).exec { pool := { dispatchers := fun _ => .init } }
        closeWhileRunning = some s ∧
      Served (s.alive 0) ((s.ledger 0).fate 1) := by
  refine ⟨_, rfl, ?_⟩
  have hstart : (machine (Fin 1) (Fin 1) (List PyValue)).start
      { pool := { dispatchers := fun _ => .init } } := ⟨fun _ => 64, fun _ => none, rfl⟩
  have hs : (machine (Fin 1) (Fin 1) (List PyValue)).Reach _ :=
    Machine.Reach.exec (.of_start hstart)
      (rfl : (machine (Fin 1) (Fin 1) (List PyValue)).exec _ closeWhileRunning = _)
  exact ((close_and_barrier hs 0 0).1 rfl).2.2.1 1 (by decide)

end Barriers

end Tirtc
