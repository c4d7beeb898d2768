import Tirtc.Dispatch.Delivery

/-!
# The newest state event

The sink overwrites a queued state event with a newer one, so that the handler always gets the
state the Runtime reported last. A full queue breaks that in two ways, and in no other.

* `Newest`: the newest state event is in the queue or was the last one handed over.
* `keepsState`: the post neither evicts a queued state event nor is a state event that a queue
  full of terminal events refuses.
* `StateKept`, `stateKept_step`: the invariant and its step lemma, by the kind of the post.
* `newest_state_kept_iff`: `Newest` holds in every state of a run whose steps satisfy
  `keepsState`, and a step that does not satisfy it ends `Newest`.
-/

set_option autoImplicit false

namespace Tirtc

open Dispatcher Transition

namespace Delivery

variable {V : Type} [FrameValues V]

/-- The newest state event is in the queue or was the last one handed over. -/
def Newest (s : Delivery V) : Prop :=
  ∀ event, s.newestState = some event →
    event ∈ s.dispatcher.events ∨ s.handedState = some event

/-- The step does not take the newest state event out of a full queue: a post neither evicts a
state event nor is itself a state event that a queue full of terminal events refuses. -/
def keepsState (s : Delivery V) : DeliveryAction V → Bool
  | .post kind values =>
      match s.dispatcher.victim? (s.next kind values) kind.isLatest with
      | some victim => victim.kind != .state
      | none =>
          !(kind == .state && !s.dispatcher.coalesces (s.next kind values) kind.isLatest &&
            decide (s.dispatcher.capacity ≤ s.dispatcher.events.length) &&
            s.dispatcher.events.all Event.terminal)
  | _ => true

/-- **The invariant behind `Newest`**: the only state event in the queue is the newest one, and
the one handed over is not in the queue. -/
structure StateKept (s : Delivery V) : Prop where
  tidy : Tidy s
  kind : ∀ e, s.newestState = some e → e.kind = .state
  queued : ∀ e ∈ s.dispatcher.events, e.kind = .state → s.newestState = some e
  newest : Newest s
  handed : ∀ e, s.handedState = some e →
    e.tag < s.posts ∧ ∀ f ∈ s.dispatcher.events, f.tag ≠ e.tag

/-- What is handed over stays apart from the queue when only the next event can enter. -/
theorem handed_post {s : Delivery V} (hs : StateKept s) {kind : EventKind} {values : V}
    (hsub : ∀ e ∈ (s.post kind values).dispatcher.events,
      e ∈ s.dispatcher.events ∨ e.tag = s.posts) :
    ∀ e, s.handedState = some e →
      e.tag < s.posts + 1 ∧ ∀ f ∈ (s.post kind values).dispatcher.events, f.tag ≠ e.tag := by
  intro e he
  obtain ⟨hlt, hne⟩ := hs.handed e he
  refine ⟨Nat.lt_succ_of_lt hlt, fun f hf => ?_⟩
  rcases hsub f hf with hf | hf
  · exact hne f hf
  · exact fun h => Nat.ne_of_lt hlt (h.symm.trans hf)

/-- A post of another kind keeps the invariant when it keeps the state events of the queue. -/
theorem stateKept_post_other {s : Delivery V} (hs : StateKept s) {kind : EventKind} {values : V}
    (hk : kind ≠ .state)
    (hsub : ∀ e ∈ (s.post kind values).dispatcher.events,
      e ∈ s.dispatcher.events ∨ (e.tag = s.posts ∧ e.kind = kind))
    (hkeep : ∀ e ∈ s.dispatcher.events, e.kind = .state →
      e ∈ (s.post kind values).dispatcher.events) :
    StateKept (s.post kind values) := by
  have hnewest : (s.post kind values).newestState = s.newestState := if_neg hk
  refine ⟨tidy_post hs.tidy kind values, ?_, ?_, ?_, ?_⟩
  · rw [hnewest]
    exact hs.kind
  · rw [hnewest]
    intro e he hek
    rcases hsub e he with he | ⟨-, he⟩
    · exact hs.queued e he hek
    · exact absurd (he.symm.trans hek) hk
  · intro e he
    rw [hnewest] at he
    rcases hs.newest e he with h | h
    · exact .inl (hkeep e h (hs.kind e he))
    · exact .inr h
  · exact handed_post hs fun e he => (hsub e he).imp_right And.left

/-- A post of a state event keeps the invariant when it is the only state event afterwards. -/
theorem stateKept_post_state {s : Delivery V} (hs : StateKept s) {values : V}
    (hsub : ∀ e ∈ (s.post .state values).dispatcher.events,
      e = s.next .state values ∨ (e ∈ s.dispatcher.events ∧ e.kind ≠ .state))
    (hmem : s.next .state values ∈ (s.post .state values).dispatcher.events) :
    StateKept (s.post .state values) := by
  have hnewest : (s.post .state values).newestState = some (s.next .state values) := rfl
  refine ⟨tidy_post hs.tidy .state values, ?_, ?_, ?_, ?_⟩
  · intro e he
    rw [hnewest] at he
    cases he
    rfl
  · intro e he hek
    rcases hsub e he with rfl | ⟨-, hne⟩
    · exact hnewest
    · exact absurd hek hne
  · intro e he
    rw [hnewest] at he
    cases he
    exact .inl hmem
  · refine handed_post hs ?_
    intro e he
    rcases hsub e he with rfl | ⟨he, -⟩
    · exact .inr rfl
    · exact .inl he

/-- A post loses the newest state event when that is not in the queue afterwards. -/
theorem not_newest_post {s : Delivery V} {kind : EventKind} {values : V}
    {e : Event (Tagged V)} (hnewest : (s.post kind values).newestState = some e)
    (hgone : e ∉ (s.post kind values).dispatcher.events)
    (hhanded : s.handedState = some e → False) : ¬ Newest (s.post kind values) := by
  intro h
  rcases h e hnewest with h | h
  · exact hgone h
  · exact hhanded h

omit [FrameValues V] in
/-- When a state event finds nothing to overwrite, no state event is queued. -/
theorem no_state_queued {s : Delivery V} (hs : Tidy s) {values : V}
    (hnot : s.dispatcher.coalesces (s.next .state values) EventKind.state.isLatest = false) :
    ∀ e ∈ s.dispatcher.events, e.kind ≠ .state := by
  intro e he hek
  simp only [coalesces, EventKind.isLatest, Bool.true_and, List.any_eq_false] at hnot
  refine hnot e he ?_
  have hframe : e.frame = false := by rw [hs.numbered.frame e he, hek]; rfl
  have hkind : (s.next .state values).kind = .state := rfl
  simp [hframe, hek, hkind]

omit [FrameValues V] in
/-- `keepsState` of a post that evicts. -/
theorem keepsState_of_victim {s : Delivery V} {kind : EventKind} {values : V}
    {victim : Event (Tagged V)}
    (h : s.dispatcher.victim? (s.next kind values) kind.isLatest = some victim) :
    s.keepsState (.post kind values) = (victim.kind != .state) := by
  simp [keepsState, h]

omit [FrameValues V] in
/-- `keepsState` of a post of another kind that evicts nothing. -/
theorem keepsState_of_ne {s : Delivery V} {kind : EventKind} {values : V} (hk : kind ≠ .state)
    (h : s.dispatcher.victim? (s.next kind values) kind.isLatest = none) :
    s.keepsState (.post kind values) = true := by
  simp [keepsState, h, hk]

/-- The appended event of a post that is no state event. -/
theorem mem_append_marked {s : Delivery V} {d : Dispatcher (Tagged V)} {kind : EventKind}
    {values : V} (hsub : ∀ e ∈ d.events, e ∈ s.dispatcher.events) :
    ∀ e ∈ (d.enqueue (s.next kind values)).dispatcher.events,
      e ∈ s.dispatcher.events ∨ (e.tag = s.posts ∧ e.kind = kind) := by
  intro e he
  rw [enqueue_events, List.mem_append, List.mem_singleton] at he
  rcases he with he | rfl
  · exact .inl (hsub e he)
  · exact .inr ⟨marked_tag d _, rfl⟩

/-- **A post of another kind** keeps the invariant, unless it evicts the state event: then the
newest state event is gone. -/
theorem stateKept_post_of_ne {s : Delivery V} (hs : StateKept s) {kind : EventKind} {values : V}
    (hk : kind ≠ .state) :
    (s.keepsState (.post kind values) = true → StateKept (s.post kind values)) ∧
    (s.keepsState (.post kind values) = false → ¬ Newest (s.post kind values)) := by
  have hopen := hs.tidy.open
  have hnum := hs.tidy.numbered
  -- a post that evicts nothing and keeps what is queued
  have hkeep (hv : s.dispatcher.victim? (s.next kind values) kind.isLatest = none)
      (hsub : ∀ e ∈ (s.post kind values).dispatcher.events,
        e ∈ s.dispatcher.events ∨ (e.tag = s.posts ∧ e.kind = kind))
      (hmem : ∀ e ∈ s.dispatcher.events, e.kind = .state →
        e ∈ (s.post kind values).dispatcher.events) :
      (s.keepsState (.post kind values) = true → StateKept (s.post kind values)) ∧
      (s.keepsState (.post kind values) = false → ¬ Newest (s.post kind values)) :=
    ⟨fun _ => stateKept_post_other hs hk hsub hmem,
      fun h => absurd ((keepsState_of_ne hk hv).symm.trans h) (by simp)⟩
  have hposted := posted s kind values
  have hev : (s.post kind values).dispatcher =
    (s.dispatcher.nativeSink kind (s.next kind values).values).dispatcher := rfl
  generalize s.dispatcher.nativeSink kind (s.next kind values).values = r at hposted hev
  rw [hev] at hkeep
  cases hposted with
  | closed h => simp [hopen] at h
  | coalesced xs old ys hco hsplit hold _ =>
      refine hkeep (victim?_eq_none (.inl hco)) ?_ ?_
      · intro e he
        simp only [List.mem_append, List.mem_cons] at he
        rcases he with he | rfl | he
        · exact .inl (by simp [hsplit, he])
        · exact .inr ⟨rfl, rfl⟩
        · exact .inl (by simp [hsplit, he])
      · intro e he hek
        have hne : e ≠ old := by
          rintro rfl
          exact hk (hold.symm.trans hek)
        simp only [hsplit, List.mem_append, List.mem_cons, hne, false_or] at he
        simp only [List.mem_append, List.mem_cons]
        exact he.imp_right .inr
  | frameRefused hf =>
      exact hkeep (victim?_eq_none (.inr (.inl hf))) (fun e he => .inl he) fun e he _ => he
  | refused _ _ _ hall =>
      exact hkeep (victim?_eq_none (.inr (.inr (.inr hall)))) (fun e he => .inl he)
        fun e he _ => he
  | beyond _ _ _ _ hall =>
      refine hkeep (victim?_eq_none (.inr (.inr (.inr hall)))) ?_ fun e he _ => ?_
      · exact mem_append_marked fun e he => he
      · simp [he]
  | appended _ hlt =>
      refine hkeep (victim?_eq_none (.inr (.inr (.inl hlt)))) ?_ fun e he _ => ?_
      · exact mem_append_marked fun e he => he
      · simp [he]
  | evicted xs victim ys hnot hf hfull hsplit hxs hvt =>
      have hvictim := victim?_eq_some hopen hnot hf hfull hsplit hxs hvt
      have hrest : ∀ e ∈ xs ++ ys, e ∈ s.dispatcher.events := by
        intro e he
        rw [hsplit]
        simp only [List.mem_append, List.mem_cons] at he ⊢
        exact he.imp_right .inr
      rw [keepsState_of_victim hvictim]
      constructor
      · intro hne
        refine stateKept_post_other hs hk ?_ ?_
        · rw [hev]
          exact mem_append_marked hrest
        · intro e he hek
          have hev' : e ≠ victim := by
            rintro rfl
            simp [hek] at hne
          rw [hsplit] at he
          simp only [List.mem_append, List.mem_cons, hev', false_or] at he
          rw [hev, enqueue_events]
          exact List.mem_append_left _ (List.mem_append.mpr he)
      · intro hstate
        have hvs : victim.kind = .state := by simpa using hstate
        have hmem : victim ∈ s.dispatcher.events := by simp [hsplit]
        refine not_newest_post (e := victim) ?_ ?_ ?_
        · exact (if_neg hk).trans (hs.queued victim hmem hvs)
        · rw [hev, enqueue_events]
          intro h
          rcases List.mem_append.mp h with h | h
          · exact (hsplit ▸ hnum).eq_of_tag victim h rfl
          · rw [List.mem_singleton] at h
            exact hk ((congrArg Event.kind h).symm.trans hvs)
        · exact fun h => (hs.handed victim h).2 victim hmem rfl

/-- **A post of a state event** keeps the invariant, unless the queue is full of terminal events
and refuses it: then the newest state event never was in the queue. -/
theorem stateKept_post_of_state {s : Delivery V} (hs : StateKept s) {values : V} :
    (s.keepsState (.post .state values) = true → StateKept (s.post .state values)) ∧
    (s.keepsState (.post .state values) = false → ¬ Newest (s.post .state values)) := by
  have hopen := hs.tidy.open
  have hnum := hs.tidy.numbered
  have hnone
      (hnot : s.dispatcher.coalesces (s.next .state values) EventKind.state.isLatest = false) :
      ∀ e ∈ s.dispatcher.events, e.kind ≠ .state := no_state_queued hs.tidy hnot
  -- the event is appended to a queue without state events
  have happend (d : Dispatcher (Tagged V)) (hd : ∀ e ∈ d.events, e ∈ s.dispatcher.events)
      (hno : ∀ e ∈ s.dispatcher.events, e.kind ≠ .state)
      (hev : (s.post .state values).dispatcher.events =
        (d.enqueue (s.next .state values)).dispatcher.events) :
      StateKept (s.post .state values) := by
    rw [enqueue_events, marked_of_not_frame _ rfl] at hev
    refine stateKept_post_state hs ?_ ?_
    · rw [hev]
      intro e he
      rcases List.mem_append.mp he with he | he
      · exact .inr ⟨hd e he, hno e (hd e he)⟩
      · exact .inl (List.mem_singleton.mp he)
    · rw [hev]
      exact List.mem_append_right _ (List.mem_singleton.mpr rfl)
  have hposted := posted s .state values
  have hev : (s.post .state values).dispatcher =
    (s.dispatcher.nativeSink .state (s.next .state values).values).dispatcher := rfl
  generalize s.dispatcher.nativeSink .state (s.next .state values).values = r at hposted hev
  cases hposted with
  | closed h => simp [hopen] at h
  | frameRefused hf => cases hf
  | beyond _ _ ht => cases ht
  | coalesced xs old ys hco hsplit hold _ =>
      refine ⟨fun _ => stateKept_post_state hs ?_ ?_, fun h => absurd h ?_⟩
      · rw [hev]
        intro e he
        simp only [List.mem_append, List.mem_cons] at he
        have hcase : e = s.next .state values ∨ e ∈ xs ++ ys := by
          rw [List.mem_append]
          tauto
        rcases hcase with rfl | he'
        · exact .inl rfl
        · -- another state event of the queue would be the newest one, which is `old`
          have hmem : e ∈ s.dispatcher.events := by
            rw [hsplit]
            simp only [List.mem_append, List.mem_cons] at he' ⊢
            exact he'.imp_right .inr
          refine .inr ⟨hmem, fun hek => ?_⟩
          have hold' := hs.queued old (by simp [hsplit]) hold
          have heq : old = e := Option.some.inj (hold'.symm.trans (hs.queued e hmem hek))
          exact (hsplit ▸ hnum).eq_of_tag e he' (heq ▸ rfl)
      · rw [hev]
        simp
      · simp [keepsState, victim?_eq_none (.inl hco), hco]
  | appended hnot hlt =>
      refine ⟨fun _ => happend _ (fun e he => he) (hnone hnot) (by rw [hev]), fun h => ?_⟩
      simp [keepsState, victim?_eq_none (.inr (.inr (.inl hlt))), Nat.not_le.mpr hlt] at h
  | evicted xs victim ys hnot hf hfull hsplit hxs hvt =>
      have hvictim := victim?_eq_some hopen hnot hf hfull hsplit hxs hvt
      refine ⟨fun _ => happend _ ?_ (hnone hnot) (by rw [hev]), ?_⟩
      · intro e he
        rw [hsplit]
        simp only [without, List.mem_append, List.mem_cons] at he ⊢
        exact he.imp_right .inr
      · intro h
        rw [keepsState_of_victim hvictim] at h
        exact absurd (by simpa using h) (hnone hnot victim (by simp [hsplit]))
  | refused hnot _ hfull hall =>
      refine ⟨?_, ?_⟩
      · intro h
        simp only [keepsState, victim?_eq_none (.inr (.inr (.inr hall))), hnot, hfull,
          List.all_eq_true.mpr hall] at h
        simp at h
      · intro _
        refine not_newest_post (e := s.next .state values) rfl ?_ ?_
        · rw [hev]
          exact fun h => Nat.lt_irrefl _ (hnum.below _ h)
        · exact fun h => Nat.lt_irrefl _ (hs.handed _ h).1

omit [FrameValues V] in
/-- Handing over the next event keeps the invariant. -/
theorem stateKept_hand {s : Delivery V} (hs : StateKept s) {event : Event (Tagged V)}
    {events : List (Event (Tagged V))} {d : Dispatcher (Tagged V)}
    (hev : s.dispatcher.events = event :: events) (hd : d.events = events)
    (hopen : d.closed = s.dispatcher.closed) :
    StateKept { s.hand event with dispatcher := d } := by
  have hsub : ∀ e ∈ events, e ∈ s.dispatcher.events := fun e he => by simp [hev, he]
  have hnum : Numbered s.posts ([] ++ event :: events) := hev ▸ hs.tidy.numbered
  refine ⟨tidy_hand hs.tidy hev hd hopen, hs.kind, ?_, ?_, ?_⟩
  · exact fun e he hek => hs.queued e (hsub e (hd ▸ he)) hek
  · intro e he
    rcases hs.newest e he with h | h
    · rw [hev, List.mem_cons] at h
      rcases h with rfl | h
      · exact .inr (if_pos (hs.kind e he))
      · exact .inl (hd.symm ▸ h)
    · by_cases hek : event.kind = .state
      · -- the newest state event is still queued, so it is not the one handed over before
        have hnew := hs.queued event (by simp [hev]) hek
        have heq : event = e := Option.some.inj (hnew.symm.trans he)
        exact .inr (heq ▸ if_pos hek)
      · exact .inr ((if_neg hek).trans h)
  · intro e he
    by_cases hek : event.kind = .state
    · have heq : event = e := Option.some.inj ((if_pos hek).symm.trans he)
      subst heq
      exact ⟨hnum.below event (by simp), fun f hf =>
        hnum.eq_of_tag f (by simpa using hd ▸ hf)⟩
    · obtain ⟨hlt, hne⟩ := hs.handed e ((if_neg hek).symm.trans he)
      exact ⟨hlt, fun f hf => hne f (hsub f (hd ▸ hf))⟩

/-- **The step lemma**: a step keeps the invariant exactly when `keepsState` holds. -/
theorem stateKept_step {s t : Delivery V} {a : DeliveryAction V} (hs : StateKept s)
    (h : s.step a = some t) :
    (s.keepsState a = true → StateKept t) ∧ (s.keepsState a = false → ¬ Newest t) := by
  rcases step_cases h with ⟨kind, values, rfl, rfl⟩ | ⟨event, events, rfl, hev, rfl⟩ |
    ⟨ha, executing, scheduled, rfl⟩
  · by_cases hk : kind = .state
    · subst hk
      exact stateKept_post_of_state hs
    · exact stateKept_post_of_ne hs hk
  · exact ⟨fun _ => stateKept_hand hs hev rfl rfl, fun h => by simp [keepsState] at h⟩
  · refine ⟨fun _ => ⟨⟨hs.tidy.open, hs.tidy.numbered⟩, hs.kind, hs.queued, hs.newest,
      hs.handed⟩, fun h => ?_⟩
    rcases ha with rfl | rfl <;> simp [keepsState] at h

/-- A fresh dispatcher. -/
theorem stateKept_start {s : Delivery V} (h : (machine V).start s) : StateKept s := by
  obtain ⟨capacity, frameCapacity, rfl⟩ := h
  exact ⟨⟨rfl, .nil 0⟩, by simp, by simp [init], by simp [Newest], by simp⟩

/-- **The newest state event is never lost, as long as no post takes it out of a full queue.** In
a run whose steps all satisfy `keepsState`, the newest state event is in the queue or was the last
one handed over, in every state; and in such a run a step keeps that if and only if it satisfies
`keepsState` too.
Source: `_dispatch.py`, `_Dispatcher.post` -/
theorem newest_state_kept_iff {s : Delivery V}
    (hs : (machine V).ReachWith (fun s a => s.keepsState a = true) s) :
    Newest s ∧ ∀ a t, s.step a = some t → (Newest t ↔ s.keepsState a = true) := by
  have hinv : StateKept s := by
    refine hs.invariant (I := StateKept) (fun _ h => stateKept_start h) ?_
    exact fun _ _ _ hr hok h => (stateKept_step hr h).1 hok
  refine ⟨hinv.newest, fun a t h => ⟨?_, ?_⟩⟩
  · intro hnew
    cases hk : s.keepsState a with
    | true => rfl
    | false => exact absurd hnew ((stateKept_step hinv h).2 hk)
  · intro hok
    exact ((stateKept_step hinv h).1 hok).newest

instance [DecidableEq V] (s : Delivery V) : Decidable (Newest s) :=
  decidable_of_iff (∀ event ∈ s.newestState,
    event ∈ s.dispatcher.events ∨ s.handedState = some event) Iff.rfl

/-- CONNECTED is reported, and commands fill the rest of a queue of two events. -/
def crowdedState : List (DeliveryAction (List PyValue)) :=
  [.post .state [.int 2, .int 0], .post .command [.int 8193, .bytes []]]

/-- On that full queue one more command takes CONNECTED away, and a second report does not. -/
theorem newest_state_kept_iff_crowded :
    ∃ s, (machine (List PyValue)).exec { dispatcher := .init 2 } crowdedState = some s ∧
      (∀ t, s.step (.post .command [.int 8193, .bytes []]) = some t → ¬ Newest t) ∧
      ∀ t, s.step (.post .state [.int 3, .int 0]) = some t → Newest t := by
  refine ⟨_, rfl, ?_⟩
  have hs : (machine (List PyValue)).ReachWith (fun s a => s.keepsState a = true) _ :=
    .exec (.start ⟨2, none, rfl⟩)
      (rfl : ((machine (List PyValue)).guarded keepsState).exec _ crowdedState = _)
  obtain ⟨-, hstep⟩ := newest_state_kept_iff hs
  refine ⟨fun t h => ?_, fun t h => (hstep _ _ h).mpr rfl⟩
  rw [hstep _ _ h]
  decide

/-- On a Connection's queue of 64 events: CONNECTED is reported, 64 commands follow before the
pool drains one event, and the report is gone. -/
theorem newest_state_lost :
    ∃ s, (machine (List PyValue)).Reach s ∧ s.dispatcher.capacity = 64 ∧ ¬ Newest s := by
  have hrun : ((machine (List PyValue)).exec { dispatcher := .init }
      (.post .state [.int 2, .int 0] ::
        List.replicate 64 (.post .command [.int 8193, .bytes []]))).any
      (fun s => decide (s.dispatcher.capacity = 64 ∧ ¬ Newest s)) = true := by decide +kernel
  have hstart : (machine (List PyValue)).start { dispatcher := .init } := ⟨64, none, rfl⟩
  obtain ⟨s, hs, hp⟩ := Machine.exists_reach hstart hrun
  exact ⟨s, hs, of_decide_eq_true hp⟩

end Delivery

end Tirtc
