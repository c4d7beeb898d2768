import Tirtc.Dispatch.Dispatcher

/-!
# Delivery: what a run of posts and drains hands to the handler

A dispatcher that is posted to through its native sink and drained by one thread at a time, with
the history a reader of the handler's calls would keep: the newest state event posted, the last
one handed over, the frames handed over, and the frames that were refused or evicted.

* `Delivery`, `machine`: the run and its steps; `step_cases`: what one of them can do.
* `Numbered`: every event in the queue carries the number of its post, and no two the same.
* `Tidy`: the queue of a run is open and numbered; `tidy_post`, `tidy_hand`: it stays so.
-/

set_option autoImplicit false

namespace Tirtc

open Dispatcher Transition

/-- The number of the post that brought an event. -/
abbrev Event.tag {V : Type} (event : Event (Tagged V)) : ℕ := event.values.tag

/-- A dispatcher and the history of its posts and deliveries. -/
structure Delivery (V : Type) where
  dispatcher : Dispatcher (Tagged V)
  /-- The number of posts so far. -/
  posts : ℕ := 0
  newestState : Option (Event (Tagged V)) := none
  handedState : Option (Event (Tagged V)) := none
  /-- The frames handed over, the last one first. -/
  handedFrames : List (Event (Tagged V)) := []
  /-- The numbers of the frames refused or evicted. -/
  lost : List ℕ := []

/-- A call of the native sink, and the two sections of `_drain_one`. -/
inductive DeliveryAction (V : Type)
  | post (kind : EventKind) (values : V)
  | drainBegin
  | drainEnd

namespace Delivery

variable {V : Type}

/-! ## The numbers of the posts -/

/-- **The queue of a run that has posted `posts` events**: what the sink made, each with the
number of its post. -/
structure Numbered (posts : ℕ) (events : List (Event (Tagged V))) : Prop where
  below : ∀ e ∈ events, e.tag < posts
  nodup : (events.map Event.tag).Nodup
  frame : ∀ e ∈ events, e.frame = e.kind.isFrame
  terminal : ∀ e ∈ events, e.terminal = e.kind.isTerminal

theorem Numbered.nil (posts : ℕ) : Numbered posts ([] : List (Event (Tagged V))) :=
  ⟨by simp, by simp, by simp, by simp⟩

/-- Taking events out keeps the numbering. -/
theorem Numbered.sublist {posts : ℕ} {xs ys : List (Event (Tagged V))}
    (h : Numbered posts ys) (hs : xs.Sublist ys) : Numbered posts xs where
  below e he := h.below e (hs.subset he)
  nodup := h.nodup.sublist (hs.map _)
  frame e he := h.frame e (hs.subset he)
  terminal e he := h.terminal e (hs.subset he)

/-- One more post, which leaves no trace. -/
theorem Numbered.succ {posts : ℕ} {xs : List (Event (Tagged V))} (h : Numbered posts xs) :
    Numbered (posts + 1) xs :=
  { h with below := fun e he => Nat.lt_succ_of_lt (h.below e he) }

/-- One more post, whose event stands somewhere in the queue. -/
theorem Numbered.insert {posts : ℕ} {xs ys : List (Event (Tagged V))} {event : Event (Tagged V)}
    (h : Numbered posts (xs ++ ys)) (htag : event.tag = posts)
    (hf : event.frame = event.kind.isFrame) (ht : event.terminal = event.kind.isTerminal) :
    Numbered (posts + 1) (xs ++ event :: ys) := by
  have hmem : ∀ e ∈ xs ++ event :: ys, e = event ∨ e ∈ xs ++ ys := by
    intro e he
    simp only [List.mem_append, List.mem_cons] at he ⊢
    tauto
  refine ⟨?_, ?_, ?_, ?_⟩
  · intro e he
    rcases hmem e he with rfl | he
    · exact htag ▸ Nat.lt_succ_self _
    · exact Nat.lt_succ_of_lt (h.below e he)
  · have hnew : event.tag ∉ (xs ++ ys).map Event.tag := by
      simp only [List.mem_map, not_exists, not_and]
      intro e he heq
      exact Nat.ne_of_lt (h.below e he) (heq.trans htag)
    have hperm : ((xs ++ event :: ys).map Event.tag).Perm
        (event.tag :: (xs ++ ys).map Event.tag) :=
      List.perm_middle.map Event.tag
    exact hperm.nodup_iff.mpr (List.nodup_cons.mpr ⟨hnew, h.nodup⟩)
  · intro e he
    rcases hmem e he with rfl | he
    · exact hf
    · exact h.frame e he
  · intro e he
    rcases hmem e he with rfl | he
    · exact ht
    · exact h.terminal e he

/-- Two queued events with one number are one event. -/
theorem Numbered.eq_of_tag {posts : ℕ} {xs ys : List (Event (Tagged V))}
    {event : Event (Tagged V)} (h : Numbered posts (xs ++ event :: ys)) :
    ∀ e ∈ xs ++ ys, e.tag ≠ event.tag := by
  have hperm : ((xs ++ event :: ys).map Event.tag).Perm
      (event.tag :: (xs ++ ys).map Event.tag) := List.perm_middle.map Event.tag
  have hnodup := hperm.nodup_iff.mp h.nodup
  intro e he heq
  exact (List.nodup_cons.mp hnodup).1 (List.mem_map.mpr ⟨e, he, heq⟩)

/-! ## The run -/

/-- The event the next post brings. -/
def next (s : Delivery V) (kind : EventKind) (values : V) : Event (Tagged V) :=
  nativeEvent kind ⟨s.posts, values⟩

/-- The frames that were queued or posted and are not in the queue afterwards. -/
def lostFrames (before : List (Event (Tagged V))) (event : Event (Tagged V))
    (after : List (Event (Tagged V))) : List ℕ :=
  ((before ++ [event]).filter fun e => e.frame && !after.any fun f => f.tag == e.tag).map Event.tag

/-- An event is handed to the handler. -/
def hand (s : Delivery V) (event : Event (Tagged V)) : Delivery V :=
  { s with
    handedState := if event.kind = .state then some event else s.handedState
    handedFrames := if event.frame then event :: s.handedFrames else s.handedFrames }

variable [FrameValues V]

/-- The sink is called. -/
def post (s : Delivery V) (kind : EventKind) (values : V) : Delivery V :=
  let event := s.next kind values
  let after := (s.dispatcher.nativeSink kind event.values).dispatcher
  { s with
    dispatcher := after
    posts := s.posts + 1
    newestState := if kind = .state then some event else s.newestState
    lost := s.lost ++ lostFrames s.dispatcher.events event after.events }

/-- One section. -/
def step (s : Delivery V) : DeliveryAction V → Option (Delivery V)
  | .post kind values => some (s.post kind values)
  | .drainBegin =>
      if s.dispatcher.executing then none
      else
        match s.dispatcher.drainBegin with
        | (none, d) => some { s with dispatcher := d }
        | (some event, d) => some { s.hand event with dispatcher := d }
  | .drainEnd =>
      if s.dispatcher.executing then some { s with dispatcher := s.dispatcher.drainEnd.2 }
      else none

/-- The runs of a fresh dispatcher of any capacities. -/
def machine (V : Type) [FrameValues V] : Machine (Delivery V) (DeliveryAction V) where
  start s := ∃ capacity frameCapacity, s = { dispatcher := .init capacity frameCapacity }
  step := step

/-- **What one section can do**: a post, an event handed over, or nothing to the queue. -/
theorem step_cases {s t : Delivery V} {a : DeliveryAction V} (h : s.step a = some t) :
    (∃ kind values, a = .post kind values ∧ t = s.post kind values) ∨
    (∃ event events, a = .drainBegin ∧ s.dispatcher.events = event :: events ∧
      t = { s.hand event with dispatcher := { s.dispatcher with
        events := events
        frameCount := if event.frame then s.dispatcher.frameCount - 1 else s.dispatcher.frameCount
        executing := true } }) ∨
    ((a = .drainBegin ∨ a = .drainEnd) ∧ ∃ executing scheduled,
      t = { s with dispatcher := { s.dispatcher with
        executing := executing, scheduled := scheduled } }) := by
  cases a with
  | post kind values => exact .inl ⟨kind, values, rfl, (Option.some.inj h).symm⟩
  | drainBegin =>
      refine .inr ?_
      by_cases hex : s.dispatcher.executing = true
      · simp [step, hex] at h
      cases hev : s.dispatcher.events with
      | nil =>
          simp only [step, hex, drainBegin_nil hev, Bool.false_eq_true, if_false,
            Option.some.injEq] at h
          exact .inr ⟨.inl rfl, false, false, h.symm⟩
      | cons event events =>
          simp only [step, hex, drainBegin_cons hev, Bool.false_eq_true, if_false,
            Option.some.injEq] at h
          exact .inl ⟨event, events, rfl, rfl, h.symm⟩
  | drainEnd =>
      by_cases hex : s.dispatcher.executing = true
      · simp only [step, hex, if_true, drainEnd, Option.some.injEq] at h
        exact .inr (.inr ⟨.inr rfl, false, _, h.symm⟩)
      · simp [step, hex] at h

/-- The way a post of the run ends. -/
theorem posted (s : Delivery V) (kind : EventKind) (values : V) :
    Posted s.dispatcher (s.next kind values) kind.isLatest
      (s.dispatcher.nativeSink kind (s.next kind values).values) :=
  post_spec s.dispatcher (s.next kind values) kind.isLatest

/-- Marking keeps the number. -/
theorem marked_tag (d : Dispatcher (Tagged V)) (event : Event (Tagged V)) :
    (d.marked event).tag = event.tag := by
  simp only [Event.tag, marked]
  split <;> simp

/-- Appending the next event keeps the numbering. -/
theorem numbered_enqueue {s : Delivery V} {kind : EventKind} {values : V}
    (d : Dispatcher (Tagged V)) (h : Numbered s.posts d.events) :
    Numbered (s.posts + 1) (d.enqueue (s.next kind values)).dispatcher.events := by
  have happ : Numbered s.posts (d.events ++ []) := by simpa using h
  refine happ.insert ?_ rfl rfl
  exact marked_tag d _

/-- The queue of a run is open and numbered. -/
structure Tidy (s : Delivery V) : Prop where
  «open» : s.dispatcher.closed = false
  numbered : Numbered s.posts s.dispatcher.events

/-- A post keeps the queue open and numbered. -/
theorem tidy_post {s : Delivery V} (hs : Tidy s) (kind : EventKind) (values : V) :
    Tidy (s.post kind values) := by
  suffices h : ∀ r, Posted s.dispatcher (s.next kind values) kind.isLatest r →
      r.dispatcher.closed = false ∧ Numbered (s.posts + 1) r.dispatcher.events from
    ⟨(h _ (posted s kind values)).1, (h _ (posted s kind values)).2⟩
  intro r hr
  have hopen := hs.open
  have hnum := hs.numbered
  cases hr with
  | closed h => exact ⟨hopen, hnum.succ⟩
  | coalesced xs old ys _ hsplit _ _ =>
      refine ⟨hopen, ?_⟩
      have hsub : (xs ++ ys).Sublist (xs ++ old :: ys) :=
        List.Sublist.append_left (List.sublist_cons_self old ys) xs
      exact ((hsplit ▸ hnum).sublist hsub).insert rfl rfl rfl
  | frameRefused _ => exact ⟨hopen, hnum.succ⟩
  | refused => exact ⟨hopen, hnum.succ⟩
  | evicted xs victim ys _ _ _ hsplit _ _ =>
      refine ⟨hopen, numbered_enqueue _ ?_⟩
      have hsub : (xs ++ ys).Sublist (xs ++ victim :: ys) :=
        List.Sublist.append_left (List.sublist_cons_self victim ys) xs
      exact (hsplit ▸ hnum).sublist hsub
  | beyond => exact ⟨hopen, numbered_enqueue _ hnum⟩
  | appended => exact ⟨hopen, numbered_enqueue _ hnum⟩

omit [FrameValues V] in
/-- Handing over the next event keeps the queue open and numbered. -/
theorem tidy_hand {s : Delivery V} (hs : Tidy s) {event : Event (Tagged V)}
    {events : List (Event (Tagged V))} {d : Dispatcher (Tagged V)}
    (hev : s.dispatcher.events = event :: events) (hd : d.events = events)
    (hopen : d.closed = s.dispatcher.closed) : Tidy { s.hand event with dispatcher := d } where
  «open» := hopen.trans hs.open
  numbered := hd ▸ hs.numbered.sublist (hev ▸ List.sublist_cons_self event events)

end Delivery

end Tirtc
