import Tirtc.Dispatch.Handing

/-!
# Every accepted post has one fate

The queue is edited in place, from the middle and at the front, and no event gets lost or doubled:
each post that was accepted is queued, in the hand of `_drain_one`, handed over once, missed by a
handler whose object has gone, superseded by a later post of its kind, evicted, or discarded.

* `Turn`: the ways in which the fate of a post changes in a step, with what has happened to it.
* `step_turns`: every change of a fate is one of them.
* `Accounts`: the fates, the queue and the calls of the handler agree, each post stands in one
  place, and what is handed over is in the order of the posts.
* `accepted_accounted`: all of it, in every run; `missed_by_the_handler`: the run of a handler that
  goes.
-/

set_option autoImplicit false
set_option linter.unusedSectionVars false

namespace Tirtc

open Dispatcher Delivery Transition

namespace Handing

variable {V : Type} [FrameValues V] {s t : Handing V} {a : HandingAction V}

/-! ## How a fate changes -/

/-- What the next post makes of the dispatcher. -/
abbrev result (s : Handing V) (kind : EventKind) (values : V) : PostResult (Tagged V) :=
  s.dispatcher.nativeSink kind (s.ledger.next kind values).values

/-- **How the fate of post `n` changes** in a step `a` from `s`. -/
inductive Turn (s : Handing V) (a : HandingAction V) (n : ℕ) : Fate → Fate → Prop
  | accepted (kind : EventKind) (values : V) : a = .post kind values → n = s.ledger.posts →
      (s.result kind values).accepted = true → Turn s a n .unposted .queued
  | refused (kind : EventKind) (values : V) : a = .post kind values → n = s.ledger.posts →
      (s.result kind values).accepted = false → Turn s a n .unposted .refused
  | superseded (kind : EventKind) (values : V) (event : Event (Tagged V)) :
      a = .post kind values → (s.result kind values).accepted = true →
      event ∈ s.dispatcher.events → event.tag = n → event.kind = kind → kind.isLatest = true →
      Turn s a n .queued .superseded
  | evicted (kind : EventKind) (values : V) (event : Event (Tagged V)) :
      a = .post kind values → (s.result kind values).accepted = true →
      s.dispatcher.capacity ≤ s.dispatcher.events.length → event ∈ s.dispatcher.events →
      event.tag = n → event.terminal = false → Turn s a n .queued .evicted
  | popped (event : Event (Tagged V)) (events : List (Event (Tagged V))) : a = .drainBegin →
      s.dispatcher.events = event :: events → event.tag = n → Turn s a n .queued .popped
  | called (event : Event (Tagged V)) : a = .lookUp → s.current = some (event, none) →
      event.tag = n → Turn s a n .popped (.called (s.reaches event))
  | finished (event : Event (Tagged V)) (found : Bool) : a = .drainEnd →
      s.current = some (event, some found) → event.tag = n →
      Turn s a n (.called found) (.finished found)
  | discarded (event : Event (Tagged V)) : a = .discard → event ∈ s.dispatcher.events →
      event.tag = n → event.kind ≠ .nativeTask → Turn s a n .queued .discarded

/-- The event of a queued post. -/
theorem Traced.event_of_queued {n : ℕ} (h : Traced s) (hn : s.ledger.fate n = .queued) :
    ∃ event ∈ s.dispatcher.events, event.tag = n :=
  List.mem_map.mp ((h.fits.queued n).mp hn)

/-- A post changes its own fate, and that of the event that it takes out of the queue. -/
theorem post_turns (h : Traced s) (kind : EventKind) (values : V) (n : ℕ) :
    (s.post kind values).ledger.fate n = s.ledger.fate n ∨
      Turn s (.post kind values) n (s.ledger.fate n) ((s.post kind values).ledger.fate n) := by
  have hposted : Posted s.dispatcher (s.ledger.next kind values) kind.isLatest
      (s.result kind values) := post_spec s.dispatcher _ kind.isLatest
  have hledger : (s.post kind values).ledger =
      (s.ledger.lose (s.result kind values).dispatcher.events
        (Ledger.removal s.dispatcher (s.ledger.next kind values) kind.isLatest)).record
          (s.result kind values).accepted := rfl
  by_cases hn : n = s.ledger.posts
  · right
    have hfresh := h.fits.next_fresh.1
    have hfate : (s.post kind values).ledger.fate n =
        if (s.result kind values).accepted then .queued else .refused := by
      rw [hledger, hn]
      exact Function.update_self _ _ _
    rw [hfate, hn, hfresh]
    by_cases haccepted : (s.result kind values).accepted = true
    · rw [if_pos haccepted]
      exact .accepted kind values rfl rfl haccepted
    · rw [if_neg haccepted]
      exact .refused kind values rfl rfl (by simpa using haccepted)
  · have hfate : (s.post kind values).ledger.fate n =
        (s.ledger.lose (s.result kind values).dispatcher.events
          (Ledger.removal s.dispatcher (s.ledger.next kind values) kind.isLatest)).fate n := by
      rw [hledger]
      exact Function.update_of_ne hn _ _
    rw [hfate]
    rcases Ledger.lose_fate (l := s.ledger) (s.result kind values).dispatcher.events
      (Ledger.removal s.dispatcher (s.ledger.next kind values) kind.isLatest) n with
      hsame | ⟨hqueued, hgone, hlost⟩
    · exact .inl hsame
    · right
      rw [hqueued, hlost]
      obtain ⟨event, hevent, htag⟩ := h.event_of_queued hqueued
      have haccepted : ∀ r, r = s.result kind values → r.accepted = true →
          (s.result kind values).accepted = true := fun r hr hacc => hr ▸ hacc
      generalize hr : s.result kind values = r at hposted hgone
      -- an event that is still in the queue is not lost
      have hstays : event ∉ r.dispatcher.events := fun hmem =>
        hgone (List.mem_map.mpr ⟨event, hmem, htag⟩)
      cases hposted with
      | closed => exact absurd hevent hstays
      | coalesced xs old ys hcoalesces hsplit hkind hframe hys =>
          have hold : event = old := by
            rw [hsplit] at hevent
            by_contra hne
            apply hstays
            simp only [List.mem_append, List.mem_cons] at hevent ⊢
            tauto
          have hlatest : kind.isLatest = true := latest_of_coalesces hcoalesces
          simp only [Ledger.removal, hcoalesces, if_true]
          exact .superseded kind values event rfl (haccepted _ hr.symm rfl) hevent htag
            (hold ▸ hkind) hlatest
      | frameRefused => exact absurd hevent hstays
      | refused => exact absurd hevent hstays
      | evicted xs victim ys hnot hframe hfull hsplit hxs hterminal =>
          have hold : event = victim := by
            have hin : event ∈ xs ++ victim :: ys := hsplit ▸ hevent
            by_contra hne
            apply hstays
            rw [enqueue_events]
            simp only [List.mem_append, List.mem_cons, without] at hin ⊢
            tauto
          simp only [Ledger.removal, hnot, Bool.false_eq_true, if_false]
          exact .evicted kind values event rfl (haccepted _ hr.symm rfl) hfull hevent htag
            (hold ▸ hterminal)
      | beyond => exact absurd (List.mem_append_left _ hevent) hstays
      | appended => exact absurd (List.mem_append_left _ hevent) hstays

/-- A part of `_drain_one` changes the fate of the event in hand alone. -/
theorem set_turns {m : ℕ} {f : Fate} (hturn : Turn s a m (s.ledger.fate m) f) (n : ℕ) :
    (s.ledger.set m f).fate n = s.ledger.fate n ∨
      Turn s a n (s.ledger.fate n) ((s.ledger.set m f).fate n) := by
  by_cases hn : n = m
  · subst hn
    right
    have hfate : (s.ledger.set n f).fate n = f := Function.update_self _ _ _
    rw [hfate]
    exact hturn
  · exact .inl (Function.update_of_ne hn _ _)

/-- **Every change of a fate is one of these.** -/
theorem step_turns (h : Traced s) (hstep : s.step a = some t) (n : ℕ) :
    t.ledger.fate n = s.ledger.fate n ∨ Turn s a n (s.ledger.fate n) (t.ledger.fate n) := by
  cases step_cases hstep with
  | posts kind values => exact post_turns h kind values n
  | idle hidle hevents => exact .inl rfl
  | pops event events hidle hevents =>
      have hqueued : s.ledger.fate event.tag = .queued :=
        (h.fits.queued event.tag).mpr (by simp [hevents])
      refine set_turns ?_ n
      rw [hqueued]
      exact .popped event events rfl hevents rfl
  | calls event hcurrent hreaches =>
      have hpopped : s.ledger.fate event.tag = .popped := h.current event none hcurrent
      refine set_turns ?_ n
      rw [hpopped, ← hreaches]
      exact .called event rfl hcurrent rfl
  | misses event hcurrent hreaches =>
      have hpopped : s.ledger.fate event.tag = .popped := h.current event none hcurrent
      refine set_turns ?_ n
      rw [hpopped, ← hreaches]
      exact .called event rfl hcurrent rfl
  | ends event found hcurrent =>
      have hcalled : s.ledger.fate event.tag = .called found :=
        h.current event (some found) hcurrent
      refine set_turns ?_ n
      rw [hcalled]
      exact .finished event found rfl hcurrent rfl
  | closes => exact .inl rfl
  | discards =>
      rcases Ledger.lose_fate (l := s.ledger) s.dispatcher.discard.events .discarded n with
        hsame | ⟨hqueued, hgone, hlost⟩
      · exact .inl hsame
      · right
        obtain ⟨event, hevent, htag⟩ := h.event_of_queued hqueued
        have hfate : (s.ledger.discard s.dispatcher).fate n = .discarded := hlost
        rw [hqueued, hfate]
        refine .discarded event rfl hevent htag fun hkind => hgone ?_
        have hkept : event ∈ s.dispatcher.discard.events := by
          simp [Dispatcher.discard, hevent, hkind]
        exact List.mem_map.mpr ⟨event, hkept, htag⟩
  | dies => exact .inl rfl

/-! ## The fates and the row agree -/

/-- The handler has been called with the event. -/
def Heard (f : Fate) : Prop := f = .called true ∨ f = .finished true

theorem Heard.taken {f : Fate} (h : Heard f) : f.Taken := by
  rcases h with rfl | rfl
  · trivial
  · trivial

/-- The fates of what has left the queue, and the calls of the handler. -/
structure Told (s : Handing V) : Prop where
  popped : ∀ n, s.ledger.fate n = .popped ↔ n ∈ s.pending.map Event.tag
  handed : ∀ n, Heard (s.ledger.fate n) ↔ n ∈ s.handed.map Event.tag

/-- The events of the row have different numbers. -/
theorem Traced.nodup (h : Traced s) : (s.trace.map Event.tag).Nodup := by
  refine List.pairwise_map.mpr (h.inTurn.imp ?_)
  intro x y hxy
  exact hxy.ne

/-- A step that takes nothing out of the queue for the handler. -/
theorem Told.frame (h : Told s) (hlater : Ledger.Later s.ledger t.ledger)
    (hcurrent : t.current = s.current) (hhanded : t.handed = s.handed) : Told t where
  popped n := by
    have hpending : t.pending = s.pending := by simp [pending, hcurrent]
    rw [hpending, ← h.popped n]
    constructor
    · intro hn
      rw [← hlater.taken n (.inr (by simp [hn, Fate.Taken]))]
      exact hn
    · intro hn
      rw [hlater.taken n (.inl (by simp [hn, Fate.Taken]))]
      exact hn
  handed n := by
    rw [hhanded, ← h.handed n]
    constructor
    · intro hn
      rw [← hlater.taken n (.inr hn.taken)]
      exact hn
    · intro hn
      rw [hlater.taken n (.inl hn.taken)]
      exact hn

/-- **The step lemma.** -/
theorem Told.step (h : Told s) (hs : Traced s) (hstep : s.step a = some t) : Told t := by
  cases step_cases hstep with
  | posts kind values => exact h.frame (hs.fits.post_later kind values) rfl rfl
  | idle hidle hevents => exact h.frame (.refl _) rfl rfl
  | pops event events hidle hevents =>
      have hpending : s.pending = [] := by simp [pending, hs.idle hidle]
      have hfresh : event.tag ∉ s.handed.map Event.tag := by
        intro hmem
        have hheard := (h.handed event.tag).mpr hmem
        have hqueued : s.ledger.fate event.tag = .queued :=
          (hs.fits.queued event.tag).mpr (by simp [hevents])
        rw [hqueued] at hheard
        rcases hheard with hheard | hheard
        · cases hheard
        · cases hheard
      refine ⟨?_, ?_⟩
      · intro n
        by_cases hn : n = event.tag
        · simp [Ledger.set, pending, hn]
        · have hold := h.popped n
          rw [hpending] at hold
          simpa [Ledger.set, pending, hn] using hold
      · intro n
        by_cases hn : n = event.tag
        · subst hn
          simpa [Ledger.set, Heard] using hfresh
        · simpa [Ledger.set, hn] using h.handed n
  | calls event hcurrent hreaches =>
      have hpending : s.pending = [event] := by simp [pending, hcurrent]
      refine ⟨?_, ?_⟩
      · intro n
        by_cases hn : n = event.tag
        · simp [Ledger.set, pending, hn]
        · have hold := h.popped n
          rw [hpending] at hold
          simpa [Ledger.set, pending, hn] using hold
      · intro n
        by_cases hn : n = event.tag
        · simp [Ledger.set, Heard, hn]
        · simpa [Ledger.set, hn] using h.handed n
  | misses event hcurrent hreaches =>
      have hpending : s.pending = [event] := by simp [pending, hcurrent]
      have hpopped : s.ledger.fate event.tag = .popped := hs.current event none hcurrent
      refine ⟨?_, ?_⟩
      · intro n
        by_cases hn : n = event.tag
        · simp [Ledger.set, pending, hn]
        · have hold := h.popped n
          rw [hpending] at hold
          simpa [Ledger.set, pending, hn] using hold
      · intro n
        by_cases hn : n = event.tag
        · subst hn
          have hold := h.handed event.tag
          rw [hpopped] at hold
          simpa [Ledger.set, Heard] using hold
        · simpa [Ledger.set, hn] using h.handed n
  | ends event found hcurrent =>
      have hpending : s.pending = [] := by simp [pending, hcurrent]
      have hcalled : s.ledger.fate event.tag = .called found :=
        hs.current event (some found) hcurrent
      refine ⟨?_, ?_⟩
      · intro n
        by_cases hn : n = event.tag
        · simp [Ledger.set, pending, hn]
        · have hold := h.popped n
          rw [hpending] at hold
          simpa [Ledger.set, pending, hn] using hold
      · intro n
        by_cases hn : n = event.tag
        · subst hn
          have hold := h.handed event.tag
          rw [hcalled] at hold
          simpa [Ledger.set, Heard] using hold
        · simpa [Ledger.set, hn] using h.handed n
  | closes => exact h.frame (.refl _) rfl rfl
  | discards => exact h.frame (Ledger.discard_later s.dispatcher) rfl rfl
  | dies => exact h.frame (.refl _) rfl rfl

/-- **The run lemma.** -/
theorem reach_told {capacity : ℕ} {frameCapacity : Option ℕ}
    (hs : (machine V capacity frameCapacity).Reach s) : Told s := by
  refine hs.invariant_of (J := Traced) (fun s hs => reach_traced hs) ?_ ?_
  · rintro s rfl -
    refine ⟨?_, ?_⟩
    · intro n
      simp [pending]
    · intro n
      simp [Heard]
  · intro s a t hs ht h hok hstep
    exact h.step hs hstep

/-! ## The accounts -/

/-- Two events whose order the queue keeps: neither is of a coalesced kind, or both are of one. -/
def SameLine (x y : Event (Tagged V)) : Prop :=
  (x.kind.isLatest = false ∧ y.kind.isLatest = false) ∨ x.kind = y.kind

/-- **The accounts of a dispatcher.** -/
structure Accounts (s : Handing V) : Prop where
  /-- Every post has a fate. -/
  posted : ∀ n, s.ledger.fate n = .unposted ↔ s.ledger.posts ≤ n
  /-- The queue holds what is queued. -/
  queued : ∀ n, s.ledger.fate n = .queued ↔ n ∈ s.dispatcher.events.map Event.tag
  /-- `_drain_one` has in hand what it has taken out and not handed over yet. -/
  popped : ∀ n, s.ledger.fate n = .popped ↔ n ∈ s.pending.map Event.tag
  /-- The handler has been called with what is handed over. -/
  handed : ∀ n, Heard (s.ledger.fate n) ↔ n ∈ s.handed.map Event.tag
  /-- No event is in two of these places, or twice in one. -/
  once : ((s.handed.reverse ++ s.pending ++ s.dispatcher.events).map Event.tag).Nodup
  /-- What is handed over of one line is in the order of the posts. -/
  order : s.handed.reverse.Pairwise fun x y => SameLine x y → x.tag < y.tag

/-- What is handed over of one line is in the order of the posts. -/
theorem Traced.order (h : Traced s) :
    s.handed.reverse.Pairwise fun x y => SameLine x y → x.tag < y.tag := by
  have hsub : s.handed.reverse.Sublist s.trace := by
    unfold trace
    rw [List.append_assoc]
    exact List.sublist_append_left _ _
  refine (h.inTurn.sublist hsub).imp ?_
  intro x y hxy hline
  rcases hxy with ⟨hlt, -⟩ | ⟨-, hmem⟩
  · exact hlt
  · obtain ⟨-, hlatest, hkind⟩ := h.overtakes _ hmem
    rcases hline with ⟨hx, -⟩ | hsame
    · exact absurd (hx.symm.trans hlatest) (by simp)
    · exact absurd hsame.symm hkind

/-- **Every accepted post has one fate**: in every run the fates, the queue and the calls of the
handler agree; a fate that is over stays; and a fate changes only when the post is made, when a
later post of the same coalesced kind supersedes it, when a later post evicts it from a full queue,
when `_drain_one` takes it, calls the handler with it and returns, or when `discard` drops it.
Source: `_dispatch.py`, `_Dispatcher.post`, `_Dispatcher._drain_one`, `_Dispatcher.discard` -/
theorem accepted_accounted {capacity : ℕ} {frameCapacity : Option ℕ}
    (hs : (machine V capacity frameCapacity).Reach s) :
    Accounts s ∧ ∀ a t, s.step a = some t → ∀ n,
      t.ledger.fate n = s.ledger.fate n ∨ Turn s a n (s.ledger.fate n) (t.ledger.fate n) := by
  have htraced := reach_traced hs
  have htold := reach_told hs
  refine ⟨⟨htraced.fits.unposted, htraced.fits.queued, htold.popped, htold.handed, htraced.nodup,
    htraced.order⟩, ?_⟩
  intro a t hstep n
  exact step_turns htraced hstep n

/-- One `_drain_one`. -/
def drains : List (HandingAction (List PyValue)) := [.drainBegin, .lookUp, .drainEnd]

/-- A command, two state events and a frame, of which a full queue of two takes the first three. -/
def fourPosts : List (HandingAction (List PyValue)) :=
  [.post .command [.int 1], .post .state [.int 2], .post .state [.int 3], .post .audioFrame []]

/-- The command and the newer state event are handed over, the older one is superseded, the frame is
refused. -/
theorem accepted_accounted_four :
    ∃ s, (machine (List PyValue) 2 none).Reach s ∧ s.ledger.fate 0 = .finished true ∧
      s.ledger.fate 1 = .superseded ∧ s.ledger.fate 2 = .finished true ∧
      s.ledger.fate 3 = .refused ∧ Accounts s := by
  have hstart : (machine (List PyValue) 2 none).start { dispatcher := .init 2 none } := rfl
  have hrun : ((machine (List PyValue) 2 none).exec { dispatcher := .init 2 none }
      (fourPosts ++ drains ++ drains)).any (fun s => decide (
        s.ledger.fate 0 = .finished true ∧ s.ledger.fate 1 = .superseded ∧
        s.ledger.fate 2 = .finished true ∧ s.ledger.fate 3 = .refused)) = true := by
    decide +kernel
  obtain ⟨s, hs, htest⟩ := Machine.exists_reach hstart hrun
  obtain ⟨hcommand, holder, hnewer, hframe⟩ := of_decide_eq_true htest
  exact ⟨s, hs, hcommand, holder, hnewer, hframe, (accepted_accounted hs).1⟩

/-- **An event that nobody gets**: it is accepted, the object of the handler goes, and `_drain_one`
takes the event out of the queue and calls nobody. -/
theorem missed_by_the_handler :
    ¬ ∀ s, (machine (List PyValue) 64 none).Reach s → ∀ n, n < s.ledger.posts →
      s.ledger.fate n ≠ .refused →
      s.ledger.fate n = .queued ∨ s.ledger.fate n = .popped ∨ s.ledger.fate n = .called true ∨
      s.ledger.fate n = .finished true ∨ s.ledger.fate n = .superseded ∨
      s.ledger.fate n = .evicted ∨ s.ledger.fate n = .discarded := by
  intro h
  have hstart : (machine (List PyValue) 64 none).start { dispatcher := .init 64 none } := rfl
  have hrun : ((machine (List PyValue) 64 none).exec { dispatcher := .init 64 none }
      (.post .command [.int 1] :: .die :: drains)).any (fun s => decide (
        s.ledger.posts = 1 ∧ s.ledger.fate 0 = .finished false)) = true := by
    decide +kernel
  obtain ⟨s, hs, htest⟩ := Machine.exists_reach hstart hrun
  obtain ⟨hposts, hfate⟩ := of_decide_eq_true htest
  have hone := h s hs 0 (by omega) (by simp [hfate])
  simp [hfate] at hone

end Handing

end Tirtc
