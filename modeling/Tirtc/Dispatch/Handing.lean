import Mathlib.Data.List.TakeWhile
import Tirtc.Dispatch.Barriers

/-!
# One dispatcher, and what its handler gets

A dispatcher that is posted to through its native sink and drained by one thread at a time, while
`close` and `discard` are called and the object of its weak handler may go. A ledger says what has
become of each post, and a trace which event went in front of which.

* `Handing`, `HandingAction`, `machine`: the run and its steps.
* `Steps`, `step_cases`: the steps, inverted.
* `trace`: the events handed over, the one in hand and the queue, in one row; `InTurn`, `Traced`:
  in this row an event stands behind those that were accepted before it, and in front of those that
  it has overtaken.
* `reach_traced`: so it is in every run.
-/

set_option autoImplicit false

namespace Tirtc

open Dispatcher Delivery Transition

/-- A dispatcher. `current` is the event that `_drain_one` is busy with, and whether it has called
the handler with it; `handed` are the calls of the handler, the last one first; `overtaken` are the
pairs of a post that has taken over the place of an older event and an event behind that place. -/
structure Handing (V : Type) where
  dispatcher : Dispatcher (Tagged V)
  ledger : Ledger := {}
  alive : Bool := true
  current : Option (Event (Tagged V) × Option Bool) := none
  handed : List (Event (Tagged V)) := []
  overtaken : List (Event (Tagged V) × Event (Tagged V)) := []

/-- A call of the sink, the parts of `_drain_one`, `close`, `discard`, and the object of the handler
goes. -/
inductive HandingAction (V : Type)
  | post (kind : EventKind) (values : V)
  | drainBegin
  | lookUp
  | drainEnd
  | close
  | discard
  | die

namespace Handing

variable {V : Type}

/-! ## The run -/

/-- The events behind the one that post `n` has brought. -/
def behind (n : ℕ) (events : List (Event (Tagged V))) : List (Event (Tagged V)) :=
  (events.dropWhile fun e => e.tag != n).drop 1

/-- The event goes to the handler: `_drain_one` runs a native task itself, and calls nobody when the
object of the handler has gone.
Source: `_dispatch.py`, `_Dispatcher._drain_one` -/
def reaches (s : Handing V) (event : Event (Tagged V)) : Bool :=
  s.alive && event.kind != .nativeTask

variable [FrameValues V]

/-- The sink is called.
Source: `_dispatch.py`, `_native_sink` -/
def post (s : Handing V) (kind : EventKind) (values : V) : Handing V :=
  let event := s.ledger.next kind values
  let after := (s.dispatcher.nativeSink kind event.values).dispatcher
  { s with
    dispatcher := after
    ledger := s.ledger.post s.dispatcher kind values
    overtaken := (behind s.ledger.posts after.events).map (fun e => (event, e)) ++ s.overtaken }

/-- One step. -/
def step (s : Handing V) : HandingAction V → Option (Handing V)
  | .post kind values => some (s.post kind values)
  | .drainBegin =>
      if s.dispatcher.executing then none
      else
        match s.dispatcher.drainBegin with
        | (none, d) => some { s with dispatcher := d }
        | (some event, d) =>
            some { s with
              dispatcher := d
              ledger := s.ledger.set event.tag .popped
              current := some (event, none) }
  | .lookUp =>
      match s.current with
      | some (event, none) =>
          some { s with
            ledger := s.ledger.set event.tag (.called (s.reaches event))
            current := some (event, some (s.reaches event))
            handed := if s.reaches event then event :: s.handed else s.handed }
      | _ => none
  | .drainEnd =>
      match s.current with
      | some (event, some found) =>
          some { s with
            dispatcher := s.dispatcher.drainEnd.2
            ledger := s.ledger.set event.tag (.finished found)
            current := none }
      | _ => none
  | .close => some { s with dispatcher := s.dispatcher.close }
  | .discard =>
      some { s with
        dispatcher := s.dispatcher.discard
        ledger := s.ledger.discard s.dispatcher }
  | .die => some { s with alive := false }

/-- The runs of a fresh dispatcher of these capacities. -/
def machine (V : Type) [FrameValues V] (capacity : ℕ) (frameCapacity : Option ℕ) :
    Machine (Handing V) (HandingAction V) where
  start s := s = { dispatcher := .init capacity frameCapacity }
  step := step

/-- **What a step can do.** -/
inductive Steps (s : Handing V) : HandingAction V → Handing V → Prop
  | posts (kind : EventKind) (values : V) : Steps s (.post kind values) (s.post kind values)
  | idle : s.dispatcher.executing = false → s.dispatcher.events = [] →
      Steps s .drainBegin { s with dispatcher := { s.dispatcher with scheduled := false } }
  | pops (event : Event (Tagged V)) (events : List (Event (Tagged V))) :
      s.dispatcher.executing = false → s.dispatcher.events = event :: events →
      Steps s .drainBegin { s with
        dispatcher := { s.dispatcher with
          events := events
          frameCount :=
            if event.frame then s.dispatcher.frameCount - 1 else s.dispatcher.frameCount
          executing := true }
        ledger := s.ledger.set event.tag .popped
        current := some (event, none) }
  | calls (event : Event (Tagged V)) : s.current = some (event, none) →
      s.reaches event = true →
      Steps s .lookUp { s with
        ledger := s.ledger.set event.tag (.called true)
        current := some (event, some true)
        handed := event :: s.handed }
  | misses (event : Event (Tagged V)) : s.current = some (event, none) →
      s.reaches event = false →
      Steps s .lookUp { s with
        ledger := s.ledger.set event.tag (.called false)
        current := some (event, some false) }
  | ends (event : Event (Tagged V)) (found : Bool) : s.current = some (event, some found) →
      Steps s .drainEnd { s with
        dispatcher := s.dispatcher.drainEnd.2
        ledger := s.ledger.set event.tag (.finished found)
        current := none }
  | closes : Steps s .close { s with dispatcher := s.dispatcher.close }
  | discards : Steps s .discard { s with
      dispatcher := s.dispatcher.discard
      ledger := s.ledger.discard s.dispatcher }
  | dies : Steps s .die { s with alive := false }

/-- **The steps, inverted.** -/
theorem step_cases {s t : Handing V} {a : HandingAction V} (h : s.step a = some t) :
    Steps s a t := by
  cases a with
  | post kind values =>
      cases h
      exact .posts kind values
  | drainBegin =>
      by_cases hex : s.dispatcher.executing = true
      · simp [step, hex] at h
      have hidle : s.dispatcher.executing = false := by simpa using hex
      cases hev : s.dispatcher.events with
      | nil =>
          unfold step at h
          simp only [if_neg hex, drainBegin_nil hev] at h
          cases h
          exact .idle hidle hev
      | cons event events =>
          unfold step at h
          simp only [if_neg hex, drainBegin_cons hev] at h
          cases h
          exact .pops event events hidle hev
  | lookUp =>
      simp only [step] at h
      split at h
      next event hcurrent =>
        cases h
        cases hreaches : s.reaches event with
        | true => exact .calls event hcurrent hreaches
        | false => exact .misses event hcurrent hreaches
      next => cases h
  | drainEnd =>
      simp only [step] at h
      split at h
      next event found hcurrent =>
        cases h
        exact .ends event found hcurrent
      next => cases h
  | close =>
      cases h
      exact .closes
  | discard =>
      cases h
      exact .discards
  | die =>
      cases h
      exact .dies

/-! ## What a post does to the queue -/

omit [FrameValues V] in
/-- Behind the event of a post is what follows it. -/
theorem behind_eq {n : ℕ} {xs ys : List (Event (Tagged V))} {event : Event (Tagged V)}
    (htag : event.tag = n) (hxs : ∀ e ∈ xs, e.tag ≠ n) : behind n (xs ++ event :: ys) = ys := by
  have hdrop : (xs ++ event :: ys).dropWhile (fun e => e.tag != n) = event :: ys := by
    rw [List.dropWhile_append_of_pos (by simpa using hxs)]
    simp [htag]
  simp [behind, hdrop]

omit [FrameValues V] in
/-- Behind a post that has left nothing in the queue is nothing. -/
theorem behind_eq_nil {n : ℕ} {events : List (Event (Tagged V))} (h : ∀ e ∈ events, e.tag ≠ n) :
    behind n events = [] := by
  have hdrop : events.dropWhile (fun e => e.tag != n) = [] :=
    List.dropWhile_eq_nil_iff.mpr (by simpa using h)
  simp [behind, hdrop]

/-- **What a post does to the queue**: nothing; it appends its event, and may take another one out;
or it takes over the place of an event of its kind, and so goes in front of what is behind it. -/
inductive Queued (s : Handing V) (kind : EventKind) (values : V) (t : Handing V) : Prop
  | refused : t.dispatcher.events = s.dispatcher.events → t.overtaken = s.overtaken →
      Queued s kind values t
  | appended (rest : List (Event (Tagged V))) (event : Event (Tagged V)) :
      rest.Sublist s.dispatcher.events → t.dispatcher.events = rest ++ [event] →
      event.tag = s.ledger.posts → event.kind = kind → t.overtaken = s.overtaken →
      Queued s kind values t
  | replaced (xs : List (Event (Tagged V))) (old : Event (Tagged V))
      (ys : List (Event (Tagged V))) : s.dispatcher.events = xs ++ old :: ys →
      t.dispatcher.events = xs ++ s.ledger.next kind values :: ys → kind.isLatest = true →
      old.kind = kind → (∀ e ∈ ys, e.kind ≠ kind) →
      t.overtaken = ys.map (fun e => (s.ledger.next kind values, e)) ++ s.overtaken →
      Queued s kind values t

/-- **`post`** -/
theorem post_queued {s : Handing V} (h : s.ledger.Fits s.dispatcher.events) (kind : EventKind)
    (values : V) : Queued s kind values (s.post kind values) := by
  have hbelow : ∀ e ∈ s.dispatcher.events, e.tag ≠ s.ledger.posts := fun e he =>
    Nat.ne_of_lt (h.numbered.below e he)
  have hposted : Posted s.dispatcher (s.ledger.next kind values) kind.isLatest
      (s.dispatcher.nativeSink kind (s.ledger.next kind values).values) :=
    post_spec s.dispatcher _ kind.isLatest
  have hrefused : ∀ d : Dispatcher (Tagged V), d.events = s.dispatcher.events →
      (behind s.ledger.posts d.events).map (fun e => (s.ledger.next kind values, e)) ++
        s.overtaken = s.overtaken := by
    intro d hd
    rw [hd, behind_eq_nil hbelow]
    rfl
  have happended : ∀ d : Dispatcher (Tagged V), d.events.Sublist s.dispatcher.events →
      (behind s.ledger.posts (d.enqueue (s.ledger.next kind values)).dispatcher.events).map
          (fun e => (s.ledger.next kind values, e)) ++ s.overtaken = s.overtaken := by
    intro d hd
    have hnil : behind s.ledger.posts (d.events ++ [d.marked (s.ledger.next kind values)]) = [] :=
      behind_eq (marked_tag d _) fun e he => hbelow e (hd.subset he)
    rw [enqueue_events, hnil]
    rfl
  unfold Handing.post
  dsimp only
  generalize s.dispatcher.nativeSink kind (s.ledger.next kind values).values = r at hposted
  cases hposted with
  | closed => exact .refused rfl (hrefused _ rfl)
  | coalesced xs old ys hcoalesces hsplit hkind hframe hys =>
      have hlatest : kind.isLatest = true := latest_of_coalesces hcoalesces
      have hnumbered : Numbered s.ledger.posts (xs ++ old :: ys) := hsplit ▸ h.numbered
      refine .replaced xs old ys hsplit rfl hlatest hkind ?_ ?_
      · intro e he hek
        -- behind the last event of the kind there is none of it
        have hframe' := hnumbered.frame e (by simp [he])
        rw [hys e he hek, hek, (EventKind.latest_plain hlatest).1] at hframe'
        cases hframe'
      · have hbehind : behind s.ledger.posts (xs ++ s.ledger.next kind values :: ys) = ys :=
          behind_eq rfl fun e he => hbelow e (by simp [hsplit, he])
        dsimp only
        rw [hbehind]
  | frameRefused => exact .refused rfl (hrefused _ rfl)
  | refused => exact .refused rfl (hrefused _ rfl)
  | evicted xs victim ys hnot hframe hfull hsplit =>
      have hsub : (xs ++ ys).Sublist s.dispatcher.events := by
        rw [hsplit]
        exact List.Sublist.append_left (List.sublist_cons_self victim ys) xs
      exact .appended (xs ++ ys) _ hsub rfl (marked_tag _ _) rfl
        (happended (s.dispatcher.without victim (xs ++ ys)) hsub)
  | beyond =>
      exact .appended _ _ (List.Sublist.refl _) rfl (marked_tag _ _) rfl
        (happended _ (List.Sublist.refl _))
  | appended =>
      exact .appended _ _ (List.Sublist.refl _) rfl (marked_tag _ _) rfl
        (happended _ (List.Sublist.refl _))

/-! ## The row of the events -/

/-- The event that has left the queue and not come to the handler yet. -/
def pending (s : Handing V) : List (Event (Tagged V)) :=
  match s.current with
  | some (event, none) => [event]
  | _ => []

/-- The events handed over, the one in hand and the queue, in one row. -/
def trace (s : Handing V) : List (Event (Tagged V)) :=
  s.handed.reverse ++ s.pending ++ s.dispatcher.events

/-- **`x` stands in front of `y` rightly**: it was accepted first, and `y` has not overtaken it; or
it has overtaken `y`. -/
def InTurn (overtaken : List (Event (Tagged V) × Event (Tagged V)))
    (x y : Event (Tagged V)) : Prop :=
  (x.tag < y.tag ∧ (y, x) ∉ overtaken) ∨ (y.tag < x.tag ∧ (x, y) ∈ overtaken)

/-- **The invariant**: the ledger fits the queue, no event of the row has a number to come, every
overtaking was one of a coalesced kind, and the row is in turn. -/
structure Traced (s : Handing V) : Prop where
  fits : s.ledger.Fits s.dispatcher.events
  below : ∀ e ∈ s.trace, e.tag < s.ledger.posts
  overtakes : ∀ p ∈ s.overtaken, p.1.tag < s.ledger.posts ∧ p.1.kind.isLatest = true ∧
    p.2.kind ≠ p.1.kind
  inTurn : s.trace.Pairwise (InTurn s.overtaken)
  idle : s.dispatcher.executing = false → s.current = none
  current : ∀ event found, s.current = some (event, found) →
    s.ledger.fate event.tag = Barriers.inHand found

variable {s t : Handing V}

omit [FrameValues V] in
theorem InTurn.ne {overtaken : List (Event (Tagged V) × Event (Tagged V))}
    {x y : Event (Tagged V)} (h : InTurn overtaken x y) : x.tag ≠ y.tag := by
  rcases h with ⟨h, -⟩ | ⟨h, -⟩
  · omega
  · omega

omit [FrameValues V] in
/-- A step that only takes events out of the row. -/
theorem Traced.sublist (h : Traced s) (hfits : t.ledger.Fits t.dispatcher.events)
    (hposts : t.ledger.posts = s.ledger.posts) (hovertaken : t.overtaken = s.overtaken)
    (hsub : t.trace.Sublist s.trace) (hidle : t.dispatcher.executing = false → t.current = none)
    (hcurrent : ∀ event found, t.current = some (event, found) →
      t.ledger.fate event.tag = Barriers.inHand found) : Traced t where
  fits := hfits
  below e he := by
    rw [hposts]
    exact h.below e (hsub.subset he)
  overtakes p hp := by
    rw [hovertaken] at hp
    rw [hposts]
    exact h.overtakes p hp
  inTurn := by
    rw [hovertaken]
    exact h.inTurn.sublist hsub
  idle := hidle
  current := hcurrent

/-- **A post keeps the row in turn.** -/
theorem Traced.post (h : Traced s) (kind : EventKind) (values : V) :
    Traced (s.post kind values) := by
  have hfits : (s.post kind values).ledger.Fits (s.post kind values).dispatcher.events :=
    h.fits.post kind values
  have hidle : (s.post kind values).dispatcher.executing = false →
      (s.post kind values).current = none := by
    intro hexecuting
    have hsame : (s.post kind values).dispatcher.executing = s.dispatcher.executing :=
      s.dispatcher.post_executing _ _
    exact h.idle (hsame.symm.trans hexecuting)
  have hcurrent : ∀ event found, (s.post kind values).current = some (event, found) →
      (s.post kind values).ledger.fate event.tag = Barriers.inHand found := by
    intro event found hin
    have hfate := h.current event found hin
    have htaken : (s.ledger.fate event.tag).Taken := by
      rw [hfate]
      exact (Barriers.inHand_current found).taken
    exact ((h.fits.post_later kind values).taken event.tag (.inl htaken)).trans hfate
  have hposts : (s.post kind values).ledger.posts = s.ledger.posts + 1 := rfl
  have htrace : (s.post kind values).trace =
      s.handed.reverse ++ s.pending ++ (s.post kind values).dispatcher.events := rfl
  have hbelow : ∀ e ∈ s.trace, e.tag < s.ledger.posts + 1 := fun e he =>
    Nat.lt_succ_of_lt (h.below e he)
  have hold : ∀ p ∈ s.overtaken, p.1.tag < s.ledger.posts + 1 ∧ p.1.kind.isLatest = true ∧
      p.2.kind ≠ p.1.kind := fun p hp =>
    ⟨Nat.lt_succ_of_lt (h.overtakes p hp).1, (h.overtakes p hp).2⟩
  cases post_queued h.fits kind values with
  | refused hevents hovertaken =>
      rw [hevents] at htrace
      refine ⟨hfits, ?_, ?_, ?_, hidle, hcurrent⟩
      · rw [htrace, hposts]
        exact hbelow
      · rw [hovertaken, hposts]
        exact hold
      · rw [htrace, hovertaken]
        exact h.inTurn
  | appended rest event hsub hevents htag hkind hovertaken =>
      have hfront : (s.handed.reverse ++ s.pending ++ rest).Sublist s.trace :=
        List.Sublist.append_left hsub _
      have hrow : (s.post kind values).trace =
          (s.handed.reverse ++ s.pending ++ rest) ++ [event] := by
        rw [htrace, hevents, List.append_assoc _ rest]
      refine ⟨hfits, ?_, ?_, ?_, hidle, hcurrent⟩
      · rw [hrow, hposts]
        intro e he
        rcases List.mem_append.mp he with he | he
        · exact hbelow e (hfront.subset he)
        · rw [List.mem_singleton.mp he, htag]
          omega
      · rw [hovertaken, hposts]
        exact hold
      · rw [hrow, hovertaken]
        refine List.pairwise_append.mpr
          ⟨h.inTurn.sublist hfront, List.pairwise_singleton _ _, fun e he x hx => ?_⟩
        rw [List.mem_singleton.mp hx]
        refine .inl ⟨htag ▸ h.below e (hfront.subset he), fun hmem => ?_⟩
        have hlt := (h.overtakes _ hmem).1
        simp only [htag] at hlt
        omega
  | replaced xs old ys hsplit hevents hlatest hkind hys hovertaken =>
      have hnew : (s.ledger.next kind values).tag = s.ledger.posts := rfl
      have hrow : (s.post kind values).trace =
          (s.handed.reverse ++ s.pending ++ xs) ++ s.ledger.next kind values :: ys := by
        rw [htrace, hevents, List.append_assoc _ xs]
      have hfront : ((s.handed.reverse ++ s.pending ++ xs) ++ ys).Sublist s.trace := by
        unfold trace
        rw [hsplit, List.append_assoc _ xs]
        exact List.Sublist.append_left
          (List.Sublist.append_left (List.sublist_cons_self old ys) xs) _
      have hrest := h.inTurn.sublist hfront
      obtain ⟨hxs, hys', hcross⟩ := List.pairwise_append.mp hrest
      -- the pairs of this post are about no two older events
      have hkeep : ∀ x ∈ s.trace, ∀ y, InTurn s.overtaken x y → y ∈ s.trace →
          InTurn (s.post kind values).overtaken x y := by
        intro x hx y hxy hy
        rw [hovertaken]
        rcases hxy with ⟨hlt, hnot⟩ | ⟨hlt, hmem⟩
        · refine .inl ⟨hlt, fun hmem => ?_⟩
          rcases List.mem_append.mp hmem with hmem | hmem
          · obtain ⟨e, -, heq⟩ := List.mem_map.mp hmem
            have hyposts := h.below y hy
            rw [← (Prod.mk.inj heq).1, hnew] at hyposts
            omega
          · exact hnot hmem
        · exact .inr ⟨hlt, List.mem_append_right _ hmem⟩
      refine ⟨hfits, ?_, ?_, ?_, hidle, hcurrent⟩
      · rw [hrow, hposts]
        intro e he
        rcases List.mem_append.mp he with he | he
        · exact hbelow e (hfront.subset (List.mem_append_left _ he))
        · rcases List.mem_cons.mp he with rfl | he
          · rw [hnew]
            omega
          · exact hbelow e (hfront.subset (List.mem_append_right _ he))
      · rw [hovertaken, hposts]
        intro p hp
        rcases List.mem_append.mp hp with hp | hp
        · obtain ⟨e, he, rfl⟩ := List.mem_map.mp hp
          exact ⟨by simp [hnew], hlatest, hys e he⟩
        · exact hold p hp
      · rw [hrow]
        refine List.pairwise_append.mpr ⟨?_, List.pairwise_cons.mpr ⟨?_, ?_⟩, ?_⟩
        · refine hxs.imp_of_mem fun {x y} hx hy hxy => ?_
          exact hkeep x (hfront.subset (List.mem_append_left _ hx)) y hxy
            (hfront.subset (List.mem_append_left _ hy))
        · intro y hy
          refine .inr ⟨h.below y (hfront.subset (List.mem_append_right _ hy)), ?_⟩
          rw [hovertaken]
          exact List.mem_append_left _ (List.mem_map.mpr ⟨y, hy, rfl⟩)
        · refine hys'.imp_of_mem fun {x y} hx hy hxy => ?_
          exact hkeep x (hfront.subset (List.mem_append_right _ hx)) y hxy
            (hfront.subset (List.mem_append_right _ hy))
        · intro x hx y hy
          have hxin := hfront.subset (List.mem_append_left _ hx)
          rcases List.mem_cons.mp hy with rfl | hy
          · refine .inl ⟨h.below x hxin, fun hmem => ?_⟩
            rw [hovertaken] at hmem
            rcases List.mem_append.mp hmem with hmem | hmem
            · -- what is behind the new event is not in front of it
              obtain ⟨e, he, heq⟩ := List.mem_map.mp hmem
              have hex : e = x := (Prod.mk.inj heq).2
              exact (hcross x hx x (hex ▸ he)).ne rfl
            · have hlt := (h.overtakes _ hmem).1
              simp only [hnew] at hlt
              omega
          · exact hkeep x hxin y (hcross x hx y hy)
              (hfront.subset (List.mem_append_right _ hy))

omit [FrameValues V] in
/-- `_drain_one` goes on with the event in hand. -/
theorem Traced.proceeds {event : Event (Tagged V)} {found : Option Bool} {f : Fate} (h : Traced s)
    (hcurrent : s.current = some (event, found)) (hf : f ≠ .queued ∧ f ≠ .unposted) :
    (s.ledger.set event.tag f).Fits s.dispatcher.events := by
  refine h.fits.set ?_ hf
  rw [h.current event found hcurrent]
  exact Barriers.inHand_current found

/-- **The step lemma.** -/
theorem Traced.step {a : HandingAction V} (h : Traced s) (hstep : s.step a = some t) :
    Traced t := by
  cases step_cases hstep with
  | posts kind values => exact h.post kind values
  | idle hidle hevents => exact h.sublist h.fits rfl rfl (List.Sublist.refl _) h.idle h.current
  | pops event events hidle hevents =>
      have hcurrent := h.idle hidle
      refine h.sublist ((hevents ▸ h.fits).pop) rfl rfl ?_ (by simp) ?_
      · simp [trace, pending, hcurrent, hevents]
      · rintro e found ⟨⟩
        simp [Ledger.set, Barriers.inHand]
  | calls event hcurrent hreaches =>
      have hrow : s.trace = (event :: s.handed).reverse ++ [] ++ s.dispatcher.events := by
        simp [trace, pending, hcurrent]
      refine h.sublist (h.proceeds hcurrent (by simp)) rfl rfl ?_ ?_ ?_
      · rw [hrow]
        exact List.Sublist.refl _
      · intro hidle
        cases (h.idle hidle).symm.trans hcurrent
      · rintro e found ⟨⟩
        simp [Ledger.set, Barriers.inHand]
  | misses event hcurrent hreaches =>
      refine h.sublist (h.proceeds hcurrent (by simp)) rfl rfl ?_ ?_ ?_
      · simp [trace, pending, hcurrent]
      · intro hidle
        cases (h.idle hidle).symm.trans hcurrent
      · rintro e found ⟨⟩
        simp [Ledger.set, Barriers.inHand]
  | ends event found hcurrent =>
      refine h.sublist (h.proceeds hcurrent (by simp)) rfl rfl ?_ (fun _ => rfl) (by simp)
      simp [trace, pending, hcurrent, drainEnd]
  | closes => exact h.sublist h.fits rfl rfl (List.Sublist.refl _) h.idle h.current
  | discards =>
      refine h.sublist h.fits.discard rfl rfl ?_ h.idle ?_
      · exact List.Sublist.append_left List.filter_sublist _
      · intro event found hcurrent
        have hfate := h.current event found hcurrent
        have htaken : (s.ledger.fate event.tag).Taken := by
          rw [hfate]
          exact (Barriers.inHand_current found).taken
        exact ((Ledger.discard_later s.dispatcher).taken event.tag (.inl htaken)).trans hfate
  | dies => exact h.sublist h.fits rfl rfl (List.Sublist.refl _) h.idle h.current

omit [FrameValues V] in
/-- A fresh dispatcher has an empty row. -/
theorem traced_start (capacity : ℕ) (frameCapacity : Option ℕ) :
    Traced ({ dispatcher := .init capacity frameCapacity } : Handing V) := by
  refine ⟨⟨.nil 0, ?_, ?_⟩, ?_, ?_, List.Pairwise.nil, fun _ => rfl, ?_⟩
  · intro n
    simp
  · intro n
    simp [Dispatcher.init]
  · intro e he
    cases he
  · intro p hp
    exact absurd hp List.not_mem_nil
  · intro event found hcurrent
    cases hcurrent

/-- **The run lemma.** -/
theorem reach_traced {capacity : ℕ} {frameCapacity : Option ℕ}
    (hs : (machine V capacity frameCapacity).Reach s) : Traced s := by
  refine hs.invariant ?_ fun s a t h _ hstep => h.step hstep
  rintro s rfl
  exact traced_start capacity frameCapacity

end Handing

end Tirtc
