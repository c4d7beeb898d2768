import Mathlib.Tactic.Common
import Tirtc.Dispatch.Accounts
import Tirtc.Lib.Selections

/-!
# From the callbacks of the Runtime to the handler

The sink of a dispatcher is called by the Runtime alone, through the callbacks of the extension,
which encode what they are told as the values of an event. This module says what of it the handler
hears, and with which values, in every run and for every encoding.

* `Hearing`, `HearingAction`, `machine`: a dispatcher with the calls of the Runtime.
* `Arrives`: the values that come to the handler, of which the queue may mark a frame.
* `Faithful`, `reach_faithful`: each event of the row is one of the calls.
* `heard_in_order`: what the handler hears of one line are some of the calls, in their order.
-/

set_option autoImplicit false

namespace Tirtc

open Dispatcher Delivery Transition Handing

/-- A dispatcher, and the calls of the Runtime, the first one first. -/
structure Hearing (P V : Type) where
  handing : Handing V
  calls : List P := []

/-- The Runtime calls, or something else happens to the dispatcher. -/
inductive HearingAction (P V : Type)
  | native (call : P)
  | queue (action : HandingAction V)

/-- What is posted comes from the Runtime. -/
def HandingAction.posts {V : Type} : HandingAction V → Bool
  | .post _ _ => true
  | _ => false

namespace Hearing

variable {P V : Type} [FrameValues V]

/-- One step; `encode` are the callbacks of the extension. -/
def step (encode : P → EventKind × V) (s : Hearing P V) :
    HearingAction P V → Option (Hearing P V)
  | .native call =>
      some ⟨s.handing.post (encode call).1 (encode call).2, s.calls ++ [call]⟩
  | .queue action =>
      if action.posts then none
      else (s.handing.step action).map fun t => { s with handing := t }

/-- The runs of a fresh dispatcher of these capacities. -/
def machine (encode : P → EventKind × V) (capacity : ℕ) (frameCapacity : Option ℕ) :
    Machine (Hearing P V) (HearingAction P V) where
  start s := s = ⟨{ dispatcher := .init capacity frameCapacity }, []⟩
  step := step encode

variable {encode : P → EventKind × V} {capacity : ℕ} {frameCapacity : Option ℕ}
  {s t : Hearing P V}

/-- A step is one of the dispatcher. -/
theorem step_handing {a : HearingAction P V} (h : step encode s a = some t) :
    (∃ call, t = ⟨s.handing.post (encode call).1 (encode call).2, s.calls ++ [call]⟩) ∨
      ∃ action, action.posts = false ∧ s.handing.step action = some t.handing ∧
        t.calls = s.calls := by
  cases a with
  | native call =>
      cases h
      exact .inl ⟨call, rfl⟩
  | queue action =>
      right
      simp only [step] at h
      split at h
      · cases h
      next hposts =>
        obtain ⟨handing, hstep, rfl⟩ := Option.map_eq_some_iff.mp h
        exact ⟨action, by simpa using hposts, hstep, rfl⟩

/-- **The dispatcher of a run is in a run of its own.** -/
theorem reach_handing (hs : (machine encode capacity frameCapacity).Reach s) :
    (Handing.machine V capacity frameCapacity).Reach s.handing := by
  apply hs.invariant (I := fun s => (Handing.machine V capacity frameCapacity).Reach s.handing)
  · rintro s rfl
    exact .of_start rfl
  · intro s a t hr _ hstep
    rcases step_handing hstep with ⟨call, rfl⟩ | ⟨action, -, hstep, -⟩
    · exact hr.tail (a := .post (encode call).1 (encode call).2) rfl
    · exact hr.tail hstep

/-! ## What becomes of the values -/

/-- The event brings a call; the queue has marked it if it is a frame after a gap. -/
def Arrives (call : EventKind × V) (event : Event (Tagged V)) : Prop :=
  event.kind = call.1 ∧ (event.values.values = call.2 ∨
    call.1.isFrame = true ∧ event.values.values = FrameValues.markDiscontinuity call.2)

/-- What a post leaves in the queue was there, or is what it brings. -/
theorem post_mem {d : Dispatcher (Tagged V)} {event e : Event (Tagged V)} {latest : Bool}
    (he : e ∈ (d.post event latest).dispatcher.events) :
    e ∈ d.events ∨ e = event ∨ ∃ d' : Dispatcher (Tagged V), e = d'.marked event := by
  have hposted := d.post_spec event latest
  generalize d.post event latest = r at hposted he
  -- what is appended is marked or not, and what else is there was there before
  have happended : ∀ d' : Dispatcher (Tagged V), d'.events ⊆ d.events →
      e ∈ (d'.enqueue event).dispatcher.events →
      e ∈ d.events ∨ e = event ∨ ∃ d' : Dispatcher (Tagged V), e = d'.marked event := by
    intro d' hsub he
    rcases List.mem_append.mp he with he | he
    · exact .inl (hsub he)
    · exact .inr (.inr ⟨d', List.mem_singleton.mp he⟩)
  cases hposted with
  | closed => exact .inl he
  | coalesced xs old ys hcoalesces hsplit hkind hframe hys =>
      rw [hsplit]
      simp only [List.mem_append, List.mem_cons] at he ⊢
      tauto
  | frameRefused => exact .inl he
  | refused => exact .inl he
  | evicted xs victim ys hnot hframe hfull hsplit hxs hterminal =>
      refine happended (d.without victim (xs ++ ys)) ?_ he
      intro x hx
      rw [hsplit]
      simp only [without, List.mem_append, List.mem_cons] at hx ⊢
      tauto
  | beyond => exact happended d (List.Subset.refl _) he
  | appended => exact happended d (List.Subset.refl _) he

/-- The event that a call posts. -/
theorem arrives_next (s : Hearing P V) (kind : EventKind) (values : V)
    (d : Dispatcher (Tagged V)) :
    Arrives (kind, values) (d.marked (s.handing.ledger.next kind values)) := by
  refine ⟨rfl, ?_⟩
  unfold Dispatcher.marked
  split
  next hmarked => exact .inr ⟨(Bool.and_eq_true _ _ ▸ hmarked).1, rfl⟩
  next => exact .inl rfl

/-- **The invariant**: every event of the row brings the call of its number. -/
structure Faithful (encode : P → EventKind × V) (s : Hearing P V) : Prop where
  posts : s.calls.length = s.handing.ledger.posts
  brings : ∀ e ∈ s.handing.trace, ∃ call, s.calls[e.tag]? = some call ∧ Arrives (encode call) e

/-- **A call keeps it.** -/
theorem Faithful.native (h : Faithful encode s) (hs : Traced s.handing) (call : P) :
    Faithful encode
      ⟨s.handing.post (encode call).1 (encode call).2, s.calls ++ [call]⟩ where
  posts := by
    show (s.calls ++ [call]).length = s.handing.ledger.posts + 1
    rw [List.length_append, h.posts]
    rfl
  brings := by
    intro e he
    -- the older events keep the calls of their numbers
    have hold : e ∈ s.handing.trace → ∃ p, (s.calls ++ [call])[e.tag]? = some p ∧
        Arrives (encode p) e := by
      intro he
      obtain ⟨p, hp, harrives⟩ := h.brings e he
      have hlt : e.tag < s.calls.length := by
        rw [h.posts]
        exact hs.below e he
      exact ⟨p, by rw [List.getElem?_append_left hlt, hp], harrives⟩
    have hnew : e.tag = s.handing.ledger.posts → Arrives (encode call) e →
        ∃ p, (s.calls ++ [call])[e.tag]? = some p ∧ Arrives (encode p) e := by
      intro htag harrives
      refine ⟨call, ?_, harrives⟩
      rw [htag, ← h.posts]
      exact List.getElem?_concat_length
    rcases List.mem_append.mp he with he | he
    · exact hold (List.mem_append_left _ he)
    · rcases post_mem he with he | rfl | ⟨d, rfl⟩
      · exact hold (List.mem_append_right _ he)
      · exact hnew rfl ⟨rfl, .inl rfl⟩
      · exact hnew (marked_tag d _) (arrives_next s _ _ d)

/-- **So does every other step**, which brings nothing into the row. -/
theorem Faithful.queue (h : Faithful encode s) {action : HandingAction V}
    (hposts : action.posts = false) (hstep : s.handing.step action = some t.handing)
    (hcalls : t.calls = s.calls) : Faithful encode t := by
  have hrow : t.handing.ledger.posts = s.handing.ledger.posts ∧
      t.handing.trace ⊆ s.handing.trace := by
    generalize t.handing = u at hstep
    cases step_cases hstep with
    | posts kind values => cases hposts
    | idle => exact ⟨rfl, List.Subset.refl _⟩
    | pops event events hidle hevents =>
        refine ⟨rfl, ?_⟩
        intro e he
        simp only [trace, pending, hevents, List.mem_append, List.mem_cons] at he ⊢
        tauto
    | calls event hcurrent hreaches =>
        refine ⟨rfl, ?_⟩
        intro e he
        simp only [trace, pending, hcurrent, List.mem_append, List.mem_reverse,
          List.mem_cons] at he ⊢
        tauto
    | misses event hcurrent hreaches =>
        refine ⟨rfl, ?_⟩
        intro e he
        simp only [trace, pending, hcurrent, List.mem_append, List.mem_cons] at he ⊢
        tauto
    | ends event found hcurrent =>
        refine ⟨rfl, ?_⟩
        intro e he
        simp only [trace, pending, hcurrent, drainEnd, List.mem_append] at he ⊢
        tauto
    | closes => exact ⟨rfl, List.Subset.refl _⟩
    | discards =>
        refine ⟨rfl, ?_⟩
        exact (List.Sublist.append_left List.filter_sublist _).subset
    | dies => exact ⟨rfl, List.Subset.refl _⟩
  refine ⟨?_, ?_⟩
  · rw [hcalls, hrow.1]
    exact h.posts
  · rw [hcalls]
    intro e he
    exact h.brings e (hrow.2 he)

/-- **The run lemma.** -/
theorem reach_faithful (hs : (machine encode capacity frameCapacity).Reach s) :
    Faithful encode s := by
  have htraced : ∀ s, (machine encode capacity frameCapacity).Reach s → Traced s.handing := by
    intro s hs
    exact reach_traced (reach_handing hs)
  apply hs.invariant_of (J := fun s => Traced s.handing) htraced
  · rintro s rfl -
    refine ⟨rfl, ?_⟩
    intro e he
    exact absurd he List.not_mem_nil
  · intro s a t hs _ h _ hstep
    rcases step_handing hstep with ⟨call, rfl⟩ | ⟨action, hposts, hstep, hcalls⟩
    · exact h.native hs call
    · exact h.queue hposts hstep hcalls

/-! ## What the handler hears -/

/-- **What the handler hears of one line are calls of the Runtime, in their order**: `told` is what
it makes of an event, and `said` what the call has said. -/
theorem heard_in_order {α β : Type} {told : Event (Tagged V) → Option α} {said : P → Option β}
    {S : α → β → Prop} (hs : (machine encode capacity frameCapacity).Reach s)
    (hline : ∀ x y a b, told x = some a → told y = some b → SameLine x y)
    (hsaid : ∀ call e a, Arrives (encode call) e → told e = some a →
      ∃ b, said call = some b ∧ S a b) :
    List.SublistForall₂ S (s.handing.handed.reverse.filterMap told) (s.calls.filterMap said) := by
  have htraced := reach_traced (reach_handing hs)
  have hfaithful := reach_faithful hs
  have hheard : List.SublistForall₂ (fun e call => Arrives (encode call) e)
      (s.handing.handed.reverse.filter fun e => (told e).isSome) s.calls := by
    apply Selection.sublistForall₂_of_index Event.tag
    · apply (htraced.order.sublist List.filter_sublist).imp_of_mem
      intro x y hx hy hxy
      obtain ⟨a, ha⟩ := Option.isSome_iff_exists.mp (List.mem_filter.mp hx).2
      obtain ⟨b, hb⟩ := Option.isSome_iff_exists.mp (List.mem_filter.mp hy).2
      exact hxy (hline x y a b ha hb)
    · intro e he
      apply hfaithful.brings
      unfold trace
      rw [List.append_assoc]
      exact List.mem_append_left _ (List.mem_filter.mp he).1
  have hfilter : (s.handing.handed.reverse.filter fun e => (told e).isSome).filterMap told =
      s.handing.handed.reverse.filterMap told := by
    rw [List.filterMap_filter]
    congr 1
    funext e
    cases told e <;> rfl
  rw [← hfilter]
  apply Selection.filterMap hheard
  intro e call a harrives ha
  exact hsaid call e a harrives ha

end Hearing

end Tirtc
