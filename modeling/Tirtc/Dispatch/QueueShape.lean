import Tirtc.Dispatch.Handing

/-!
# The shape of the queue

`post`, `_drain_one`, `close` and `discard` edit the queue and its separate frame counter. In every
run of a dispatcher with a capacity of at least one the counter is right, the frames keep to their
limit, and the queue is at most one event over its capacity, and then full of terminal events.

* `post_full`, `frame_accepted`, `terminal_refused`: what `post` does when the queue is full.
* `Overfull`, `Shaped`: the invariant: over its capacity the queue holds both terminal kinds.
* `Shaped.post`, `Shaped.step`: the step lemmas, by the way a post ends.
* `Shape`, `queue_shaped`: what holds in every run, and how a terminal event leaves the queue;
  `completed_unheard`: the run in which nobody hears of one.
-/

set_option autoImplicit false

namespace Tirtc

open Dispatcher Delivery Transition

namespace Dispatcher

variable {V : Type} [FrameValues V] {d : Dispatcher V} {event : Event V} {latest : Bool}

/-! ## A full queue -/

omit [FrameValues V] in
/-- A post that finds nothing to overwrite overwrites nothing. -/
theorem coalesce_eq_none (hnot : d.coalesces event latest = false) :
    (if latest then d.coalesce event else none) = none := by
  cases hlatest : latest with
  | false => rfl
  | true =>
      rw [if_pos rfl]
      refine ListEdit.replaceLast?_eq_none.mpr fun current hmem => ?_
      simp only [coalesces, hlatest, Bool.true_and, List.any_eq_false] at hnot
      simpa using hnot current hmem

/-- A terminal event comes to a queue full of terminal events: it is let in beyond the capacity when
none of them is of its kind. -/
theorem post_full (hopen : d.closed = false) (hnot : d.coalesces event latest = false)
    (hframe : event.frame = false) (hfull : d.capacity ≤ d.events.length)
    (hall : ∀ current ∈ d.events, current.terminal = true)
    (h : (d.post event latest).accepted = true) :
    ∀ current ∈ d.events, current.kind ≠ event.kind := by
  intro current hmem hkind
  have hnone : d.events.find? (fun current => !current.terminal) = none :=
    List.find?_eq_none.mpr (by simpa using hall)
  have hsame : (d.events.any fun current => current.kind = event.kind && current.terminal) = true :=
    List.any_eq_true.mpr ⟨current, hmem, by simp [hkind, hall current hmem]⟩
  have hroom : d.makeRoom event = none := by
    unfold makeRoom
    rw [hnone]
    simp only [hsame, Bool.or_true, if_true]
  have hcoalesce := coalesce_eq_none hnot
  simp [post, hopen, hcoalesce, hframe, hfull, hroom] at h

/-- A frame is let in below the limit of the frames only. -/
theorem frame_accepted (hnot : d.coalesces event latest = false) (hframe : event.frame = true)
    (h : (d.post event latest).accepted = true) : d.frameCount < d.frameCapacity := by
  by_contra hlimit
  have hfull : (d.frameCapacity : ℤ) ≤ d.frameCount := by omega
  have hcoalesce := coalesce_eq_none hnot
  unfold post at h
  split at h
  · cases h
  · rw [hcoalesce] at h
    simp [hframe, hfull, dropFrame] at h

/-- The counter counts an event that is appended. -/
theorem enqueue_count (h : d.frameCount = d.events.countP Event.frame) :
    (d.enqueue event).dispatcher.frameCount =
      (d.enqueue event).dispatcher.events.countP Event.frame := by
  have hmarked : (d.marked event).frame = event.frame := d.marked_frame event
  cases hframe : event.frame with
  | true => simp [enqueue, List.countP_append, hframe, h]
  | false => simp [enqueue, List.countP_append, hframe, h]

/-- **What refuses a terminal event**: a closed dispatcher, or a queue full of terminal events with
one of its kind. -/
theorem terminal_refused (hframe : event.frame = false) (hterminal : event.terminal = true)
    (h : (d.post event latest).accepted = false) :
    d.closed = true ∨ (d.capacity ≤ d.events.length ∧
      (∀ current ∈ d.events, current.terminal = true) ∧
      ∃ current ∈ d.events, current.kind = event.kind) := by
  by_cases hclosed : d.closed = true
  · exact .inl hclosed
  right
  have hposted := d.post_spec event latest
  generalize hr : d.post event latest = r at hposted h
  cases hposted with
  | closed hc => exact absurd hc hclosed
  | coalesced => cases h
  | frameRefused hf => exact absurd (hframe.symm.trans hf) (by simp)
  | refused hnot hf hfull hall =>
      refine ⟨hfull, hall, ?_⟩
      by_contra hno
      -- an event of a new kind is let in
      have hnone : d.events.find? (fun current => !current.terminal) = none :=
        List.find?_eq_none.mpr (by simpa using hall)
      have hsame : (d.events.any fun current =>
          current.kind = event.kind && current.terminal) = false := by
        refine List.any_eq_false.mpr fun current hmem hcurrent => hno ⟨current, hmem, ?_⟩
        simp only [Bool.and_eq_true, decide_eq_true_eq] at hcurrent
        exact hcurrent.1
      have hroom : d.makeRoom event = some d := by
        unfold makeRoom
        rw [hnone]
        simp only [hsame, hterminal, Bool.not_true, Bool.or_self, Bool.false_eq_true, if_false]
      have hopen : d.closed = false := by simpa using hclosed
      have haccepted : (d.post event latest).accepted = true := by
        simp [post, hopen, coalesce_eq_none hnot, hframe, hfull, hroom, enqueue]
      rw [hr] at haccepted
      cases haccepted
  | evicted => cases h
  | beyond => cases h
  | appended => cases h

end Dispatcher

namespace Handing

variable {V : Type} {s t : Handing V} {a : HandingAction V}

/-! ## The invariant -/

/-- There are two terminal kinds. -/
theorem terminal_eq {k l m : EventKind} (hk : k.isTerminal = true) (hl : l.isTerminal = true)
    (hkl : k ≠ l) (hm : m.isTerminal = true) (hml : m ≠ l) : k = m := by
  have htwo : ∀ kind : EventKind, kind.isTerminal = true → kind = .completed ∨ kind = .error := by
    intro kind hkind
    cases kind <;> simp [EventKind.isTerminal] at hkind ⊢
  rcases htwo k hk with rfl | rfl <;> rcases htwo l hl with rfl | rfl <;>
    rcases htwo m hm with rfl | rfl <;> simp_all

/-- The queue is one event over its capacity: all of it is terminal, of both kinds. -/
structure Overfull (d : Dispatcher (Tagged V)) : Prop where
  length : d.events.length = d.capacity + 1
  terminal : ∀ e ∈ d.events, e.terminal = true
  kinds : ∀ kind : EventKind, kind.isTerminal = true → ∃ e ∈ d.events, e.kind = kind

/-- **The invariant**: the counter is right and within its limit, and the queue is within its
capacity or over it by one terminal event. -/
structure Shaped (capacity : ℕ) (d : Dispatcher (Tagged V)) : Prop where
  capacity : d.capacity = capacity
  count : d.frameCount = d.events.countP Event.frame
  limit : d.frameCount ≤ d.frameCapacity
  length : d.events.length ≤ d.capacity ∨ Overfull d

/-- A step that takes the first event out of the queue, or nothing. -/
theorem Shaped.shorter {capacity : ℕ} {d d' : Dispatcher (Tagged V)} (h : Shaped capacity d)
    (hcapacity : d'.capacity = d.capacity) (hframes : d'.frameCapacity = d.frameCapacity)
    (hcount : d'.frameCount = d'.events.countP Event.frame) (hle : d'.frameCount ≤ d.frameCount)
    (hlength : d'.events = d.events ∨ d'.events.length < d.events.length) :
    Shaped capacity d' where
  capacity := hcapacity.trans h.capacity
  count := hcount
  limit := by
    rw [hframes]
    exact Int.le_trans hle h.limit
  length := by
    rcases hlength with hsame | hlt
    · rcases h.length with hle | hover
      · left
        rw [hsame, hcapacity]
        exact hle
      · right
        refine ⟨?_, ?_, ?_⟩
        · rw [hsame, hcapacity]
          exact hover.length
        · rw [hsame]
          exact hover.terminal
        · rw [hsame]
          exact hover.kinds
    · left
      rw [hcapacity]
      rcases h.length with hle | hover
      · omega
      · have hover := hover.length
        omega

variable [FrameValues V]

/-- **A post keeps the shape.** -/
theorem Shaped.post {capacity : ℕ} (hcapacity : 1 ≤ capacity) (hs : Traced s)
    (h : Shaped capacity s.dispatcher) (kind : EventKind) (values : V) :
    Shaped capacity (s.post kind values).dispatcher := by
  have hposted : Posted s.dispatcher (s.ledger.next kind values) kind.isLatest
      (s.dispatcher.nativeSink kind (s.ledger.next kind values).values) :=
    post_spec s.dispatcher _ kind.isLatest
  have hterminal : ∀ e ∈ s.dispatcher.events, e.terminal = e.kind.isTerminal :=
    hs.fits.numbered.terminal
  show Shaped capacity (s.dispatcher.nativeSink kind (s.ledger.next kind values).values).dispatcher
  generalize hr : s.dispatcher.nativeSink kind (s.ledger.next kind values).values = r at hposted
  cases hposted with
  | closed => exact h
  | coalesced xs old ys hcoalesces hsplit hkind hframe hys =>
      have hlatest : kind.isLatest = true := latest_of_coalesces hcoalesces
      have hplain := EventKind.latest_plain hlatest
      have hcount : ((xs ++ s.ledger.next kind values :: ys).countP Event.frame : ℤ) =
          s.dispatcher.events.countP Event.frame := by
        simp [hsplit, List.countP_append, hframe, Ledger.next, nativeEvent, hplain.1]
      have hlength : (xs ++ s.ledger.next kind values :: ys).length =
          s.dispatcher.events.length := by
        simp [hsplit]
      refine ⟨h.capacity, h.count.trans hcount.symm, h.limit, .inl ?_⟩
      rcases h.length with hle | hover
      · exact hlength ▸ hle
      · -- an event of a coalesced kind is not terminal
        have hmem : old ∈ s.dispatcher.events := by simp [hsplit]
        have hold := hover.terminal old hmem
        rw [hterminal old hmem, hkind] at hold
        exact absurd (hplain.2.symm.trans hold) (by simp)
  | frameRefused => exact ⟨h.capacity, h.count, h.limit, h.length.imp id fun hover =>
      ⟨hover.length, hover.terminal, hover.kinds⟩⟩
  | refused => exact h
  | evicted xs victim ys hnot hframe hfull hsplit hxs hvictim =>
      have hmem : victim ∈ s.dispatcher.events := by simp [hsplit]
      have hcount := h.count
      rw [hsplit, List.countP_append, List.countP_cons] at hcount
      have hrest : ((s.dispatcher.without victim (xs ++ ys)).frameCount : ℤ) =
          (xs ++ ys).countP Event.frame := by
        rw [List.countP_append]
        cases hv : victim.frame with
        | true =>
            simp only [without, hv, if_true] at hcount ⊢
            omega
        | false =>
            simp only [without, hv, Bool.false_eq_true, if_false] at hcount ⊢
            omega
      have hlimit := h.limit
      have hle : (s.dispatcher.without victim (xs ++ ys)).frameCount ≤ s.dispatcher.frameCount := by
        simp only [without]
        split
        · omega
        · exact Int.le_refl _
      refine ⟨h.capacity, enqueue_count hrest, ?_, .inl ?_⟩
      · simp only [enqueue, hframe, Bool.false_eq_true, if_false]
        exact Int.le_trans hle hlimit
      · rcases h.length with hle | hover
        · rw [hsplit] at hle
          simpa [enqueue, without] using hle
        · exact absurd ((hover.terminal victim hmem).symm.trans hvictim) (by simp)
  | beyond hnot hframe hevent hfull hall =>
      have hopen : s.dispatcher.closed = false := by
        cases hc : s.dispatcher.closed with
        | false => rfl
        | true =>
            have hclosed := s.dispatcher.post_of_closed hc (s.ledger.next kind values) kind.isLatest
            have hacc := congrArg PostResult.accepted (hclosed.symm.trans hr)
            cases hacc
      have hnew : ∀ current ∈ s.dispatcher.events, current.kind ≠ kind := by
        refine post_full hopen hnot hframe hfull hall ?_
        rw [show s.dispatcher.post (s.ledger.next kind values) kind.isLatest =
          s.dispatcher.enqueue (s.ledger.next kind values) from hr]
        rfl
      have hisTerminal : kind.isTerminal = true := hevent
      refine ⟨h.capacity, enqueue_count h.count, ?_, .inr ⟨?_, ?_, ?_⟩⟩
      · simp only [enqueue, hframe, Bool.false_eq_true, if_false]
        exact h.limit
      · rcases h.length with hle | hover
        · simp only [enqueue_events, List.length_append, List.length_singleton]
          show s.dispatcher.events.length + 1 = s.dispatcher.capacity + 1
          omega
        · obtain ⟨e, he, hkind⟩ := hover.kinds kind hisTerminal
          exact absurd hkind (hnew e he)
      · intro e he
        rcases List.mem_append.mp he with he | he
        · exact hall e he
        · rw [List.mem_singleton.mp he]
          exact hevent
      · intro k hk
        by_cases hkind : k = kind
        · exact ⟨_, List.mem_append_right _ (List.mem_singleton.mpr rfl), hkind.symm⟩
        · -- the queue was not empty, and none of its events is of the new kind
          have hne : s.dispatcher.events ≠ [] := by
            intro hnil
            have hcap := h.capacity
            rw [hnil, List.length_nil] at hfull
            omega
          obtain ⟨e, he⟩ := List.exists_mem_of_ne_nil _ hne
          refine ⟨e, List.mem_append_left _ he, ?_⟩
          have hek : e.kind.isTerminal = true := (hterminal e he).symm.trans (hall e he)
          exact terminal_eq hek hisTerminal (hnew e he) hk hkind
  | appended hnot hlength =>
      refine ⟨h.capacity, enqueue_count h.count, ?_, .inl ?_⟩
      · by_cases hframe : (s.ledger.next kind values).frame = true
        · have hlimit := frame_accepted (d := s.dispatcher) hnot hframe (by
            rw [show s.dispatcher.post (s.ledger.next kind values) kind.isLatest =
              s.dispatcher.enqueue (s.ledger.next kind values) from hr]
            rfl)
          simp only [enqueue, hframe, if_true]
          omega
        · simp only [enqueue, hframe, Bool.false_eq_true, if_false]
          exact h.limit
      · simp only [enqueue_events, List.length_append, List.length_singleton]
        exact hlength

/-- **The step lemma.** -/
theorem Shaped.step {capacity : ℕ} (hcapacity : 1 ≤ capacity) (hs : Traced s)
    (h : Shaped capacity s.dispatcher) (hstep : s.step a = some t) :
    Shaped capacity t.dispatcher := by
  have hframe : ∀ e ∈ s.dispatcher.events, e.frame = e.kind.isFrame := hs.fits.numbered.frame
  have hcount := h.count
  have hlimit := h.limit
  cases step_cases hstep with
  | posts kind values => exact h.post hcapacity hs kind values
  | idle hidle hevents => exact h.shorter rfl rfl h.count (Int.le_refl _) (.inl rfl)
  | pops event events hidle hevents =>
      rw [hevents, List.countP_cons] at hcount
      refine h.shorter rfl rfl ?_ ?_ (.inr (by simp [hevents]))
      · show (if event.frame then s.dispatcher.frameCount - 1 else s.dispatcher.frameCount) =
          (events.countP Event.frame : ℤ)
        by_cases hf : event.frame = true
        · rw [if_pos hf] at hcount ⊢
          omega
        · rw [if_neg hf] at hcount ⊢
          omega
      · dsimp only
        split
        · omega
        · exact Int.le_refl _
  | calls event hcurrent hreaches => exact h
  | misses event hcurrent hreaches => exact h
  | ends event found hcurrent => exact h.shorter rfl rfl h.count (Int.le_refl _) (.inl rfl)
  | closes => exact h.shorter rfl rfl h.count (Int.le_refl _) (.inl rfl)
  | discards =>
      -- native tasks are no frames
      have hnone : s.dispatcher.discard.events.countP Event.frame = 0 := by
        apply List.countP_eq_zero.mpr
        intro e he
        obtain ⟨hmem, hkind⟩ := List.mem_filter.mp he
        have hkind : e.kind = .nativeTask := by simpa using hkind
        rw [hframe e hmem, hkind]
        decide
      refine h.shorter rfl rfl ?_ ?_ ?_
      · rw [hnone]
        rfl
      · show (0 : ℤ) ≤ s.dispatcher.frameCount
        omega
      · have hle : s.dispatcher.discard.events.length ≤ s.dispatcher.events.length :=
          List.length_filter_le _ _
        rcases Nat.lt_or_eq_of_le hle with hlt | heq
        · exact .inr hlt
        · exact .inl (List.filter_sublist.eq_of_length heq)
  | dies => exact h

/-- **The run lemma.** -/
theorem reach_shaped {capacity : ℕ} {frameCapacity : Option ℕ} (hcapacity : 1 ≤ capacity)
    (hs : (machine V capacity frameCapacity).Reach s) : Shaped capacity s.dispatcher := by
  refine hs.invariant_of (I := fun s => Shaped capacity s.dispatcher) (J := Traced)
    (fun s hs => reach_traced hs) ?_ ?_
  · rintro s rfl -
    exact ⟨rfl, rfl, Int.natCast_nonneg _, .inl (Nat.zero_le _)⟩
  · intro s a t hs ht h hok hstep
    exact h.step hcapacity hs hstep

/-! ## What holds in every run -/

/-- **The shape of the queue.** -/
structure Shape (d : Dispatcher (Tagged V)) : Prop where
  count : d.frameCount = d.events.countP Event.frame
  limit : d.frameCount ≤ d.frameCapacity
  length : d.events.length ≤ d.capacity + 1
  excess : d.capacity < d.events.length → ∀ e ∈ d.events, e.terminal = true

omit [FrameValues V] in
theorem Shaped.shape {capacity : ℕ} {d : Dispatcher (Tagged V)} (h : Shaped capacity d) :
    Shape d where
  count := h.count
  limit := h.limit
  length := by
    rcases h.length with hle | hover
    · omega
    · exact Nat.le_of_eq hover.length
  excess hlt := by
    rcases h.length with hle | hover
    · omega
    · exact hover.terminal

/-- A post leaves the terminal events in the queue. -/
theorem terminal_stays (hs : Traced s) (kind : EventKind) (values : V) {e : Event (Tagged V)}
    (he : e ∈ s.dispatcher.events) (hterminal : e.terminal = true) :
    e ∈ (s.post kind values).dispatcher.events := by
  have hposted : Posted s.dispatcher (s.ledger.next kind values) kind.isLatest
      (s.dispatcher.nativeSink kind (s.ledger.next kind values).values) :=
    post_spec s.dispatcher _ kind.isLatest
  show e ∈ (s.dispatcher.nativeSink kind (s.ledger.next kind values).values).dispatcher.events
  generalize s.dispatcher.nativeSink kind (s.ledger.next kind values).values = r at hposted
  cases hposted with
  | closed => exact he
  | coalesced xs old ys hcoalesces hsplit hkind hframe hys =>
      have hlatest : kind.isLatest = true := latest_of_coalesces hcoalesces
      have hne : e ≠ old := by
        rintro rfl
        rw [hs.fits.numbered.terminal e he, hkind] at hterminal
        exact absurd ((EventKind.latest_plain hlatest).2.symm.trans hterminal) (by simp)
      rw [hsplit] at he
      simp only [List.mem_append, List.mem_cons] at he ⊢
      tauto
  | frameRefused => exact he
  | refused => exact he
  | evicted xs victim ys hnot hframe hfull hsplit hxs hvictim =>
      have hne : e ≠ victim := by
        rintro rfl
        exact absurd (hterminal.symm.trans hvictim) (by simp)
      rw [hsplit] at he
      rw [enqueue_events]
      simp only [List.mem_append, List.mem_cons, without] at he ⊢
      tauto
  | beyond => exact List.mem_append_left _ he
  | appended => exact List.mem_append_left _ he

/-- A terminal event leaves the queue for `_drain_one`, or by `discard`. -/
theorem terminal_leaves (hs : Traced s) (hstep : s.step a = some t) {e : Event (Tagged V)}
    (he : e ∈ s.dispatcher.events) (hterminal : e.terminal = true) :
    e ∈ t.dispatcher.events ∨ (a = .drainBegin ∧ t.current = some (e, none)) ∨ a = .discard := by
  cases step_cases hstep with
  | posts kind values => exact .inl (terminal_stays hs kind values he hterminal)
  | pops event events hidle hevents =>
      rw [hevents] at he
      rcases List.mem_cons.mp he with rfl | he
      · exact .inr (.inl ⟨rfl, rfl⟩)
      · exact .inl he
  | discards => exact .inr (.inr rfl)
  | _ => exact .inl he

/-- The event in hand goes to the handler, if its object is alive. -/
theorem lookUp_hands {e : Event (Tagged V)} (hcurrent : s.current = some (e, none))
    (hterminal : e.kind.isTerminal = true) (hstep : s.step .lookUp = some t) :
    t.handed = if s.alive then e :: s.handed else s.handed := by
  have hkind : (e.kind != .nativeTask) = true := by
    cases hk : e.kind <;> first | rfl | simp [hk, EventKind.isTerminal] at hterminal
  have hreaches : s.reaches e = s.alive := by rw [reaches, hkind, Bool.and_true]
  simp only [step, hcurrent, hreaches] at hstep
  cases hstep
  rfl

/-- **The shape of the queue and its terminal events**, in every run of a dispatcher with a capacity
of at least one: a terminal event leaves the queue only for `_drain_one`, which calls the handler
with it if its object is alive, or by `discard`; and a terminal event is refused only by a closed
dispatcher, or by a queue full of terminal events with one of its kind.
Source: `_dispatch.py`, `_Dispatcher`, `_native_sink` -/
theorem queue_shaped {capacity : ℕ} {frameCapacity : Option ℕ} (hcapacity : 1 ≤ capacity)
    (hs : (machine V capacity frameCapacity).Reach s) :
    Shape s.dispatcher ∧
    (∀ a t, s.step a = some t → ∀ e ∈ s.dispatcher.events, e.terminal = true →
      e ∈ t.dispatcher.events ∨ (a = .drainBegin ∧ t.current = some (e, none)) ∨ a = .discard) ∧
    (∀ e t, s.current = some (e, none) → e.kind.isTerminal = true → s.step .lookUp = some t →
      t.handed = if s.alive then e :: s.handed else s.handed) ∧
    ∀ kind values, kind.isTerminal = true →
      (s.dispatcher.nativeSink kind (s.ledger.next kind values).values).accepted = false →
      s.dispatcher.closed = true ∨ (s.dispatcher.capacity ≤ s.dispatcher.events.length ∧
        (∀ e ∈ s.dispatcher.events, e.terminal = true) ∧
        ∃ e ∈ s.dispatcher.events, e.kind = kind) := by
  have htraced := reach_traced hs
  refine ⟨(reach_shaped hcapacity hs).shape, ?_, ?_, ?_⟩
  · intro a t hstep e he hterminal
    exact terminal_leaves htraced hstep he hterminal
  · intro e t hcurrent hterminal hstep
    exact lookUp_hands hcurrent hterminal hstep
  · intro kind values hterminal hrefused
    have hframe : (s.ledger.next kind values).frame = false := by
      cases kind <;> first | rfl | cases hterminal
    exact terminal_refused hframe hterminal hrefused

/-- A queue of one that holds both terminal kinds. -/
theorem queue_shaped_overfull :
    ∃ s, (machine (List PyValue) 1 none).Reach s ∧ s.dispatcher.events.length = 2 ∧
      Shape s.dispatcher := by
  have hstart : (machine (List PyValue) 1 none).start { dispatcher := .init 1 none } := rfl
  have hrun : ((machine (List PyValue) 1 none).exec { dispatcher := .init 1 none }
      [.post .completed [.int 0], .post .error [.int 1], .post .error [.int 2]]).any
        (fun s => decide (s.dispatcher.events.length = 2)) = true := by
    decide +kernel
  obtain ⟨s, hs, htest⟩ := Machine.exists_reach hstart hrun
  exact ⟨s, hs, of_decide_eq_true htest, (queue_shaped (by decide) hs).1⟩

/-- **A completed event that nobody hears of**: the object of the handler has gone when `_drain_one`
has taken the event out of the queue. -/
theorem completed_unheard :
    ¬ ∀ s, (machine (List PyValue) 64 none).Reach s → ∀ t, s.step .lookUp = some t →
      ∀ e, s.current = some (e, none) → e.terminal = true → t.handed = e :: s.handed := by
  intro h
  have hstart : (machine (List PyValue) 64 none).start { dispatcher := .init 64 none } := rfl
  have hrun : ((machine (List PyValue) 64 none).exec { dispatcher := .init 64 none }
      [.post .completed [.int 0], .die, .drainBegin]).any (fun s => decide (
        s.current = some (nativeEvent .completed ⟨0, [.int 0]⟩, none) ∧ s.alive = false)) =
          true := by
    decide +kernel
  obtain ⟨s, hs, htest⟩ := Machine.exists_reach hstart hrun
  obtain ⟨hcurrent, halive⟩ := of_decide_eq_true htest
  have hreaches : s.reaches (nativeEvent .completed ⟨0, [.int 0]⟩) = false := by
    simp [reaches, halive]
  have hstep : ∃ t, s.step .lookUp = some t ∧ t.handed = s.handed := by
    simp only [step, hcurrent, hreaches]
    exact ⟨_, rfl, rfl⟩
  obtain ⟨t, hstep, hsame⟩ := hstep
  have hhanded := h s hs t hstep _ hcurrent rfl
  rw [hsame] at hhanded
  exact absurd hhanded.symm (List.cons_ne_self _ _)

end Handing

end Tirtc
