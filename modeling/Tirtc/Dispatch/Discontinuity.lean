import Tirtc.Dispatch.Delivery

/-!
# The discontinuity marks

A frame that is refused or evicted leaves a gap, and the next frame is marked for the decoder.
The mark is set when a frame is posted, so a frame that is queued behind an evicted one comes too
early for it.

* `MarksSound`: of the frames handed over, one that follows a gap is marked.
* `keepsMarks`: the post evicts no frame in front of a queued frame without a mark.
* `QueueSound`: the same for the frames still queued, by recursion along the queue, with the rules
  `QueueSound.mono`, `.append`, `.evict` for what a post does to it.
* `marks_sound`: `MarksSound` holds in every state of a run whose posts satisfy `keepsMarks`.
-/

set_option autoImplicit false

namespace Tirtc

open Dispatcher Transition

namespace Delivery

variable {V : Type} [FrameValues V]

/-- The frames in the queue. -/
def queuedFrames (s : Delivery V) : List (Event (Tagged V)) :=
  s.dispatcher.events.filter Event.frame

/-- The number of the last frame handed over. -/
def lastHanded (s : Delivery V) : Option ℕ := s.handedFrames.head?.map Event.tag

/-- A lost frame was posted after the frame `previous` (after nothing, for `none`). -/
def LostAfter (lost : List ℕ) (previous : Option ℕ) (x : ℕ) : Prop :=
  x ∈ lost ∧ ∀ p, previous = some p → p < x

/-- **Sound marks**: of the frames handed over, one that follows a gap is marked. -/
def MarksSound (s : Delivery V) : Prop :=
  ∀ later frame earlier, s.handedFrames = later ++ frame :: earlier →
    (∃ x, LostAfter s.lost (earlier.head?.map Event.tag) x ∧ x < frame.tag) →
    FrameValues.discontinuity frame.values = true

/-- No post evicts a frame in front of a queued frame that is not marked. -/
def keepsMarks (s : Delivery V) : DeliveryAction V → Bool
  | .post kind values =>
      match s.dispatcher.victim? (s.next kind values) kind.isLatest with
      | some victim =>
          !victim.frame ||
            s.queuedFrames.tail.head?.all fun frame => FrameValues.discontinuity frame.values
      | none => true
  | _ => true

/-- **Sound marks of the frames still queued**, behind the frame `previous`: the frames stand in
the order of their posts, each frame after a gap is marked, and after a gap at the end the flag
waits for the next frame. -/
def QueueSound (lost : List ℕ) (flag : Bool) : Option ℕ → List (Event (Tagged V)) → Prop
  | previous, [] => (∃ x, LostAfter lost previous x) → flag = true
  | previous, frame :: frames =>
      (∀ p, previous = some p → p < frame.tag) ∧
      ((∃ x, LostAfter lost previous x ∧ x < frame.tag) →
        FrameValues.discontinuity frame.values = true) ∧
      QueueSound lost flag (some frame.tag) frames

/-- More losses at the end are announced by the flag. -/
theorem QueueSound.mono {lost lost' : List ℕ} {flag flag' : Bool} {previous : Option ℕ}
    {frames : List (Event (Tagged V))} (h : QueueSound lost flag previous frames)
    (hflag : flag = true → flag' = true)
    (hlost : ∀ x, LostAfter lost' previous x →
      x ∈ lost ∨ (flag' = true ∧ ∀ f ∈ frames, f.tag ≤ x)) :
    QueueSound lost' flag' previous frames := by
  induction frames generalizing previous with
  | nil =>
      rintro ⟨x, hx⟩
      rcases hlost x hx with hmem | ⟨hf, -⟩
      · exact hflag (h ⟨x, hmem, hx.2⟩)
      · exact hf
  | cons frame frames ih =>
      obtain ⟨hbefore, hmark, hrest⟩ := h
      refine ⟨hbefore, ?_, ih hrest ?_⟩
      · rintro ⟨x, hx, hlt⟩
        rcases hlost x hx with hmem | ⟨-, hle⟩
        · exact hmark ⟨x, ⟨hmem, hx.2⟩, hlt⟩
        · exact absurd (hle frame (by simp)) (Nat.not_le.mpr hlt)
      · -- what was lost after `frame` was lost after `previous`
        intro x hx
        have hx' : LostAfter lost' previous x :=
          ⟨hx.1, fun p hp => Nat.lt_trans (hbefore p hp) (hx.2 _ rfl)⟩
        exact (hlost x hx').imp_right fun ⟨hf, hle⟩ =>
          ⟨hf, fun f hmem => hle f (List.mem_cons_of_mem _ hmem)⟩

/-- The frames behind `previous` were posted after it. -/
theorem QueueSound.after {lost : List ℕ} {flag : Bool} {previous : Option ℕ} {p : ℕ}
    {frames : List (Event (Tagged V))} (h : QueueSound lost flag previous frames)
    (hp : previous = some p) : ∀ f ∈ frames, p < f.tag := by
  induction frames generalizing previous p with
  | nil => simp
  | cons frame frames ih =>
      have hlt := h.1 p hp
      intro f hf
      rcases List.mem_cons.mp hf with rfl | hf
      · exact hlt
      · exact Nat.lt_trans hlt (ih h.2.2 rfl f hf)

/-- A new frame at the end takes the mark that the flag asks for. -/
theorem QueueSound.append {lost : List ℕ} {flag : Bool} (flag' : Bool) {previous : Option ℕ}
    {frames : List (Event (Tagged V))} {event : Event (Tagged V)}
    (h : QueueSound lost flag previous frames)
    (hmark : flag = true → FrameValues.discontinuity event.values = true)
    (hprevious : ∀ p, previous = some p → p < event.tag)
    (hframes : ∀ f ∈ frames, f.tag < event.tag) (hlost : ∀ x ∈ lost, x < event.tag) :
    QueueSound lost flag' previous (frames ++ [event]) := by
  induction frames generalizing previous with
  | nil =>
      refine ⟨hprevious, fun ⟨x, hx, _⟩ => hmark (h ⟨x, hx⟩), fun ⟨x, hx⟩ => ?_⟩
      exact absurd (hx.2 _ rfl) (Nat.not_lt.mpr (Nat.le_of_lt (hlost x hx.1)))
  | cons frame frames ih =>
      refine ⟨h.1, h.2.1, ih h.2.2 ?_ fun f hf => hframes f (List.mem_cons_of_mem _ hf)⟩
      rintro p ⟨⟩
      exact hframes frame (by simp)

/-- The first frame may be lost when the next one is marked. -/
theorem QueueSound.evict {lost lost' : List ℕ} {flag : Bool} {previous : Option ℕ}
    {frame : Event (Tagged V)} {frames : List (Event (Tagged V))}
    (h : QueueSound lost flag previous (frame :: frames))
    (hnext : frames.head?.all fun f => FrameValues.discontinuity f.values)
    (hlost : ∀ x ∈ lost', x ∈ lost ∨ x = frame.tag) :
    QueueSound lost' true previous frames := by
  obtain ⟨hbefore, -, hrest⟩ := h
  cases frames with
  | nil => exact fun _ => rfl
  | cons next frames =>
      have hlt : frame.tag < next.tag := hrest.1 _ rfl
      refine ⟨fun p hp => Nat.lt_trans (hbefore p hp) hlt, fun _ => by simpa using hnext, ?_⟩
      refine hrest.2.2.mono (fun _ => rfl) ?_
      intro x hx
      rcases hlost x hx.1 with hmem | rfl
      · exact .inl hmem
      · exact absurd (hx.2 _ rfl) (Nat.not_lt.mpr (Nat.le_of_lt hlt))

/-- **The invariant behind `MarksSound`.** -/
structure MarksKept (s : Delivery V) : Prop where
  tidy : Tidy s
  lost : ∀ x ∈ s.lost, x < s.posts
  handed : ∀ f ∈ s.handedFrames, f.tag < s.posts ∧ ∀ e ∈ s.queuedFrames, f.tag < e.tag
  sound : MarksSound s
  queue : QueueSound s.lost s.dispatcher.droppedFrame s.lastHanded s.queuedFrames

omit [FrameValues V] in
/-- A lost frame was queued or posted, and its number is not in the queue afterwards. -/
theorem mem_lostFrames {before after : List (Event (Tagged V))} {event : Event (Tagged V)}
    {x : ℕ} (h : x ∈ lostFrames before event after) :
    (∃ e ∈ before, e.frame = true ∧ e.tag = x ∧ ∀ f ∈ after, f.tag ≠ x) ∨
    (event.frame = true ∧ event.tag = x ∧ ∀ f ∈ after, f.tag ≠ x) := by
  simp only [lostFrames, List.mem_map, List.mem_filter, List.mem_append, List.mem_singleton,
    Bool.and_eq_true, Bool.not_eq_true', List.any_eq_false, beq_iff_eq] at h
  obtain ⟨e, ⟨he | rfl, hframe, hgone⟩, rfl⟩ := h
  · exact .inl ⟨e, he, hframe, rfl, hgone⟩
  · exact .inr ⟨hframe, rfl, hgone⟩

theorem post_lost (s : Delivery V) (kind : EventKind) (values : V) :
    (s.post kind values).lost = s.lost ++ lostFrames s.dispatcher.events (s.next kind values)
      (s.post kind values).dispatcher.events := rfl

/-- What a post has to show: the frames in the queue stay behind those handed over, and what is
lost was posted after those. -/
theorem marksKept_post_of {s : Delivery V} (hs : MarksKept s) {kind : EventKind} {values : V}
    (hhanded : ∀ f ∈ s.handedFrames, ∀ e ∈ (s.post kind values).queuedFrames, f.tag < e.tag)
    (hlost : ∀ x ∈ (s.post kind values).lost,
      x ∈ s.lost ∨ (x ≤ s.posts ∧ ∀ f ∈ s.handedFrames, f.tag ≤ x))
    (hqueue : QueueSound (s.post kind values).lost (s.post kind values).dispatcher.droppedFrame
      s.lastHanded (s.post kind values).queuedFrames) :
    MarksKept (s.post kind values) where
  tidy := tidy_post hs.tidy kind values
  lost x hx := by
    rcases hlost x hx with h | ⟨h, -⟩
    · exact Nat.lt_succ_of_lt (hs.lost x h)
    · exact Nat.lt_succ_of_le h
  handed f hf := ⟨Nat.lt_succ_of_lt (hs.handed f hf).1, hhanded f hf⟩
  sound := by
    rintro later frame earlier hsplit ⟨x, hx, hlt⟩
    have hsplit : s.handedFrames = later ++ frame :: earlier := hsplit
    rcases hlost x hx.1 with h | ⟨-, h⟩
    · exact hs.sound later frame earlier hsplit ⟨x, ⟨h, hx.2⟩, hlt⟩
    · exact absurd (h frame (by simp [hsplit])) (Nat.not_le.mpr hlt)
  queue := hqueue

/-- A post that leaves the frames of the queue alone, and loses at most its own frame. -/
theorem marksKept_post_same {s : Delivery V} (hs : MarksKept s) {kind : EventKind} {values : V}
    (hframes : (s.post kind values).queuedFrames = s.queuedFrames)
    (hflag : s.dispatcher.droppedFrame = true →
      (s.post kind values).dispatcher.droppedFrame = true)
    (hlost : ∀ x ∈ lostFrames s.dispatcher.events (s.next kind values)
        (s.post kind values).dispatcher.events,
      (s.post kind values).dispatcher.droppedFrame = true ∧ x = s.posts) :
    MarksKept (s.post kind values) := by
  have hmem : ∀ x ∈ (s.post kind values).lost, x ∈ s.lost ∨
      ((s.post kind values).dispatcher.droppedFrame = true ∧ x = s.posts) := fun x hx =>
    (List.mem_append.mp hx).imp_right (hlost x)
  refine marksKept_post_of hs ?_ ?_ ?_
  · rw [hframes]
    exact fun f hf => (hs.handed f hf).2
  · intro x hx
    refine (hmem x hx).imp_right ?_
    rintro ⟨-, rfl⟩
    exact ⟨Nat.le_refl _, fun f hf => Nat.le_of_lt (hs.handed f hf).1⟩
  · rw [hframes]
    refine hs.queue.mono hflag fun x hx => (hmem x hx.1).imp_right ?_
    rintro ⟨hf, rfl⟩
    refine ⟨hf, fun f hmem => Nat.le_of_lt (hs.tidy.numbered.below f ?_)⟩
    exact (List.mem_filter.mp hmem).1

/-- An accepted frame goes to the end of the queue, with the mark of the flag. -/
theorem marksKept_post_frame {s : Delivery V} (hs : MarksKept s) {kind : EventKind} {values : V}
    (hframe : kind.isFrame = true)
    (hev : (s.post kind values).dispatcher =
      (s.dispatcher.enqueue (s.next kind values)).dispatcher) :
    MarksKept (s.post kind values) := by
  have hevents : (s.post kind values).dispatcher.events =
      s.dispatcher.events ++ [s.dispatcher.marked (s.next kind values)] := by rw [hev]; rfl
  have htag : (s.dispatcher.marked (s.next kind values)).tag = s.posts := marked_tag _ _
  have hfr : (s.next kind values).frame = true := hframe
  have hqueued : (s.post kind values).queuedFrames =
      s.queuedFrames ++ [s.dispatcher.marked (s.next kind values)] := by
    simp [queuedFrames, hevents, hfr]
  have hlost : (s.post kind values).lost ⊆ s.lost := by
    intro x hx
    rw [post_lost, hevents] at hx
    rcases List.mem_append.mp hx with hx | hx
    · exact hx
    · rcases mem_lostFrames hx with ⟨e, he, -, rfl, hgone⟩ | ⟨-, rfl, hgone⟩
      · exact absurd rfl (hgone e (List.mem_append_left _ he))
      · exact absurd htag (hgone _ (by simp))
  refine marksKept_post_of hs ?_ (fun x hx => .inl (hlost hx)) ?_
  · rw [hqueued]
    intro f hf e he
    rcases List.mem_append.mp he with he | he
    · exact (hs.handed f hf).2 e he
    · rw [List.mem_singleton.mp he, htag]
      exact (hs.handed f hf).1
  · rw [hqueued]
    suffices happend : QueueSound s.lost (s.post kind values).dispatcher.droppedFrame
        s.lastHanded (s.queuedFrames ++ [s.dispatcher.marked (s.next kind values)]) from
      happend.mono id fun x hx => .inl (hlost hx.1)
    refine hs.queue.append _ ?_ ?_ ?_ ?_
    · intro hflag
      have hvalues : (s.dispatcher.marked (s.next kind values)).values =
          FrameValues.markDiscontinuity (s.next kind values).values := by
        simp [marked, hflag, hfr]
      rw [hvalues]
      exact FrameValues.discontinuity_mark _
    · intro p hp
      obtain ⟨f, hf, rfl⟩ := Option.map_eq_some_iff.mp hp
      rw [htag]
      exact (hs.handed f (List.mem_of_mem_head? hf)).1
    · intro f hf
      rw [htag]
      exact hs.tidy.numbered.below f (List.mem_filter.mp hf).1
    · intro x hx
      rw [htag]
      exact hs.lost x hx

/-- An event that is no frame goes to the end of a queue that has kept its frames. -/
theorem marksKept_post_control {s : Delivery V} (hs : MarksKept s) {kind : EventKind} {values : V}
    (d : Dispatcher (Tagged V)) (hframe : (s.next kind values).frame = false)
    (hframes : d.events.filter Event.frame = s.queuedFrames)
    (hflag : d.droppedFrame = s.dispatcher.droppedFrame)
    (hev : (s.post kind values).dispatcher = (d.enqueue (s.next kind values)).dispatcher) :
    MarksKept (s.post kind values) := by
  refine marksKept_post_same hs ?_ ?_ ?_
  · simp [queuedFrames, hev, hframe, hframes]
  · rw [hev, ← hflag]
    simp [enqueue, hframe]
  · intro x hx
    rw [hev, enqueue_events] at hx
    rcases mem_lostFrames hx with ⟨e, he, hef, rfl, hgone⟩ | ⟨hf, -⟩
    · have hmem : e ∈ s.queuedFrames := List.mem_filter.mpr ⟨he, hef⟩
      rw [← hframes] at hmem
      exact absurd rfl (hgone e (List.mem_append_left _ (List.mem_filter.mp hmem).1))
    · simp [hframe] at hf

/-- A queued frame may be evicted when the next one is marked; the event that takes its place is
no frame. -/
theorem marksKept_post_evict {s : Delivery V} (hs : MarksKept s) {kind : EventKind} {values : V}
    {xs ys : List (Event (Tagged V))} {victim : Event (Tagged V)}
    (hsplit : s.dispatcher.events = xs ++ victim :: ys)
    (hxs : ∀ current ∈ xs, current.terminal = true) (hvictim : victim.frame = true)
    (hframe : (s.next kind values).frame = false)
    (hnext : s.queuedFrames.tail.head?.all fun f => FrameValues.discontinuity f.values)
    (hev : (s.post kind values).dispatcher =
      ((s.dispatcher.without victim (xs ++ ys)).enqueue (s.next kind values)).dispatcher) :
    MarksKept (s.post kind values) := by
  have hnum := hs.tidy.numbered
  -- the events in front of the victim are terminal, so none of them is a frame
  have hno : xs.filter Event.frame = [] := by
    apply List.filter_eq_nil_iff.mpr
    intro e he hf
    have hmem : e ∈ s.dispatcher.events := by simp [hsplit, he]
    have hterminal := (hnum.terminal e hmem).symm.trans (hxs e he)
    have hfr := (hnum.frame e hmem).symm.trans hf
    cases hk : e.kind <;> simp [hk, EventKind.isTerminal, EventKind.isFrame] at hterminal hfr
  have hqueue : s.queuedFrames = victim :: ys.filter Event.frame := by
    simp [queuedFrames, hsplit, hno, hvictim]
  have hqueue' : (s.post kind values).queuedFrames = ys.filter Event.frame := by
    simp [queuedFrames, hev, without, hno, hframe]
  have hflag : (s.post kind values).dispatcher.droppedFrame = true := by
    simp [hev, enqueue, without, hvictim, hframe]
  have hlost : ∀ x ∈ (s.post kind values).lost, x ∈ s.lost ∨ x = victim.tag := by
    intro x hx
    rw [post_lost, hev, enqueue_events] at hx
    rcases List.mem_append.mp hx with hx | hx
    · exact .inl hx
    · rcases mem_lostFrames hx with ⟨e, he, -, rfl, hgone⟩ | ⟨hf, -⟩
      · rw [hsplit] at he
        simp only [List.mem_append, List.mem_cons] at he
        rcases he with he | rfl | he
        · exact absurd rfl (hgone e (by simp [without, he]))
        · exact .inr rfl
        · exact absurd rfl (hgone e (by simp [without, he]))
      · simp [hframe] at hf
  have hmem : victim ∈ s.queuedFrames := by simp [hqueue]
  refine marksKept_post_of hs ?_ ?_ ?_
  · rw [hqueue']
    exact fun f hf e he => (hs.handed f hf).2 e (hqueue ▸ List.mem_cons_of_mem _ he)
  · intro x hx
    refine (hlost x hx).imp_right ?_
    rintro rfl
    refine ⟨Nat.le_of_lt (hnum.below victim (by simp [hsplit])), fun f hf => ?_⟩
    exact Nat.le_of_lt ((hs.handed f hf).2 victim hmem)
  · rw [hqueue', hflag]
    have hold := hs.queue
    rw [hqueue] at hold hnext
    exact hold.evict hnext hlost

/-- **A post keeps the invariant** when it evicts no frame in front of an unmarked one. -/
theorem marksKept_post {s : Delivery V} (hs : MarksKept s) {kind : EventKind} {values : V}
    (hok : s.keepsMarks (.post kind values) = true) : MarksKept (s.post kind values) := by
  have hopen := hs.tidy.open
  have hposted := posted s kind values
  have hev : (s.post kind values).dispatcher =
    (s.dispatcher.nativeSink kind (s.next kind values).values).dispatcher := rfl
  generalize s.dispatcher.nativeSink kind (s.next kind values).values = r at hposted hev
  cases hposted with
  | closed h => simp [hopen] at h
  | coalesced xs old ys hco hsplit hold hof =>
      have hframe : (s.next kind values).frame = false := by
        have hlatest : kind.isLatest = true := by
          simp only [coalesces, Bool.and_eq_true] at hco
          exact hco.1
        show kind.isFrame = false
        cases hk : kind <;> simp [hk, EventKind.isLatest, EventKind.isFrame] at hlatest ⊢
      refine marksKept_post_same hs ?_ (by rw [hev]; exact id) ?_
      · simp [queuedFrames, hev, hsplit, hof, hframe]
      · intro x hx
        rw [hev] at hx
        rcases mem_lostFrames hx with ⟨e, he, hef, rfl, hgone⟩ | ⟨hf, -⟩
        · have hne : e ≠ old := by
            rintro rfl
            simp [hof] at hef
          rw [hsplit] at he
          simp only [List.mem_append, List.mem_cons, hne, false_or] at he
          refine absurd rfl (hgone e ?_)
          simp only [List.mem_append, List.mem_cons]
          exact he.imp_right .inr
        · simp [hframe] at hf
  | frameRefused hf =>
      refine marksKept_post_same hs (by simp [queuedFrames, hev, dropFrame])
        (fun _ => by rw [hev]; rfl) fun x hx => ⟨by rw [hev]; rfl, ?_⟩
      rw [hev] at hx
      rcases mem_lostFrames hx with ⟨e, he, -, rfl, hgone⟩ | ⟨-, rfl, -⟩
      · exact absurd rfl (hgone e he)
      · rfl
  | refused _ hf _ _ =>
      refine marksKept_post_same hs (by simp [queuedFrames, hev]) (by rw [hev]; exact id)
        ?_
      intro x hx
      rw [hev] at hx
      rcases mem_lostFrames hx with ⟨e, he, -, rfl, hgone⟩ | ⟨hf', -⟩
      · exact absurd rfl (hgone e he)
      · simp [hf] at hf'
  | beyond _ hf _ _ _ => exact marksKept_post_control hs _ hf rfl rfl hev
  | appended _ _ =>
      cases hf : kind.isFrame with
      | true => exact marksKept_post_frame hs hf hev
      | false => exact marksKept_post_control hs _ hf rfl rfl hev
  | evicted xs victim ys hnot hf hfull hsplit hxs hvt =>
      have hvictim := victim?_eq_some hopen hnot hf hfull hsplit hxs hvt
      simp only [keepsMarks, hvictim, Bool.or_eq_true, Bool.not_eq_true'] at hok
      cases hvf : victim.frame with
      | true =>
          have hok' := hok.resolve_left (by simp [hvf])
          exact marksKept_post_evict hs hsplit hxs hvf hf hok' hev
      | false =>
          refine marksKept_post_control hs _ hf ?_ (by simp [without, hvf]) hev
          simp [without, queuedFrames, hsplit, hvf]

omit [FrameValues V] in
/-- The frames of a queue whose first event is handed over. -/
theorem queuedFrames_cons {s : Delivery V} {event : Event (Tagged V)}
    {events : List (Event (Tagged V))} (hev : s.dispatcher.events = event :: events) :
    s.queuedFrames =
      if event.frame then event :: events.filter Event.frame else events.filter Event.frame := by
  simp only [queuedFrames, hev, List.filter_cons]

/-- **Handing over the next event keeps the invariant**: a frame after a gap was marked while it
was queued. -/
theorem marksKept_hand {s : Delivery V} (hs : MarksKept s) {event : Event (Tagged V)}
    {events : List (Event (Tagged V))} {d : Dispatcher (Tagged V)}
    (hev : s.dispatcher.events = event :: events) (hd : d.events = events)
    (hopen : d.closed = s.dispatcher.closed) (hflag : d.droppedFrame = s.dispatcher.droppedFrame) :
    MarksKept { s.hand event with dispatcher := d } := by
  have htidy : Tidy { s.hand event with dispatcher := d } := tidy_hand hs.tidy hev hd hopen
  have hframes := queuedFrames_cons hev
  have hframes' : ({ s.hand event with dispatcher := d } : Delivery V).queuedFrames =
      events.filter Event.frame := by rw [← hd]; rfl
  have hqueue := hs.queue
  have hlost : (s.hand event).lost = s.lost := rfl
  cases hf : event.frame with
  | false =>
      rw [hf, if_neg (by simp)] at hframes
      have hhanded : (s.hand event).handedFrames = s.handedFrames := by simp [hand, hf]
      refine ⟨htidy, hs.lost, ?_, ?_, ?_⟩
      · rw [hframes', ← hframes]
        exact hhanded ▸ hs.handed
      · intro later frame earlier hsplit
        exact hs.sound later frame earlier (hhanded ▸ hsplit)
      · rw [hframes', ← hframes]
        simpa [lastHanded, hhanded, hflag, hlost] using hqueue
  | true =>
      rw [hf, if_pos rfl] at hframes
      have hhanded : (s.hand event).handedFrames = event :: s.handedFrames := by simp [hand, hf]
      rw [hframes] at hqueue
      obtain ⟨-, hmark, hrest⟩ := hqueue
      have hmem : event ∈ s.queuedFrames := by simp [hframes]
      refine ⟨htidy, hs.lost, ?_, ?_, ?_⟩
      · rw [hframes']
        intro f hmemf
        rcases List.mem_cons.mp (hhanded ▸ hmemf) with rfl | hmemf
        · exact ⟨hs.tidy.numbered.below f (by simp [hev]), hrest.after rfl⟩
        · obtain ⟨hlt, hbefore⟩ := hs.handed f hmemf
          exact ⟨hlt, fun e he => hbefore e (hframes ▸ List.mem_cons_of_mem _ he)⟩
      · rintro later frame earlier hsplit hgap
        have hsplit : event :: s.handedFrames = later ++ frame :: earlier := hhanded ▸ hsplit
        cases later with
        | nil =>
            obtain ⟨rfl, rfl⟩ := List.cons.inj hsplit
            exact hmark hgap
        | cons _ later => exact hs.sound later frame earlier (List.cons.inj hsplit).2 hgap
      · rw [hframes']
        simpa [lastHanded, hhanded, hflag, hlost] using hrest

/-- **The step lemma.** -/
theorem marksKept_step {s t : Delivery V} {a : DeliveryAction V} (hs : MarksKept s)
    (hok : s.keepsMarks a = true) (h : s.step a = some t) : MarksKept t := by
  rcases step_cases h with ⟨kind, values, rfl, rfl⟩ | ⟨event, events, rfl, hev, rfl⟩ |
    ⟨-, executing, scheduled, rfl⟩
  · exact marksKept_post hs hok
  · exact marksKept_hand hs hev rfl rfl rfl
  · exact ⟨⟨hs.tidy.open, hs.tidy.numbered⟩, hs.lost, hs.handed, hs.sound, hs.queue⟩

/-- A fresh dispatcher. -/
theorem marksKept_start {s : Delivery V} (h : (machine V).start s) : MarksKept s := by
  obtain ⟨capacity, frameCapacity, rfl⟩ := h
  refine ⟨⟨rfl, .nil 0⟩, by simp, by simp, ?_, ?_⟩
  · intro later frame earlier hsplit
    simp at hsplit
  · simp [queuedFrames, init, QueueSound, LostAfter]

/-- **The marks are sound as long as no frame is evicted in front of an unmarked one.** In a run
whose posts all satisfy `keepsMarks`, a frame handed over after a gap, whether another frame was
handed over before the gap or not, is marked.
Source: `_dispatch.py`, `_Dispatcher.post` -/
theorem marks_sound {s : Delivery V}
    (hs : (machine V).ReachWith (fun s a => s.keepsMarks a = true) s) : MarksSound s :=
  (hs.invariant (I := MarksKept) (fun _ h => marksKept_start h)
    fun _ _ _ hr hok h => marksKept_step hr hok h).sound

/-- A video frame as the native callback reports it, shortened to its data and its last value. -/
def videoFrame (ref : ℕ) : DeliveryAction (List PyValue) :=
  .post .videoFrame [.object ref, .bool false]

/-- With room for one frame the second of three is refused, and the third one is marked. -/
theorem marks_sound_refused :
    ∃ s first third, (machine (List PyValue)).exec { dispatcher := .init 64 (some 1) }
        [videoFrame 0, videoFrame 1, .drainBegin, .drainEnd, videoFrame 2, .drainBegin] = some s ∧
      s.handedFrames = [third, first] ∧ s.lost = [1] ∧
      FrameValues.discontinuity third.values = true := by
  refine ⟨_, _, _, rfl, rfl, rfl, ?_⟩
  have hs : (machine (List PyValue)).ReachWith (fun s a => s.keepsMarks a = true) _ :=
    .exec (.start ⟨64, some 1, rfl⟩)
      (rfl : ((machine (List PyValue)).guarded keepsMarks).exec _
        [videoFrame 0, videoFrame 1, .drainBegin, .drainEnd, videoFrame 2, .drainBegin] = _)
  refine marks_sound hs [] _ _ rfl ⟨1, ⟨by decide, ?_⟩, by decide⟩
  rintro p ⟨⟩
  decide

/-- An audio output whose queue of 64 events is full of frames: a state event evicts the first
frame, and the second one is handed over without a mark. -/
theorem marks_unsound_evicted : ∃ s, (machine (List PyValue)).Reach s ∧ ¬ MarksSound s := by
  have hrun : ((machine (List PyValue)).exec { dispatcher := .init 64 (some 64) }
      (List.replicate 64 (.post .audioFrame [.object 0, .bool false]) ++
        [.post .state [.int 1], .drainBegin])).any
      (fun s => decide (s.lost = [0] ∧
        s.handedFrames = [⟨.audioFrame, ⟨1, [.object 0, .bool false]⟩, true, false⟩])) = true := by
    decide +kernel
  have hstart : (machine (List PyValue)).start { dispatcher := .init 64 (some 64) } :=
    ⟨64, some 64, rfl⟩
  obtain ⟨s, hs, hp⟩ := Machine.exists_reach hstart hrun
  obtain ⟨hlost, hhanded⟩ := of_decide_eq_true hp
  refine ⟨s, hs, fun hsound => ?_⟩
  have hmark := hsound [] _ [] hhanded ⟨0, ⟨by simp [hlost], by simp⟩, by simp⟩
  exact absurd hmark (by decide)

end Delivery

end Tirtc
