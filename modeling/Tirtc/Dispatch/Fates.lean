import Tirtc.Dispatch.Delivery

/-!
# Fates: what becomes of the events posted to a dispatcher

A ledger beside a dispatcher that says of every post, by its number, what has become of it: it was
refused, it is queued, a later post superseded or evicted it, `discard` dropped it, or a pool
thread took it out of the queue and called the handler.

* `Fate`: the fates; `Fate.Over`: those that no step changes; `Fate.Taken`, `Fate.Current`: those of
  an event that a pool thread has taken, and is in the handler with.
* `Ledger` with `post`, `discard` and `set`: the bookkeeping of each section.
* `Ledger.Fits`: the queue holds exactly the events whose fate is `queued`; one lemma a section.
* `Ledger.Later`: the fate of a post moves forward only; one lemma a section.
-/

set_option autoImplicit false

namespace Tirtc

open Dispatcher Delivery

/-- What has become of a post. `popped` is between the first section of `_drain_one` and the look-up
of the weak handler; `called` and `finished` say whether that found a handler. -/
inductive Fate
  | unposted | refused | queued | superseded | evicted | discarded | popped
  | called (handed : Bool)
  | finished (handed : Bool)
  deriving DecidableEq, Repr

namespace Fate

/-- Nothing more becomes of it. -/
def Over : Fate → Prop
  | .refused | .superseded | .evicted | .discarded | .finished _ => True
  | _ => False

/-- A pool thread is inside `_drain_one` with it. -/
def Current : Fate → Prop
  | .popped | .called _ => True
  | _ => False

/-- A pool thread has taken it out of the queue. -/
def Taken : Fate → Prop
  | .popped | .called _ | .finished _ => True
  | _ => False

theorem Current.taken {f : Fate} (h : f.Current) : f.Taken := by
  cases f with
  | popped | called _ => trivial
  | _ => exact h.elim

end Fate

/-- The posts of one dispatcher so far, and what has become of each. -/
structure Ledger where
  posts : ℕ := 0
  fate : ℕ → Fate := fun _ => .unposted

namespace Ledger

variable {V : Type} (l : Ledger)

/-- Post `n` has the fate `f` now. -/
def set (n : ℕ) (f : Fate) : Ledger := { l with fate := Function.update l.fate n f }

/-- Those of the queued posts that a section has removed from the queue get the fate `f`. -/
def lose (events : List (Event (Tagged V))) (f : Fate) : Ledger :=
  { l with fate := fun n =>
      if l.fate n = .queued && !events.any (fun e => e.tag == n) then f else l.fate n }

/-- The event that the next post brings. -/
def next (kind : EventKind) (values : V) : Event (Tagged V) := nativeEvent kind ⟨l.posts, values⟩

/-- One more post. -/
def record (accepted : Bool) : Ledger where
  posts := l.posts + 1
  fate := Function.update l.fate l.posts (if accepted then .queued else .refused)

/-- The fate of an event that a post takes out of the queue. -/
def removal (d : Dispatcher (Tagged V)) (event : Event (Tagged V)) (latest : Bool) : Fate :=
  if d.coalesces event latest then .superseded else .evicted

/-- A call of the sink: what it takes out of the queue it has overwritten, or evicted. -/
def post [FrameValues V] (d : Dispatcher (Tagged V)) (kind : EventKind) (values : V) : Ledger :=
  let event := l.next kind values
  let r := d.nativeSink kind event.values
  (l.lose r.dispatcher.events (removal d event kind.isLatest)).record r.accepted

/-- `discard` -/
def discard (d : Dispatcher (Tagged V)) : Ledger := l.lose d.discard.events .discarded

/-! ## The ledger fits the dispatcher -/

/-- **The ledger fits the queue**: every post below `posts` and no other has a fate, and the queue
holds the events whose fate is `queued`, each once. -/
structure Fits (events : List (Event (Tagged V))) : Prop where
  numbered : Numbered l.posts events
  unposted : ∀ n, l.fate n = .unposted ↔ l.posts ≤ n
  queued : ∀ n, l.fate n = .queued ↔ n ∈ events.map Event.tag

variable {l}

/-- The fate of the next post is still open, and no queued event has its number. -/
theorem Fits.next_fresh {events : List (Event (Tagged V))} (h : l.Fits events) :
    l.fate l.posts = .unposted ∧ l.posts ∉ events.map Event.tag := by
  have hfresh := (h.unposted l.posts).mpr (Nat.le_refl _)
  refine ⟨hfresh, fun hmem => ?_⟩
  have hqueued := (h.queued l.posts).mpr hmem
  rw [hfresh] at hqueued
  cases hqueued

theorem any_tag {events : List (Event (Tagged V))} {n : ℕ} :
    events.any (fun e => e.tag == n) = true ↔ n ∈ events.map Event.tag := by
  simp [List.any_eq_true, List.mem_map]

/-- What a section removes from the queue gets the fate `f`, and the rest is as before. -/
theorem lose_fate (events : List (Event (Tagged V))) (f : Fate) (n : ℕ) :
    (l.lose events f).fate n = l.fate n ∨
      (l.fate n = .queued ∧ n ∉ events.map Event.tag ∧ (l.lose events f).fate n = f) := by
  unfold lose
  by_cases h : (l.fate n = .queued && !events.any fun e => e.tag == n) = true
  · have hn : l.fate n = .queued ∧ n ∉ events.map Event.tag := by
      simpa [← any_tag] using h
    exact .inr ⟨hn.1, hn.2, if_pos h⟩
  · exact .inl (if_neg h)

/-- A section that only removes events from the queue. -/
theorem Fits.lose {events rest : List (Event (Tagged V))} (h : l.Fits events)
    (hsub : rest.Sublist events) {f : Fate} (hf : f ≠ .queued ∧ f ≠ .unposted) :
    (l.lose rest f).Fits rest where
  numbered := h.numbered.sublist hsub
  unposted n := by
    rw [← show l.posts = (l.lose rest f).posts from rfl, ← h.unposted n]
    rcases lose_fate (l := l) rest f n with heq | ⟨hqueued, -, heq⟩
    · rw [heq]
    · simp [heq, hqueued, hf.2]
  queued n := by
    have hmem : n ∈ rest.map Event.tag → n ∈ events.map Event.tag := fun hn =>
      (hsub.map Event.tag).subset hn
    rcases lose_fate (l := l) rest f n with heq | ⟨-, hgone, heq⟩
    · rw [heq, h.queued n]
      refine ⟨fun hn => ?_, hmem⟩
      by_contra hgone
      have hlost : (l.lose rest f).fate n = f := by
        have hany : rest.any (fun e => e.tag == n) = false :=
          Bool.not_eq_true _ ▸ mt any_tag.mp hgone
        have hcond : (l.fate n = .queued && !rest.any fun e => e.tag == n) = true := by
          rw [hany, (h.queued n).mpr hn]
          rfl
        exact if_pos hcond
      have hqueued := (h.queued n).mpr hn
      exact hf.1 (hlost.symm.trans (heq.trans hqueued))
    · simp [heq, hf.1, hgone]

/-- The next post leaves no event in the queue. -/
theorem Fits.refuse {events : List (Event (Tagged V))} (h : l.Fits events) :
    (l.record false).Fits events where
  numbered := h.numbered.succ
  unposted n := by
    have hn := h.unposted n
    by_cases heq : n = l.posts
    · simp [record, heq]
    · simp only [record, Function.update_of_ne heq, hn]
      omega
  queued n := by
    by_cases heq : n = l.posts
    · simpa [record, heq] using h.next_fresh.2
    · simpa [record, heq] using h.queued n

/-- The next post leaves its event somewhere in the queue. -/
theorem Fits.accept {xs ys : List (Event (Tagged V))} {event : Event (Tagged V)}
    (h : l.Fits (xs ++ ys)) (htag : event.tag = l.posts) (hf : event.frame = event.kind.isFrame)
    (ht : event.terminal = event.kind.isTerminal) :
    (l.record true).Fits (xs ++ event :: ys) where
  numbered := h.numbered.insert htag hf ht
  unposted n := by
    have hn := h.unposted n
    by_cases heq : n = l.posts
    · simp [record, heq]
    · simp only [record, Function.update_of_ne heq, hn]
      omega
  queued n := by
    by_cases heq : n = l.posts
    · simp [record, heq, htag]
    · have hne : ¬ n = event.tag := fun hn => heq (hn.trans htag)
      simpa [record, heq, hne] using h.queued n

/-- The number of the next post is in no queue yet, so it is not lost with what is. -/
theorem Fits.lose_insert {events xs ys : List (Event (Tagged V))} {event : Event (Tagged V)}
    (h : l.Fits events) (htag : event.tag = l.posts) (f : Fate) :
    l.lose (xs ++ event :: ys) f = l.lose (xs ++ ys) f := by
  have hfate : ∀ n, (l.lose (xs ++ event :: ys) f).fate n = (l.lose (xs ++ ys) f).fate n := by
    intro n
    by_cases heq : n = l.posts
    · rw [heq]
      simp [Ledger.lose, h.next_fresh.1]
    · have hne : ¬ event.tag = n := fun hn => heq (hn.symm.trans htag)
      simp [Ledger.lose, hne]
  exact congrArg (Ledger.mk l.posts) (funext hfate)

/-- A post that takes some events out of the queue and leaves its own there. -/
theorem Fits.replace {events xs ys : List (Event (Tagged V))} (h : l.Fits events)
    (hsub : (xs ++ ys).Sublist events) (event : Event (Tagged V)) (htag : event.tag = l.posts)
    (hf : event.frame = event.kind.isFrame) (ht : event.terminal = event.kind.isTerminal)
    {f : Fate} (hfate : f ≠ .queued ∧ f ≠ .unposted) :
    ((l.lose (xs ++ event :: ys) f).record true).Fits (xs ++ event :: ys) := by
  rw [h.lose_insert htag]
  exact (h.lose hsub hfate).accept htag hf ht

theorem removal_ne (d : Dispatcher (Tagged V)) (event : Event (Tagged V)) (latest : Bool) :
    (removal d event latest ≠ .queued ∧ removal d event latest ≠ .unposted) ∧
      ¬ (removal d event latest).Taken := by
  unfold removal
  split <;> simp [Fate.Taken]

/-- **`post`** -/
theorem Fits.post [FrameValues V] {d : Dispatcher (Tagged V)} (h : l.Fits d.events)
    (kind : EventKind) (values : V) :
    (l.post d kind values).Fits
      (d.nativeSink kind (l.next kind values).values).dispatcher.events := by
  have hposted : Posted d (l.next kind values) kind.isLatest
      (d.nativeSink kind (l.next kind values).values) := post_spec d _ kind.isLatest
  have hlost := (removal_ne d (l.next kind values) kind.isLatest).1
  have hkept := h.lose (List.Sublist.refl d.events) hlost
  -- an event as `enqueue` appends it
  have happend : ∀ (d' : Dispatcher (Tagged V)), d'.events.Sublist d.events →
      ((l.lose (d'.events ++ [d'.marked (l.next kind values)])
        (removal d (l.next kind values) kind.isLatest)).record true).Fits
        (d'.events ++ [d'.marked (l.next kind values)]) := fun d' hsub =>
    h.replace (by simpa using hsub) _ (marked_tag _ _) rfl rfl hlost
  unfold Ledger.post
  dsimp only
  generalize d.nativeSink kind (l.next kind values).values = r at hposted
  cases hposted with
  | closed => exact hkept.refuse
  | coalesced xs old ys _ hsplit =>
      have hsub : (xs ++ ys).Sublist d.events := by
        rw [hsplit]
        exact List.Sublist.append_left (List.sublist_cons_self old ys) xs
      exact h.replace hsub (l.next kind values) rfl rfl rfl hlost
  | frameRefused => exact hkept.refuse
  | refused => exact hkept.refuse
  | evicted xs victim ys _ _ _ hsplit =>
      have hsub : (xs ++ ys).Sublist d.events := by
        rw [hsplit]
        exact List.Sublist.append_left (List.sublist_cons_self victim ys) xs
      exact happend (d.without victim (xs ++ ys)) hsub
  | beyond => exact happend d (List.Sublist.refl _)
  | appended => exact happend d (List.Sublist.refl _)

/-- **`discard`** -/
theorem Fits.discard {d : Dispatcher (Tagged V)} (h : l.Fits d.events) :
    (l.discard d).Fits d.discard.events :=
  h.lose (List.filter_sublist) (by simp)

/-- **The first section of `_drain_one`** takes the first event out of the queue. -/
theorem Fits.pop {event : Event (Tagged V)} {events : List (Event (Tagged V))}
    (h : l.Fits (event :: events)) : (l.set event.tag .popped).Fits events where
  numbered := h.numbered.sublist (List.sublist_cons_self event events)
  unposted n := by
    by_cases heq : n = event.tag
    · have hlt := h.numbered.below event List.mem_cons_self
      simp only [set, heq, Function.update_self, reduceCtorEq, false_iff, Nat.not_le]
      exact hlt
    · simpa [set, heq] using h.unposted n
  queued n := by
    have hnodup : event.tag ∉ events.map Event.tag := (List.nodup_cons.mp h.numbered.nodup).1
    by_cases heq : n = event.tag
    · rw [heq]
      simpa [set] using hnodup
    · simpa [set, heq] using h.queued n

/-- **The rest of `_drain_one`** concerns an event that is not in the queue. -/
theorem Fits.set {events : List (Event (Tagged V))} (h : l.Fits events) {n : ℕ} {f : Fate}
    (hn : (l.fate n).Current) (hf : f ≠ .queued ∧ f ≠ .unposted) : (l.set n f).Fits events where
  numbered := h.numbered
  unposted m := by
    by_cases heq : m = n
    · subst heq
      have hposted : l.fate m ≠ .unposted := fun h => by simp [h, Fate.Current] at hn
      simpa [Ledger.set, hf.2] using mt (h.unposted m).mpr hposted
    · simpa [Ledger.set, heq] using h.unposted m
  queued m := by
    by_cases heq : m = n
    · subst heq
      have hgone : l.fate m ≠ .queued := fun h => by simp [h, Fate.Current] at hn
      simpa [Ledger.set, hf.1] using mt (h.queued m).mpr hgone
    · simpa [Ledger.set, heq] using h.queued m

/-! ## Fates move forward -/

/-- **`l'` is a later ledger**: no post is taken back, what is over stays so, and of what a pool
thread has taken only that thread decides. -/
structure Later (l l' : Ledger) : Prop where
  posts : l.posts ≤ l'.posts
  ended : ∀ n, (l.fate n).Over → l'.fate n = l.fate n
  taken : ∀ n, (l.fate n).Taken ∨ (l'.fate n).Taken → l'.fate n = l.fate n

theorem Later.refl (l : Ledger) : Later l l := ⟨Nat.le_refl _, fun _ _ => rfl, fun _ _ => rfl⟩

theorem lose_later (events : List (Event (Tagged V))) {f : Fate} (hf : ¬ f.Taken) :
    Later l (l.lose events f) where
  posts := Nat.le_refl _
  ended n hn := by
    rcases lose_fate (l := l) events f n with heq | ⟨hqueued, -, -⟩
    · exact heq
    · simp [hqueued, Fate.Over] at hn
  taken n hn := by
    rcases lose_fate (l := l) events f n with heq | ⟨hqueued, -, heq⟩
    · exact heq
    · rw [heq, hqueued] at hn
      exact absurd hn (not_or.mpr ⟨id, hf⟩)

theorem record_later {accepted : Bool} (hfresh : l.fate l.posts = .unposted) :
    Later l (l.record accepted) where
  posts := Nat.le_succ _
  ended n hn := by
    by_cases heq : n = l.posts
    · simp [heq, hfresh, Fate.Over] at hn
    · exact Function.update_of_ne heq _ _
  taken n hn := by
    by_cases heq : n = l.posts
    · cases accepted <;> simp [record, heq, hfresh, Fate.Taken] at hn
    · exact Function.update_of_ne heq _ _

theorem Later.trans {l₁ l₂ l₃ : Ledger} (h : Later l₁ l₂) (h' : Later l₂ l₃) : Later l₁ l₃ where
  posts := Nat.le_trans h.posts h'.posts
  ended n hn := by
    have heq := h.ended n hn
    exact (h'.ended n (heq ▸ hn)).trans heq
  taken n hn := by
    rcases hn with hn | hn
    · have heq := h.taken n (.inl hn)
      exact (h'.taken n (.inl (heq ▸ hn))).trans heq
    · have heq := h'.taken n (.inr hn)
      exact heq.trans (h.taken n (.inr (heq ▸ hn)))

/-- **`post`** -/
theorem Fits.post_later [FrameValues V] {d : Dispatcher (Tagged V)} (h : l.Fits d.events)
    (kind : EventKind) (values : V) : Later l (l.post d kind values) := by
  have hremoval := (removal_ne d (l.next kind values) kind.isLatest).2
  refine (lose_later _ hremoval).trans (record_later ?_)
  rcases lose_fate (l := l) _ (removal d (l.next kind values) kind.isLatest) l.posts with
    heq | ⟨hqueued, -, -⟩
  · exact heq.trans h.next_fresh.1
  · simp [h.next_fresh.1] at hqueued

/-- **`discard`** -/
theorem discard_later (d : Dispatcher (Tagged V)) : Later l (l.discard d) :=
  lose_later _ (by simp [Fate.Taken])

end Ledger

end Tirtc
