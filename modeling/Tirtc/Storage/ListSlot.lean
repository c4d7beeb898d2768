import Mathlib.Tactic.Common
import Tirtc.Storage.ListRequests

/-!
# The listing slot of one CloudStorage, and the close that waits for it

`_list` puts its request in `_requests` under the lock, and every way out of it takes the request
out again; `_close_cloud` waits for the requests it found, one after the other, before the native
close of the CloudStorage.

* `inFlight`: the request of a thread between the two; `waitsFor`: what a closing thread has still
  to wait for.
* `Same`, `cancelStep_same`: `cancel` changes neither the slot nor the close.
* `ListMoves`, `listStep_cases`; `CloseMoves`, `closeStep_cases`: what a step can do to the slot.
* `SlotOk`, `SlotAt`, `SlotKeeps`: the invariant, what a thread knows, what it leaves to the others.
* `slot_rely_guarantee`: all of it, for every interleaving and every result.
* `slot_returned`: what the slot promises.
-/

set_option autoImplicit false

namespace Tirtc.Storage.Slot

open Transition

variable {ι : Type}

/-! ## Who holds the slot, and who waits for it -/

/-- The request of a thread that has passed `require_open` and not yet removed it. -/
def inFlight : CloudPc → Option ℕ
  | .list _ (.finish _) => none
  | .list n _ => some n
  | _ => none

/-- The requests that a closing thread has still to wait for, from its snapshot to the native close
of the CloudStorage. -/
def waitsFor : CloudCloseStage → Option (List ℕ)
  | .next rest => some rest
  | .cancel n rest _ | .awaitEnd n rest | .awaitFinished n rest => some (n :: rest)
  | .children | .destroy _ | .succeed _ => some []
  | .fail _ => none

theorem inFlight_list {n : ℕ} {stage : ListStage} (h : ∀ raised, stage ≠ .finish raised) :
    inFlight (.list n stage) = some n := by
  cases stage with
  | finish raised => exact absurd rfl (h raised)
  | _ => rfl

/-! ## What a step can do -/

/-- Two Clouds with one slot: the same requests, made and finished alike; the later one is not open
again. -/
structure Same (s s' : Cloud ι) : Prop where
  requests : s'.requests = s.requests
  made : s'.made = s.made
  owner : s'.owner = s.owner
  shut : s.close.status ≠ .open → s'.close.status ≠ .open
  destroyed : s'.destroyed = s.destroyed
  finished : ∀ n, (s'.request n).finished = (s.request n).finished

theorem Same.refl (s : Cloud ι) : Same s s := ⟨rfl, rfl, rfl, id, rfl, fun _ => rfl⟩

/-- Only the close goes on. -/
theorem same_close (s : Cloud ι) {close : CloseCoordinator}
    (h : s.close.status ≠ .open → close.status ≠ .open) : Same s { s with close := close } :=
  ⟨rfl, rfl, rfl, h, rfl, fun _ => rfl⟩

/-- A flag other than `finished` is set. -/
theorem same_modify (s : Cloud ι) (n : ℕ) {f : ListRequest → ListRequest}
    (hf : ∀ request, (f request).finished = request.finished) : Same s (s.modify n f) := by
  refine ⟨rfl, rfl, rfl, id, rfl, fun m => ?_⟩
  by_cases h : m = n
  · subst h
    simp [Cloud.modify, hf]
  · simp [Cloud.modify, h]

theorem same_setNative (s : Cloud ι) (n : ℕ) (native : NativeRequest) :
    Same s (s.setNative n native) :=
  ⟨rfl, rfl, rfl, id, rfl, fun _ => rfl⟩

/-- **A step of `cancel` leaves the slot alone.** -/
theorem cancelStep_same {errorName : ℤ → String} {s s' : Cloud ι} {i : ι} {n : ℕ}
    {stage : CancelStage} {act : CloudAction} {next : CancelStage ⊕ Option PyError}
    (h : cancelStep errorName s i n stage act = some (s', next)) : Same s s' := by
  unfold cancelStep at h
  split at h
  · split at h
    · cases h
      exact .refl s
    · cases h
  · split at h
    · cases h
      exact .refl s
    · split at h
      · cases h
        exact .refl s
      · cases h
        obtain ⟨h₁, h₂, h₃, h₄, h₅, h₆⟩ := same_modify s n
          (f := fun request => { request with cancelStarted := true }) fun _ => rfl
        exact ⟨h₁, h₂, h₃, h₄, h₅, h₆⟩
  · split at h
    · cases h
      exact .refl s
    · cases h
  · cases h
    exact ⟨rfl, rfl, rfl, id, rfl, fun _ => rfl⟩
  · cases h
    exact same_modify s n fun _ => rfl
  · cases h

/-- What a step of `_list` can do to the slot. -/
inductive ListMoves (s : Cloud ι) (n : ℕ) : ListStage → Cloud ι → CloudPc → Prop
  | stays {stage next : ListStage} {s' : Cloud ι} (same : Same s s')
      (before : ∀ raised, stage ≠ .finish raised) (after : ∀ raised, next ≠ .finish raised) :
      ListMoves s n stage s' (.list n next)
  | discards (raised : Option PyError) :
      ListMoves s n (.discard raised) { s with requests := s.requests.erase n }
        (.list n (.finish raised))
  | finishes (raised : Option PyError) :
      ListMoves s n (.finish raised)
        (s.modify n fun request => { request with finished := true }) (.idle raised)

/-- **A step of `_list`**, inverted: whatever the Runtime answers, the slot is given back before the
call is left. -/
theorem listStep_cases {errorName : ℤ → String} {s s' : Cloud ι} {i : ι} {n : ℕ} {stage : ListStage}
    {act : CloudAction} {p : CloudPc} (h : listStep errorName s i n stage act = some (s', p)) :
    ListMoves s n stage s' p := by
  unfold listStep at h
  split at h
  · split at h
    · cases h
      exact .stays (same_setNative s n .live) (by simp) (by simp)
    · cases h
      exact .stays (.refl s) (by simp) (by simp)
  · cases h
    exact .stays (same_modify s n fun _ => rfl) (by simp) (by simp)
  · cases h
    exact .stays (same_modify s n fun _ => rfl) (by simp) (by simp)
  · split at h
    · cases h
      exact .stays (.refl s) (by simp) (by simp)
    · cases h
  · split at h
    · cases h
      exact .stays (.refl s) (by simp) (by simp)
    · cases h
  · obtain ⟨⟨s₁, next⟩, hcancel, hnext⟩ := Option.map_eq_some_iff.mp h
    have hsame := cancelStep_same hcancel
    rcases next with stage' | _ | e
    · cases hnext
      exact .stays hsame (by simp) (by simp)
    · cases hnext
      exact .stays hsame (by simp) (by simp)
    · cases hnext
      exact .stays hsame (by simp) (by simp)
  · split at h
    · cases h
      exact .stays (.refl s) (by simp) (by simp)
    · cases h
  · cases h
    exact .stays (.refl s) (by simp) (by simp)
  · split at h
    · cases h
    · cases h
      exact .stays (.refl s) (by simp) (by simp)
  · split at h
    · split at h
      · cases h
        exact .stays (same_setNative s n .destroyed) (by simp) (by simp)
      · cases h
        exact .stays (.refl s) (by simp) (by simp)
    · cases h
  · cases h
    exact .discards _
  · cases h
    exact .finishes _
  · cases h

/-- What a step of `_close_cloud` can do to the slot and to what it waits for. -/
inductive CloseMoves (s : Cloud ι) (g : ℕ) : CloudCloseStage → Cloud ι → CloudPc → Prop
  | goes {stage next : CloudCloseStage} {s' : Cloud ι} (same : Same s s')
      (waits : waitsFor next = waitsFor stage ∨ waitsFor next = none) :
      CloseMoves s g stage s' (.close g next)
  | awaited (n : ℕ) (rest : List ℕ) (finished : (s.request n).finished = true) :
      CloseMoves s g (.awaitFinished n rest) s (.close g (.next rest))
  | destroys (childError : Option PyError) :
      CloseMoves s g (.destroy childError) { s with destroyed := true }
        (.close g (.succeed childError))
  | ends {stage : CloudCloseStage} {s' : Cloud ι} (raised : Option PyError) (same : Same s s') :
      CloseMoves s g stage s' (.idle raised)

/-- **A step of `_close_cloud`**, inverted. -/
theorem closeStep_cases {errorName : ℤ → String} {s s' : Cloud ι} {i : ι} {g : ℕ}
    {stage : CloudCloseStage} {act : CloudAction} {p : CloudPc}
    (h : closeStep errorName s i g stage act = some (s', p)) : CloseMoves s g stage s' p := by
  unfold closeStep at h
  split at h
  · cases h
    exact .goes (.refl s) (.inl rfl)
  · cases h
    exact .goes (.refl s) (.inl rfl)
  · obtain ⟨⟨s₁, next⟩, hcancel, hnext⟩ := Option.map_eq_some_iff.mp h
    have hsame := cancelStep_same hcancel
    rcases next with stage' | _ | e
    · cases hnext
      exact .goes hsame (.inl rfl)
    · cases hnext
      exact .goes hsame (.inl rfl)
    · cases hnext
      exact .goes hsame (.inr rfl)
  · split at h
    · cases h
      exact .goes (.refl s) (.inl rfl)
    · cases h
  · split at h
    next hfinished =>
      cases h
      exact .awaited _ _ hfinished
    next => cases h
  · split at h
    · cases h
      exact .goes (.refl s) (.inr rfl)
    · cases h
      exact .goes (.refl s) (.inl rfl)
  · split at h
    · cases h
      exact .destroys _
    · cases h
      exact .goes (.refl s) (.inr rfl)
  · cases h
    exact .ends _ (same_close s fun _ => by simp [CloseCoordinator.succeed])
  · cases h
    exact .ends _ (same_close s fun _ => by simp [CloseCoordinator.fail])
  · cases h

/-! ## The invariant -/

/-- **The invariant of the slot.** -/
structure SlotOk (s : Cloud ι) : Prop where
  few : s.requests.length ≤ 1
  listed : ∀ n ∈ s.requests, (∃ j, s.owner n = some j) ∧ (s.request n).finished = false
  unmade : ∀ n, s.made ≤ n → s.owner n = none ∧ (s.request n).finished = false
  gone : s.destroyed = true → s.requests = [] ∧ s.close.status ≠ .open

/-- **What thread `i` knows**: the request it has in flight is the one it owns in the slot, and once
it closes, the slot holds nothing but what it has still to wait for. -/
structure SlotAt (i : ι) (s : Cloud ι) (p : CloudPc) : Prop where
  flies : ∀ n, inFlight p = some n ↔ s.owner n = some i ∧ n ∈ s.requests
  owns : ∀ n stage, p = .list n stage → s.owner n = some i
  closes : ∀ g stage, p = .close g stage → s.close.status ≠ .open ∧
    ∀ rest, waitsFor stage = some rest → ∀ n ∈ s.requests, n ∈ rest

/-- **What a step of `k` leaves to the others**: their requests stay in the slot or out of it, and
once the CloudStorage is not open, no request is added. -/
structure SlotKeeps (k : Option ι) (s s' : Cloud ι) : Prop where
  owner : ∀ n j, k ≠ some j → (s'.owner n = some j ↔ s.owner n = some j)
  slot : ∀ n j, k ≠ some j → s.owner n = some j → (n ∈ s'.requests ↔ n ∈ s.requests)
  shut : s.close.status ≠ .open →
    s'.close.status ≠ .open ∧ ∀ n ∈ s'.requests, n ∈ s.requests

/-- What a thread knows, the steps of the others do not disturb. -/
theorem SlotAt.stable {j : ι} {k : Option ι} {s s' : Cloud ι} {p : CloudPc} (hk : k ≠ some j)
    (h : SlotKeeps k s s') (hA : SlotAt j s p) : SlotAt j s' p where
  flies n := by
    rw [hA.flies n, h.owner n j hk]
    constructor
    · rintro ⟨howner, hn⟩
      exact ⟨howner, (h.slot n j hk howner).mpr hn⟩
    · rintro ⟨howner, hn⟩
      exact ⟨howner, (h.slot n j hk howner).mp hn⟩
  owns n stage hp := (h.owner n j hk).mpr (hA.owns n stage hp)
  closes g stage hp := by
    obtain ⟨hshut, hrest⟩ := hA.closes g stage hp
    obtain ⟨hshut', hsub⟩ := h.shut hshut
    exact ⟨hshut', fun rest hwaits n hn => hrest rest hwaits n (hsub n hn)⟩

/-! ## Each step keeps the invariant -/

/-- What a step of thread `i` owes. -/
structure SlotGood (i : ι) (s s' : Cloud ι) (p : CloudPc) : Prop where
  ok : SlotOk s'
  place : SlotAt i s' p
  keeps : SlotKeeps (some i) s s'

theorem Same.ok {s s' : Cloud ι} (h : Same s s') (hs : SlotOk s) : SlotOk s' where
  few := by simpa [h.requests] using hs.few
  listed n hn := by
    rw [h.owner, h.finished]
    exact hs.listed n (h.requests ▸ hn)
  unmade n hn := by
    rw [h.owner, h.finished]
    exact hs.unmade n (h.made ▸ hn)
  gone hd := by
    obtain ⟨hnone, hshut⟩ := hs.gone (h.destroyed ▸ hd)
    exact ⟨h.requests.trans hnone, h.shut hshut⟩

theorem Same.keeps {s s' : Cloud ι} (h : Same s s') (k : Option ι) : SlotKeeps k s s' where
  owner n j _ := by rw [h.owner]
  slot n j _ _ := by rw [h.requests]
  shut hshut := ⟨h.shut hshut, fun n hn => h.requests ▸ hn⟩

/-- A step that leaves the slot alone, to a place with the same request in flight. -/
theorem Same.good {s s' : Cloud ι} {i : ι} {p p' : CloudPc} (h : Same s s') (hs : SlotOk s)
    (hA : SlotAt i s p) (hflies : inFlight p' = inFlight p)
    (hlists : ∀ n stage, p' = .list n stage → s.owner n = some i)
    (hcloses : ∀ g stage, p' = .close g stage → s'.close.status ≠ .open ∧
      ∀ rest, waitsFor stage = some rest → ∀ n ∈ s.requests, n ∈ rest) :
    SlotGood i s s' p' where
  ok := h.ok hs
  place := by
    refine ⟨?_, ?_, ?_⟩
    · intro n
      rw [hflies, hA.flies n, h.owner, h.requests]
    · intro n stage hp
      rw [h.owner]
      exact hlists n stage hp
    · intro g stage hp
      rw [h.requests]
      exact hcloses g stage hp
  keeps := h.keeps (some i)

/-- A step that leaves the slot alone, out of every call. -/
theorem Same.leaves {s s' : Cloud ι} {i : ι} {p p' : CloudPc} (h : Same s s') (hs : SlotOk s)
    (hA : SlotAt i s p) (hp : inFlight p = none) (hp' : inFlight p' = none)
    (hlist : ∀ n stage, p' ≠ .list n stage) (hclose : ∀ g stage, p' ≠ .close g stage) :
    SlotGood i s s' p' :=
  h.good hs hA (hp'.trans hp.symm) (fun n stage heq => absurd heq (hlist n stage))
    fun g stage heq => absurd heq (hclose g stage)

/-- The slot holds at most one request. -/
theorem SlotOk.eq {s : Cloud ι} (hs : SlotOk s) {n m : ℕ} (hn : n ∈ s.requests)
    (hm : m ∈ s.requests) : n = m := by
  have hfew := hs.few
  match hr : s.requests with
  | [] => simp [hr] at hn
  | [k] =>
      rw [hr, List.mem_singleton] at hn hm
      exact hn.trans hm.symm
  | _ :: _ :: _ => simp [hr] at hfew

/-- The request that the slot holds, taken out. -/
theorem SlotOk.erase {s : Cloud ι} (hs : SlotOk s) {n : ℕ} (hn : n ∈ s.requests) :
    s.requests.erase n = [] := by
  have hfew := hs.few
  have hlength := List.length_erase_of_mem hn
  exact List.length_eq_zero_iff.mp (by omega)

/-- **The first section of `_list`** takes the slot, if it is free and the CloudStorage open. -/
theorem begin_list_good {s : Cloud ι} {i : ι} {p : CloudPc} (timed : Bool) (hs : SlotOk s)
    (hA : SlotAt i s p) (hp : inFlight p = none) :
    SlotGood i s (listBegin s i timed).1 (listBegin s i timed).2 := by
  unfold listBegin
  split
  · exact (Same.refl s).leaves hs hA hp rfl (by simp) (by simp)
  next hopen =>
    split
    · exact (Same.refl s).leaves hs hA hp rfl (by simp) (by simp)
    next hfree =>
      have hempty : s.requests = [] := not_not.mp hfree
      have hstatus : s.close.status = .open := CloseCoordinator.requireOpen_eq_none.mp hopen
      obtain ⟨hnobody, hfresh⟩ := hs.unmade s.made le_rfl
      have hother : ∀ n j, n ≠ s.made ∨ some i ≠ some j →
          (Function.update s.owner s.made (some i) n = some j ↔ s.owner n = some j) := by
        intro n j hne
        by_cases hn : n = s.made
        · subst hn
          have hij : some i ≠ some j := hne.resolve_left (fun h => h rfl)
          simp [hnobody, hij]
        · rw [Function.update_of_ne hn]
      refine ⟨⟨by simp, ?_, ?_, ?_⟩,
        ⟨?_, ?_, by simp⟩,
        ⟨fun n j hj => hother n j (.inr hj), ?_, fun h => absurd hstatus h⟩⟩
      · intro n hn
        rw [List.mem_singleton] at hn
        subst hn
        exact ⟨⟨i, by simp⟩, hfresh⟩
      · intro n hn
        have hne : n ≠ s.made := by
          have hlt : s.made + 1 ≤ n := hn
          omega
        have hle : s.made ≤ n := Nat.le_of_succ_le hn
        exact ⟨by simpa [hne] using (hs.unmade n hle).1, (hs.unmade n hle).2⟩
      · intro hd
        exact absurd hstatus (hs.gone hd).2
      · intro n
        by_cases hn : n = s.made
        · subst hn
          simp [inFlight]
        · have hnm : s.made ≠ n := fun h => hn h.symm
          simp [inFlight, hn, hnm]
      · intro n stage hstage
        obtain ⟨rfl, -⟩ : s.made = n ∧ ListStage.start timed = stage := by simpa using hstage
        simp
      · intro n j hj howner
        have hne : n ≠ s.made := by
          rintro rfl
          simp [hnobody] at howner
        simp [hempty, hne]

/-- **A step of `_list`** keeps the slot or gives it back. -/
theorem list_good {errorName : ℤ → String} {s s' : Cloud ι} {i : ι} {n : ℕ} {stage : ListStage}
    {act : CloudAction} {p : CloudPc} (hs : SlotOk s) (hA : SlotAt i s (.list n stage))
    (h : listStep errorName s i n stage act = some (s', p)) : SlotGood i s s' p := by
  have howner := hA.owns n stage rfl
  cases listStep_cases h with
  | stays same before after =>
      refine same.good hs hA ((inFlight_list after).trans (inFlight_list before).symm) ?_ (by simp)
      intro m stage' heq
      obtain ⟨rfl, -⟩ : n = m ∧ _ = stage' := by simpa using heq
      exact howner
  | discards raised =>
      have hn : n ∈ s.requests := ((hA.flies n).mp rfl).2
      have hempty := hs.erase hn
      refine ⟨⟨by simp [hempty], by simp [hempty], hs.unmade, fun hd => ⟨hempty, (hs.gone hd).2⟩⟩,
        ⟨fun m => by simp [hempty, inFlight], ?_, by simp⟩,
        ⟨fun _ _ _ => Iff.rfl, ?_, fun hshut => ⟨hshut, by simp [hempty]⟩⟩⟩
      · intro m stage' heq
        obtain ⟨rfl, -⟩ : n = m ∧ _ = stage' := by simpa using heq
        exact howner
      · intro m j hj hm
        -- the request of another thread is not in the slot: `n` is
        have hout : m ∉ s.requests := by
          intro hin
          rw [hs.eq hin hn, howner] at hm
          exact hj hm
        simp [hempty, hout]
  | finishes raised =>
      have hout : n ∉ s.requests := by
        intro hin
        have hflies : inFlight (.list n (.finish raised)) = some n :=
          (hA.flies n).mpr ⟨howner, hin⟩
        cases hflies
      have hother : ∀ m, m ≠ n →
          (s.modify n fun request => { request with finished := true }).request m = s.request m :=
        fun m hm => by simp [Cloud.modify, hm]
      refine ⟨⟨hs.few, ?_, ?_, hs.gone⟩,
        ⟨?_, by simp, by simp⟩,
        ⟨fun _ _ _ => Iff.rfl, fun _ _ _ _ => Iff.rfl, fun hshut => ⟨hshut, fun _ h => h⟩⟩⟩
      · intro m hm
        rw [hother m fun heq => hout (heq ▸ hm)]
        exact hs.listed m hm
      · intro m hm
        have hne : m ≠ n := by
          rintro rfl
          have hnobody := (hs.unmade m hm).1
          simp [howner] at hnobody
        rw [hother m hne]
        exact hs.unmade m hm
      · intro m
        exact hA.flies m

/-- **A step of `_close_cloud`** waits for one request less only when that request has ended. -/
theorem close_good {errorName : ℤ → String} {s s' : Cloud ι} {i : ι} {g : ℕ}
    {stage : CloudCloseStage} {act : CloudAction} {p : CloudPc} (hs : SlotOk s)
    (hA : SlotAt i s (.close g stage)) (h : closeStep errorName s i g stage act = some (s', p)) :
    SlotGood i s s' p := by
  obtain ⟨hshut, hrest⟩ := hA.closes g stage rfl
  cases closeStep_cases h with
  | goes same waits =>
      refine same.good hs hA rfl (by simp) ?_
      intro g' stage' heq
      cases heq
      refine ⟨same.shut hshut, fun rest hwaits n hn => ?_⟩
      rcases waits with hsame | hnone
      · exact hrest rest (hsame ▸ hwaits) n hn
      · simp [hnone] at hwaits
  | awaited n rest finished =>
      refine (Same.refl s).good hs hA rfl (by simp) ?_
      intro g' stage' heq
      cases heq
      refine ⟨hshut, fun rest' hwaits m hm => ?_⟩
      obtain rfl : rest = rest' := Option.some.inj hwaits
      have hne : m ≠ n := by
        rintro rfl
        have hlisted := (hs.listed m hm).2
        simp [finished] at hlisted
      exact (List.mem_cons.mp (hrest (n :: rest) rfl m hm)).resolve_left hne
  | destroys childError =>
      have hempty : s.requests = [] := by
        apply List.eq_nil_iff_forall_not_mem.mpr
        intro n hn
        exact absurd (hrest [] rfl n hn) List.not_mem_nil
      refine ⟨⟨hs.few, hs.listed, hs.unmade, fun _ => ⟨hempty, hshut⟩⟩,
        ⟨hA.flies, by simp, fun g' stage' heq => ?_⟩,
        ⟨fun _ _ _ => Iff.rfl, fun _ _ _ _ => Iff.rfl, fun hshut => ⟨hshut, fun _ h => h⟩⟩⟩
      exact ⟨hshut, fun rest _ n hn => by simp [hempty] at hn⟩
  | ends raised same => exact same.leaves hs hA rfl rfl (by simp) (by simp)

/-- The first section of `_close_cloud` takes its snapshot. -/
theorem begin_close_good {s : Cloud ι} {i : ι} {p : CloudPc} (hs : SlotOk s) (hA : SlotAt i s p)
    (hp : inFlight p = none) : SlotGood i s (closeBegin s).1 (closeBegin s).2 := by
  unfold closeBegin
  rcases s.close.begin_cases false with ⟨hst, hb⟩ | ⟨hst, hb⟩ | ⟨hst, hb⟩ | ⟨hst, hb⟩
  · simp only [hb]
    refine Same.leaves ?_ hs hA hp rfl (by simp) (by simp)
    exact same_close s fun h => h
  · simp only [hb]
    exact (same_close s fun h => h).leaves hs hA hp rfl (by simp) (by simp)
  · simp only [hb]
    exact (same_close s fun h => h).leaves hs hA hp rfl (by simp) (by simp)
  · simp only [hb]
    refine (same_close s fun _ => by simp).good hs hA hp.symm (by simp) ?_
    intro g stage heq
    cases heq
    refine ⟨by simp, fun rest hwaits n hn => ?_⟩
    obtain rfl : s.requests = rest := Option.some.inj hwaits
    exact hn

/-- A joiner that wakes leaves the slot alone. -/
theorem wake_good {s s' : Cloud ι} {i : ι} {g : ℕ} {p : CloudPc} (hs : SlotOk s)
    (hA : SlotAt i s (.closeJoin g)) (h : closeWake s g = some (s', p)) : SlotGood i s s' p := by
  obtain ⟨error, -, hleave⟩ := Option.bind_eq_some_iff.mp h
  obtain ⟨close, hclose, hnext⟩ := Option.map_eq_some_iff.mp hleave
  obtain ⟨rfl, rfl⟩ := Prod.mk.inj hnext
  have hstatus := (s.close.leave_spec hclose).1
  exact (same_close s fun h => hstatus ▸ h).leaves hs hA rfl rfl (by simp) (by simp)

/-! ## Every interleaving -/

/-- **Every step keeps the invariant, and what a thread knows, the others leave alone.** -/
theorem slot_rely_guarantee (errorName : ℤ → String) :
    Threads.RelyGuarantee (cloudCalls ι errorName) (fun _ _ _ _ => True) (fun _ _ => True) SlotOk
      SlotAt SlotKeeps where
  start s hs := by
    obtain rfl : s = {} := hs
    exact ⟨⟨by simp, by simp, fun _ _ => ⟨rfl, rfl⟩, by simp⟩,
      fun i => ⟨by simp [cloudCalls, inFlight], by simp [cloudCalls], by simp [cloudCalls]⟩⟩
  thread i s p act s' p' hs hA _ hstep := by
    have hgood : SlotGood i s s' p' := by
      cases p with
      | idle raised =>
          cases act with
          | list timed =>
              have hbegin : listBegin s i timed = (s', p') := Option.some.inj hstep
              simpa [hbegin] using begin_list_good timed hs hA rfl
          | close =>
              have hbegin : closeBegin s = (s', p') := Option.some.inj hstep
              simpa [hbegin] using begin_close_good hs hA rfl
          | _ => cases hstep
      | list n stage => exact list_good hs hA hstep
      | closeJoin g =>
          cases act with
          | go => exact wake_good hs hA hstep
          | _ => cases hstep
      | close g stage => exact close_good hs hA hstep
    exact ⟨hgood.ok, hgood.place, hgood.keeps⟩
  env s n s' hs _ hstep := by
    obtain ⟨-, rfl⟩ : s.native n = .live ∧
        s.modify n (fun request => { request with completed := true }) = s' := by
      simpa [cloudCalls, completeStep] using hstep
    have hsame := same_modify s n (f := fun request => { request with completed := true })
      fun _ => rfl
    exact ⟨hsame.ok hs, hsame.keeps none⟩
  stable j k s s' p hk _ _ hG hA := hA.stable hk hG

section Runs

variable [DecidableEq ι] {errorName : ℤ → String} {c : Config ι (Cloud ι) CloudPc}

/-- The invariant in every state that is reached. -/
theorem reach_slot (hc : (cloudCalls ι errorName).machine.Reach c) :
    SlotOk c.shared ∧ ∀ i, SlotAt i c.shared (c.pc i) :=
  (slot_rely_guarantee errorName).reach (hc.mono fun _ l _ => by cases l <;> trivial)

/-- A request in the slot is in flight, in the thread that owns it. -/
theorem listed_iff (hc : (cloudCalls ι errorName).machine.Reach c) (n : ℕ) :
    n ∈ c.shared.requests ↔ ∃ i, inFlight (c.pc i) = some n := by
  obtain ⟨hs, hA⟩ := reach_slot hc
  constructor
  · intro hn
    obtain ⟨⟨j, howner⟩, -⟩ := hs.listed n hn
    exact ⟨j, ((hA j).flies n).mpr ⟨howner, hn⟩⟩
  · rintro ⟨i, hi⟩
    exact (((hA i).flies n).mp hi).2

/-- The slot is free exactly when nobody has a request in flight. -/
theorem free_iff (hc : (cloudCalls ι errorName).machine.Reach c) :
    c.shared.requests = [] ↔ ∀ i, inFlight (c.pc i) = none := by
  rw [List.eq_nil_iff_forall_not_mem]
  constructor
  · intro hfree i
    apply Option.eq_none_iff_forall_not_mem.mpr
    intro n hn
    exact hfree n ((listed_iff hc n).mpr ⟨i, hn⟩)
  · intro hfree n hn
    obtain ⟨i, hi⟩ := (listed_iff hc n).mp hn
    simp [hfree i] at hi

/-- One request is in flight at most, in one thread. -/
theorem inFlight_unique (hc : (cloudCalls ι errorName).machine.Reach c) {i j : ι} {n m : ℕ}
    (hi : inFlight (c.pc i) = some n) (hj : inFlight (c.pc j) = some m) : i = j ∧ n = m := by
  obtain ⟨hs, hA⟩ := reach_slot hc
  obtain ⟨hin, hn⟩ := ((hA i).flies n).mp hi
  obtain ⟨hjm, hm⟩ := ((hA j).flies m).mp hj
  obtain rfl := hs.eq hn hm
  exact ⟨Option.some.inj (hin.symm.trans hjm), rfl⟩

/-- A thread that leaves `_list` has given back the slot and set `finished`. -/
theorem exit_returns {c' : Config ι (Cloud ι) CloudPc}
    (hc : (cloudCalls ι errorName).machine.Reach c) {l : Label ι CloudAction ℕ}
    (hstep : (cloudCalls ι errorName).machine.step c l = some c') {i : ι} {n : ℕ}
    {stage : ListStage} (hi : c.pc i = .list n stage) (hout : ∀ stage', c'.pc i ≠ .list n stage') :
    n ∉ c'.shared.requests ∧ (c'.shared.request n).finished = true := by
  rcases l with ⟨j, act⟩ | e
  · obtain ⟨⟨s', p'⟩, hnext, rfl⟩ := Option.map_eq_some_iff.mp hstep
    by_cases hij : i = j
    · subst hij
      have hp' : ∀ stage', p' ≠ .list n stage' := by simpa using hout
      rw [hi] at hnext
      have hmoves : ListMoves c.shared n stage s' p' := listStep_cases hnext
      cases hmoves with
      | stays same before after => exact absurd rfl (hp' _)
      | discards raised => exact absurd rfl (hp' _)
      | finishes raised =>
          refine ⟨fun hn => ?_, by simp [Cloud.modify]⟩
          obtain ⟨j, hj⟩ := (listed_iff hc n).mp hn
          obtain ⟨-, hA⟩ := reach_slot hc
          have howner := ((hA j).flies n).mp hj
          obtain rfl : i = j := Option.some.inj (((hA i).owns n _ hi).symm.trans howner.1)
          rw [hi] at hj
          cases hj
    · exact absurd hi (by simpa [hij] using hout stage)
  · obtain ⟨s', -, rfl⟩ := Option.map_eq_some_iff.mp hstep
    exact absurd hi (hout stage)

/-- The first section of `_list` takes the slot exactly when the CloudStorage is open and nobody has
a request in flight. -/
theorem listBegin_iff (hc : (cloudCalls ι errorName).machine.Reach c) (i : ι) (timed : Bool) :
    (listBegin c.shared i timed).2 = .list c.shared.made (.start timed) ↔
      c.shared.close.status = .open ∧ ∀ j, inFlight (c.pc j) = none := by
  rw [← free_iff hc, ← CloseCoordinator.requireOpen_eq_none]
  unfold listBegin
  split
  next hshut => simp [hshut]
  next hopen =>
    by_cases hfree : c.shared.requests = []
    · simp [hopen, hfree]
    · simp [hfree]

/-- A thread that is about to close the CloudStorage natively has waited for every request. -/
theorem destroy_waits (hc : (cloudCalls ι errorName).machine.Reach c) {i : ι} {g : ℕ}
    {childError : Option PyError} (hi : c.pc i = .close g (.destroy childError)) :
    ∀ j, inFlight (c.pc j) = none := by
  obtain ⟨-, hA⟩ := reach_slot hc
  obtain ⟨-, hrest⟩ := (hA i).closes g _ hi
  apply (free_iff hc).mp
  apply List.eq_nil_iff_forall_not_mem.mpr
  intro n hn
  exact absurd (hrest [] rfl n hn) List.not_mem_nil

/-- **The listing slot is always returned, and closing waits for it.** In every state that any
number of list and close calls can reach, with any result of every native call:

1. at most one request is in flight, and the slot holds exactly it;
2. a thread that leaves `_list` has taken its request out of the slot and set `finished`, whatever
   it raises, and a list call takes the slot as soon as the CloudStorage is open and nobody has a
   request in flight;
3. no request is in flight where a thread is about to close the CloudStorage natively, nor ever
   after it has been closed.
Source: `storage/__init__.py`, `CloudStorage._list` and `CloudStorage._close_cloud` -/
theorem slot_returned (hc : (cloudCalls ι errorName).machine.Reach c) :
    ((∀ i j n m, inFlight (c.pc i) = some n → inFlight (c.pc j) = some m → i = j ∧ n = m) ∧
      ∀ n, n ∈ c.shared.requests ↔ ∃ i, inFlight (c.pc i) = some n) ∧
    ((∀ l c' i n stage, (cloudCalls ι errorName).machine.step c l = some c' →
        c.pc i = .list n stage → (∀ stage', c'.pc i ≠ .list n stage') →
        n ∉ c'.shared.requests ∧ (c'.shared.request n).finished = true) ∧
      ∀ i timed, (listBegin c.shared i timed).2 = .list c.shared.made (.start timed) ↔
        c.shared.close.status = .open ∧ ∀ j, inFlight (c.pc j) = none) ∧
    (∀ i g childError, c.pc i = .close g (.destroy childError) →
      ∀ j, inFlight (c.pc j) = none) ∧
    (c.shared.destroyed = true → ∀ j, inFlight (c.pc j) = none) := by
  refine ⟨⟨fun i j n m hi hj => inFlight_unique hc hi hj, listed_iff hc⟩,
    ⟨fun l c' i n stage hstep hi hout => exit_returns hc hstep hi hout, listBegin_iff hc⟩,
    fun i g e hi => destroy_waits hc hi, fun hd => ?_⟩
  exact (free_iff hc).mp ((reach_slot hc).1.gone hd).1

end Runs

/-- Thread `0` lists with a timeout that runs out; the native cancel fails and the native close of
the request stays in use. Thread `1` closes the CloudStorage meanwhile. -/
def failedCancel : List (Label (Fin 2) CloudAction ℕ) :=
  [.thread 0 (.list true), .thread 1 .close, .thread 1 .go, .thread 0 (.native (.code 0)),
    .thread 0 .go, .thread 0 .timeout, .thread 0 .go, .thread 0 .go, .thread 1 .go, .thread 1 .go,
    .thread 0 (.native (.raised timeoutError)), .thread 0 .go, .thread 1 .go,
    .thread 0 (.native (.raised inUseError)), .thread 0 .go, .thread 0 .go,
    .thread 1 .go, .thread 1 .go, .thread 1 .go, .thread 1 (.children none none)]

/-- Thread `1` of that run closes the CloudStorage natively when thread `0` has left. -/
theorem slot_returned_failedCancel :
    ∃ c, (cloudCalls (Fin 2) fun _ => "").machine.exec ⟨{}, fun _ => .idle none⟩ failedCancel =
        some c ∧ c.pc 0 = .idle (some inUseError) ∧ c.pc 1 = .close 1 (.destroy none) ∧
      ∀ j, inFlight (c.pc j) = none := by
  refine ⟨_, rfl, rfl, rfl, ?_⟩
  have hrun : (cloudCalls (Fin 2) fun _ => "").machine.exec ⟨{}, fun _ => .idle none⟩ failedCancel =
      some _ := rfl
  have hstart : (cloudCalls (Fin 2) fun _ => "").machine.start ⟨{}, fun _ => .idle none⟩ :=
    ⟨rfl, rfl⟩
  have hc := Machine.Reach.exec (.of_start hstart) hrun
  exact (slot_returned hc).2.2.1 1 1 none rfl

end Tirtc.Storage.Slot
