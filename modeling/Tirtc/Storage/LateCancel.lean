import Mathlib.Data.Fintype.Basic
import Tirtc.Storage.ListRequests

/-!
# When a list request is cancelled after it is destroyed

`_ListRequest.cancel` decides under the lock of the request and calls the Runtime after it; the
thread that lists destroys the request without a look at that lock.

* `RequestView`, `Cloud.view`: what the Cloud knows of one request.
* `RequestOk`: the invariant of a request; `ListAt`, `At`: what a thread knows at its stage.
* `Keeps`: what a step of one thread leaves to the others.
* `CancelMoves`, `cancelStep_cases`: what a step of `cancel` can do; `Becomes`: to one request.
* `Good`: what a step owes in that request; `cancel_good`, `list_good`, `close_good`.
* `cloud_rely_guarantee`: all of it, for every interleaving in which no request is destroyed in the
  window of a canceller.
* `never_cancelled_late`: in these runs a request is never cancelled after it is destroyed.
* `cancelled_late`: the run that does it.
-/

set_option autoImplicit false

namespace Tirtc.Storage

open Transition

/-! ## One request -/

/-- What the Cloud knows of one request. -/
structure RequestView (ι : Type) where
  request : ListRequest
  native : NativeRequest
  owner : Option ι
  canceller : Option ι

section

variable {ι : Type}

/-- Request `n` of a Cloud. -/
def Cloud.view (s : Cloud ι) (n : ℕ) : RequestView ι where
  request := s.request n
  native := s.native n
  owner := s.owner n
  canceller := s.canceller n

/-- Nobody decides to cancel a request that has ended. -/
def RequestView.Ended (v : RequestView ι) : Prop :=
  v.request.completed = true ∨ v.request.cancelStarted = true

/-- **The invariant of a request.** -/
structure RequestOk (v : RequestView ι) : Prop where
  unowned : v.owner = none → v.request.handle = false ∧ v.native = .absent
  handle : v.request.handle = true → v.native ≠ .absent
  ended : v.native = .destroyed → v.Ended
  live : ∀ j, v.canceller = some j → v.native = .live ∧ v.request.cancelStarted = true

/-- What the thread in `cancel` knows. -/
def CancelAt (v : RequestView ι) : CancelStage → Prop
  | .awaitStarted | .decide => True
  | .awaitFinished | .native | .leave _ => v.request.cancelStarted = true

/-- What the thread that lists knows of its request. -/
def ListAt (v : RequestView ι) : ListStage → Prop
  | .start _ => v.request.handle = false ∧ v.native = .absent
  | .startFailed _ => v.request.handle = false
  | .setHandle _ => v.native = .live
  | .awaitCompleted _ => v.request.handle = true ∧ v.native = .live
  | .cancel stage => (v.request.handle = true ∧ v.native = .live) ∧ CancelAt v stage
  | .awaitCancelled | .result _ => v.native = .live ∧ v.Ended
  | .destroy _ => v.request.handle = true → v.native = .live ∧ v.Ended
  | .discard _ | .finish _ => True

/-- What thread `i` knows at its place. -/
structure At (i : ι) (s : Cloud ι) (p : CloudPc) : Prop where
  cancels : ∀ n, p.cancels = some n ↔ (s.view n).canceller = some i
  lists : ∀ n stage, p = .list n stage → (s.view n).owner = some i ∧ ListAt (s.view n) stage

/-- The invariant of the Cloud. -/
structure CloudOk (s : Cloud ι) : Prop where
  request : ∀ n, RequestOk (s.view n)
  unmade : ∀ n, s.made ≤ n → (s.view n).owner = none

/-- **What a step of `k` leaves to the others** in one request: no flag is taken back, the handle
and the Runtime's side belong to the thread that lists, and each thread enters and leaves its own
window. -/
structure Keeps (k : Option ι) (v v' : RequestView ι) : Prop where
  completed : v.request.completed = true → v'.request.completed = true
  cancelStarted : v.request.cancelStarted = true → v'.request.cancelStarted = true
  owner : ∀ j, v.owner = some j → v'.owner = some j
  owned : ∀ j, v.owner = some j → k ≠ some j →
    v'.request.handle = v.request.handle ∧ v'.native = v.native
  canceller : ∀ j, k ≠ some j → (v'.canceller = some j ↔ v.canceller = some j)

theorem Keeps.refl (k : Option ι) (v : RequestView ι) : Keeps k v v where
  completed h := h
  cancelStarted h := h
  owner _ h := h
  owned _ _ _ := ⟨rfl, rfl⟩
  canceller _ _ := Iff.rfl

theorem Keeps.ended {k : Option ι} {v v' : RequestView ι} (h : Keeps k v v') (hv : v.Ended) :
    v'.Ended :=
  hv.imp h.completed h.cancelStarted

/-- What a thread in `cancel` knows, no step takes back. -/
theorem CancelAt.stable {k : Option ι} {v v' : RequestView ι} {stage : CancelStage}
    (h : Keeps k v v') (hA : CancelAt v stage) : CancelAt v' stage := by
  cases stage with
  | awaitStarted | decide => trivial
  | awaitFinished | native | leave _ => exact h.cancelStarted hA

/-- What the thread that lists knows of its request, no other thread takes back. -/
theorem ListAt.stable {j : ι} {k : Option ι} {v v' : RequestView ι} {stage : ListStage}
    (h : Keeps k v v') (howner : v.owner = some j) (hk : k ≠ some j) (hA : ListAt v stage) :
    ListAt v' stage := by
  obtain ⟨hhandle, hnative⟩ := h.owned j howner hk
  cases stage with
  | start _ => exact ⟨hhandle.trans hA.1, hnative.trans hA.2⟩
  | startFailed _ => exact hhandle.trans hA
  | setHandle _ => exact hnative.trans hA
  | awaitCompleted _ => exact ⟨hhandle.trans hA.1, hnative.trans hA.2⟩
  | cancel _ => exact ⟨⟨hhandle.trans hA.1.1, hnative.trans hA.1.2⟩, hA.2.stable h⟩
  | awaitCancelled => exact ⟨hnative.trans hA.1, h.ended hA.2⟩
  | result _ => exact ⟨hnative.trans hA.1, h.ended hA.2⟩
  | destroy _ =>
      intro hset
      obtain ⟨hlive, hended⟩ := hA (hhandle.symm.trans hset)
      exact ⟨hnative.trans hlive, h.ended hended⟩
  | discard _ | finish _ => trivial

/-- What a thread knows, no other thread takes back. -/
theorem At.stable {j : ι} {k : Option ι} {s s' : Cloud ι} {p : CloudPc} (hk : k ≠ some j)
    (h : ∀ n, Keeps k (s.view n) (s'.view n)) (hA : At j s p) : At j s' p where
  cancels n := (hA.cancels n).trans ((h n).canceller j hk).symm
  lists n stage hp := by
    obtain ⟨howner, hstage⟩ := hA.lists n stage hp
    exact ⟨(h n).owner j howner, hstage.stable (h n) howner hk⟩

/-! ## What each step can do -/

/-- What a stage of `cancel` can do to the request. -/
inductive CancelMoves (i : ι) (v : RequestView ι) :
    CancelStage → RequestView ι → CancelStage ⊕ Option PyError → Prop
  | begins : CancelMoves i v .awaitStarted v (.inl .decide)
  | done : (v.request.handle = true → v.request.completed = true) →
      CancelMoves i v .decide v (.inr none)
  | joins : v.request.cancelStarted = true → CancelMoves i v .decide v (.inl .awaitFinished)
  | decides : v.request.handle = true → v.request.completed = false →
      v.request.cancelStarted = false →
      CancelMoves i v .decide
        { v with
          request := { v.request with cancelStarted := true }
          canceller := some i } (.inl .native)
  | joined : CancelMoves i v .awaitFinished v (.inr none)
  | calls (raised : Option PyError) :
      CancelMoves i v .native { v with canceller := none } (.inl (.leave raised))
  | leaves (raised : Option PyError) :
      CancelMoves i v (.leave raised)
        { v with request := { v.request with cancelFinished := true } } (.inr raised)

/-- The Cloud `s` with `v` for request `n`, as far as the requests are concerned. -/
structure Becomes (s s' : Cloud ι) (n : ℕ) (v : RequestView ι) : Prop where
  view : s'.view = Function.update s.view n v
  made : s'.made = s.made

theorem Becomes.same (s : Cloud ι) (n : ℕ) : Becomes s s n (s.view n) where
  view := (Function.update_eq_self n s.view).symm
  made := rfl

theorem becomes_modify (s : Cloud ι) (n : ℕ) (f : ListRequest → ListRequest) :
    Becomes s (s.modify n f) n { s.view n with request := f (s.request n) } where
  view := by
    funext m
    by_cases h : m = n <;> simp [Cloud.view, Cloud.modify, h]
  made := rfl

theorem becomes_setNative (s : Cloud ι) (n : ℕ) (native : NativeRequest) :
    Becomes s (s.setNative n native) n { s.view n with native := native } where
  view := by
    funext m
    by_cases h : m = n <;> simp [Cloud.view, Cloud.setNative, h]
  made := rfl

theorem becomes_setCanceller (s : Cloud ι) (n : ℕ) (canceller : Option ι) :
    Becomes s (s.setCanceller n canceller) n { s.view n with canceller := canceller } where
  view := by
    funext m
    by_cases h : m = n <;> simp [Cloud.view, Cloud.setCanceller, h]
  made := rfl

theorem Becomes.trans {s s' s'' : Cloud ι} {n : ℕ} {v v' : RequestView ι}
    (h : Becomes s s' n v) (h' : Becomes s' s'' n v') : Becomes s s'' n v' where
  view := by rw [h'.view, h.view, Function.update_idem]
  made := h'.made.trans h.made

/-- **A step of `cancel`**, inverted. -/
theorem cancelStep_cases {errorName : ℤ → String} {s s' : Cloud ι} {i : ι} {n : ℕ}
    {stage : CancelStage} {act : CloudAction} {next : CancelStage ⊕ Option PyError}
    (h : cancelStep errorName s i n stage act = some (s', next)) :
    ∃ v, Becomes s s' n v ∧ CancelMoves i (s.view n) stage v next := by
  cases stage with
  | awaitStarted =>
      cases act with
      | go =>
          simp only [cancelStep] at h
          split at h
          · cases h
            exact ⟨_, .same s n, .begins⟩
          · cases h
      | _ => cases h
  | decide =>
      cases act with
      | go =>
          simp only [cancelStep] at h
          split at h
          next hover =>
            cases h
            refine ⟨_, .same s n, .done fun hhandle => ?_⟩
            have hset : (s.request n).handle = true := hhandle
            simpa [Cloud.view, hset] using hover
          next hover =>
            simp only [Bool.or_eq_true, Bool.not_eq_true', not_or, Bool.not_eq_false,
              Bool.not_eq_true] at hover
            split at h
            next hstarted =>
              cases h
              exact ⟨_, .same s n, .joins hstarted⟩
            next hstarted =>
              cases h
              exact ⟨_, (becomes_modify s n _).trans (becomes_setCanceller _ n _), by
                simpa [Cloud.view, Cloud.modify] using
                  CancelMoves.decides (i := i) (v := s.view n) hover.1 hover.2
                    (Bool.not_eq_true _ ▸ hstarted)⟩
      | _ => cases h
  | awaitFinished =>
      cases act with
      | go =>
          simp only [cancelStep] at h
          split at h
          · cases h
            exact ⟨_, .same s n, .joined⟩
          · cases h
      | _ => cases h
  | native =>
      cases act with
      | native r =>
          cases h
          exact ⟨_, becomes_setCanceller s n none, .calls _⟩
      | _ => cases h
  | leave raised =>
      cases act with
      | go =>
          cases h
          exact ⟨_, becomes_modify s n _, .leaves raised⟩
      | _ => cases h

/-! ## Each step keeps the invariant -/

/-- What a step of `cancel` owes. -/
structure CancelGood (i : ι) (v v' : RequestView ι) (stage : CancelStage)
    (next : CancelStage ⊕ Option PyError) : Prop where
  ok : RequestOk v'
  keeps : Keeps (some i) v v'
  canceller : v'.canceller = some i ↔ next = .inl .native
  owner : v'.owner = v.owner
  handle : v'.request.handle = v.request.handle
  native : v'.native = v.native
  stays : ∀ stage', next = .inl stage' → CancelAt v stage → CancelAt v' stage'
  ends : ∀ raised, next = .inr raised → CancelAt v stage → v.request.handle = true → v'.Ended

/-- **A step of `cancel` keeps the invariant.** A thread that decides finds a request that has not
ended, hence a live one. -/
theorem cancel_good {i : ι} {v v' : RequestView ι} {stage : CancelStage}
    {next : CancelStage ⊕ Option PyError} (hv : RequestOk v)
    (hmine : v.canceller = some i ↔ stage = .native) (h : CancelMoves i v stage v' next) :
    CancelGood i v v' stage next := by
  cases h with
  | begins =>
      exact ⟨hv, .refl _ _, by simp [hmine], rfl, rfl, rfl, fun _ h _ => by
        cases h
        trivial, by simp⟩
  | done hover =>
      exact ⟨hv, .refl _ _, by simp [hmine], rfl, rfl, rfl, by simp, fun _ _ _ hset =>
        .inl (hover hset)⟩
  | joins hstarted =>
      exact ⟨hv, .refl _ _, by simp [hmine], rfl, rfl, rfl, fun _ h _ => by
        cases h
        exact hstarted, by simp⟩
  | decides hset hcompleted hfresh =>
      have hnobody : ∀ j, v.canceller ≠ some j := by
        intro j hj
        simp [(hv.live j hj).2] at hfresh
      have hlive : v.native = .live := by
        cases hn : v.native with
        | absent => exact absurd hn (hv.handle hset)
        | live => rfl
        | destroyed => simpa [hcompleted, hfresh, RequestView.Ended] using hv.ended hn
      refine ⟨⟨hv.unowned, hv.handle, fun hn => .inr rfl, fun _ _ => ⟨hlive, rfl⟩⟩,
        ⟨id, fun _ => rfl, fun _ h => h, fun _ _ _ => ⟨rfl, rfl⟩, fun j hj => ?_⟩,
        by simp, rfl, rfl, rfl, fun _ h _ => by
          cases h
          exact rfl, by simp⟩
      exact ⟨fun h => absurd h hj, fun h => absurd h (hnobody j)⟩
  | joined =>
      exact ⟨hv, .refl _ _, by simp [hmine], rfl, rfl, rfl, by simp, fun _ _ hstarted _ =>
        .inr hstarted⟩
  | calls raised =>
      have hcanceller : v.canceller = some i := hmine.mpr rfl
      refine ⟨⟨hv.unowned, hv.handle, hv.ended, by simp⟩,
        ⟨id, id, fun _ h => h, fun _ _ _ => ⟨rfl, rfl⟩, fun j hj => ?_⟩,
        by simp, rfl, rfl, rfl, fun _ h hstarted => by
          cases h
          exact hstarted, by simp⟩
      simpa [hcanceller] using hj
  | leaves raised =>
      exact ⟨⟨hv.unowned, hv.handle, hv.ended, hv.live⟩,
        ⟨id, id, fun _ h => h, fun _ _ _ => ⟨rfl, rfl⟩, fun _ _ => Iff.rfl⟩,
        by simp [hmine], rfl, rfl, rfl, by simp, fun _ _ hstarted _ => .inr hstarted⟩

/-- What a step of thread `i` to the place `p` owes in request `n`. -/
structure Good (i : ι) (n : ℕ) (v v' : RequestView ι) (p : CloudPc) : Prop where
  ok : RequestOk v'
  keeps : Keeps (some i) v v'
  owner : v'.owner = v.owner
  cancels : p.cancels = some n ↔ v'.canceller = some i
  only : ∀ m, p.cancels = some m → m = n
  lists : ∀ m stage, p = .list m stage → m = n ∧ v'.owner = some i ∧ ListAt v' stage

/-- A step of thread `i` from `p` to `p'` that touches one request, and owes what it should. -/
def Touches (i : ι) (s s' : Cloud ι) (p p' : CloudPc) : Prop :=
  ∃ n v, Becomes s s' n v ∧ (∀ m, p.cancels = some m → m = n) ∧ Good i n (s.view n) v p'

theorem list_cancels {n m : ℕ} {stage : ListStage} :
    (CloudPc.list n stage).cancels = some m ↔ m = n ∧ stage = .cancel .native := by
  cases stage with
  | cancel stage => cases stage <;> simp [CloudPc.cancels, eq_comm]
  | _ => simp [CloudPc.cancels]

theorem close_cancels {g m : ℕ} {stage : CloudCloseStage} :
    (CloudPc.close g stage).cancels = some m ↔ ∃ rest, stage = .cancel m rest .native := by
  cases stage with
  | cancel n rest stage => cases stage <;> simp [CloudPc.cancels, eq_comm]
  | _ => simp [CloudPc.cancels]

/-- A step of the thread that lists, to its next stage. -/
theorem Good.list {i : ι} {n : ℕ} {v v' : RequestView ι} {stage : ListStage} (hv : RequestOk v')
    (hkeeps : Keeps (some i) v v') (ho : v'.owner = v.owner)
    (hcancels : stage = .cancel .native ↔ v'.canceller = some i) (howner : v.owner = some i)
    (hA : ListAt v' stage) : Good i n v v' (.list n stage) where
  ok := hv
  keeps := hkeeps
  owner := ho
  cancels := by simpa [list_cancels] using hcancels
  only m hm := (list_cancels.mp hm).1
  lists m stage' h := by
    obtain ⟨rfl, rfl⟩ : n = m ∧ stage = stage' := by simpa using h
    exact ⟨rfl, ho.trans howner, hA⟩

/-- A step of a thread to a place outside of `_list` and of the window. -/
theorem Good.outside {i : ι} {n : ℕ} {v v' : RequestView ι} {p : CloudPc} (hv : RequestOk v')
    (hkeeps : Keeps (some i) v v') (ho : v'.owner = v.owner) (hcancels : v'.canceller ≠ some i)
    (hp : p.cancels = none) (hlists : ∀ m stage, p ≠ .list m stage) : Good i n v v' p where
  ok := hv
  keeps := hkeeps
  owner := ho
  cancels := by simpa [hp] using hcancels
  only m hm := by simp [hp] at hm
  lists m stage h := absurd h (hlists m stage)

/-- The thread that lists changes its request, but no flag of a canceller. -/
theorem Keeps.own {i : ι} {v v' : RequestView ι} (howner : v.owner = some i)
    (ho : v'.owner = v.owner) (hc : v'.request.completed = v.request.completed)
    (hs : v'.request.cancelStarted = v.request.cancelStarted) (hw : v'.canceller = v.canceller) :
    Keeps (some i) v v' where
  completed h := hc.trans h
  cancelStarted h := hs.trans h
  owner j h := ho.trans h
  owned j hj hne := absurd (howner.symm.trans hj) hne
  canceller j _ := by rw [hw]

theorem Becomes.of_view {s s' : Cloud ι} (n : ℕ) (hview : s'.view = s.view)
    (hmade : s'.made = s.made) : Becomes s s' n (s.view n) where
  view := by rw [hview, Function.update_eq_self]
  made := hmade

/-- **A step of `_list` on its request keeps the invariant.** It destroys only a request that has
ended, and under the condition none that is about to be cancelled. -/
theorem list_good {errorName : ℤ → String} {s s' : Cloud ι} {i : ι} {n : ℕ} {stage : ListStage}
    {act : CloudAction} {p : CloudPc} (hv : RequestOk (s.view n))
    (hmine : stage = .cancel .native ↔ (s.view n).canceller = some i)
    (howner : (s.view n).owner = some i) (hA : ListAt (s.view n) stage)
    (hok : ∀ raised, stage = .destroy raised → act = .native (.code 0) →
      ∀ j, (s.view n).canceller ≠ some j)
    (h : listStep errorName s i n stage act = some (s', p)) :
    ∃ v, Becomes s s' n v ∧ Good i n (s.view n) v p := by
  cases stage with
  | start timed =>
      cases act with
      | native r =>
          have hidle : (s.view n).canceller ≠ some i := fun hi => by simp at hmine; exact hmine hi
          simp only [listStep] at h
          split at h
          · cases h
            refine ⟨_, becomes_setNative s n .live, .list ?_ (.own howner rfl rfl rfl rfl) rfl ?_
              howner rfl⟩
            · refine ⟨fun h => by simp [howner] at h, fun _ => by simp, fun h => by simp at h,
                fun j hj => ⟨rfl, (hv.live j hj).2⟩⟩
            · simpa using hidle
          · cases h
            exact ⟨_, .same s n, .list hv (.refl _ _) rfl (by simpa using hidle) howner hA.1⟩
      | _ => cases h
  | startFailed e =>
      cases act with
      | go =>
          cases h
          refine ⟨_, becomes_modify s n _, .list ?_ (.own howner rfl rfl rfl rfl) rfl ?_ howner ?_⟩
          · exact ⟨hv.unowned, hv.handle, hv.ended, hv.live⟩
          · simpa using hmine
          · intro hset
            exact absurd (hA.symm.trans hset) (by simp)
      | _ => cases h
  | setHandle timed =>
      cases act with
      | go =>
          cases h
          have hlive : (s.view n).native = .live := hA
          refine ⟨_, becomes_modify s n _, .list ?_ (.own howner rfl rfl rfl rfl) rfl ?_ howner
            ⟨rfl, hlive⟩⟩
          · exact ⟨fun h => by simp [howner] at h, fun _ => by simp [hlive], hv.ended, hv.live⟩
          · simpa using hmine
      | _ => cases h
  | awaitCompleted timed =>
      cases act with
      | go =>
          simp only [listStep] at h
          split at h
          next hcompleted =>
            cases h
            exact ⟨_, .same s n, .list hv (.refl _ _) rfl (by simpa using hmine) howner
              ⟨hA.2, .inl hcompleted⟩⟩
          next => cases h
      | timeout =>
          simp only [listStep] at h
          split at h
          · cases h
            exact ⟨_, .same s n,
              .list hv (.refl _ _) rfl (by simpa using hmine) howner ⟨hA, trivial⟩⟩
          · cases h
      | _ => cases h
  | cancel stage =>
      obtain ⟨⟨s₁, next⟩, hcancel, hnext⟩ := Option.map_eq_some_iff.mp h
      obtain ⟨v, hbecomes, hmoves⟩ := cancelStep_cases hcancel
      have hgood := cancel_good hv (by simpa [eq_comm] using hmine.symm) hmoves
      have hset : v.request.handle = true := hgood.handle.trans hA.1.1
      have hlive : v.native = .live := hgood.native.trans hA.1.2
      rcases next with stage' | _ | e
      · obtain ⟨rfl, rfl⟩ : s₁ = s' ∧ CloudPc.list n (.cancel stage') = p := by simpa using hnext
        refine ⟨v, hbecomes, .list hgood.ok hgood.keeps hgood.owner ?_ howner
          ⟨⟨hset, hlive⟩, hgood.stays stage' rfl hA.2⟩⟩
        simpa using hgood.canceller.symm
      · obtain ⟨rfl, rfl⟩ : s₁ = s' ∧ CloudPc.list n .awaitCancelled = p := by simpa using hnext
        refine ⟨v, hbecomes, .list hgood.ok hgood.keeps hgood.owner ?_ howner
          ⟨hlive, hgood.ends none rfl hA.2 hA.1.1⟩⟩
        simpa using hgood.canceller.symm
      · obtain ⟨rfl, rfl⟩ : s₁ = s' ∧ CloudPc.list n (.destroy (some e)) = p := by
          simpa using hnext
        refine ⟨v, hbecomes, .list hgood.ok hgood.keeps hgood.owner ?_ howner
          fun _ => ⟨hlive, hgood.ends (some e) rfl hA.2 hA.1.1⟩⟩
        simpa using hgood.canceller.symm
  | awaitCancelled =>
      cases act with
      | go =>
          simp only [listStep] at h
          split at h
          · cases h
            exact ⟨_, .same s n, .list hv (.refl _ _) rfl (by simpa using hmine) howner hA⟩
          · cases h
      | _ => cases h
  | result timedOut =>
      cases act with
      | native r =>
          cases h
          exact ⟨_, .same s n, .list hv (.refl _ _) rfl (by simpa using hmine) howner fun _ => hA⟩
      | _ => cases h
  | destroy raised =>
      have hidle : (s.view n).canceller ≠ some i := fun hi => by simp at hmine; exact hmine hi
      cases act with
      | go =>
          simp only [listStep] at h
          split at h
          · cases h
          · cases h
            exact ⟨_, .same s n, .list hv (.refl _ _) rfl (by simpa using hidle) howner trivial⟩
      | native r =>
          simp only [listStep] at h
          split at h
          next hset =>
            obtain ⟨hlive, hended⟩ := hA hset
            split at h
            next hclosed =>
              cases h
              have hr : r = .code 0 := NativeResult.retryInUse_eq_none.mp hclosed
              have hnobody := hok raised rfl (congrArg _ hr)
              refine ⟨_, becomes_setNative s n .destroyed,
                .list ?_ (.own howner rfl rfl rfl rfl) rfl
                (by simpa using hidle) howner trivial⟩
              exact ⟨fun h => by simp [howner] at h, fun _ => by simp, fun _ => hended,
                fun j hj => absurd hj (hnobody j)⟩
            next =>
              cases h
              exact ⟨_, .same s n, .list hv (.refl _ _) rfl (by simpa using hidle) howner trivial⟩
          next => cases h
      | _ => cases h
  | discard raised =>
      cases act with
      | go =>
          cases h
          exact ⟨_, .of_view n rfl rfl,
            .list hv (.refl _ _) rfl (by simpa using hmine) howner trivial⟩
      | _ => cases h
  | finish raised =>
      cases act with
      | go =>
          cases h
          have hidle : (s.view n).canceller ≠ some i := fun hi => by simp at hmine; exact hmine hi
          refine ⟨_, becomes_modify s n _, .outside ?_ (.own howner rfl rfl rfl rfl) rfl hidle rfl
            (by simp)⟩
          exact ⟨hv.unowned, hv.handle, hv.ended, hv.live⟩
      | _ => cases h

/-- A step of a closing thread that leaves the requests alone, to a place outside of the window. -/
theorem quiet_good {s s' : Cloud ι} {i : ι} {p p' : CloudPc} (hs : CloudOk s) (hA : At i s p)
    (hview : s'.view = s.view) (hmade : s'.made = s.made) (hp : p.cancels = none)
    (hp' : p'.cancels = none) (hlists : ∀ m stage, p' ≠ .list m stage) : Touches i s s' p p' := by
  refine ⟨0, _, .of_view 0 hview hmade, by simp [hp],
    .outside (hs.request 0) (.refl _ _) rfl ?_ hp' hlists⟩
  intro hi
  have hwindow := (hA.cancels 0).mpr hi
  simp [hp] at hwindow

/-- **A step of `_close_cloud` keeps the invariant.** -/
theorem close_good {errorName : ℤ → String} {s s' : Cloud ι} {i : ι} {g : ℕ}
    {stage : CloudCloseStage} {act : CloudAction} {p : CloudPc} (hs : CloudOk s)
    (hA : At i s (.close g stage)) (h : closeStep errorName s i g stage act = some (s', p)) :
    Touches i s s' (.close g stage) p := by
  cases stage with
  | cancel n rest stage =>
      obtain ⟨⟨s₁, next⟩, hcancel, hnext⟩ := Option.map_eq_some_iff.mp h
      obtain ⟨v, hbecomes, hmoves⟩ := cancelStep_cases hcancel
      have hmine : (s.view n).canceller = some i ↔ stage = .native := by
        rw [← hA.cancels n, close_cancels]
        simp
      have hgood := cancel_good (hs.request n) hmine hmoves
      have honly : ∀ m, (CloudPc.close g (.cancel n rest stage)).cancels = some m → m = n := by
        intro m hm
        obtain ⟨rest', heq⟩ := close_cancels.mp hm
        simp only [CloudCloseStage.cancel.injEq] at heq
        exact heq.1.symm
      rcases next with stage' | _ | e
      · obtain ⟨rfl, rfl⟩ : s₁ = s' ∧ CloudPc.close g (.cancel n rest stage') = p := by
          simpa using hnext
        refine ⟨n, v, hbecomes, honly, hgood.ok, hgood.keeps, hgood.owner, ?_, ?_, by simp⟩
        · rw [hgood.canceller, close_cancels]
          simp
        · intro m hm
          obtain ⟨rest', heq⟩ := close_cancels.mp hm
          simp only [CloudCloseStage.cancel.injEq] at heq
          exact heq.1.symm
      · obtain ⟨rfl, rfl⟩ : s₁ = s' ∧ CloudPc.close g (.awaitEnd n rest) = p := by
          simpa using hnext
        refine ⟨n, v, hbecomes, honly, .outside hgood.ok hgood.keeps hgood.owner ?_ rfl (by simp)⟩
        simp [hgood.canceller]
      · obtain ⟨rfl, rfl⟩ : s₁ = s' ∧ CloudPc.close g (.fail e) = p := by simpa using hnext
        refine ⟨n, v, hbecomes, honly, .outside hgood.ok hgood.keeps hgood.owner ?_ rfl (by simp)⟩
        simp [hgood.canceller]
  | next rest =>
      cases act with
      | go =>
          cases rest with
          | nil =>
              cases h
              exact quiet_good hs hA rfl rfl rfl rfl (by simp)
          | cons n rest =>
              cases h
              exact quiet_good hs hA rfl rfl rfl rfl (by simp)
      | _ => cases rest <;> cases h
  | awaitEnd n rest =>
      cases act with
      | go =>
          simp only [closeStep] at h
          split at h
          · cases h
            exact quiet_good hs hA rfl rfl rfl rfl (by simp)
          · cases h
      | _ => cases h
  | awaitFinished n rest =>
      cases act with
      | go =>
          simp only [closeStep] at h
          split at h
          · cases h
            exact quiet_good hs hA rfl rfl rfl rfl (by simp)
          · cases h
      | _ => cases h
  | children =>
      cases act with
      | children error childError =>
          cases error with
          | none =>
              cases h
              exact quiet_good hs hA rfl rfl rfl rfl (by simp)
          | some e =>
              cases h
              exact quiet_good hs hA rfl rfl rfl rfl (by simp)
      | _ => cases h
  | destroy childError =>
      cases act with
      | native r =>
          simp only [closeStep] at h
          split at h
          · cases h
            exact quiet_good hs hA rfl rfl rfl rfl (by simp)
          · cases h
            exact quiet_good hs hA rfl rfl rfl rfl (by simp)
      | _ => cases h
  | succeed childError =>
      cases act with
      | go =>
          cases h
          exact quiet_good hs hA rfl rfl rfl rfl (by simp)
      | _ => cases h
  | fail e =>
      cases act with
      | go =>
          cases h
          exact quiet_good hs hA rfl rfl rfl rfl (by simp)
      | _ => cases h

/-- The first section of `_close_cloud` leaves the requests alone. -/
theorem close_begin_good {s s' : Cloud ι} {i : ι} {p p' : CloudPc} (hs : CloudOk s) (hA : At i s p)
    (hp : p.cancels = none) (h : closeBegin s = (s', p')) : Touches i s s' p p' := by
  unfold closeBegin at h
  generalize s.close.begin = began at h
  obtain ⟨result, close⟩ := began
  cases result with
  | join g =>
      cases h
      exact quiet_good hs hA rfl rfl hp rfl (by simp)
  | none =>
      cases h
      exact quiet_good hs hA rfl rfl hp rfl (by simp)
  | inUse =>
      cases h
      exact quiet_good hs hA rfl rfl hp rfl (by simp)
  | perform g =>
      cases h
      exact quiet_good hs hA rfl rfl hp rfl (by simp)

/-- A joiner that wakes leaves the requests alone. -/
theorem close_wake_good {s s' : Cloud ι} {i : ι} {g : ℕ} {p : CloudPc} (hs : CloudOk s)
    (hA : At i s (.closeJoin g)) (h : closeWake s g = some (s', p)) :
    Touches i s s' (.closeJoin g) p := by
  obtain ⟨error, -, hleave⟩ := Option.bind_eq_some_iff.mp h
  obtain ⟨close, -, hnext⟩ := Option.map_eq_some_iff.mp hleave
  obtain ⟨rfl, rfl⟩ := Prod.mk.inj hnext
  exact quiet_good hs hA rfl rfl rfl rfl (by simp)

/-- The first section of `_list` makes a request that nobody knows, or changes nothing. -/
theorem list_begin_good {s s' : Cloud ι} {i : ι} {p p' : CloudPc} {timed : Bool} (hs : CloudOk s)
    (hA : At i s p) (hp : p.cancels = none) (h : listBegin s i timed = (s', p')) :
    Touches i s s' p p' ∨
      s'.made = s.made + 1 ∧ s'.view = Function.update s.view s.made
        { s.view s.made with owner := some i } ∧ p' = .list s.made (.start timed) := by
  unfold listBegin at h
  split at h
  · obtain ⟨rfl, rfl⟩ := Prod.mk.inj h
    exact .inl (quiet_good hs hA rfl rfl hp rfl (by simp))
  · split at h
    · obtain ⟨rfl, rfl⟩ := Prod.mk.inj h
      exact .inl (quiet_good hs hA rfl rfl hp rfl (by simp))
    · obtain ⟨rfl, rfl⟩ := Prod.mk.inj h
      refine .inr ⟨rfl, ?_, rfl⟩
      funext m
      by_cases hm : m = s.made <;> simp [Cloud.view, hm]

/-! ## Every interleaving -/

/-- The condition on a step of a thread, by the thread's own place: it does not destroy a request
that somebody has decided to cancel and not yet cancelled. -/
def sparesCanceller (_ : ι) (s : Cloud ι) (p : CloudPc) (act : CloudAction) : Prop :=
  ∀ n raised, p = .list n (.destroy raised) → act = .native (.code 0) →
    ∀ j, (s.view n).canceller ≠ some j

/-- Such a step gives the invariant, the assertion and the guarantee. -/
theorem Touches.spread {s s' : Cloud ι} {i : ι} {p p' : CloudPc} (hs : CloudOk s) (hA : At i s p)
    (htouches : Touches i s s' p p') :
    CloudOk s' ∧ At i s' p' ∧ ∀ m, Keeps (some i) (s.view m) (s'.view m) := by
  obtain ⟨n, v, hb, hp, h⟩ := htouches
  have hself : s'.view n = v := by rw [hb.view, Function.update_self]
  have hother : ∀ m, m ≠ n → s'.view m = s.view m := by
    intro m hm
    rw [hb.view, Function.update_of_ne hm]
  have hkeeps : ∀ m, Keeps (some i) (s.view m) (s'.view m) := by
    intro m
    by_cases hm : m = n
    · subst hm
      rw [hself]
      exact h.keeps
    · rw [hother m hm]
      exact .refl _ _
  refine ⟨⟨?_, ?_⟩, ⟨?_, ?_⟩, hkeeps⟩
  · intro m
    by_cases hm : m = n
    · rw [hm, hself]
      exact h.ok
    · rw [hother m hm]
      exact hs.request m
  · intro m hmade
    rw [hb.made] at hmade
    by_cases hm : m = n
    · rw [hm, hself, h.owner]
      exact hs.unmade n (hm ▸ hmade)
    · rw [hother m hm]
      exact hs.unmade m hmade
  · intro m
    by_cases hm : m = n
    · rw [hm, hself]
      exact h.cancels
    · rw [hother m hm, ← hA.cancels m]
      exact ⟨fun hc => absurd (h.only m hc) hm, fun hc => absurd (hp m hc) hm⟩
  · intro m stage hstage
    obtain ⟨rfl, howner, hat⟩ := h.lists m stage hstage
    rw [hself]
    exact ⟨howner, hat⟩

/-- A new request: nobody has known it. -/
theorem made_good {s s' : Cloud ι} {i : ι} {p : CloudPc} {timed : Bool} (hs : CloudOk s)
    (hA : At i s p) (hp : p.cancels = none) (hmade : s'.made = s.made + 1)
    (hview : s'.view = Function.update s.view s.made { s.view s.made with owner := some i }) :
    CloudOk s' ∧ At i s' (.list s.made (.start timed)) ∧
      ∀ m, Keeps (some i) (s.view m) (s'.view m) := by
  have hself : s'.view s.made = { s.view s.made with owner := some i } := by
    rw [hview, Function.update_self]
  have hother : ∀ m, m ≠ s.made → s'.view m = s.view m := by
    intro m hm
    rw [hview, Function.update_of_ne hm]
  have hfresh := hs.request s.made
  have hnobody : (s.view s.made).owner = none := hs.unmade s.made le_rfl
  obtain ⟨hhandle, habsent⟩ := hfresh.unowned hnobody
  have hidle : ∀ m, (s.view m).canceller ≠ some i := by
    intro m hm
    have hwindow := (hA.cancels m).mpr hm
    simp [hp] at hwindow
  refine ⟨⟨?_, ?_⟩, ⟨?_, ?_⟩, ?_⟩
  · intro m
    by_cases hm : m = s.made
    · rw [hm, hself]
      exact ⟨by simp, hfresh.handle, hfresh.ended, hfresh.live⟩
    · rw [hother m hm]
      exact hs.request m
  · intro m hm
    rw [hmade] at hm
    rw [hother m (by omega)]
    exact hs.unmade m (by omega)
  · intro m
    by_cases hm : m = s.made
    · rw [hm, hself]
      simpa [list_cancels] using hidle s.made
    · rw [hother m hm]
      simpa [list_cancels] using hidle m
  · intro m stage hstage
    obtain ⟨rfl, rfl⟩ : s.made = m ∧ ListStage.start timed = stage := by simpa using hstage
    rw [hself]
    exact ⟨rfl, hhandle, habsent⟩
  · intro m
    by_cases hm : m = s.made
    · rw [hm, hself]
      refine ⟨id, id, fun j hj => ?_, fun _ _ _ => ⟨rfl, rfl⟩, fun _ _ => Iff.rfl⟩
      simp [hnobody] at hj
    · rw [hother m hm]
      exact .refl _ _

/-- A completion only sets a flag that is never taken back. -/
theorem completed_good {s : Cloud ι} (hs : CloudOk s) (n : ℕ) :
    let s' := s.modify n fun request => { request with completed := true }
    CloudOk s' ∧ ∀ m, Keeps none (s.view m) (s'.view m) := by
  intro s'
  have hb : Becomes s s' n _ := becomes_modify s n _
  have hself := congrFun hb.view n
  rw [Function.update_self] at hself
  have hother : ∀ m, m ≠ n → s'.view m = s.view m := by
    intro m hm
    rw [hb.view, Function.update_of_ne hm]
  refine ⟨⟨?_, ?_⟩, ?_⟩
  · intro m
    by_cases hm : m = n
    · rw [hm, hself]
      have hn := hs.request n
      exact ⟨hn.unowned, hn.handle, fun _ => .inl rfl, hn.live⟩
    · rw [hother m hm]
      exact hs.request m
  · intro m hmade
    by_cases hm : m = n
    · rw [hm, hself]
      exact hs.unmade n (hm ▸ hmade)
    · rw [hother m hm]
      exact hs.unmade m hmade
  · intro m
    by_cases hm : m = n
    · rw [hm, hself]
      exact ⟨fun _ => rfl, id, fun _ h => h, fun _ _ _ => ⟨rfl, rfl⟩, fun _ _ => Iff.rfl⟩
    · rw [hother m hm]
      exact .refl _ _

/-- **Every step keeps the invariant, and what a thread knows, the others leave alone.** -/
theorem cloud_rely_guarantee (errorName : ℤ → String) :
    Threads.RelyGuarantee (cloudCalls ι errorName) sparesCanceller (fun _ _ => True) CloudOk At
      (fun k s s' => ∀ n, Keeps k (s.view n) (s'.view n)) where
  start s hs := by
    obtain rfl : s = {} := hs
    refine ⟨⟨?_, fun n _ => rfl⟩, fun i => ⟨?_, by simp [cloudCalls]⟩⟩
    · intro n
      exact ⟨fun _ => ⟨rfl, rfl⟩, by simp [Cloud.view], by simp [Cloud.view], by simp [Cloud.view]⟩
    · intro n
      simp [cloudCalls, CloudPc.cancels, Cloud.view]
  thread i s p act s' p' hs hA hok hstep := by
    cases p with
    | idle raised =>
        cases act with
        | list timed =>
            have hbegin : listBegin s i timed = (s', p') := Option.some.inj hstep
            rcases list_begin_good hs hA rfl hbegin with htouches | ⟨hmade, hview, rfl⟩
            · exact htouches.spread hs hA
            · exact made_good hs hA rfl hmade hview
        | close => exact (close_begin_good hs hA rfl (Option.some.inj hstep)).spread hs hA
        | _ => cases hstep
    | list n stage =>
        obtain ⟨howner, hat⟩ := hA.lists n stage rfl
        have hmine : stage = .cancel .native ↔ (s.view n).canceller = some i := by
          rw [← hA.cancels n, list_cancels]
          simp
        obtain ⟨v, hb, hgood⟩ := list_good (hs.request n) hmine howner hat
          (fun raised hstage hact => hok n raised (hstage ▸ rfl) hact) hstep
        exact Touches.spread hs hA ⟨n, v, hb, fun m hm => (list_cancels.mp hm).1, hgood⟩
    | closeJoin g =>
        cases act with
        | go => exact (close_wake_good hs hA hstep).spread hs hA
        | _ => cases hstep
    | close g stage => exact (close_good hs hA hstep).spread hs hA
  env s n s' hs _ hstep := by
    obtain ⟨hlive, rfl⟩ : s.native n = .live ∧
        s.modify n (fun request => { request with completed := true }) = s' := by
      simpa [cloudCalls, completeStep] using hstep
    exact completed_good hs n
  stable j k s s' p hk _ _ hG hA := hA.stable hk hG

/-! ## The window -/

/-- The request whose native close is the next call of a thread here. -/
def CloudPc.destroys : CloudPc → Option ℕ
  | .list n (.destroy _) => some n
  | _ => none

/-- The request that a step destroys: the native close of the thread that lists returns 0. -/
def destroyed (c : Config ι (Cloud ι) CloudPc) :
    Label ι CloudAction ℕ → Option ℕ
  | .thread i (.native (.code 0)) => (c.pc i).destroys
  | _ => none

/-- **The condition**: a request is destroyed only while no thread stands between its decision in
`cancel` and its native `request_cancel`. -/
def sparesWindows (c : Config ι (Cloud ι) CloudPc)
    (l : Label ι CloudAction ℕ) : Prop :=
  ∀ n ∈ destroyed c l, ∀ j, (c.pc j).cancels ≠ some n

instance [Fintype ι] (c : Config ι (Cloud ι) CloudPc) (l : Label ι CloudAction ℕ) :
    Decidable (sparesWindows c l) :=
  inferInstanceAs (Decidable (∀ n ∈ destroyed c l, ∀ j, (c.pc j).cancels ≠ some n))

theorem destroyed_cases {c : Config ι (Cloud ι) CloudPc} {l : Label ι CloudAction ℕ} {n : ℕ}
    (h : destroyed c l = some n) :
    ∃ i raised, l = .thread i (.native (.code 0)) ∧ c.pc i = .list n (.destroy raised) := by
  unfold destroyed at h
  split at h
  next i =>
    unfold CloudPc.destroys at h
    split at h
    next m raised hpc =>
      obtain rfl := Option.some.inj h
      exact ⟨i, raised, rfl, hpc⟩
    next => cases h
  next => cases h

/-- Under the condition, no thread destroys what another has decided to cancel: who has decided is
in the window. -/
theorem sparesCanceller_of_sparesWindows {c : Config ι (Cloud ι) CloudPc}
    {l : Label ι CloudAction ℕ} (hA : ∀ i, At i c.shared (c.pc i))
    (hl : sparesWindows c l) : Threads.guard sparesCanceller (fun _ _ => True) c l := by
  rcases l with ⟨i, act⟩ | e
  · intro n raised hpc hact j hj
    subst hact
    have hdestroys : destroyed c (.thread i (.native (.code 0))) = some n := by
      simp [destroyed, hpc, CloudPc.destroys]
    exact hl n hdestroys j (((hA j).cancels n).mpr hj)
  · trivial

section Runs

variable [DecidableEq ι]

/-- **A list request is never cancelled after it is destroyed**, in every run that destroys no
request while a thread stands between its decision to cancel it and its call. -/
theorem never_cancelled_late (errorName : ℤ → String)
    {c : Config ι (Cloud ι) CloudPc}
    (hc : (cloudCalls ι errorName).machine.ReachWith sparesWindows c) :
    ∀ i n, (c.pc i).cancels = some n → c.shared.native n ≠ .destroyed := by
  intro i n hcancels
  obtain ⟨hs, hA⟩ := (cloud_rely_guarantee errorName).reach_of
    (fun _ _ _ hA hl => sparesCanceller_of_sparesWindows hA hl) hc
  have hlive := ((hs.request n).live i (((hA i).cancels n).mp hcancels)).1
  have hnative : c.shared.native n = .live := hlive
  simp [hnative]

/-- A step that does break the condition leaves a thread that cancels a destroyed request. -/
theorem cancelled_late_of_window {errorName : ℤ → String}
    {c c' : Config ι (Cloud ι) CloudPc} {l : Label ι CloudAction ℕ} {n : ℕ} {j : ι}
    (hn : destroyed c l = some n) (hj : (c.pc j).cancels = some n)
    (hstep : (cloudCalls ι errorName).machine.step c l = some c') :
    (c'.pc j).cancels = some n ∧ c'.shared.native n = .destroyed := by
  obtain ⟨i, raised, rfl, hpc⟩ := destroyed_cases hn
  obtain ⟨⟨s', p'⟩, hnext, rfl⟩ := Option.map_eq_some_iff.mp hstep
  have hlist : listStep errorName c.shared i n (.destroy raised) (.native (.code 0)) =
      some (s', p') := by
    rw [hpc] at hnext
    exact hnext
  have hclosed : (NativeResult.code 0).retryInUse errorName = none :=
    NativeResult.retryInUse_eq_none.mpr rfl
  simp only [listStep, hclosed] at hlist
  split at hlist
  · obtain ⟨rfl, rfl⟩ : c.shared.setNative n .destroyed = s' ∧
        CloudPc.list n (.discard raised) = p' := by simpa using hlist
    have hne : j ≠ i := fun h => by simp [h, hpc, CloudPc.cancels] at hj
    exact ⟨by simpa [hne] using hj, by simp [Cloud.setNative]⟩
  · cases hlist

end Runs

/-- A Cloud without requests, and no call. -/
def newCloud : Config (Fin 2) (Cloud (Fin 2)) CloudPc := ⟨{}, fun _ => .idle none⟩

/-- Thread `0` lists, and thread `1` closes the Cloud and decides to cancel the request. -/
def listAndClose : List (Label (Fin 2) CloudAction ℕ) :=
  [.thread 0 (.list false), .thread 0 (.native (.code 0)), .thread 0 .go, .thread 1 .close,
    .thread 1 .go, .thread 1 .go, .thread 1 .go]

/-- The Runtime completes the request, and thread `0` reads its result and destroys it. -/
def completeAndDestroy : List (Label (Fin 2) CloudAction ℕ) :=
  [.env 0, .thread 0 .go, .thread 0 (.native (.code 0)), .thread 0 (.native (.code 0))]

/-- **The late cancel**: the request is completed and destroyed between the decision of the closing
thread and its call. -/
theorem cancelled_late :
    ¬ ∀ c : Config (Fin 2) (Cloud (Fin 2)) CloudPc,
      (cloudCalls (Fin 2) fun _ => "").machine.Reach c →
      ∀ i n, (c.pc i).cancels = some n → c.shared.native n ≠ .destroyed := by
  intro h
  have hstart : (cloudCalls (Fin 2) fun _ => "").machine.start newCloud := ⟨rfl, rfl⟩
  obtain ⟨c, hc, hbad⟩ := Machine.exists_reach (l := listAndClose ++ completeAndDestroy)
    (p := fun c : Config (Fin 2) (Cloud (Fin 2)) CloudPc =>
      decide ((c.pc 1).cancels = some 0 ∧ c.shared.native 0 = .destroyed)) hstart (by decide)
  obtain ⟨hcancels, hdestroyed⟩ := of_decide_eq_true hbad
  exact h c hc 1 0 hcancels hdestroyed

/-- The same threads, when the closing thread makes its call before the request is destroyed. -/
theorem never_cancelled_late_called :
    ∃ c, (cloudCalls (Fin 2) fun _ => "").machine.exec newCloud
        (listAndClose ++ [.thread 1 (.native (.code 0))] ++ completeAndDestroy) = some c ∧
      ∀ i n, (c.pc i).cancels = some n → c.shared.native n ≠ .destroyed := by
  have hguarded : ((cloudCalls (Fin 2) fun _ => "").machine.guarded
      fun c l => decide (sparesWindows c l)).exec newCloud
        (listAndClose ++ [.thread 1 (.native (.code 0))] ++ completeAndDestroy) = some _ := rfl
  have hstart : (cloudCalls (Fin 2) fun _ => "").machine.start newCloud := ⟨rfl, rfl⟩
  have hreach := Machine.ReachWith.exec (.start hstart) hguarded
  exact ⟨_, rfl, never_cancelled_late _ (hreach.mono fun _ _ => of_decide_eq_true)⟩

end

end Tirtc.Storage
