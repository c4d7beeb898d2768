import Tirtc.Dispatch.Barriers
import Tirtc.Dispatch.PoolCalls
import Tirtc.Following

/-!
# What the calls that wait for the callback pool keep

* `detachRefusal_eq_none`, `closeRefusal_eq_none`: what the guards rule out.
* `Kept`, `moves_kept`: a call from a callback never waits for that callback's own dispatcher.
* `Tracked`, `moves_tracked`: every coordinator follows the threads that close its object, so the
  close that a thread has joined is performed by a thread.
* `reach_kept`, `reach_tracked`: the run lemmas.
-/

set_option autoImplicit false
set_option linter.unusedSectionVars false

namespace Tirtc

open Transition

namespace PoolCalls

variable {O P K ι V : Type} [DecidableEq O] [DecidableEq P] [DecidableEq K] [DecidableEq ι]

/-! ## What the guards rule out -/

section Refusals

variable {errorName : ℤ → String} {s : PoolCalls O P K ι V} {t : Fin 2 ⊕ ι}

theorem detachInUse_eq_false {o : O} {p : P} (h : s.detachInUse t o p = false) :
    s.detaching o = false ∧ s.owner t ≠ some (.inl o) := by
  simp only [detachInUse, Bool.or_eq_false_iff, decide_eq_false_iff_not] at h
  exact ⟨h.1.1, h.1.2⟩

/-- A detach that is not refused has the Output to itself, and is not in its callback. -/
theorem detachRefusal_eq_none {o : O} (h : s.detachRefusal errorName t o = none) :
    s.detaching o = false ∧ s.owner t ≠ some (.inl o) := by
  unfold detachRefusal at h
  split at h
  next => cases h
  next =>
    split at h
    next => cases h
    next p hbound =>
      split at h
      next => cases h
      next huse => exact detachInUse_eq_false (by simpa using huse)

/-- A close that is not refused is not of the object whose callback the thread runs. -/
theorem closeRefusal_eq_none {x : Closable O P K} {related : Bool} {order : List O} {g : ℕ}
    (h : s.closeRefusal t related x = none) {d : O ⊕ P} (hd : s.owner t = some d) :
    (newFrame order g x).dispatcher ≠ some d := by
  cases x with
  | output o =>
      intro hframe
      cases hframe
      simp [closeRefusal, closeOutputRefusal, hd] at h
  | source p =>
      intro hframe
      cases hframe
      simp [closeRefusal, closeSourceRefusal, hd] at h
  | root k =>
      intro hframe
      cases hframe

end Refusals

end PoolCalls

/-! ## The invariant -/

/-- The dispatcher that has to be drained for the wait to end. -/
def PoolWait.dispatcher {O P K : Type} : PoolWait O P K → Option (O ⊕ P)
  | .barrier o => some (.inl o)
  | .closing d => some d
  | .join _ _ => none

/-- **The calls keep away from dispatcher `d`.** -/
structure PoolCall.Apart {O P K : Type} (d : O ⊕ P) (c : PoolCall O P K) : Prop where
  frames : ∀ f ∈ c.frames, f.dispatcher ≠ some d
  wait : ∀ w, c.wait = some w → w.dispatcher ≠ some d

namespace PoolCalls

variable {O P K ι V : Type} [DecidableEq O] [DecidableEq P] [DecidableEq K] [DecidableEq ι]

/-- What holds of a wait: the Output is being detached, the dispatcher is closed, or the joined
generation has begun. -/
def Fits (s : PoolCalls O P K ι V) : PoolWait O P K → Prop
  | .barrier o => s.detaching o = true
  | .closing d => (s.pool.dispatchers d).closed = true
  | .join x g => g ≤ (s.close x).generation

/-- **The invariant**: a pool thread is in a call only while it runs a callback, the calls of a
callback keep away from its own dispatcher, and one thread at a time waits at the barrier of an
Output. -/
structure Kept (s : PoolCalls O P K ι V) : Prop where
  phases : Executor.Phases s.pool
  free : ∀ w, (s.pool.worker w).handling = none → (s.call (.inl w)).free = true
  apart : ∀ w d, (s.pool.worker w).handling = some d → (s.call (.inl w)).Apart d
  fits : ∀ t w, (s.call t).wait = some w → s.Fits w
  alone : ∀ t t' o, (s.call t).wait = some (.barrier o) → (s.call t').wait = some (.barrier o) →
    t = t'

variable {errorName : ℤ → String} {s s' r : PoolCalls O P K ι V} {t : Fin 2 ⊕ ι}

omit [DecidableEq O] [DecidableEq P] [DecidableEq K] [DecidableEq ι] in
theorem free_iff {c : PoolCall O P K} : c.free = true ↔ c.frames = [] ∧ c.wait = none := by
  simp [PoolCall.free]

omit [DecidableEq O] [DecidableEq P] [DecidableEq K] [DecidableEq ι] in
/-- No call is away from every dispatcher. -/
theorem apart_of_free {c : PoolCall O P K} (h : c.free = true) (d : O ⊕ P) : c.Apart d := by
  obtain ⟨hframes, hwait⟩ := free_iff.mp h
  constructor
  · simp [hframes]
  · simp [hwait]

theorem goto_call (c : PoolCall O P K) (t' : Fin 2 ⊕ ι) :
    (s.goto t c).call t' = if t' = t then c else s.call t' := by
  by_cases h : t' = t
  · subst h
    simp [goto]
  · simp [goto, h]

/-- A pool thread that can make a call runs a callback. -/
theorem handling_of_canCall {w : Fin 2} (h : s.canCall (.inl w) = true) :
    ∃ d, (s.pool.worker w).handling = some d := by
  simp only [canCall, Bool.and_eq_true] at h
  exact Option.isSome_iff_exists.mp h.2

/-- A pool thread that waits runs a callback. -/
theorem Kept.handling (hs : Kept s) {w : Fin 2} {wait : PoolWait O P K}
    (h : (s.call (.inl w)).wait = some wait) : ∃ d, (s.pool.worker w).handling = some d := by
  cases hw : (s.pool.worker w).handling with
  | some d => exact ⟨d, rfl⟩
  | none =>
      obtain ⟨-, hnone⟩ := free_iff.mp (hs.free w hw)
      rw [hnone] at h
      cases h

/-- **A thread goes on to `c`**, in a state whose pool threads and calls are as before. -/
theorem Kept.goto (hs : Kept s) {c : PoolCall O P K} (hcall : r.call = s.call)
    (hworker : r.pool.worker = s.pool.worker) (hphases : Executor.Phases r.pool)
    (hrunning : ∀ w, t = .inl w → ∃ d, (s.pool.worker w).handling = some d)
    (hapart : ∀ w d, t = .inl w → (s.pool.worker w).handling = some d → c.Apart d)
    (hfits : ∀ w, c.wait = some w → r.Fits w)
    (hothers : ∀ t' w, t' ≠ t → (s.call t').wait = some w → r.Fits w)
    (halone : ∀ t' o, t' ≠ t → (s.call t').wait = some (.barrier o) →
      c.wait ≠ some (.barrier o)) : Kept (r.goto t c) where
  phases := hphases
  free w hw := by
    have hw : (s.pool.worker w).handling = none := hworker ▸ hw
    have hne : (.inl w : Fin 2 ⊕ ι) ≠ t := by
      intro ht
      obtain ⟨d, hd⟩ := hrunning w ht.symm
      rw [hw] at hd
      cases hd
    rw [goto_call, if_neg hne, hcall]
    exact hs.free w hw
  apart w d hd := by
    have hd : (s.pool.worker w).handling = some d := hworker ▸ hd
    rw [goto_call]
    split
    next ht => exact hapart w d ht.symm hd
    next => exact hcall ▸ hs.apart w d hd
  fits t' w hwait := by
    rw [goto_call] at hwait
    split at hwait
    next => exact hfits w hwait
    next hne => exact hothers t' w hne (hcall ▸ hwait)
  alone t₁ t₂ o h₁ h₂ := by
    rw [goto_call] at h₁ h₂
    split at h₁
    next heq₁ =>
      split at h₂
      next heq₂ => exact heq₁.trans heq₂.symm
      next hne₂ => exact absurd h₁ (halone t₂ o hne₂ (hcall ▸ h₂))
    next hne₁ =>
      split at h₂
      next => exact absurd h₂ (halone t₁ o hne₁ (hcall ▸ h₁))
      next => exact hs.alone t₁ t₂ o (hcall ▸ h₁) (hcall ▸ h₂)

/-- A thread that can call goes on to `c` and waits for nothing. -/
theorem Kept.goes (hs : Kept s) {frames : List (CloseFrame O P K)} (hcall : r.call = s.call)
    (hpool : r.pool = s.pool)
    (hrunning : ∀ w, t = .inl w → ∃ d, (s.pool.worker w).handling = some d)
    (hframes : ∀ w d, t = .inl w → (s.pool.worker w).handling = some d →
      ∀ f ∈ frames, f.dispatcher ≠ some d)
    (hothers : ∀ t' w, t' ≠ t → (s.call t').wait = some w → r.Fits w) :
    Kept (r.goto t ⟨frames, none⟩) :=
  hs.goto hcall (by rw [hpool]) (hpool ▸ hs.phases) hrunning
    (fun w d ht hd => ⟨hframes w d ht hd, by simp⟩) (by simp) hothers (by simp)

/-! ## Every step keeps the invariant -/

section Steps

variable [FrameValues V]

/-- A step of the pool moves a pool thread that runs no callback, or ends one. -/
theorem pool_worker {pool : Executor (O ⊕ P) V} {a : ExecutorAction (O ⊕ P) V}
    (h : s.pool.step a = some pool) (v : Fin 2) :
    pool.worker v = s.pool.worker v ∨ (s.pool.worker v).handling = none ∨ a = .drainEnd v := by
  have hupdate : ∀ (w : Fin 2) (worker : Worker (O ⊕ P) V),
      (s.pool.worker w).handling = none ∨ a = .drainEnd w →
      Function.update s.pool.worker w worker v = s.pool.worker v ∨
        (s.pool.worker v).handling = none ∨ a = .drainEnd v := by
    intro w worker hw
    by_cases hv : v = w
    · subst hv
      exact .inr hw
    · exact .inl (Function.update_of_ne hv _ _)
  cases a with
  | get w =>
      obtain ⟨d, ready, hw, -, rfl⟩ := Executor.get_cases h
      exact hupdate w _ (.inl (by simp [hw]))
  | drainBegin w =>
      obtain ⟨d, hw, ⟨-, rfl⟩ | ⟨event, events, -, rfl⟩⟩ := Executor.drainBegin_cases h
      · exact hupdate w _ (.inl (by simp [hw]))
      · exact hupdate w _ (.inl (by simp [hw]))
  | drainEnd w =>
      obtain ⟨d, event, -, rfl⟩ := Executor.drainEnd_cases h
      exact hupdate w _ (.inr rfl)
  | reschedule w =>
      obtain ⟨d, hw, rfl⟩ := Executor.reschedule_cases h
      exact hupdate w _ (.inl (by simp [hw]))
  | put d =>
      obtain ⟨-, rfl⟩ := Executor.put_cases h
      exact .inl rfl
  | postNativeTask d task =>
      obtain ⟨r, -, rfl⟩ := Option.map_eq_some_iff.mp h
      exact .inl rfl
  | post d event latest =>
      cases h
      exact .inl rfl
  | close d =>
      cases h
      exact .inl rfl
  | discard d =>
      cases h
      exact .inl rfl

/-- A pool thread that runs another callback than before was in no call. -/
theorem Kept.free_of_moved (hs : Kept s) {pool : Executor (O ⊕ P) V}
    {a : ExecutorAction (O ⊕ P) V} (hallows : s.allows a = true)
    (h : s.pool.step a = some pool) {v : Fin 2} (hv : pool.worker v ≠ s.pool.worker v) :
    (s.call (.inl v)).free = true := by
  rcases pool_worker h v with heq | hnone | rfl
  · exact absurd heq hv
  · exact hs.free v hnone
  · exact hallows

theorem Kept.pool (hs : Kept s) {pool : Executor (O ⊕ P) V} {a : ExecutorAction (O ⊕ P) V}
    (hallows : s.allows a = true) (h : s.pool.step a = some pool) :
    Kept { s with pool := pool } where
  phases := Executor.phases_step hs.phases h
  free v hv := by
    by_cases heq : pool.worker v = s.pool.worker v
    · exact hs.free v (heq ▸ hv)
    · exact hs.free_of_moved hallows h heq
  apart v d hd := by
    by_cases heq : pool.worker v = s.pool.worker v
    · exact hs.apart v d (heq ▸ hd)
    · exact apart_of_free (hs.free_of_moved hallows h heq) d
  fits t w hwait := by
    have hfits := hs.fits t w hwait
    cases w with
    | closing d =>
        rcases Executor.step_dispatchers hs.phases h d with heq | ⟨x, hx⟩
        · exact (congrArg Dispatcher.closed heq).trans hfits
        · exact (Dispatcher.closed_section hx hfits).1
    | _ => exact hfits
  alone := hs.alone

/-- A callback that detaches an Output goes to a barrier that is not its own. -/
theorem Kept.toBarrier (hs : Kept s) {o : O} {frames : List (CloseFrame O P K)}
    (hcan : s.canCall t = true) (hdetaching : s.detaching o = false)
    (howner : s.owner t ≠ some (.inl o))
    (hframes : ∀ w d, t = .inl w → (s.pool.worker w).handling = some d →
      ∀ f ∈ frames, f.dispatcher ≠ some d) : Kept (s.toBarrier t o frames) := by
  -- nobody is at the barrier of an Output that is not being detached
  have hnobody : ∀ t', (s.call t').wait ≠ some (.barrier o) := by
    intro t' hwait
    have hfits : s.detaching o = true := hs.fits t' _ hwait
    rw [hdetaching] at hfits
    cases hfits
  refine hs.goto rfl rfl hs.phases ?_ ?_ ?_ ?_ ?_
  · rintro w rfl
    exact handling_of_canCall hcan
  · rintro w d rfl hd
    refine ⟨hframes w d rfl hd, fun wait hwait => ?_⟩
    cases hwait
    intro hdispatcher
    exact howner (hd.trans hdispatcher.symm)
  · intro wait hwait
    cases hwait
    exact Function.update_self _ _ _
  · intro t' wait _ hwait
    have hfits := hs.fits t' wait hwait
    cases wait with
    | barrier o' =>
        have hne : o' ≠ o := by
          rintro rfl
          exact hnobody t' hwait
        exact (Function.update_of_ne hne _ _).trans hfits
    | _ => exact hfits
  · intro t' o' _ hwait hc
    cases hc
    exact hnobody t' hwait

/-- The generations of the coordinators do not fall. -/
theorem Fits.setClose {x : Closable O P K} {c : CloseCoordinator}
    (hc : (s.close x).generation ≤ c.generation) {w : PoolWait O P K} (h : s.Fits w) :
    (s.setClose x c).Fits w := by
  cases w with
  | join y g =>
      refine Nat.le_trans (show g ≤ (s.close y).generation from h) ?_
      by_cases hy : y = x
      · subst hy
        simpa [PoolCalls.setClose] using hc
      · simp [PoolCalls.setClose, hy]
  | _ => exact h

/-- The reports leave the generation. -/
theorem Kept.report (hs : Kept s) {f : CloseFrame O P K} {frames : List (CloseFrame O P K)}
    {close : CloseCoordinator → ℕ → CloseCoordinator} {bound : O → Option P}
    (hclose : ∀ c g, (close c g).generation = c.generation) (hcan : s.canCall t = true)
    (hframes : ∀ f ∈ frames, f ∈ (s.call t).frames) :
    Kept (({ s with bound := bound } : PoolCalls O P K ι V).report t f frames close) := by
  refine hs.goes rfl rfl ?_ ?_ ?_
  · rintro w rfl
    exact handling_of_canCall hcan
  · rintro w d rfl hd f' hf'
    exact (hs.apart w d hd).frames f' (hframes f' hf')
  · intro t' w _ hwait
    have hfits : ({ s with bound := bound } : PoolCalls O P K ι V).Fits w := hs.fits t' w hwait
    exact hfits.setClose (hclose _ _).ge

/-- The frames of a callback after its innermost close has gone on. -/
theorem Kept.frames (hs : Kept s) {f f' : CloseFrame O P K} {frames : List (CloseFrame O P K)}
    (hf : (s.call t).frames = f :: frames) (hsame : f'.dispatcher = f.dispatcher) {w : Fin 2}
    {d : O ⊕ P} (ht : t = .inl w) (hd : (s.pool.worker w).handling = some d) :
    ∀ e ∈ f' :: frames, e.dispatcher ≠ some d := by
  subst ht
  have hframes := (hs.apart w d hd).frames
  rw [hf] at hframes
  intro e he
  rcases List.mem_cons.mp he with rfl | hmem
  · exact hsame ▸ hframes f List.mem_cons_self
  · exact hframes e (List.mem_cons_of_mem _ hmem)

/-- A thread that leaves its wait. -/
theorem Kept.wakes (hs : Kept s) {wait : PoolWait O P K} (hwait : (s.call t).wait = some wait)
    (hcall : r.call = s.call) (hpool : r.pool = s.pool)
    (hothers : ∀ t' w, t' ≠ t → (s.call t').wait = some w → r.Fits w) :
    Kept (r.goto t ⟨(s.call t).frames, none⟩) := by
  refine hs.goes hcall hpool ?_ ?_ hothers
  · rintro w rfl
    exact hs.handling hwait
  · rintro w d rfl hd
    exact (hs.apart w d hd).frames

/-- **The step lemma.** -/
theorem moves_kept {a : PoolCallAction O P K ι V} (hs : Kept s)
    (h : Moves errorName s a s') : Kept s' := by
  cases h with
  | pool a pool hallows hpool => exact hs.pool hallows hpool
  | attach o p => exact ⟨hs.phases, hs.free, hs.apart, hs.fits, hs.alone⟩
  | refused => exact hs
  | detach t o hcan _ hpass =>
      obtain ⟨hdetaching, howner⟩ := detachRefusal_eq_none hpass
      exact hs.toBarrier hcan hdetaching howner (by simp)
  | join t x order related hcan _ hpass _ =>
      refine hs.goto rfl rfl hs.phases ?_ ?_ ?_ ?_ (by simp)
      · rintro v rfl
        exact handling_of_canCall hcan
      · rintro v d rfl hd
        refine ⟨(hs.apart v d hd).frames, fun wait hwait => ?_⟩
        cases hwait
        simp [PoolWait.dispatcher]
      · intro wait hwait
        cases hwait
        simp [Fits, setClose]
      · intro t' wait _ hwait
        refine (hs.fits t' wait hwait).setClose ?_
        exact Nat.le_refl _
  | perform t x order related hcan _ hpass _ =>
      refine hs.goes rfl rfl ?_ ?_ ?_
      · rintro v rfl
        exact handling_of_canCall hcan
      · rintro v d rfl hd e he
        rcases List.mem_cons.mp he with rfl | hmem
        · exact closeRefusal_eq_none hpass hd
        · exact (hs.apart v d hd).frames e hmem
      · intro t' wait _ hwait
        exact (hs.fits t' wait hwait).setClose (Nat.le_succ _)
  | skip t raised p g o rest frames hcan hf _ =>
      refine hs.goes rfl rfl ?_ ?_ fun t' wait _ hwait => hs.fits t' wait hwait
      · rintro v rfl
        exact handling_of_canCall hcan
      · intro v d ht hd
        refine hs.frames hf ?_ ht hd
        rfl
  | detachNext t p g o rest frames hcan hf _ huse =>
      obtain ⟨hdetaching, howner⟩ := detachInUse_eq_false huse
      refine hs.toBarrier hcan hdetaching howner fun v d ht hd => hs.frames hf ?_ ht hd
      rfl
  | notDetached t raised p g o rest frames e hcan hf _ =>
      refine hs.report (fun c g => ?_) hcan fun f hmem => hf ▸ List.mem_cons_of_mem _ hmem
      simp [CloseCoordinator.fail]
  | closeDispatcher t d f f' frames hcan hf hclose =>
      obtain ⟨hdispatcher, -, hsame⟩ := CloseFrame.toClose_spec hclose
      have hframes := fun w d' ht hd => hs.frames (t := t) (w := w) (d := d') hf hsame ht hd
      refine hs.goto rfl rfl ?_ ?_ ?_ ?_ ?_ (by simp)
      · exact Executor.phases_step hs.phases (a := .close d) rfl
      · rintro v rfl
        exact handling_of_canCall hcan
      · rintro v d' rfl hd
        refine ⟨hframes v d' rfl hd, fun wait hwait => ?_⟩
        cases hwait
        have hne := hframes v d' rfl hd f' List.mem_cons_self
        rwa [hsame, hdispatcher] at hne
      · intro wait hwait
        cases hwait
        simp [Fits, Executor.afterPost, Dispatcher.close]
      · intro t' wait _ hwait
        have hfits := hs.fits t' wait hwait
        cases wait with
        | closing e =>
            by_cases he : e = d
            · subst he
              simp [Fits, Executor.afterPost, Dispatcher.close]
            · simpa [Fits, Executor.afterPost, he] using hfits
        | _ => exact hfits
  | succeed t error f frames hcan hf =>
      refine hs.report (fun c g => ?_) hcan fun f' hmem => hf ▸ List.mem_cons_of_mem _ hmem
      simp [CloseCoordinator.succeed]
  | fail t error f frames hcan hf =>
      refine hs.report (fun c g => ?_) hcan fun f' hmem => hf ▸ List.mem_cons_of_mem _ hmem
      simp [CloseCoordinator.fail]
  | unbind t o hwait _ =>
      refine hs.wakes hwait rfl rfl ?_
      intro t' wait hne hwait'
      have hfits := hs.fits t' wait hwait'
      cases wait with
      | barrier o' =>
          have hne : o' ≠ o := by
            rintro rfl
            exact hne (hs.alone t' t o' hwait' hwait)
          exact (Function.update_of_ne hne _ _).trans hfits
      | _ => exact hfits
  | drained t d hwait _ =>
      exact hs.wakes hwait rfl rfl fun t' wait _ hwait' => hs.fits t' wait hwait'
  | joined t x g c hwait _ hc =>
      refine hs.wakes hwait rfl rfl ?_
      intro t' wait _ hwait'
      refine (hs.fits t' wait hwait').setClose (hc ▸ ?_)
      cases hleave : (s.close x).leave g with
      | none => exact Nat.le_refl _
      | some c' => exact ((s.close x).leave_spec hleave).2.1.ge

/-- **The run lemma.** -/
theorem reach_kept {ok : PoolCalls O P K ι V → PoolCallAction O P K ι V → Prop}
    (hs : (machine O P K ι V errorName).ReachWith ok s) : Kept s := by
  refine hs.invariant (I := Kept) ?_ fun r a r' hr _ hstep => moves_kept hr (step_moves hstep)
  rintro r ⟨capacity, frameCapacity, rfl⟩
  refine ⟨?_, fun _ _ => rfl, ?_, ?_, ?_⟩
  · exact Executor.reach_phases (.of_start ⟨capacity, frameCapacity, rfl⟩)
  · intro w d hd
    cases hd
  · intro t w hwait
    cases hwait
  · intro t t' o hwait
    cases hwait

end Steps

end PoolCalls

/-! ## The coordinators -/

namespace PoolCall

variable {O P K : Type} [DecidableEq O] [DecidableEq P] [DecidableEq K]

/-- Where a thread that performs the closes `jobs` is in the calls on `x`. -/
def performer (x : Closable O P K) (jobs : List (Closable O P K × ℕ)) : Caller :=
  match jobs.find? fun job => job.1 = x with
  | some job => .performing job.2
  | none => .idle

/-- Where the thread is in the calls on `x`. -/
def caller (x : Closable O P K) (c : PoolCall O P K) : Caller :=
  match c.wait with
  | some (.join y g) => if y = x then .waiting g else performer x c.jobs
  | _ => performer x c.jobs

variable {x y : Closable O P K} {g : ℕ} {jobs : List (Closable O P K × ℕ)} {c : PoolCall O P K}

@[simp] theorem performer_self : performer x ((x, g) :: jobs) = .performing g := by
  simp [performer]

theorem performer_of_ne (h : y ≠ x) : performer x ((y, g) :: jobs) = performer x jobs := by
  simp [performer, h]

theorem performer_idle (h : ∀ job ∈ jobs, job.1 ≠ x) : performer x jobs = .idle := by
  have hnone : jobs.find? (fun job => job.1 = x) = none := by simpa using h
  rw [performer, hnone]

/-- A thread that performs a generation has it among its jobs. -/
theorem mem_of_performing (h : performer x jobs = .performing g) : (x, g) ∈ jobs := by
  unfold performer at h
  split at h
  next job hjob =>
    cases h
    have hx : job.1 = x := by simpa using List.find?_some hjob
    exact hx ▸ List.mem_of_find?_eq_some hjob
  next => cases h

/-- Of two jobs on one object there is one. -/
theorem performer_of_mem (hjobs : (jobs.map Prod.fst).Nodup) (h : (x, g) ∈ jobs) :
    performer x jobs = .performing g := by
  induction jobs with
  | nil => cases h
  | cons job jobs ih =>
      rw [List.map_cons, List.nodup_cons] at hjobs
      rcases List.mem_cons.mp h with rfl | hmem
      · exact performer_self
      · have hne : job.1 ≠ x := by
          rintro rfl
          have hfst := List.mem_map_of_mem (f := Prod.fst) hmem
          exact hjobs.1 hfst
        exact (performer_of_ne hne).trans (ih hjobs.2 hmem)

/-- A thread that joins no close. -/
theorem caller_eq (h : ∀ y g, c.wait ≠ some (.join y g)) : c.caller x = performer x c.jobs := by
  unfold caller
  split
  next y g hwait => exact absurd hwait (h y g)
  next => rfl

theorem caller_join (h : c.wait = some (.join x g)) : c.caller x = .waiting g := by
  simp [caller, h]

end PoolCall

namespace PoolCalls

variable {O P K ι V : Type} [DecidableEq O] [DecidableEq P] [DecidableEq K] [DecidableEq ι]

/-- **The coordinators follow the threads.** A thread performs one close of an object at most, and
joins no close of an object that it closes. -/
structure Tracked (s : PoolCalls O P K ι V) : Prop where
  distinct : ∀ t, ((s.call t).jobs.map Prod.fst).Nodup
  away : ∀ t x g, (s.call t).wait = some (.join x g) → ∀ job ∈ (s.call t).jobs, job.1 ≠ x
  follows : ∀ x, Closing.Follows (s.close x) fun t => (s.call t).caller x

variable {errorName : ℤ → String} {s s' r : PoolCalls O P K ι V} {t : Fin 2 ⊕ ι}

/-- A thread that performs a close of `x`, in the calls on `x`. -/
theorem Tracked.performing (hs : Tracked s) {x : Closable O P K} {g : ℕ}
    (h : (x, g) ∈ (s.call t).jobs) : (s.call t).caller x = .performing g := by
  rw [PoolCall.caller]
  split
  next y g' hwait =>
    have hne : x ≠ y := hs.away t y g' hwait (x, g) h
    rw [if_neg hne.symm]
    exact PoolCall.performer_of_mem (hs.distinct t) h
  next => exact PoolCall.performer_of_mem (hs.distinct t) h

/-- A close that is being performed has no outcome yet. -/
theorem Tracked.pending (hs : Tracked s) {x : Closable O P K} {g : ℕ}
    (h : (x, g) ∈ (s.call t).jobs) : (s.close x).outcomes g = none := by
  obtain ⟨hclosing, rfl⟩ := (hs.follows x).performing (hs.performing h)
  exact (hs.follows x).current hclosing

/-- The close that a thread has joined is over, or another thread performs it. -/
theorem Tracked.joined (hs : Tracked s) {x : Closable O P K} {g : ℕ}
    (h : (s.call t).wait = some (.join x g)) :
    (∃ o, (s.close x).outcomes g = some o) ∨ ∃ t', (x, g) ∈ (s.call t').jobs ∧ t' ≠ t := by
  rcases (hs.follows x).waiting (PoolCall.caller_join h) with hover | ⟨t', ht'⟩
  · exact .inl hover
  · refine .inr ⟨t', ?_, ?_⟩
    · unfold PoolCall.caller at ht'
      split at ht'
      · split at ht'
        · cases ht'
        · exact PoolCall.mem_of_performing ht'
      · exact PoolCall.mem_of_performing ht'
    · rintro rfl
      cases (PoolCall.caller_join h).symm.trans ht'

/-- **Thread `t` takes a turn at each coordinator.** -/
theorem Tracked.goto (hs : Tracked s) {c : PoolCall O P K} (hcall : r.call = s.call)
    (hdistinct : (c.jobs.map Prod.fst).Nodup)
    (haway : ∀ x g, c.wait = some (.join x g) → ∀ job ∈ c.jobs, job.1 ≠ x)
    (hturn : ∀ x, Closing.Turn (s.close x) ((s.call t).caller x) (r.close x) (c.caller x)) :
    Tracked (r.goto t c) where
  distinct t' := by
    rw [goto_call, hcall]
    split
    · exact hdistinct
    · exact hs.distinct t'
  away t' x g hwait := by
    rw [goto_call, hcall] at hwait ⊢
    split at hwait
    next heq =>
      rw [if_pos heq]
      exact haway x g hwait
    next hne =>
      rw [if_neg hne]
      exact hs.away t' x g hwait
  follows x := by
    have hcallers : (fun t' => ((r.goto t c).call t').caller x) =
        Function.update (fun t' => (s.call t').caller x) t (c.caller x) := by
      funext t'
      rw [goto_call, hcall]
      by_cases ht : t' = t
      · subst ht
        simp
      · simp [ht]
    rw [hcallers]
    exact (hs.follows x).turn (hturn x)

/-- A thread that keeps its jobs and joins no close. -/
theorem Tracked.stays (hs : Tracked s) {c : PoolCall O P K} (hcall : r.call = s.call)
    (hclose : r.close = s.close) (hjobs : c.jobs = (s.call t).jobs)
    (hwait : ∀ x g, (s.call t).wait ≠ some (.join x g))
    (hnew : ∀ x g, c.wait ≠ some (.join x g)) : Tracked (r.goto t c) := by
  refine hs.goto hcall (hjobs ▸ hs.distinct t) (fun x g h => absurd h (hnew x g)) fun x => ?_
  rw [hclose, PoolCall.caller_eq hwait, PoolCall.caller_eq hnew, hjobs]
  exact .stays _

/-- A thread that makes a call joins no close. -/
theorem join_of_canCall (h : s.canCall t = true) (x : Closable O P K) (g : ℕ) :
    (s.call t).wait ≠ some (.join x g) := by
  rw [wait_of_canCall h]
  exact Option.some_ne_none _ |>.symm

/-- The performer of the innermost close reports it. -/
theorem Tracked.report (hs : Tracked s) {f : CloseFrame O P K} {frames : List (CloseFrame O P K)}
    {close : CloseCoordinator → ℕ → CloseCoordinator} {bound : O → Option P}
    (hclose : ∀ c g, Closing.Turn c (.performing g) (close c g) .idle)
    (hcan : s.canCall t = true)
    (hjobs : (s.call t).jobs = f.job :: frames.map CloseFrame.job) :
    Tracked (({ s with bound := bound } : PoolCalls O P K ι V).report t f frames close) := by
  have hdistinct := hs.distinct t
  rw [hjobs, List.map_cons, List.nodup_cons] at hdistinct
  refine hs.goto rfl hdistinct.2 (fun x g h => by cases h) ?_
  intro x
  rw [PoolCall.caller_eq (join_of_canCall hcan), hjobs]
  by_cases hx : x = f.job.1
  · subst hx
    have hidle : PoolCall.caller f.job.1 ⟨frames, none⟩ = .idle := by
      apply PoolCall.performer_idle
      intro job hjob hfst
      exact hdistinct.1 (hfst ▸ List.mem_map_of_mem hjob)
    rw [hidle, show PoolCall.performer f.job.1 (f.job :: frames.map CloseFrame.job) =
      .performing f.job.2 from PoolCall.performer_self]
    simpa [setClose] using hclose (s.close f.job.1) f.job.2
  · have hsame : PoolCall.caller x ⟨frames, none⟩ =
        PoolCall.performer x (f.job :: frames.map CloseFrame.job) :=
      (PoolCall.performer_of_ne (Ne.symm hx)).symm
    rw [hsame]
    simpa [setClose, hx] using Closing.Turn.stays _

section Steps

variable [FrameValues V]

/-- A call of `begin` that goes on to `c`. -/
theorem Tracked.begins (hs : Tracked s) {x : Closable O P K} {c : PoolCall O P K}
    {close : CloseCoordinator} {result : BeginResult} (hcan : s.canCall t = true)
    (hother : ∀ f ∈ (s.call t).frames, f.job.1 ≠ x)
    (hbegin : (s.close x).begin = (result, close))
    (hcaller : c.caller x = Closing.place (Closing.afterBegin result))
    (hsame : ∀ y, y ≠ x → c.caller y = PoolCall.performer y (s.call t).jobs)
    (hdistinct : (c.jobs.map Prod.fst).Nodup)
    (haway : ∀ y g, c.wait = some (.join y g) → ∀ job ∈ c.jobs, job.1 ≠ y) :
    Tracked ((s.setClose x close).goto t c) := by
  refine hs.goto rfl hdistinct haway ?_
  intro y
  rw [PoolCall.caller_eq (join_of_canCall hcan)]
  by_cases hy : y = x
  · subst hy
    have hidle : PoolCall.performer y (s.call t).jobs = .idle := by
      apply PoolCall.performer_idle
      intro job hjob
      obtain ⟨f, hf, rfl⟩ := List.mem_map.mp hjob
      exact hother f hf
    have hturn := Closing.Turn.begins (c := s.close y) false
    rw [hbegin] at hturn
    rw [hidle, hcaller]
    simpa [setClose] using hturn
  · rw [hsame y hy]
    simpa [setClose, hy] using Closing.Turn.stays _

/-- **The step lemma.** -/
theorem moves_tracked {a : PoolCallAction O P K ι V} (hs : Tracked s)
    (h : Moves errorName s a s') : Tracked s' := by
  cases h with
  | pool a pool => exact ⟨hs.distinct, hs.away, hs.follows⟩
  | attach o p => exact ⟨hs.distinct, hs.away, hs.follows⟩
  | refused => exact hs
  | detach t o hcan hnil _ =>
      refine hs.stays rfl rfl ?_ (join_of_canCall hcan) (by simp)
      simp [PoolCall.jobs, hnil]
  | join t x order related hcan hother _ hclosing =>
      have hbegin := (s.close x).begin_of_closing hclosing
      refine hs.begins hcan hother hbegin ?_ ?_ (hs.distinct t) ?_
      · exact PoolCall.caller_join rfl
      · intro y hy
        simp [PoolCall.caller, hy.symm, PoolCall.jobs]
      · intro y g hwait
        cases hwait
        intro job hjob
        obtain ⟨f, hf, rfl⟩ := List.mem_map.mp hjob
        exact hother f hf
  | perform t x order related hcan hother _ hstatus =>
      have hjob : (newFrame order ((s.close x).generation + 1) x).job =
          (x, (s.close x).generation + 1) := by
        cases x <;> rfl
      have hbegin := (s.close x).begin_of_idle hstatus
      refine hs.begins hcan hother hbegin ?_ ?_ ?_ (fun y g h => by cases h)
      · simp [PoolCall.caller, PoolCall.jobs, hjob, Closing.afterBegin, Closing.place]
      · intro y hy
        simp only [PoolCall.caller, PoolCall.jobs, List.map_cons, hjob]
        exact PoolCall.performer_of_ne hy.symm
      · simp only [PoolCall.jobs, List.map_cons, hjob, List.nodup_cons]
        refine ⟨fun hmem => ?_, hs.distinct t⟩
        obtain ⟨job, hjob, hfst⟩ := List.mem_map.mp hmem
        obtain ⟨f, hf, rfl⟩ := List.mem_map.mp hjob
        exact hother f hf hfst
  | skip t raised p g o rest frames hcan hf _ =>
      refine hs.stays rfl rfl ?_ (join_of_canCall hcan) (by simp)
      simp [PoolCall.jobs, hf, CloseFrame.job]
  | detachNext t p g o rest frames hcan hf _ _ =>
      refine hs.stays rfl rfl ?_ (join_of_canCall hcan) (by simp)
      simp [PoolCall.jobs, hf, CloseFrame.job]
  | notDetached t raised p g o rest frames e hcan hf _ =>
      exact hs.report (fun c g => .fails g e) hcan (by simp [PoolCall.jobs, hf, CloseFrame.job])
  | closeDispatcher t d f f' frames hcan hf hclose =>
      obtain ⟨-, hjob, -⟩ := CloseFrame.toClose_spec hclose
      refine hs.stays rfl rfl ?_ (join_of_canCall hcan) (by simp)
      simp [PoolCall.jobs, hf, hjob]
  | succeed t error f frames hcan hf =>
      exact hs.report (fun c g => .succeeds g error) hcan (by simp [PoolCall.jobs, hf])
  | fail t error f frames hcan hf =>
      exact hs.report (fun c g => .fails g error) hcan (by simp [PoolCall.jobs, hf])
  | unbind t o hwait _ => exact hs.stays rfl rfl rfl (by simp [hwait]) (by simp)
  | drained t d hwait _ => exact hs.stays rfl rfl rfl (by simp [hwait]) (by simp)
  | joined t x g c hwait houtcome hc =>
      obtain ⟨o, ho⟩ := Option.ne_none_iff_exists'.mp houtcome
      have hcaller : (s.call t).caller x = .waiting g := PoolCall.caller_join hwait
      obtain ⟨c', hleave⟩ := (s.close x).leave_isSome ((hs.follows x).counted hcaller)
      obtain rfl : c = c' := by simp [hc, hleave]
      refine hs.goto rfl (hs.distinct t) (fun y g h => by cases h) ?_
      intro y
      by_cases hy : y = x
      · subst hy
        have hidle : PoolCall.caller y ⟨(s.call t).frames, none⟩ = .idle :=
          PoolCall.performer_idle (hs.away t y g hwait)
        rw [hcaller, hidle]
        simpa [setClose] using Closing.Turn.wakes g o c ho hleave
      · have hsame : (s.call t).caller y = PoolCall.caller y ⟨(s.call t).frames, none⟩ := by
          simp [PoolCall.caller, hwait, Ne.symm hy, PoolCall.jobs]
        rw [hsame]
        simpa [setClose, hy] using Closing.Turn.stays _

/-- **The run lemma.** -/
theorem reach_tracked {ok : PoolCalls O P K ι V → PoolCallAction O P K ι V → Prop}
    (hs : (machine O P K ι V errorName).ReachWith ok s) : Tracked s := by
  refine hs.invariant (I := Tracked) ?_ fun r a r' hr _ hstep =>
    moves_tracked hr (step_moves hstep)
  rintro r ⟨capacity, frameCapacity, rfl⟩
  refine ⟨fun _ => List.nodup_nil, ?_, fun _ => Closing.follows_start⟩
  intro t x g hwait
  cases hwait

end Steps

end PoolCalls

end Tirtc
