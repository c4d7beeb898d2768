import Tirtc.Dispatch.NativeTasks

/-!
# The life of a native task

Every task is invoked at most once, and exactly once by the time its capsule is freed: whoever
invokes it clears the pointer in its record first.

* `TaskOk`: the pointer is set or the task has been invoked, never both.
* `CallTask`: what a thread in `dispatch_callback_task` knows of its task.
* `Life`: the invariant; `life_thread`, `life_task`, `life_calls`: a step of the thread of a task,
  of somebody else, and of a thread without a task.
* `life_step`: the step lemma, one lemma a step.
-/

set_option autoImplicit false
set_option linter.unusedSectionVars false

namespace Tirtc

/-! ## The invariant -/

namespace TaskCall

variable {D : Type}

/-- The task that a thread is about to hand over or run. -/
def task : TaskCall D → Option ℕ
  | .allocate n | .direct n _ | .sink n | .post _ n | .release n => some n
  | .idle | .closing _ | .closed _ => none

/-- The task whose capsule `dispatch_callback_task` holds. -/
def frame : TaskCall D → Option ℕ
  | .sink n | .post _ n | .release n => some n
  | _ => none

/-- The dispatcher that a thread holds. -/
def holds : TaskCall D → Option D
  | .post d _ | .closing d | .closed d => some d
  | _ => none

end TaskCall

namespace NativeTasks

variable {D ι : Type}

/-- **The record of a task**: once it has a capsule, its pointer is set or it has been invoked, and
not both; a capsule that is being destroyed has run it. -/
structure TaskOk (task : NativeTask D ι) : Prop where
  absent : task.capsule = .absent →
    task.function = false ∧ task.accepted = false ∧ task.frame = false
  most : task.invocations + task.function.toNat ≤ 1
  once : task.capsule ≠ .absent → task.invocations + task.function.toNat = 1
  gone : task.capsule ≠ .absent → task.capsule ≠ .live → task.function = false ∧ task.frame = false

/-- A task on its way to the queue: not accepted, not invoked, and held by its thread. -/
structure OnItsWay (task : NativeTask D ι) : Prop where
  capsule : task.capsule = .live
  function : task.function = true
  accepted : task.accepted = false
  frame : task.frame = true

/-- What thread `i` knows of its task. -/
def CallTask (i : ι) (task : NativeTask D ι) : TaskCall D → Prop
  | .allocate _ => task.caller = some i ∧ task.capsule = .absent ∧ task.invocations = 0
  | .direct _ _ => task.caller = some i ∧ task.capsule = .absent ∧ task.invocations = 1
  | .sink _ => task.caller = some i ∧ OnItsWay task
  | .post d _ => task.caller = some i ∧ OnItsWay task ∧ task.dispatcher = some d
  | .release _ => task.caller = some i ∧ task.capsule = .live ∧ task.frame = true
  | .idle | .closing _ | .closed _ => True

/-- A task is one thread's. -/
theorem CallTask.caller {i : ι} {task : NativeTask D ι} {call : TaskCall D} {n : ℕ}
    (h : CallTask i task call) (hn : call.task = some n) : task.caller = some i := by
  cases call with
  | allocate _ | direct _ _ | sink _ | post _ _ | release _ => exact h.1
  | idle | closing _ | closed _ => cases hn

/-- **The life of the tasks.** -/
structure Life (s : NativeTasks D ι) : Prop where
  fresh : ∀ n, s.made ≤ n → s.task n = {}
  ok : ∀ n, TaskOk (s.task n)
  call : ∀ i n, (s.calls i).task = some n → n < s.made ∧ CallTask i (s.task n) (s.calls i)
  holds : ∀ i d, (s.calls i).holds = some d → i ∈ s.holding d
  waiting : ∀ n < s.made, (s.task n).capsule = .absent → (s.task n).invocations = 0 →
    ∃ i, s.calls i = .allocate n
  frame : ∀ n, (s.task n).frame = true → ∃ i, (s.calls i).frame = some n

theorem taskOk_empty : TaskOk ({} : NativeTask D ι) :=
  ⟨fun _ => ⟨rfl, rfl, rfl⟩, by simp, fun h => absurd rfl h, fun h => absurd rfl h⟩

theorem frame_task {call : TaskCall D} {n : ℕ} (h : call.frame = some n) : call.task = some n := by
  cases call with
  | sink _ | post _ _ | release _ => exact h
  | _ => cases h

/-- A task with a capsule has been made. -/
theorem Life.made {s : NativeTasks D ι} (hs : Life s) {n : ℕ}
    (hn : (s.task n).capsule ≠ .absent) : n < s.made := by
  by_contra hge
  rw [hs.fresh n (Nat.le_of_not_lt hge)] at hn
  exact hn rfl

section Rules

variable [DecidableEq ι] {s t : NativeTasks D ι}

/-- **A step of the thread of a task**, or of the thread that brings a new one. -/
theorem life_thread {i : ι} {n : ℕ} {task : NativeTask D ι} {call : TaskCall D} (hs : Life s)
    (hmade : ∀ m, m < t.made ↔ m < s.made ∨ m = n)
    (htask : t.task = Function.update s.task n task)
    (hcalls : t.calls = Function.update s.calls i call)
    (hholding : ∀ j d, j ≠ i → j ∈ s.holding d → j ∈ t.holding d)
    (hother : ∀ j, j ≠ i → (s.calls j).task ≠ some n)
    (hwas : ∀ m, (s.calls i).task = some m → m = n) (hok : TaskOk task)
    (hcall : ∀ m, call.task = some m → m = n ∧ CallTask i task call)
    (hholds : ∀ d, call.holds = some d → i ∈ t.holding d)
    (hwaiting : task.capsule = .absent → task.invocations = 0 → call = .allocate n)
    (hframe : task.frame = true → call.frame = some n) : Life t := by
  have hself : t.task n = task := by rw [htask, Function.update_self]
  have hrest : ∀ m, m ≠ n → t.task m = s.task m := by
    intro m hm
    rw [htask, Function.update_of_ne hm]
  have hi : t.calls i = call := by rw [hcalls, Function.update_self]
  have hj : ∀ j, j ≠ i → t.calls j = s.calls j := by
    intro j hj
    rw [hcalls, Function.update_of_ne hj]
  have hn : n < t.made := (hmade n).mpr (.inr rfl)
  refine ⟨?_, ?_, ?_, ?_, ?_, ?_⟩
  · intro m hm
    have hne : m ≠ n := by omega
    rw [hrest m hne]
    refine hs.fresh m ?_
    by_contra hlt
    exact absurd ((hmade m).mpr (.inl (Nat.lt_of_not_le hlt))) (Nat.not_lt.mpr hm)
  · intro m
    by_cases hm : m = n
    · rw [hm, hself]
      exact hok
    · rw [hrest m hm]
      exact hs.ok m
  · intro j m h
    by_cases h' : j = i
    · subst h'
      rw [hi] at h ⊢
      obtain ⟨rfl, hct⟩ := hcall m h
      rw [hself]
      exact ⟨hn, hct⟩
    · rw [hj j h'] at h ⊢
      have hne : m ≠ n := by
        rintro rfl
        exact hother j h' h
      rw [hrest m hne]
      obtain ⟨hlt, hct⟩ := hs.call j m h
      exact ⟨(hmade m).mpr (.inl hlt), hct⟩
  · intro j d h
    by_cases h' : j = i
    · subst h'
      rw [hi] at h
      exact hholds d h
    · rw [hj j h'] at h
      exact hholding j d h' (hs.holds j d h)
  · intro m hm hc h0
    by_cases hm' : m = n
    · subst hm'
      rw [hself] at hc h0
      exact ⟨i, hi.trans (hwaiting hc h0)⟩
    · rw [hrest m hm'] at hc h0
      have hlt : m < s.made := ((hmade m).mp hm).resolve_right hm'
      obtain ⟨k, hk⟩ := hs.waiting m hlt hc h0
      have hki : k ≠ i := by
        rintro rfl
        exact hm' (hwas m (by rw [hk]; rfl))
      exact ⟨k, (hj k hki).trans hk⟩
  · intro m h
    by_cases hm : m = n
    · subst hm
      rw [hself] at h
      exact ⟨i, by rw [hi]; exact hframe h⟩
    · rw [hrest m hm] at h
      obtain ⟨k, hk⟩ := hs.frame m h
      have hki : k ≠ i := by
        rintro rfl
        exact hm (hwas m (frame_task hk))
      exact ⟨k, by rw [hj k hki]; exact hk⟩

omit [DecidableEq ι] in
/-- **A step of somebody else on a task** that has a capsule. -/
theorem life_task {n : ℕ} {task : NativeTask D ι} (hs : Life s) (hmade : t.made = s.made)
    (htask : t.task = Function.update s.task n task) (hcalls : t.calls = s.calls)
    (hholding : t.holding = s.holding) (hn : (s.task n).capsule ≠ .absent)
    (hn' : task.capsule ≠ .absent) (hok : TaskOk task)
    (hcall : ∀ j, (s.calls j).task = some n → CallTask j (s.task n) (s.calls j) →
      CallTask j task (s.calls j))
    (hframe : task.frame = true → (s.task n).frame = true) : Life t := by
  have hself : t.task n = task := by rw [htask, Function.update_self]
  have hrest : ∀ m, m ≠ n → t.task m = s.task m := by
    intro m hm
    rw [htask, Function.update_of_ne hm]
  have hlt := hs.made hn
  refine ⟨?_, ?_, ?_, ?_, ?_, ?_⟩
  · intro m hm
    rw [hmade] at hm
    rw [hrest m (by omega)]
    exact hs.fresh m hm
  · intro m
    by_cases hm : m = n
    · rw [hm, hself]
      exact hok
    · rw [hrest m hm]
      exact hs.ok m
  · intro j m h
    rw [hcalls] at h ⊢
    rw [hmade]
    obtain ⟨hm, hct⟩ := hs.call j m h
    by_cases hmn : m = n
    · subst hmn
      rw [hself]
      exact ⟨hm, hcall j h hct⟩
    · rw [hrest m hmn]
      exact ⟨hm, hct⟩
  · intro j d h
    rw [hcalls] at h
    rw [hholding]
    exact hs.holds j d h
  · intro m hm hc h0
    rw [hmade] at hm
    rw [hcalls]
    by_cases hmn : m = n
    · rw [hmn, hself] at hc
      exact absurd hc hn'
    · rw [hrest m hmn] at hc h0
      exact hs.waiting m hm hc h0
  · intro m h
    rw [hcalls]
    by_cases hm : m = n
    · rw [hm, hself] at h
      rw [hm]
      exact hs.frame n (hframe h)
    · rw [hrest m hm] at h
      exact hs.frame m h

/-- **A step of a thread without a task.** -/
theorem life_calls {i : ι} {call : TaskCall D} (hs : Life s) (hmade : t.made = s.made)
    (htask : t.task = s.task) (hcalls : t.calls = Function.update s.calls i call)
    (hholding : ∀ j d, j ≠ i → j ∈ s.holding d → j ∈ t.holding d)
    (hwas : (s.calls i).task = none) (hcall : call.task = none)
    (hholds : ∀ d, call.holds = some d → i ∈ t.holding d) : Life t := by
  have hi : t.calls i = call := by rw [hcalls, Function.update_self]
  have hj : ∀ j, j ≠ i → t.calls j = s.calls j := by
    intro j hj
    rw [hcalls, Function.update_of_ne hj]
  have hne : ∀ j n, (s.calls j).task = some n → j ≠ i := by
    rintro j n h rfl
    rw [hwas] at h
    cases h
  refine ⟨?_, ?_, ?_, ?_, ?_, ?_⟩
  · intro m hm
    rw [htask]
    exact hs.fresh m (hmade ▸ hm)
  · intro m
    rw [htask]
    exact hs.ok m
  · intro j m h
    have h' : j ≠ i := by
      rintro rfl
      rw [hi, hcall] at h
      cases h
    rw [hj j h'] at h ⊢
    rw [htask, hmade]
    exact hs.call j m h
  · intro j d h
    by_cases h' : j = i
    · subst h'
      rw [hi] at h
      exact hholds d h
    · rw [hj j h'] at h
      exact hholding j d h' (hs.holds j d h)
  · intro m hm hc h0
    rw [htask] at hc h0
    obtain ⟨k, hk⟩ := hs.waiting m (hmade ▸ hm) hc h0
    exact ⟨k, (hj k (hne k m (by rw [hk]; rfl))).trans hk⟩
  · intro m h
    rw [htask] at h
    obtain ⟨k, hk⟩ := hs.frame m h
    exact ⟨k, by rw [hj k (hne k m (frame_task hk))]; exact hk⟩

omit [DecidableEq ι] in
/-- A step that concerns neither a task nor a thread. -/
theorem life_congr (hs : Life s) (hmade : t.made = s.made) (htask : t.task = s.task)
    (hcalls : t.calls = s.calls) (hholding : t.holding = s.holding) : Life t where
  fresh n hn := htask ▸ hs.fresh n (hmade ▸ hn)
  ok n := htask ▸ hs.ok n
  call i n hn := by
    rw [hcalls] at hn ⊢
    rw [htask, hmade]
    exact hs.call i n hn
  holds i d hd := by
    rw [hcalls] at hd
    rw [hholding]
    exact hs.holds i d hd
  waiting n hn hc h0 := by
    rw [htask] at hc h0
    rw [hcalls]
    exact hs.waiting n (hmade ▸ hn) hc h0
  frame n hn := by
    rw [htask] at hn
    rw [hcalls]
    exact hs.frame n hn

end Rules

/-! ## The steps, one by one -/

section Steps

variable [DecidableEq D] [DecidableEq ι] {s t : NativeTasks D ι} {i : ι}

omit [DecidableEq D] [DecidableEq ι] in
/-- No other thread is at the task of `i`. -/
theorem Life.only (hs : Life s) {n : ℕ} (hi : (s.calls i).task = some n) :
    ∀ j, j ≠ i → (s.calls j).task ≠ some n := by
  intro j hj h
  have hcaller := (hs.call i n hi).2.caller hi
  rw [(hs.call j n h).2.caller h] at hcaller
  exact hj (Option.some.inj hcaller)

omit [DecidableEq D] [DecidableEq ι] in
/-- A step of the thread of a task makes no new one. -/
theorem Life.same_made (hs : Life s) {n : ℕ} (hi : (s.calls i).task = some n) :
    ∀ m, m < s.made ↔ m < s.made ∨ m = n := by
  have hn := (hs.call i n hi).1
  intro m
  omega

omit [DecidableEq ι] in
theorem mem_hold {j : ι} {e : D} (d : D) (h : j ∈ s.holding e) : j ∈ (s.hold i d).holding e := by
  by_cases he : e = d
  · subst he
    simp [hold, h]
  · simpa [hold, he] using h

omit [DecidableEq ι] in
theorem mem_hold_self (d : D) : i ∈ (s.hold i d).holding d := by
  simp [hold]

theorem mem_unhold {j : ι} {e : D} (d : D) (hj : j ≠ i) (h : j ∈ s.holding e) :
    j ∈ (s.unhold i d).holding e := by
  by_cases he : e = d
  · subst he
    simpa [unhold, List.mem_erase_of_ne hj] using h
  · simpa [unhold, he] using h

/-- The Runtime hands a task over. -/
theorem life_dispatch {d : D} {gil : Bool} (hs : Life s) (h : s.dispatchStep i d gil = some t) :
    Life t := by
  unfold dispatchStep at h
  split at h
  next hidle =>
    have hnone : ∀ m, (s.calls i).task = some m → m = s.made := by
      intro m hm
      rw [hidle] at hm
      cases hm
    have hother : ∀ j, j ≠ i → (s.calls j).task ≠ some s.made := fun j _ hj =>
      absurd (hs.call j s.made hj).1 (Nat.lt_irrefl _)
    have hmade : ∀ m, m < s.made + 1 ↔ m < s.made ∨ m = s.made := fun m => by omega
    split at h
    · cases h
    · cases gil with
      | true =>
          obtain rfl := Option.some.inj h
          refine life_thread hs hmade rfl rfl (fun _ _ _ hj => hj) hother hnone ?_ ?_ ?_ ?_ ?_
          · exact ⟨fun _ => ⟨rfl, rfl, rfl⟩, by simp, fun h => absurd rfl h, fun h => absurd rfl h⟩
          · intro m hm
            obtain rfl := Option.some.inj hm
            exact ⟨rfl, rfl, rfl, rfl⟩
          · simp [TaskCall.holds]
          · exact fun _ _ => rfl
          · simp
      | false =>
          obtain rfl := Option.some.inj h
          have htask : ((({ s with
              made := s.made + 1
              task := Function.update s.task s.made
                { dispatcher := some d, caller := some i } } : NativeTasks D ι).invoke s.made).goto
              i (.direct s.made false)).task = Function.update s.task s.made
                { dispatcher := some d, invocations := 1, caller := some i } := by
            funext m
            by_cases hm : m = s.made <;> simp [goto, invoke, modify, hm]
          refine life_thread hs hmade htask rfl (fun _ _ _ hj => hj) hother hnone ?_ ?_ ?_ ?_ ?_
          · exact ⟨fun _ => ⟨rfl, rfl, rfl⟩, by simp, fun h => absurd rfl h, fun h => absurd rfl h⟩
          · intro m hm
            obtain rfl := Option.some.inj hm
            exact ⟨rfl, rfl, rfl, rfl⟩
          · simp [TaskCall.holds]
          · simp
          · simp
  next => cases h

/-- The capsule is made, or the function is called without one. -/
theorem life_allocate {ok : Bool} (hs : Life s) (h : s.allocateStep i ok = some t) : Life t := by
  unfold allocateStep at h
  split at h
  next n hcall =>
    have hi : (s.calls i).task = some n := by rw [hcall]; rfl
    have hct := (hs.call i n hi).2
    rw [hcall] at hct
    obtain ⟨hcaller, habsent, hzero⟩ := hct
    obtain ⟨hfunction, haccepted, hframe⟩ := (hs.ok n).absent habsent
    have hwas : ∀ m, (s.calls i).task = some m → m = n := fun m hm =>
      Option.some.inj (hm.symm.trans hi)
    cases ok with
    | true =>
        obtain rfl := Option.some.inj h
        refine life_thread hs (hs.same_made hi) rfl rfl (fun _ _ _ hj => hj) (hs.only hi) hwas
          ?_ ?_ ?_ ?_ ?_
        · exact ⟨by simp, by simp [hzero], by simp [hzero], by simp⟩
        · intro m hm
          obtain rfl := Option.some.inj hm
          exact ⟨rfl, hcaller, rfl, rfl, haccepted, rfl⟩
        · simp [TaskCall.holds]
        · simp
        · exact fun _ => rfl
    | false =>
        obtain rfl := Option.some.inj h
        refine life_thread hs (hs.same_made hi) rfl rfl (fun _ _ _ hj => hj) (hs.only hi) hwas
          ?_ ?_ ?_ ?_ ?_
        · exact ⟨fun _ => ⟨rfl, haccepted, hframe⟩, by simp [hzero], fun h => absurd habsent h,
            fun h => absurd habsent h⟩
        · intro m hm
          obtain rfl := Option.some.inj hm
          exact ⟨rfl, hcaller, habsent, by simp [hzero]⟩
        · simp [TaskCall.holds]
        · simp
        · simp [hframe]
  next => cases h

/-- The sink looks the dispatcher up. -/
theorem life_lookUp {reached : Bool} (hs : Life s) (h : s.lookUpStep i reached = some t) :
    Life t := by
  unfold lookUpStep at h
  split at h
  next n hcall =>
    have hi : (s.calls i).task = some n := by rw [hcall]; rfl
    have hct := (hs.call i n hi).2
    rw [hcall] at hct
    obtain ⟨hcaller, hway⟩ := hct
    have hwas : ∀ m, (s.calls i).task = some m → m = n := fun m hm =>
      Option.some.inj (hm.symm.trans hi)
    have hself : s.task = Function.update s.task n (s.task n) :=
      (Function.update_eq_self n s.task).symm
    split at h
    next d hd =>
      split at h
      · obtain rfl := Option.some.inj h
        refine life_thread hs (hs.same_made hi) hself rfl (fun _ _ _ hj => mem_hold d hj)
          (hs.only hi) hwas (hs.ok n) ?_ ?_ ?_ ?_
        · intro m hm
          obtain rfl := Option.some.inj hm
          exact ⟨rfl, hcaller, hway, hd⟩
        · intro e he
          obtain rfl := Option.some.inj he
          exact mem_hold_self d
        · simp [hway.capsule]
        · exact fun _ => rfl
      · obtain rfl := Option.some.inj h
        refine life_thread hs (hs.same_made hi) hself rfl (fun _ _ _ hj => hj)
          (hs.only hi) hwas (hs.ok n) ?_ ?_ ?_ ?_
        · intro m hm
          obtain rfl := Option.some.inj hm
          exact ⟨rfl, hcaller, hway.capsule, hway.frame⟩
        · simp [TaskCall.holds]
        · simp [hway.capsule]
        · exact fun _ => rfl
    next => cases h
  next => cases h

/-- `post_native_task` takes the task or refuses it. -/
theorem life_post (hs : Life s) (h : s.postStep i = some t) : Life t := by
  unfold postStep at h
  split at h
  next d n hcall =>
    have hi : (s.calls i).task = some n := by rw [hcall]; rfl
    have hct := (hs.call i n hi).2
    rw [hcall] at hct
    obtain ⟨hcaller, hway, hd⟩ := hct
    have hwas : ∀ m, (s.calls i).task = some m → m = n := fun m hm =>
      Option.some.inj (hm.symm.trans hi)
    obtain ⟨r, hr, rfl⟩ := Option.map_eq_some_iff.mp h
    obtain ⟨pool, -, rfl⟩ := Option.map_eq_some_iff.mp hr
    have hcall' : ∀ task : NativeTask D ι, task.caller = some i → task.capsule = .live →
        task.frame = true → ∀ m, (TaskCall.release (D := D) n).task = some m →
        m = n ∧ CallTask i task (.release n) := fun task h₁ h₂ h₃ m hm =>
      ⟨(Option.some.inj hm).symm, h₁, h₂, h₃⟩
    dsimp only
    split
    · refine life_thread hs (hs.same_made hi) (Function.update_eq_self n s.task).symm rfl
        (fun _ _ hne hj => mem_unhold d hne hj) (hs.only hi) hwas (hs.ok n)
        (hcall' _ hcaller hway.capsule hway.frame) ?_ ?_ ?_
      · simp [TaskCall.holds]
      · simp [hway.capsule]
      · exact fun _ => rfl
    · refine life_thread hs (hs.same_made hi) rfl rfl
        (fun _ _ hne hj => mem_unhold d hne hj) (hs.only hi) hwas ?_
        (hcall' _ hcaller hway.capsule hway.frame) ?_ ?_ ?_
      · have hok := hs.ok n
        exact ⟨fun h => absurd (hway.capsule.symm.trans h) (by simp), hok.most, hok.once,
          hok.gone⟩
      · simp [TaskCall.holds]
      · exact fun h => absurd (hway.capsule.symm.trans h) (by simp)
      · exact fun _ => rfl
  next => cases h

/-- `dispatch_callback_task` drops its reference. -/
theorem life_release (hs : Life s) (h : s.releaseStep i = some t) : Life t := by
  unfold releaseStep at h
  split at h
  next n hcall =>
    have hi : (s.calls i).task = some n := by rw [hcall]; rfl
    have hct := (hs.call i n hi).2
    rw [hcall] at hct
    obtain ⟨hcaller, hlive, hframe⟩ := hct
    have hwas : ∀ m, (s.calls i).task = some m → m = n := fun m hm =>
      Option.some.inj (hm.symm.trans hi)
    obtain rfl := Option.some.inj h
    have hok := hs.ok n
    refine life_thread hs (hs.same_made hi) rfl rfl (fun _ _ _ hj => hj) (hs.only hi) hwas
      ?_ ?_ ?_ ?_ ?_
    · exact ⟨fun h => absurd (hlive.symm.trans h) (by simp), hok.most, hok.once,
        fun _ h => absurd hlive h⟩
    · simp [TaskCall.task]
    · simp [TaskCall.holds]
    · exact fun h => absurd (hlive.symm.trans h) (by simp)
    · simp
  next => cases h

/-- A pool thread runs an accepted task. -/
theorem life_run {w : Fin 2} (hs : Life s)
    (htaken : ∀ n, takenTask (s.pool.worker w) = some n → s.runs w = .before →
      (s.task n).accepted = true ∧ (s.task n).function = true)
    (h : s.runStep w = some t) : Life t := by
  unfold runStep at h
  split at h
  next e event hw hbefore =>
    obtain ⟨n, hn, rfl⟩ := Option.map_eq_some_iff.mp h
    obtain ⟨haccepted, hfunction⟩ := htaken n (by rw [hw]; exact hn) hbefore
    rw [if_pos hfunction]
    have hok := hs.ok n
    have hzero : (s.task n).invocations = 0 := by
      have hmost := hok.most
      rw [hfunction] at hmost
      simpa using hmost
    have hnot : (s.task n).capsule ≠ .absent := by
      intro habsent
      simp [(hok.absent habsent).2.1] at haccepted
    refine life_task hs rfl rfl rfl rfl hnot hnot ?_ ?_ id
    · refine ⟨fun h => absurd h hnot, by simp [hzero], by simp [hzero], fun h₁ h₂ => ?_⟩
      exact ⟨rfl, (hok.gone h₁ h₂).2⟩
    · intro j hj hct
      -- a thread that is at an accepted task has only to drop its reference
      cases hcall : s.calls j with
      | allocate m =>
          rw [hcall] at hct
          exact absurd hct.2.1 hnot
      | direct m callback =>
          rw [hcall] at hct
          exact absurd hct.2.1 hnot
      | sink m =>
          rw [hcall] at hct
          simp [hct.2.accepted] at haccepted
      | post e m =>
          rw [hcall] at hct
          simp [hct.2.1.accepted] at haccepted
      | release m =>
          rw [hcall] at hct
          exact hct
      | idle | closing _ | closed _ => trivial
  next => cases h

/-- What is not held, `dispatch_callback_task` does not hold. -/
theorem frame_of_not_held {n : ℕ} (h : s.held n = false) : (s.task n).frame = false := by
  unfold held at h
  simp only [Bool.or_eq_false_iff] at h
  exact h.1.1

omit [DecidableEq D] [DecidableEq ι] in
/-- No thread is at a task whose capsule it does not hold. -/
theorem Life.away (hs : Life s) {n : ℕ} (hcapsule : (s.task n).capsule ≠ .absent)
    (hframe : (s.task n).frame = false) : ∀ j, (s.calls j).task ≠ some n := by
  intro j hj
  have hct := (hs.call j n hj).2
  cases hcall : s.calls j with
  | allocate m =>
      rw [hcall] at hct
      exact hcapsule hct.2.1
  | direct m callback =>
      rw [hcall] at hct
      exact hcapsule hct.2.1
  | sink m =>
      rw [hcall] at hct
      simp [hct.2.frame] at hframe
  | post e m =>
      rw [hcall] at hct
      simp [hct.2.1.frame] at hframe
  | release m =>
      rw [hcall] at hct
      simp [hct.2.2] at hframe
  | idle | closing _ | closed _ =>
      rw [hcall] at hj
      cases hj

/-- A destructor runs the task that has not been run. -/
theorem life_destroy {n : ℕ} (hs : Life s) (h : s.destroyStep n = some t) : Life t := by
  unfold destroyStep at h
  split at h
  next hn =>
    obtain ⟨hlive, hheld⟩ := hn
    have hframe := frame_of_not_held hheld
    have hnot : (s.task n).capsule ≠ .absent := by simp [hlive]
    have haway := hs.away hnot hframe
    have honce := (hs.ok n).once hnot
    split at h
    next hfunction =>
      obtain rfl := Option.some.inj h
      have hzero : (s.task n).invocations = 0 := by simpa [hfunction] using honce
      have htask : ((s.invoke n).modify n fun task =>
          { task with capsule := .destroying false }).task = Function.update s.task n
            { s.task n with
              function := false
              invocations := (s.task n).invocations + 1
              capsule := .destroying false } := by
        funext m
        by_cases hm : m = n <;> simp [invoke, modify, hm]
      refine life_task hs rfl htask rfl rfl hnot (by simp) ?_
        (fun j hj => absurd hj (haway j)) id
      exact ⟨by simp, by simp [hzero], by simp [hzero], fun _ _ => ⟨rfl, hframe⟩⟩
    next hfunction =>
      obtain rfl := Option.some.inj h
      have hfunction : (s.task n).function = false := by simpa using hfunction
      refine life_task hs rfl rfl rfl rfl hnot (by simp) ?_ (fun j hj => absurd hj (haway j)) id
      exact ⟨by simp, (hs.ok n).most, fun _ => honce, fun _ _ => ⟨hfunction, hframe⟩⟩
  next => cases h

/-- A destructor that is running a task changes its stage. -/
theorem life_destructor {n : ℕ} {capsule : Capsule} (hs : Life s)
    (hn : ∃ callback, (s.task n).capsule = .destroying callback)
    (hcapsule : capsule ≠ .absent ∧ capsule ≠ .live) :
    Life (s.modify n fun task => { task with capsule := capsule }) := by
  obtain ⟨callback, hn⟩ := hn
  have hok := hs.ok n
  have hnot : (s.task n).capsule ≠ .absent := by simp [hn]
  have hgone := hok.gone hnot (by simp [hn])
  refine life_task hs rfl rfl rfl rfl hnot hcapsule.1 ?_
    (fun j hj => absurd hj (hs.away hnot hgone.2 j)) id
  exact ⟨fun h => absurd h hcapsule.1, hok.most, fun _ => hok.once hnot, fun _ _ => hgone⟩

/-- A thread that runs a task itself changes its stage. -/
theorem life_direct {n : ℕ} {callback : Bool} (hs : Life s)
    (hcall : s.calls i = .direct n callback) (callback' : Bool) :
    Life (s.goto i (.direct n callback')) := by
  have hi : (s.calls i).task = some n := by rw [hcall]; rfl
  have hct := (hs.call i n hi).2
  rw [hcall] at hct
  obtain ⟨hcaller, habsent, honce⟩ := hct
  refine life_thread hs (hs.same_made hi) (Function.update_eq_self n s.task).symm rfl
    (fun _ _ _ hj => hj) (hs.only hi) (fun m hm => Option.some.inj (hm.symm.trans hi)) (hs.ok n)
    ?_ ?_ ?_ ?_
  · intro m hm
    obtain rfl := Option.some.inj hm
    exact ⟨rfl, hcaller, habsent, honce⟩
  · simp [TaskCall.holds]
  · intro _ hzero
    omega
  · intro hframe
    simp [((hs.ok n).absent habsent).2.2] at hframe

/-- A thread that has run a task itself returns. -/
theorem life_direct_end {n : ℕ} {callback : Bool} (hs : Life s)
    (hcall : s.calls i = .direct n callback) : Life (s.goto i .idle) := by
  have hi : (s.calls i).task = some n := by rw [hcall]; rfl
  have hct := (hs.call i n hi).2
  rw [hcall] at hct
  obtain ⟨hcaller, habsent, honce⟩ := hct
  refine life_thread hs (hs.same_made hi) (Function.update_eq_self n s.task).symm rfl
    (fun _ _ _ hj => hj) (hs.only hi) (fun m hm => Option.some.inj (hm.symm.trans hi)) (hs.ok n)
    ?_ ?_ ?_ ?_
  · simp [TaskCall.task]
  · simp [TaskCall.holds]
  · intro _ hzero
    omega
  · intro hframe
    simp [((hs.ok n).absent habsent).2.2] at hframe

/-- Where a runner in a function is. -/
theorem inFunction_cases {r : Runner ι} {n : ℕ} {callback : Bool}
    (h : s.inFunction r = some (n, callback)) :
    (∃ w, r = .pool w ∧ takenTask (s.pool.worker w) = some n ∧ s.runs w = .inside callback) ∨
    (∃ i, r = .thread i ∧ s.calls i = .direct n callback) ∨
    (r = .destructor n ∧ (s.task n).capsule = .destroying callback) := by
  unfold inFunction at h
  split at h
  next w =>
    split at h
    next e event callback' hw hrun =>
      obtain ⟨m, hm, heq⟩ := Option.map_eq_some_iff.mp h
      obtain ⟨rfl, rfl⟩ := Prod.mk.inj heq
      exact .inl ⟨w, rfl, by rw [hw]; exact hm, hrun⟩
    next => cases h
  next i =>
    split at h
    next m callback' hcall =>
      obtain ⟨rfl, rfl⟩ := Prod.mk.inj (Option.some.inj h)
      exact .inr (.inl ⟨i, rfl, hcall⟩)
    next => cases h
  next m =>
    split at h
    next callback' hm =>
      obtain ⟨rfl, rfl⟩ := Prod.mk.inj (Option.some.inj h)
      exact .inr (.inr ⟨rfl, hm⟩)
    next => cases h

/-- A runner enters or leaves the event callback. -/
theorem life_setCallback {r : Runner ι} {n : ℕ} {callback callback' : Bool} (hs : Life s)
    (h : s.inFunction r = some (n, callback)) : Life (s.setCallback n callback' r) := by
  rcases inFunction_cases h with ⟨w, rfl, -, -⟩ | ⟨i, rfl, hcall⟩ | ⟨rfl, hn⟩
  · exact life_congr hs rfl rfl rfl rfl
  · exact life_direct hs hcall callback'
  · exact life_destructor hs ⟨callback, hn⟩ (by simp)

/-- A function returns to its runner. -/
theorem life_leave {r : Runner ι} {n : ℕ} {callback : Bool} (hs : Life s)
    (h : s.inFunction r = some (n, callback)) : Life (s.leave r) := by
  rcases inFunction_cases h with ⟨w, rfl, -, -⟩ | ⟨i, rfl, hcall⟩ | ⟨rfl, hn⟩
  · exact life_congr hs rfl rfl rfl rfl
  · exact life_direct_end hs hcall
  · exact life_destructor hs ⟨callback, hn⟩ (by simp)

/-- A close of the object begins, and ends. -/
theorem life_close {d : D} (hs : Life s) (h : s.closeStep i d = some t) : Life t := by
  unfold closeStep at h
  split at h
  next hidle =>
    split at h
    · cases h
    · obtain ⟨r, hr, rfl⟩ := Option.map_eq_some_iff.mp h
      obtain ⟨pool, -, rfl⟩ := Option.map_eq_some_iff.mp hr
      refine life_calls hs rfl rfl rfl (fun _ _ _ hj => mem_hold d hj) (by rw [hidle]; rfl) rfl ?_
      intro e he
      obtain rfl := Option.some.inj he
      exact mem_hold_self d
  next => cases h

theorem life_wake (hs : Life s) (h : s.wakeStep i = some t) : Life t := by
  unfold wakeStep at h
  split at h
  next d hcall =>
    split at h
    · obtain rfl := Option.some.inj h
      refine life_calls hs rfl rfl rfl (fun _ _ _ hj => hj) (by rw [hcall]; rfl) rfl ?_
      intro e he
      exact hs.holds i e (by rw [hcall]; exact he)
    · cases h
  next => cases h

theorem life_nativeClose {code : ℤ} (hs : Life s) (h : s.nativeCloseStep i code = some t) :
    Life t := by
  unfold nativeCloseStep at h
  split at h
  next d hcall =>
    obtain rfl := Option.some.inj h
    refine life_calls hs rfl rfl rfl ?_ (by rw [hcall]; rfl) rfl ?_
    · intro _ _ hne hj
      exact mem_unhold (s := { s with destroyed := _ }) d hne hj
    · simp [TaskCall.holds]
  next => cases h

/-- A step of the pool alone. -/
theorem life_pool {a : ExecutorAction D (List PyValue)} (hs : Life s) (h : s.poolStep a = some t) :
    Life t := by
  obtain ⟨pool, -, rfl⟩ := Option.map_eq_some_iff.mp h
  exact life_congr hs rfl rfl rfl rfl

/-- **The step lemma**: pool threads run accepted tasks only. -/
theorem life_step {a : TaskAction D ι} (hs : Life s)
    (htaken : ∀ w n, takenTask (s.pool.worker w) = some n → s.runs w = .before →
      (s.task n).accepted = true ∧ (s.task n).function = true)
    (h : s.step a = some t) : Life t := by
  cases a with
  | dispatch i d gil => exact life_dispatch hs h
  | allocate i ok => exact life_allocate hs h
  | lookUp i reached => exact life_lookUp hs h
  | post i => exact life_post hs h
  | release i => exact life_release hs h
  | run w => exact life_run hs (htaken w) h
  | destroy n => exact life_destroy hs h
  | callback r =>
      simp only [step, callbackStep] at h
      split at h
      next n hr =>
        split at h
        · split at h
          · cases h
          · obtain rfl := Option.some.inj h
            exact life_setCallback hs hr
        · cases h
      next => cases h
  | callbackEnd r =>
      simp only [step, callbackEndStep] at h
      split at h
      next n hr =>
        obtain rfl := Option.some.inj h
        exact life_setCallback hs hr
      next => cases h
  | functionEnd r =>
      simp only [step, functionEndStep] at h
      split at h
      next n hr =>
        obtain rfl := Option.some.inj h
        exact life_leave hs hr
      next => cases h
  | close i d => exact life_close hs h
  | wake i => exact life_wake hs h
  | nativeClose i code => exact life_nativeClose hs h
  | discard d =>
      simp only [step] at h
      split at h
      · cases h
      · exact life_pool hs h
  | handlerGone d =>
      obtain rfl := Option.some.inj h
      exact life_congr hs rfl rfl rfl rfl
  | free d =>
      simp only [step, freeStep] at h
      split at h
      · obtain rfl := Option.some.inj h
        exact life_congr hs rfl rfl rfl rfl
      · cases h
  | put d => exact life_pool hs h
  | get w => exact life_pool hs h
  | drainBegin w =>
      obtain ⟨r, hr, rfl⟩ := Option.map_eq_some_iff.mp h
      exact life_congr (life_pool hs hr) rfl rfl rfl rfl
  | drainEnd w =>
      simp only [step] at h
      split at h
      · exact life_pool hs h
      · cases h
  | reschedule w => exact life_pool hs h

end Steps

end NativeTasks

end Tirtc
