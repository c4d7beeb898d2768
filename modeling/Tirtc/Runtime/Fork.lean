import Mathlib.Logic.Relation
import Tirtc.Runtime.Consistency

/-!
# Forks in the middle of an acquire or a release

The processes of a fork tree, each with its own copy of the module globals and of the Runtime, and
with any number of threads in `_acquire_rtc`, `_acquire_storage` and `_release`. The native call and
each statement behind it are steps of their own, and a thread that is in none of these calls may
fork between any two of them. `_after_fork_child` is a step of the child: until it has run, the
child is the forking thread alone.

* `Process`, `Processes`: one process, and all of them by number.
* `Process.begin`, `enter`, `statement`, `leave`, `child`, `afterForkChild`: the steps.
* `Process.unrecorded`: a thread has taken the Runtime up and not yet added its lease.
* `Covered`: what the Runtime holds has an active lease.
* `rejected_inherited`: a process that is rejected hands that down.
* `fork_safe`: what holds as long as no process without a lease forks while `unrecorded`.
-/

set_option autoImplicit false
set_option linter.unusedSectionVars false

namespace Tirtc

open Transition

/-! ## Processes -/

/-- A call that has passed the checks before the lock. -/
inductive Request
  | acquireRtc (mode : AuthMode) (configuration : Configuration)
  | acquireStorage (mode : AuthMode) (configuration : Configuration)
  | release (n : ℕ)

/-- Where a thread is: in no call, before the lock, or behind the native call with the lock. -/
inductive Activity
  | idle
  | checked (request : Request)
  | inside

/-- The thread that holds `_lock` behind its native call, whether that call has taken something of
the Runtime up, and the statements still to run. -/
structure Holder (τ : Type) where
  thread : τ
  initialised : Bool
  rest : List Statement

/-- A process. `inherited` is history: what its Runtime held when it was forked and still holds. -/
structure Process (τ : Type) where
  registry : Registry
  parent : Option ℕ := none
  hookPending : Bool := false
  holder : Option (Holder τ) := none
  activity : τ → Activity := fun _ => .idle
  inherited : Finset Resource := ∅

/-- All processes, by number. -/
abbrev Processes (τ : Type) := ℕ → Option (Process τ)

/-- The steps of the processes. The result of a native call is a label. -/
inductive ForkAction (τ : Type)
  | begin (p : ℕ) (t : τ) (call : RegistryCall)
  | enter (p : ℕ) (t : τ) (writable : Bool) (result : NativeResult)
  | statement (p : ℕ) (t : τ)
  | leave (p : ℕ) (t : τ)
  | fork (p : ℕ) (t : τ) (q : ℕ)
  | afterFork (q : ℕ)

/-- `_active_leases.add(lease)` -/
def Statement.isAdd : Statement → Bool
  | .addLease _ => true
  | _ => false

namespace Process

variable {τ : Type} [DecidableEq τ] (errorName : ℤ → String) (pathlib : PathLibrary)
  (proc : Process τ)

/-- Thread `t` is at `activity`. -/
def goto (t : τ) (activity : Activity) : Process τ :=
  { proc with activity := Function.update proc.activity t activity }

/-- `_process_is_current()` in this process. -/
def isCurrent : Bool := proc.registry.flags.processIsCurrent proc.registry.pid

/-- The request of a call that passes the checks before the lock.
Source: `_runtime.py`, `_acquire_rtc`, `_acquire_storage` and `_release` -/
def request (registry : Registry) : RegistryCall → Except Raised (Option Request)
  | .acquireRtc call => do
      let configuration ← registry.acquireBegin pathlib call
      return some (.acquireRtc call.mode configuration)
  | .acquireStorage call => do
      let configuration ← registry.acquireBegin pathlib call
      return some (.acquireStorage call.mode configuration)
  | .release n _ => do
      raising (registry.flags.checkProcess registry.pid)
      return some (.release n)
  | .finalize => return none

/-- A thread calls; the end of the interpreter is only a mark. -/
def begin (t : τ) (call : RegistryCall) : Option (Process τ) :=
  match proc.hookPending, proc.activity t with
  | false, .idle =>
      match request pathlib proc.registry call with
      | .error _ => some proc
      | .ok (some request) => some (proc.goto t (.checked request))
      | .ok none =>
          some { proc with registry := { proc.registry with
            flags := proc.registry.flags.markFinalizing } }
  | _, _ => none

/-- The locked part of a request, up to its native call; `none` without a lease object. -/
def lockedPart (registry : Registry) (request : Request) (writable : Bool)
    (result : NativeResult) : Option LockedPart :=
  match request with
  | .acquireRtc mode configuration =>
      some (acquireRtcSection errorName registry.globals registry.native mode configuration
        writable result)
  | .acquireStorage mode configuration =>
      some (acquireStorageSection errorName registry.globals registry.native mode configuration
        writable result)
  | .release n =>
      (registry.globals.lease n).map fun lease =>
        releaseSection errorName registry.globals registry.native n lease result

/-- A thread takes the lock, passes the checks behind it and makes its native call. -/
def enter (t : τ) (writable : Bool) (result : NativeResult) : Option (Process τ) :=
  match proc.hookPending, proc.holder, proc.activity t with
  | false, none, .checked request =>
      (lockedPart errorName proc.registry request writable result).map fun
        | .error _ => proc.goto t .idle
        | .ok (native, statements) =>
            { proc.goto t .inside with
              registry := { proc.registry with native := native }
              holder := some ⟨t, !decide (native.live ⊆ proc.registry.native.live), statements⟩
              inherited := proc.inherited ∩ native.live }
  | _, _, _ => none

/-- The thread inside runs its next statement. -/
def statement (t : τ) : Option (Process τ) :=
  match proc.hookPending, proc.holder with
  | false, some ⟨thread, initialised, s :: rest⟩ =>
      if thread = t then
        some { proc with
          registry := { proc.registry with globals := proc.registry.globals.run s }
          holder := some ⟨thread, initialised, rest⟩ }
      else none
  | _, _ => none

/-- The thread inside releases the lock behind its last statement, and returns. -/
def leave (t : τ) : Option (Process τ) :=
  match proc.hookPending, proc.holder with
  | false, some ⟨thread, _, []⟩ =>
      if thread = t then some { proc.goto t .idle with holder := none } else none
  | _, _ => none

/-- The child `q` that a fork makes: a copy with one thread, whose hook is still to run. -/
def child (q : ℕ) : Process τ where
  registry := { proc.registry with pid := q }
  parent := some proc.registry.pid
  hookPending := true
  holder := proc.holder
  inherited := proc.registry.native.live

/-- Source: `_runtime.py`, `_after_fork_child` -/
def afterForkChild : Option (Process τ) :=
  if proc.hookPending then
    some { proc with
      hookPending := false
      holder := none
      registry := { proc.registry with
        flags := proc.registry.flags.afterForkChild proc.registry.pid
          (decide (proc.registry.globals.activeLeases ≠ ∅)) } }
  else none

/-- **A thread has taken the Runtime up, and its lease is not yet in `_active_leases`.** -/
def unrecorded : Bool :=
  proc.holder.any fun holder => holder.initialised && holder.rest.any Statement.isAdd

end Process

namespace Processes

variable {τ : Type} [DecidableEq τ] (errorName : ℤ → String) (pathlib : PathLibrary)

/-- A step of one process alone. -/
def inProcess (s : Processes τ) (p : ℕ) (step : Process τ → Option (Process τ)) :
    Option (Processes τ) :=
  ((s p).bind step).map fun proc => Function.update s p (some proc)

/-- A thread of `p` that is in none of the calls forks `q`, a number in no use. -/
def fork (s : Processes τ) (p : ℕ) (t : τ) (q : ℕ) : Option (Processes τ) :=
  match s p, s q with
  | some proc, none =>
      match proc.hookPending, proc.activity t with
      | false, .idle => some (Function.update s q (some (proc.child q)))
      | _, _ => none
  | _, _ => none

/-- One step. -/
def step (s : Processes τ) : ForkAction τ → Option (Processes τ)
  | .begin p t call => inProcess s p fun proc => proc.begin pathlib t call
  | .enter p t writable result => inProcess s p fun proc => proc.enter errorName t writable result
  | .statement p t => inProcess s p fun proc => proc.statement t
  | .leave p t => inProcess s p fun proc => proc.leave t
  | .fork p t q => fork s p t q
  | .afterFork q => inProcess s q Process.afterForkChild

/-- **The fork trees** below a process that has just imported the SDK. -/
def machine (τ : Type) [DecidableEq τ] : Machine (Processes τ) (ForkAction τ) where
  start s := ∃ pid, s = Function.update (fun _ => none) pid
    (some { registry := { pid := pid, flags := { processId := pid } } })
  step := step errorName pathlib

/-- `q` is a descendant of `p`, or `p` itself. -/
def Descends (s : Processes τ) (q p : ℕ) : Prop :=
  Relation.ReflTransGen (fun a b => ∃ proc, s a = some proc ∧ proc.parent = some b) q p

end Processes

/-! ## What the Runtime holds has an active lease -/

/-- **The Runtime is covered by the registry**: whatever it holds belongs to an active lease. This
is less than `Consistent`, and it is what a child without leases keeps, whatever else its copy of
the globals says. -/
structure Covered (g : Globals) (native : Native) : Prop where
  active : ∀ n ∈ g.activeLeases, n < g.made
  handles : ∀ n ∈ g.activeLeases, ∀ lease, g.lease n = some lease →
    lease.handle = lease.mode.handle n
  clients : ∀ n, Resource.client n ∈ native.live →
    n ∈ g.activeLeases ∧ ∃ lease, g.lease n = some lease ∧ lease.mode = .accessKey
  rtc : Resource.runtime .rtc ∈ native.live → ∃ n ∈ g.activeLeases, ∃ lease,
    g.lease n = some lease ∧ lease.product = .rtc ∧ lease.mode = .externalToken
  storage : Resource.runtime .storage ∈ native.live →
    0 < g.externalStorageCount ∧ g.externalStorageCount = g.externalStorage.card
  count : (g.externalStorage.card : ℤ) ≤ g.externalStorageCount

namespace Covered

open Globals

variable {g : Globals} {native native' : Native} {n : ℕ} {lease : RuntimeLease}

/-- Without an active lease the Runtime holds nothing. -/
theorem live_eq_empty (h : Covered g native) (hempty : g.activeLeases = ∅) : native.live = ∅ := by
  apply Finset.eq_empty_of_forall_notMem
  intro resource hmem
  have hno (n : ℕ) : n ∉ g.activeLeases := hempty ▸ Finset.notMem_empty n
  rcases resource with product | n
  · cases product with
    | rtc =>
        obtain ⟨n, hn, -⟩ := h.rtc hmem
        exact hno n hn
    | storage =>
        obtain ⟨hpos, hcount⟩ := h.storage hmem
        have hnone : g.externalStorage = ∅ := by
          unfold externalStorage
          rw [hempty, Finset.filter_empty]
        rw [hnone, Finset.card_empty] at hcount
        omega
  · exact hno n (h.clients n hmem).1

/-- A process that starts without leases and without Runtime is covered. -/
theorem of_empty (hempty : g.activeLeases = ∅) (hlive : native.live = ∅)
    (hcount : 0 ≤ g.externalStorageCount) : Covered g native where
  active n hn := by simp [hempty] at hn
  handles n hn := by simp [hempty] at hn
  clients n hn := by simp [hlive] at hn
  rtc hn := by simp [hlive] at hn
  storage hn := by simp [hlive] at hn
  count := by simpa [externalStorage, hempty] using hcount

/-- One lease more, for what the acquire took up. -/
theorem enrolled (h : Covered g native) (hhandle : lease.handle = lease.mode.handle g.made)
    (hclients : ∀ m, Resource.client m ∈ native'.live →
      Resource.client m ∈ native.live ∨ (m = g.made ∧ lease.mode = .accessKey))
    (hrtc : Resource.runtime .rtc ∈ native'.live → Resource.runtime .rtc ∈ native.live ∨
      (lease.product = .rtc ∧ lease.mode = .externalToken))
    (hstorage : Resource.runtime .storage ∈ native'.live → Resource.runtime .storage ∈ native.live ∨
      (lease.isExternalStorage = true ∧ g.externalStorageCount = 0)) :
    Covered (g.enrolled lease) native' := by
  have hfresh : g.made ∉ g.activeLeases := fun hmem => absurd (h.active _ hmem) (Nat.lt_irrefl _)
  have hnew : g.made ∉ g.externalStorage := fun hmem => hfresh (Finset.mem_filter.mp hmem).1
  have hkept (m : ℕ) (hm : m ∈ g.activeLeases) : (g.enrolled lease).lease m = g.lease m :=
    enrolled_lease_of_ne (ne_of_mem_of_not_mem hm hfresh)
  have hcard : ((g.enrolled lease).externalStorage.card : ℤ) =
      g.externalStorage.card + if lease.isExternalStorage then 1 else 0 := by
    rw [externalStorage_enrolled hfresh]
    cases hx : lease.isExternalStorage with
    | true => simp [Finset.card_insert_of_notMem hnew]
    | false => simp
  have hcount := h.count
  refine ⟨?_, ?_, ?_, ?_, ?_, ?_⟩
  · intro m hm
    rcases Finset.mem_insert.mp hm with rfl | hm
    · exact Nat.lt_succ_self _
    · exact Nat.lt_succ_of_lt (h.active m hm)
  · intro m hm old hold
    rcases Finset.mem_insert.mp hm with rfl | hm
    · rw [enrolled_lease_self, Option.some.injEq] at hold
      exact hold ▸ hhandle
    · exact h.handles m hm old (hkept m hm ▸ hold)
  · intro m hm
    rcases hclients m hm with hm | ⟨rfl, hmode⟩
    · obtain ⟨hmem, old, hold, hmode⟩ := h.clients m hm
      exact ⟨Finset.mem_insert_of_mem hmem, old, (hkept m hmem).trans hold, hmode⟩
    · exact ⟨Finset.mem_insert_self _ _, lease, enrolled_lease_self, hmode⟩
  · intro hm
    rcases hrtc hm with hm | hlease
    · obtain ⟨m, hmem, old, hold, hrest⟩ := h.rtc hm
      exact ⟨m, Finset.mem_insert_of_mem hmem, old, (hkept m hmem).trans hold, hrest⟩
    · exact ⟨g.made, Finset.mem_insert_self _ _, lease, enrolled_lease_self, hlease⟩
  · intro hm
    rw [hcard]
    show 0 < g.externalStorageCount + _ ∧ g.externalStorageCount + _ = _
    rcases hstorage hm with hm | ⟨hx, hzero⟩
    · obtain ⟨hpos, heq⟩ := h.storage hm
      exact ⟨by split <;> omega, by rw [heq]⟩
    · rw [if_pos hx]
      omega
  · rw [hcard]
    show _ ≤ g.externalStorageCount + _
    omega

/-- One lease less, for what the release took down. -/
theorem released (h : Covered g native) (hlease : g.lease n = some lease)
    (hactive : n ∈ g.activeLeases) (hsub : native'.live ⊆ native.live)
    (hclient : lease.mode = .accessKey → Resource.client n ∉ native'.live)
    (hrtc : lease.product = .rtc → lease.mode = .externalToken →
      Resource.runtime .rtc ∉ native'.live)
    (hstorage : lease.isExternalStorage = true → 0 < g.externalStorageCount ∧
      (g.externalStorageCount = 1 → Resource.runtime .storage ∉ native'.live)) :
    Covered (g.released n lease) native' := by
  have hcard : ((g.released n lease).externalStorage.card : ℤ) =
      g.externalStorage.card - if lease.isExternalStorage then 1 else 0 := by
    rw [externalStorage_released]
    cases hx : lease.isExternalStorage with
    | true =>
        have hmem : n ∈ g.externalStorage :=
          Finset.mem_filter.mpr ⟨hactive, by simp [hlease, hx]⟩
        have hone := Finset.card_erase_add_one hmem
        simp only [if_true]
        omega
    | false =>
        have hmem : n ∉ g.externalStorage := by
          intro hmem
          have hany := (Finset.mem_filter.mp hmem).2
          simp [hlease, hx] at hany
        simp [Finset.erase_eq_of_notMem hmem]
  have hcount := h.count
  refine ⟨fun m hm => h.active m (Finset.mem_of_mem_erase hm), ?_, ?_, ?_, ?_, ?_⟩
  · intro m hm old hold
    have hne := Finset.ne_of_mem_erase hm
    exact h.handles m (Finset.mem_of_mem_erase hm) old ((released_lease_of_ne hne).symm.trans hold)
  · intro m hm
    obtain ⟨hmem, old, hold, hmode⟩ := h.clients m (hsub hm)
    have hne : m ≠ n := by
      rintro rfl
      rw [hlease, Option.some.injEq] at hold
      exact hclient (hold ▸ hmode) hm
    exact ⟨Finset.mem_erase.mpr ⟨hne, hmem⟩, old, (released_lease_of_ne hne).trans hold, hmode⟩
  · intro hm
    obtain ⟨m, hmem, old, hold, hproduct, hmode⟩ := h.rtc (hsub hm)
    have hne : m ≠ n := by
      rintro rfl
      rw [hlease, Option.some.injEq] at hold
      exact hrtc (hold ▸ hproduct) (hold ▸ hmode) hm
    exact ⟨m, Finset.mem_erase.mpr ⟨hne, hmem⟩, old, (released_lease_of_ne hne).trans hold,
      hproduct, hmode⟩
  · intro hm
    obtain ⟨hpos, heq⟩ := h.storage (hsub hm)
    rw [hcard]
    show 0 < g.externalStorageCount - _ ∧ g.externalStorageCount - _ = _
    refine ⟨?_, by rw [heq]⟩
    split
    · next hx =>
        have hne : g.externalStorageCount ≠ 1 := fun hone => (hstorage hx).2 hone hm
        omega
    · omega
  · rw [hcard]
    show _ ≤ g.externalStorageCount - _
    omega

end Covered

/-- The count of the external-token storage leases is never negative, now and while the statements
run. -/
def Counted (g : Globals) : List Statement → Prop
  | [] => 0 ≤ g.externalStorageCount
  | s :: rest => 0 ≤ g.externalStorageCount ∧ Counted (g.run s) rest

/-- **The locked part of a request keeps the Runtime covered**, once its statements have run. -/
theorem covered_lockedPart {errorName : ℤ → String} {registry : Registry} {request : Request}
    {writable : Bool} {result : NativeResult} {native : Native} {statements : List Statement}
    (h : Covered registry.globals registry.native)
    (hpart : Process.lockedPart errorName registry request writable result =
      some (.ok (native, statements))) :
    Covered (registry.globals.runAll statements) native ∧
      Counted registry.globals statements ∧
      (statements.any Statement.isAdd = true → ∀ n, Statement.removeLease n ∉ statements) := by
  have hpos : 0 ≤ registry.globals.externalStorageCount :=
    le_trans (Int.natCast_nonneg _) h.count
  rcases request with ⟨mode, configuration⟩ | ⟨mode, configuration⟩ | ⟨n⟩
  · obtain ⟨-, -, rfl, hcreate, hup⟩ := acquireRtcSection_ok (Option.some.inj hpart)
    rw [Globals.runAll_rtcBookkeeping rfl]
    refine ⟨h.enrolled rfl ?_ ?_ (fun hm => .inl ?_), ?_, fun _ n => by simp [rtcBookkeeping]⟩
    · intro m hm
      cases mode with
      | accessKey => simpa [hcreate rfl, Native.create, or_comm] using hm
      | externalToken => exact .inl (by simpa [hup rfl, Native.switchUp] using hm)
    · intro hm
      cases mode with
      | accessKey => exact .inl (by simpa [hcreate rfl, Native.create] using hm)
      | externalToken => exact .inr ⟨rfl, rfl⟩
    · cases mode with
      | accessKey => simpa [hcreate rfl, Native.create] using hm
      | externalToken => simpa [hup rfl, Native.switchUp] using hm
    · simpa [rtcBookkeeping, Counted, Globals.run] using hpos
  · obtain ⟨-, -, rfl, hcreate, hup⟩ := acquireStorageSection_ok (Option.some.inj hpart)
    rw [Globals.runAll_storageBookkeeping rfl]
    refine ⟨h.enrolled rfl ?_ (fun hm => .inl ?_) ?_, ?_,
      fun _ n => by cases mode <;> simp [storageBookkeeping]⟩
    · intro m hm
      cases mode with
      | accessKey => simpa [hcreate rfl, Native.create, or_comm] using hm
      | externalToken =>
          rw [hup rfl] at hm
          split at hm
          · exact .inl (by simpa [Native.switchUp] using hm)
          · exact .inl hm
    · cases mode with
      | accessKey => simpa [hcreate rfl, Native.create] using hm
      | externalToken =>
          rw [hup rfl] at hm
          split at hm
          · simpa [Native.switchUp] using hm
          · exact hm
    · intro hm
      cases mode with
      | accessKey => exact .inl (by simpa [hcreate rfl, Native.create] using hm)
      | externalToken =>
          rw [hup rfl] at hm
          split at hm
          · next hzero => exact .inr ⟨rfl, hzero⟩
          · exact .inl hm
    · have hnext : 0 ≤ registry.globals.externalStorageCount + 1 := by omega
      cases mode with
      | accessKey => simpa [storageBookkeeping, Counted, Globals.run] using hpos
      | externalToken => simp [storageBookkeeping, Counted, Globals.run, hpos, hnext]
  · obtain ⟨lease, hlease, hpart⟩ := Option.map_eq_some_iff.mp hpart
    obtain ⟨-, rfl, rfl⟩ | ⟨-, hactive, rfl, hnative⟩ := releaseSection_ok hpart
    · exact ⟨h, hpos, fun hadd => by simp at hadd⟩
    have hnone : (releaseBookkeeping n lease).any Statement.isAdd = true →
        ∀ m, Statement.removeLease m ∉ releaseBookkeeping n lease := fun hadd => by
      unfold releaseBookkeeping at hadd
      split_ifs at hadd <;> simp [Statement.isAdd] at hadd
    rw [Globals.runAll_releaseBookkeeping hlease]
    have hhandle := h.handles n hactive lease hlease
    cases hmode : lease.mode with
    | accessKey =>
        rw [hmode] at hnative hhandle
        obtain ⟨handle, hsome, rfl⟩ := hnative
        have heq : handle = n := Option.some.inj (hsome.symm.trans hhandle)
        refine ⟨h.released hlease hactive (Finset.erase_subset _ _) ?_ ?_ ?_, ?_, hnone⟩
        · intro _
          simp [Native.close, heq]
        · intro _ hother
          simp [hmode] at hother
        · intro hother
          simp [RuntimeLease.isExternalStorage, hmode] at hother
        · cases hproduct : lease.product <;>
            simpa [releaseBookkeeping, Counted, Globals.run, Globals.modifyLease, hproduct,
              hmode] using hpos
    | externalToken =>
        cases hproduct : lease.product with
        | rtc =>
            rw [hmode, hproduct] at hnative
            subst hnative
            refine ⟨h.released hlease hactive (Finset.erase_subset _ _) ?_ ?_ ?_, ?_, hnone⟩
            · intro hother
              simp [hmode] at hother
            · intro _ _
              simp [Native.switchDown]
            · intro hother
              simp [RuntimeLease.isExternalStorage, hproduct] at hother
            · simpa [releaseBookkeeping, Counted, Globals.run, Globals.modifyLease,
                hproduct] using hpos
        | storage =>
            rw [hmode, hproduct] at hnative
            obtain ⟨hone, rfl⟩ := hnative
            refine ⟨h.released hlease hactive ?_ ?_ ?_ ?_, ?_, hnone⟩
            · split
              · exact Finset.erase_subset _ _
              · exact Finset.Subset.refl _
            · intro hother
              simp [hmode] at hother
            · intro hother
              simp [hproduct] at hother
            · intro _
              refine ⟨hone, fun heq => ?_⟩
              rw [if_pos heq]
              simp [Native.switchDown]
            · have hnext : 1 ≤ registry.globals.externalStorageCount := by omega
              simp [releaseBookkeeping, Counted, Globals.run, Globals.modifyLease, hproduct, hmode,
                hpos, hnext]

/-! ## What a step can do -/

section Moves

variable {τ : Type} [DecidableEq τ]

/-- **The moves of one process.** -/
inductive Moves (errorName : ℤ → String) (proc : Process τ) : Process τ → Prop
  | stays : Moves errorName proc proc
  | checked (t : τ) (request : Request) : proc.hookPending = false → proc.activity t = .idle →
      proc.isCurrent = true → Moves errorName proc (proc.goto t (.checked request))
  | finalized : Moves errorName proc { proc with
      registry := { proc.registry with flags := proc.registry.flags.markFinalizing } }
  | refused (t : τ) (request : Request) : proc.activity t = .checked request →
      Moves errorName proc (proc.goto t .idle)
  | entered (t : τ) (request : Request) (writable : Bool) (result : NativeResult)
      (native : Native) (statements : List Statement) :
      proc.hookPending = false → proc.holder = none → proc.activity t = .checked request →
      Process.lockedPart errorName proc.registry request writable result =
        some (.ok (native, statements)) →
      Moves errorName proc { proc.goto t .inside with
        registry := { proc.registry with native := native }
        holder := some ⟨t, !decide (native.live ⊆ proc.registry.native.live), statements⟩
        inherited := proc.inherited ∩ native.live }
  | ran (t : τ) (initialised : Bool) (s : Statement) (rest : List Statement) :
      proc.hookPending = false → proc.holder = some ⟨t, initialised, s :: rest⟩ →
      Moves errorName proc { proc with
        registry := { proc.registry with globals := proc.registry.globals.run s }
        holder := some ⟨t, initialised, rest⟩ }
  | left (t : τ) (initialised : Bool) : proc.hookPending = false →
      proc.holder = some ⟨t, initialised, []⟩ →
      Moves errorName proc { proc.goto t .idle with holder := none }
  | hook : proc.hookPending = true → Moves errorName proc { proc with
      hookPending := false
      holder := none
      registry := { proc.registry with
        flags := proc.registry.flags.afterForkChild proc.registry.pid
          (decide (proc.registry.globals.activeLeases ≠ ∅)) } }

variable {errorName : ℤ → String} {pathlib : PathLibrary} {proc proc' : Process τ} {t : τ}

/-- A call that passes the process check is made in a current process. -/
theorem current_of_check
    (h : raising (proc.registry.flags.checkProcess proc.registry.pid) = .ok ()) :
    proc.isCurrent = true := by
  unfold raising at h
  split at h
  · cases h
  · next hnone => exact (ProcessFlags.checkProcess_eq_none _ _).mp hnone

/-- A request comes from a current process. -/
theorem current_of_request {call : RegistryCall} {request : Request}
    (h : Process.request pathlib proc.registry call = .ok (some request)) :
    proc.isCurrent = true := by
  cases call with
  | acquireRtc call =>
      obtain ⟨configuration, hbegin, -⟩ := bind_ok h
      obtain ⟨⟨⟩, hcheck, -⟩ := bind_ok hbegin
      exact current_of_check hcheck
  | acquireStorage call =>
      obtain ⟨configuration, hbegin, -⟩ := bind_ok h
      obtain ⟨⟨⟩, hcheck, -⟩ := bind_ok hbegin
      exact current_of_check hcheck
  | release n result =>
      obtain ⟨⟨⟩, hcheck, -⟩ := bind_ok h
      exact current_of_check hcheck
  | finalize => cases h

/-- A call begins. -/
theorem moves_begin {call : RegistryCall} (h : proc.begin pathlib t call = some proc') :
    Moves errorName proc proc' := by
  unfold Process.begin at h
  split at h
  · next hpending hidle =>
      split at h
      · cases h
        exact .stays
      · next request hrequest =>
          cases h
          exact .checked t request hpending hidle (current_of_request hrequest)
      · cases h
        exact .finalized
  · cases h

/-- A thread passes the locked part. -/
theorem moves_enter {writable : Bool} {result : NativeResult}
    (h : proc.enter errorName t writable result = some proc') : Moves errorName proc proc' := by
  unfold Process.enter at h
  split at h
  · next request hpending hholder hchecked =>
      obtain ⟨part, hpart, rfl⟩ := Option.map_eq_some_iff.mp h
      rcases part with raised | ⟨native, statements⟩
      · exact .refused t request hchecked
      · exact .entered t request writable result native statements hpending hholder hchecked hpart
  · cases h

/-- The thread inside runs a statement. -/
theorem moves_statement (h : proc.statement t = some proc') : Moves errorName proc proc' := by
  unfold Process.statement at h
  split at h
  · next thread initialised s rest hpending hholder =>
      split at h
      · cases h
        exact .ran _ _ _ _ hpending hholder
      · cases h
  · cases h

/-- The thread inside leaves. -/
theorem moves_leave (h : proc.leave t = some proc') : Moves errorName proc proc' := by
  unfold Process.leave at h
  split at h
  · next thread initialised hpending hholder =>
      split at h
      · next heq =>
          cases h
          exact .left t initialised hpending (heq ▸ hholder)
      · cases h
  · cases h

/-- The hook runs. -/
theorem moves_afterForkChild (h : proc.afterForkChild = some proc') :
    Moves errorName proc proc' := by
  unfold Process.afterForkChild at h
  split at h
  · next hpending =>
      cases h
      exact .hook hpending
  · cases h

/-- **A step moves one process, or forks a new one.** -/
theorem step_cases {s s' : Processes τ} {a : ForkAction τ}
    (h : Processes.step errorName pathlib s a = some s') :
    (∃ p proc proc', s p = some proc ∧ Moves errorName proc proc' ∧
      s' = Function.update s p (some proc')) ∨
    ∃ p t q proc, a = .fork p t q ∧ s p = some proc ∧ s q = none ∧ proc.hookPending = false ∧
      proc.activity t = .idle ∧ s' = Function.update s q (some (proc.child q)) := by
  have hmove {p : ℕ} {f : Process τ → Option (Process τ)}
      (hf : ∀ proc proc', f proc = some proc' → Moves errorName proc proc')
      (hs : Processes.inProcess s p f = some s') :
      ∃ p proc proc', s p = some proc ∧ Moves errorName proc proc' ∧
        s' = Function.update s p (some proc') := by
    obtain ⟨proc', hbind, rfl⟩ := Option.map_eq_some_iff.mp hs
    obtain ⟨proc, hproc, hstep⟩ := Option.bind_eq_some_iff.mp hbind
    exact ⟨p, proc, proc', hproc, hf proc proc' hstep, rfl⟩
  cases a with
  | begin p t call => exact .inl (hmove (fun _ _ => moves_begin) h)
  | enter p t writable result => exact .inl (hmove (fun _ _ => moves_enter) h)
  | statement p t => exact .inl (hmove (fun _ _ => moves_statement) h)
  | leave p t => exact .inl (hmove (fun _ _ => moves_leave) h)
  | afterFork q => exact .inl (hmove (fun _ _ => moves_afterForkChild) h)
  | fork p t q =>
      refine .inr ?_
      simp only [Processes.step, Processes.fork] at h
      split at h
      · next proc hp hq =>
          split at h
          · next hpending hidle =>
              cases h
              exact ⟨p, t, q, proc, rfl, hp, hq, hpending, hidle, rfl⟩
          · cases h
      · cases h

end Moves

/-! ## A rejected process hands that down -/

section Rejection

variable {τ : Type} [DecidableEq τ]

/-- `_forked_with_runtime` -/
def Process.rejected (proc : Process τ) : Bool := proc.registry.flags.forkedWithRuntime

/-- **Process number `p`, as far as its rejection goes**: only a process whose hook has run may be
current, and a rejected one has leases that nobody can release any more. -/
structure Rejection (p : ℕ) (proc : Process τ) : Prop where
  pid : proc.registry.pid = p
  marked : proc.hookPending = false ↔ proc.registry.flags.processId = p
  leases : proc.rejected = true → proc.registry.globals.activeLeases ≠ ∅
  idle : proc.rejected = true ∨ proc.hookPending = true → ∀ t, proc.activity t = .idle
  released : proc.rejected = true → proc.hookPending = false → proc.holder = none

/-- A rejected process is not current. -/
theorem not_current_of_rejected {proc : Process τ} (h : proc.rejected = true) :
    proc.isCurrent = false := by
  have hforked : proc.registry.flags.forkedWithRuntime = true := h
  simp [Process.isCurrent, ProcessFlags.processIsCurrent, hforked]

/-- **The step lemma for one process**: it keeps its number, and a rejection is for good. -/
theorem Rejection.moves {errorName : ℤ → String} {p : ℕ} {proc proc' : Process τ}
    (h : Rejection p proc) (hmove : Moves errorName proc proc') :
    Rejection p proc' ∧ proc'.parent = proc.parent ∧
      (proc.hookPending = false → proc'.hookPending = false ∧ proc'.rejected = proc.rejected) ∧
      (proc.rejected = true → proc'.rejected = true) := by
  cases hmove with
  | stays => exact ⟨h, rfl, fun hp => ⟨hp, rfl⟩, id⟩
  | checked t request hpending _ hc =>
      have hnot : ¬ (proc.rejected = true ∨ proc.hookPending = true) := by
        rintro (hr | hp)
        · simp [not_current_of_rejected hr] at hc
        · simp [hpending] at hp
      exact ⟨⟨h.pid, h.marked, h.leases, fun hr => absurd hr hnot, h.released⟩, rfl,
        fun hp => ⟨hp, rfl⟩, id⟩
  | finalized => exact ⟨⟨h.pid, h.marked, h.leases, h.idle, h.released⟩, rfl,
      fun hp => ⟨hp, rfl⟩, id⟩
  | refused t request hchecked =>
      have hnot : ¬ (proc.rejected = true ∨ proc.hookPending = true) := by
        intro hr
        simp [h.idle hr t] at hchecked
      exact ⟨⟨h.pid, h.marked, h.leases, fun hr => absurd hr hnot, h.released⟩, rfl,
        fun hp => ⟨hp, rfl⟩, id⟩
  | entered t request writable result native statements hpending hholder hchecked _ =>
      have hnot : ¬ (proc.rejected = true ∨ proc.hookPending = true) := by
        intro hr
        simp [h.idle hr t] at hchecked
      exact ⟨⟨h.pid, h.marked, h.leases, fun hr => absurd hr hnot,
        fun hr => absurd (.inl hr) hnot⟩, rfl, fun hp => ⟨hp, rfl⟩, id⟩
  | ran t initialised s rest hpending hholder =>
      have hnot : proc.rejected ≠ true := fun hr => by simp [h.released hr hpending] at hholder
      exact ⟨⟨h.pid, h.marked, fun hr => absurd hr hnot, h.idle, fun hr => absurd hr hnot⟩, rfl,
        fun hp => ⟨hp, rfl⟩, id⟩
  | left t initialised hpending hholder =>
      have hnot : ¬ (proc.rejected = true ∨ proc.hookPending = true) := by
        rintro (hr | hp)
        · simp [h.released hr hpending] at hholder
        · simp [hpending] at hp
      exact ⟨⟨h.pid, h.marked, h.leases, fun hr => absurd hr hnot, fun _ _ => rfl⟩, rfl,
        fun hp => ⟨hp, rfl⟩, id⟩
  | hook hpending =>
      refine ⟨⟨h.pid, ?_, ?_, fun _ => h.idle (.inr hpending), fun _ _ => rfl⟩, rfl, ?_, ?_⟩
      · simpa [ProcessFlags.afterForkChild] using h.pid
      · intro hr
        simpa [Process.rejected, ProcessFlags.afterForkChild] using hr
      · intro hp
        simp [hpending] at hp
      · intro hr
        simpa [Process.rejected, ProcessFlags.afterForkChild] using h.leases hr

/-- A forked process: its flags are those of the parent, so the process check fails until the hook
has run. -/
theorem Rejection.child {p q : ℕ} {proc : Process τ} (h : Rejection p proc) (hne : q ≠ p)
    (hpending : proc.hookPending = false) : Rejection q (proc.child q) where
  pid := rfl
  marked := by
    have hmark : proc.registry.flags.processId = p := h.marked.mp hpending
    simp [Process.child, hmark, Ne.symm hne]
  leases := h.leases
  idle _ _ := rfl
  released _ hp := by cases hp

/-- **What holds of all processes**: each is as above, and the rejection of a parent is the child's
too. -/
structure Rejections (s : Processes τ) : Prop where
  process : ∀ p proc, s p = some proc → Rejection p proc
  handed : ∀ q proc p, s q = some proc → proc.parent = some p → ∃ parent, s p = some parent ∧
    parent.hookPending = false ∧ (parent.rejected = true → proc.rejected = true)

variable {errorName : ℤ → String} {pathlib : PathLibrary}

/-- **The step lemma.** A rejected process stays, and stays rejected. -/
theorem rejections_step {s s' : Processes τ} {a : ForkAction τ} (hs : Rejections s)
    (h : Processes.step errorName pathlib s a = some s') : Rejections s' ∧
      ∀ p proc, s p = some proc → proc.rejected = true →
        ∃ proc', s' p = some proc' ∧ proc'.rejected = true := by
  obtain ⟨p, proc, proc', hp, hmove, rfl⟩ | ⟨p, t, q, proc, -, hp, hq, hpending, -, rfl⟩ :=
    step_cases h
  · obtain ⟨hok, hparent, hdone, hkept⟩ := (hs.process p proc hp).moves hmove
    refine ⟨⟨?_, ?_⟩, ?_⟩
    · intro r old hr
      by_cases hrp : r = p
      · subst hrp
        rw [Function.update_self, Option.some.injEq] at hr
        exact hr ▸ hok
      · rw [Function.update_of_ne hrp] at hr
        exact hs.process r old hr
    · intro r old parent hr hlink
      -- the child may be the process that moves, or its parent may be
      have hold : ∃ was, s r = some was ∧ was.parent = some parent ∧
          (was.rejected = true → old.rejected = true) := by
        by_cases hrp : r = p
        · subst hrp
          rw [Function.update_self, Option.some.injEq] at hr
          subst hr
          exact ⟨proc, hp, hparent ▸ hlink, hkept⟩
        · rw [Function.update_of_ne hrp] at hr
          exact ⟨old, hr, hlink, id⟩
      obtain ⟨was, hwas, hwaslink, hrej⟩ := hold
      obtain ⟨par, hpar, hparpending, hparrej⟩ := hs.handed r was parent hwas hwaslink
      by_cases hpp : parent = p
      · subst hpp
        rw [hp, Option.some.injEq] at hpar
        subst hpar
        obtain ⟨hdone', hsame⟩ := hdone hparpending
        exact ⟨proc', Function.update_self .., hdone', fun h => hrej (hparrej (hsame ▸ h))⟩
      · exact ⟨par, by rw [Function.update_of_ne hpp, hpar], hparpending, fun h => hrej (hparrej h)⟩
    · intro r old hr hrej
      by_cases hrp : r = p
      · subst hrp
        rw [hp, Option.some.injEq] at hr
        exact ⟨proc', Function.update_self .., hkept (hr ▸ hrej)⟩
      · exact ⟨old, by rw [Function.update_of_ne hrp, hr], hrej⟩
  · have hne : q ≠ p := by
      rintro rfl
      cases hq.symm.trans hp
    have hkeep (r : ℕ) (old : Process τ) (hr : s r = some old) :
        Function.update s q (some (proc.child q)) r = some old := by
      have hrq : r ≠ q := by
        rintro rfl
        cases hq.symm.trans hr
      rw [Function.update_of_ne hrq, hr]
    refine ⟨⟨?_, ?_⟩, fun r old hr hrej => ⟨old, hkeep r old hr, hrej⟩⟩
    · intro r old hr
      by_cases hrq : r = q
      · subst hrq
        rw [Function.update_self, Option.some.injEq] at hr
        exact hr ▸ (hs.process p proc hp).child hne hpending
      · rw [Function.update_of_ne hrq] at hr
        exact hs.process r old hr
    · intro r old parent hr hlink
      by_cases hrq : r = q
      · subst hrq
        rw [Function.update_self, Option.some.injEq] at hr
        subst hr
        have hpid : parent = p := by
          rw [← (hs.process p proc hp).pid]
          exact (Option.some.inj hlink).symm
        subst hpid
        exact ⟨proc, hkeep parent proc hp, hpending, id⟩
      · rw [Function.update_of_ne hrq] at hr
        obtain ⟨par, hpar, hrest⟩ := hs.handed r old parent hr hlink
        exact ⟨par, hkeep parent par hpar, hrest⟩

/-- **The run lemma.** -/
theorem reach_rejections {s : Processes τ}
    (hs : (Processes.machine errorName pathlib τ).Reach s) : Rejections s := by
  refine hs.invariant (I := Rejections) ?_ fun _ _ _ hr _ h => (rejections_step hr h).1
  rintro s ⟨pid, rfl⟩
  refine ⟨?_, ?_⟩
  · intro p proc hp
    by_cases hpp : p = pid
    · subst hpp
      rw [Function.update_self, Option.some.injEq] at hp
      subst hp
      exact ⟨rfl, by simp, by simp [Process.rejected], fun _ _ => rfl, fun _ _ => rfl⟩
    · simp [hpp] at hp
  · intro q proc p hq hlink
    by_cases hqq : q = pid
    · subst hqq
      rw [Function.update_self, Option.some.injEq] at hq
      subst hq
      cases hlink
    · simp [hqq] at hq

/-- A descendant of a rejected process is rejected. -/
theorem rejected_of_descends {s : Processes τ} (hs : Rejections s) {q p : ℕ}
    (h : Processes.Descends s q p) {parent : Process τ} (hp : s p = some parent)
    (hrej : parent.rejected = true) {proc : Process τ} (hq : s q = some proc) :
    proc.rejected = true := by
  induction h using Relation.ReflTransGen.head_induction_on generalizing proc with
  | refl =>
      rw [hp, Option.some.injEq] at hq
      exact hq ▸ hrej
  | head hstep _ ih =>
      obtain ⟨child, hchild, hlink⟩ := hstep
      rw [hchild, Option.some.injEq] at hq
      subst hq
      obtain ⟨middle, hmiddle, -, hhanded⟩ := hs.handed _ _ _ hchild hlink
      exact hhanded (ih hmiddle)

/-- **A rejection is inherited**: once a process is rejected, no descendant of it is current, now or
in any later state. -/
theorem rejected_inherited {s t : Processes τ} {as : List (ForkAction τ)}
    (hs : (Processes.machine errorName pathlib τ).Reach s) {p : ℕ} {parent : Process τ}
    (hp : s p = some parent) (hrej : parent.rejected = true)
    (hrun : (Processes.machine errorName pathlib τ).exec s as = some t) {q : ℕ}
    (hq : Processes.Descends t q p) {proc : Process τ} (hproc : t q = some proc) :
    proc.isCurrent = false := by
  have hkept : Rejections t ∧ ∃ later, t p = some later ∧ later.rejected = true := by
    refine Machine.exec_invariant (I := fun s : Processes τ =>
      Rejections s ∧ ∃ later, s p = some later ∧ later.rejected = true) ?_ hrun
      ⟨reach_rejections hs, parent, hp, hrej⟩
    rintro s a s' ⟨hr, later, hlater, hlaterrej⟩ hstep
    obtain ⟨hr', hstays⟩ := rejections_step hr hstep
    exact ⟨hr', hstays p later hlater hlaterrej⟩
  obtain ⟨hr, later, hlater, hlaterrej⟩ := hkept
  exact not_current_of_rejected (rejected_of_descends hr hq hlater hlaterrej hproc)

end Rejection

/-! ## What a child may inherit -/

section Recorded

variable {τ : Type} [DecidableEq τ]

/-- The statements the thread inside has still to run. -/
def Process.rest (proc : Process τ) : List Statement :=
  (proc.holder.map Holder.rest).getD []

/-- **A process that may be current**: once the thread inside is done, what the Runtime holds is
covered by leases, and nothing of it comes from an ancestor. `window` says when a thread inside can
have taken something up that no lease covers yet. -/
structure Settled (proc : Process τ) : Prop where
  covered : Covered (proc.registry.globals.runAll proc.rest) proc.registry.native
  counted : Counted proc.registry.globals proc.rest
  window : proc.rest.any Statement.isAdd = true →
    (∀ n, Statement.removeLease n ∉ proc.rest) ∧
    (proc.registry.globals.activeLeases = ∅ → proc.registry.native.live = ∅ ∨
      ∃ holder, proc.holder = some holder ∧ holder.initialised = true)
  initialised : ∀ holder, proc.holder = some holder → holder.initialised = true →
    proc.registry.native.live ≠ ∅
  inherited : proc.inherited = ∅

/-- What holds of a process that its fork did not reject: it is settled, or it is a child before its
hook, which gets nothing from its parent unless it gets leases too. -/
structure Recorded (proc : Process τ) : Prop where
  settled : proc.rejected = false → proc.hookPending = false → Settled proc
  pending : proc.rejected = false → proc.hookPending = true →
    proc.registry.globals.activeLeases = ∅ →
      proc.registry.native.live = ∅ ∧ proc.inherited = ∅ ∧
        0 ≤ proc.registry.globals.externalStorageCount

/-- Without an `_active_leases.add` the statements add no lease. -/
theorem runAll_activeLeases_subset {g : Globals} {statements : List Statement}
    (h : statements.any Statement.isAdd = false) :
    (g.runAll statements).activeLeases ⊆ g.activeLeases := by
  induction statements generalizing g with
  | nil => exact Finset.Subset.refl _
  | cons s rest ih =>
      rw [List.any_cons, Bool.or_eq_false_iff] at h
      have hone : (g.run s).activeLeases ⊆ g.activeLeases := by
        cases s with
        | addLease n => cases h.1
        | removeLease n => exact Finset.erase_subset _ _
        | _ => exact Finset.Subset.refl _
      exact (ih h.2).trans hone

/-- A count that stays non-negative is non-negative now. -/
theorem Counted.now {g : Globals} {statements : List Statement} (h : Counted g statements) :
    0 ≤ g.externalStorageCount := by
  cases statements with
  | nil => exact h
  | cons s rest => exact h.1

/-- **Without a lease and without an unrecorded acquire the Runtime holds nothing.** -/
theorem Settled.live_eq_empty {proc : Process τ} (h : Settled proc)
    (hempty : proc.registry.globals.activeLeases = ∅) (hrecorded : proc.unrecorded = false) :
    proc.registry.native.live = ∅ := by
  cases hadd : proc.rest.any Statement.isAdd with
  | true =>
      rcases (h.window hadd).2 hempty with hlive | ⟨holder, hholder, hinit⟩
      · exact hlive
      · have hrest : holder.rest.any Statement.isAdd = true := by
          simpa [Process.rest, hholder] using hadd
        simp [Process.unrecorded, hholder, hinit, hrest] at hrecorded
  | false =>
      refine h.covered.live_eq_empty (Finset.subset_empty.mp ?_)
      exact hempty ▸ runAll_activeLeases_subset hadd

/-- A move that leaves the registry and the lock alone. -/
theorem Settled.goto {proc : Process τ} (h : Settled proc) (t : τ) (activity : Activity) :
    Settled (proc.goto t activity) :=
  ⟨h.covered, h.counted, h.window, h.initialised, h.inherited⟩

/-- **The step lemma for one process.** -/
theorem Recorded.moves {errorName : ℤ → String} {p : ℕ} {proc proc' : Process τ}
    (h : Recorded proc) (hp : Rejection p proc) (hmove : Moves errorName proc proc') :
    Recorded proc' := by
  cases hmove with
  | stays => exact h
  | checked t request hpending =>
      refine ⟨fun hrej hdone => (h.settled hrej hdone).goto t _, fun hrej hpend => ?_⟩
      exact h.pending hrej hpend
  | finalized =>
      refine ⟨fun hrej hdone => ?_, fun hrej hpend => h.pending hrej hpend⟩
      obtain ⟨h₁, h₂, h₃, h₄, h₅⟩ := h.settled hrej hdone
      exact ⟨h₁, h₂, h₃, h₄, h₅⟩
  | refused t request =>
      exact ⟨fun hrej hdone => (h.settled hrej hdone).goto t _, fun hrej hpend =>
        h.pending hrej hpend⟩
  | entered t request writable result native statements hpending hholder _ hpart =>
      refine ⟨fun hrej _ => ?_, fun _ hpend => by cases hpending.symm.trans hpend⟩
      have hold := h.settled hrej hpending
      have hcovered : Covered proc.registry.globals proc.registry.native := by
        simpa [Process.rest, hholder, Globals.runAll] using hold.covered
      obtain ⟨hnew, hcounted, hremove⟩ := covered_lockedPart hcovered hpart
      refine ⟨hnew, hcounted, fun hadd => ⟨hremove hadd, ?_⟩, ?_, ?_⟩
      · intro hempty
        -- the Runtime held nothing before the native call
        have hlive := hcovered.live_eq_empty hempty
        by_cases hsub : native.live ⊆ proc.registry.native.live
        · exact .inl (Finset.subset_empty.mp (hlive ▸ hsub))
        · exact .inr ⟨_, rfl, by simp [hsub]⟩
      · rintro holder hsome hinit hlive
        obtain rfl := Option.some.inj hsome
        simp [show native.live = ∅ from hlive] at hinit
      · show proc.inherited ∩ native.live = ∅
        rw [hold.inherited, Finset.empty_inter]
  | ran t initialised s rest hpending hholder =>
      refine ⟨fun hrej _ => ?_, fun _ hpend => by cases hpending.symm.trans hpend⟩
      have hold := h.settled hrej hpending
      have hrest : proc.rest = s :: rest := by simp [Process.rest, hholder]
      obtain ⟨hcovered, hcounted, hwindow, hinit, hinherited⟩ := hold
      rw [hrest] at hcovered hcounted hwindow
      refine ⟨hcovered, hcounted.2, ?_, ?_, hinherited⟩
      · intro hadd
        have hadd' : (s :: rest).any Statement.isAdd = true := by
          rw [List.any_cons, Bool.or_eq_true]
          exact .inr hadd
        obtain ⟨hremove, hopen⟩ := hwindow hadd'
        refine ⟨fun n hmem => hremove n (List.mem_cons_of_mem s hmem), fun hempty => ?_⟩
        have hbefore : proc.registry.globals.activeLeases = ∅ := by
          cases s with
          | addLease n => exact absurd hempty (Finset.insert_ne_empty _ _)
          | removeLease n => exact absurd (List.mem_cons_self ..) (hremove n)
          | _ => exact hempty
        rcases hopen hbefore with hlive | ⟨holder, hsome, hi⟩
        · exact .inl hlive
        · rw [hholder, Option.some.injEq] at hsome
          subst hsome
          exact .inr ⟨_, rfl, hi⟩
      · rintro holder hsome hi
        obtain rfl := Option.some.inj hsome
        exact hinit _ hholder hi
  | left t initialised hpending hholder =>
      refine ⟨fun hrej _ => ?_, fun _ hpend => by cases hpending.symm.trans hpend⟩
      have hold := h.settled hrej hpending
      have hrest : proc.rest = [] := by simp [Process.rest, hholder]
      obtain ⟨hcovered, hcounted, -, -, hinherited⟩ := hold
      rw [hrest] at hcovered hcounted
      exact ⟨hcovered, hcounted, fun hadd => by simp [Process.rest] at hadd,
        (fun _ hsome => by cases hsome), hinherited⟩
  | hook hpending =>
      refine ⟨fun hrej _ => ?_, fun _ hpend => by cases hpend⟩
      have hempty : proc.registry.globals.activeLeases = ∅ := by
        simpa [Process.rejected, ProcessFlags.afterForkChild] using hrej
      have hbefore : proc.rejected = false := by
        rw [← Bool.not_eq_true]
        exact fun hr => hp.leases hr hempty
      obtain ⟨hlive, hinherited, hcount⟩ := h.pending hbefore hpending hempty
      exact ⟨.of_empty hempty hlive hcount, hcount, fun hadd => by simp [Process.rest] at hadd,
        (fun _ hsome => by cases hsome), hinherited⟩

/-- A process forks with a lease, or without an acquire that is not recorded yet.
Source: `_runtime.py`, `_after_fork_child` and `_acquire_rtc` -/
def forkGuard (s : Processes τ) : ForkAction τ → Bool
  | .fork p _ _ => (s p).all fun proc =>
      !proc.unrecorded || decide (proc.registry.globals.activeLeases ≠ ∅)
  | _ => true

variable {errorName : ℤ → String} {pathlib : PathLibrary}

/-- **The run lemma**, for runs with the guard. -/
theorem reach_recorded {s : Processes τ} (hs : (Processes.machine errorName pathlib τ).ReachWith
    (fun s a => forkGuard s a = true) s) : ∀ p proc, s p = some proc → Recorded proc := by
  refine hs.invariant_of (I := fun s : Processes τ => ∀ p proc, s p = some proc → Recorded proc)
    (J := Rejections) (fun s hs => reach_rejections hs.reach) ?_ ?_
  · rintro s ⟨pid, rfl⟩ - p proc hp
    by_cases hpp : p = pid
    · subst hpp
      rw [Function.update_self, Option.some.injEq] at hp
      subst hp
      refine ⟨fun _ _ => ?_, fun _ hpend => by cases hpend⟩
      exact ⟨.of_empty rfl rfl le_rfl, le_rfl, fun hadd => by simp [Process.rest] at hadd,
        (fun _ hsome => by cases hsome), rfl⟩
    · simp [hpp] at hp
  · intro s a s' hrej _ hrec hok hstep r old hr
    obtain ⟨p, proc, proc', hp, hmove, rfl⟩ | ⟨p, t, q, proc, rfl, hp, hq, hpending, -, rfl⟩ :=
      step_cases hstep
    · by_cases hrp : r = p
      · subst hrp
        rw [Function.update_self, Option.some.injEq] at hr
        exact hr ▸ (hrec r proc hp).moves (hrej.process r proc hp) hmove
      · rw [Function.update_of_ne hrp] at hr
        exact hrec r old hr
    · by_cases hrq : r = q
      · subst hrq
        rw [Function.update_self, Option.some.injEq] at hr
        subst hr
        refine ⟨fun _ hdone => (by cases hdone), fun hnot _ hempty => ?_⟩
        have hsettled := (hrec p proc hp).settled hnot hpending
        have hempty' : proc.registry.globals.activeLeases = ∅ := hempty
        have hrecorded : proc.unrecorded = false := by
          simpa [forkGuard, hp, hempty'] using hok
        have hlive := hsettled.live_eq_empty hempty' hrecorded
        exact ⟨hlive, hlive, hsettled.counted.now⟩
      · rw [Function.update_of_ne hrq] at hr
        exact hrec r old hr

/-! ## The promise -/

/-- A current process has run its hook, was not rejected, and is numbered as its flags say. -/
theorem of_isCurrent {p : ℕ} {proc : Process τ} (h : Rejection p proc)
    (hcurrent : proc.isCurrent = true) : proc.rejected = false ∧ proc.hookPending = false := by
  simp only [Process.isCurrent, ProcessFlags.processIsCurrent, Bool.and_eq_true,
    decide_eq_true_eq, Bool.not_eq_true'] at hcurrent
  obtain ⟨⟨hpid, hforked⟩, -⟩ := hcurrent
  exact ⟨hforked, h.marked.mpr (hpid.symm.trans h.pid)⟩

/-- **A fork that the guard refuses goes wrong**: a current process without leases hands what an
unrecorded acquire took up to a child that is current. -/
theorem unrecorded_inherits {s : Processes τ}
    (hs : (Processes.machine errorName pathlib τ).ReachWith (fun s a => forkGuard s a = true) s)
    {p q : ℕ} {proc : Process τ} (hp : s p = some proc)
    (hcurrent : proc.isCurrent = true) (hunrecorded : proc.unrecorded = true)
    (hempty : proc.registry.globals.activeLeases = ∅) :
    ∃ child, (proc.child q).afterForkChild = some child ∧ child.isCurrent = true ∧
      child.inherited ≠ ∅ := by
  obtain ⟨hnot, hpending⟩ := of_isCurrent ((reach_rejections hs.reach).process p proc hp) hcurrent
  obtain ⟨holder, hholder, hboth⟩ := (Option.any_eq_true _ _).mp hunrecorded
  have hinit : holder.initialised = true := (Bool.and_eq_true _ _ ▸ hboth).1
  have hlive := ((reach_recorded hs p proc hp).settled hnot hpending).initialised _ hholder hinit
  have hrunning : proc.registry.flags.interpreterFinalizing = false := by
    simp only [Process.isCurrent, ProcessFlags.processIsCurrent, Bool.and_eq_true,
      Bool.not_eq_true'] at hcurrent
    exact hcurrent.2
  refine ⟨_, rfl, ?_, hlive⟩
  simp [Process.isCurrent, Process.child, ProcessFlags.processIsCurrent,
    ProcessFlags.afterForkChild, hempty, hrunning]

/-- **Fork safety.** In a run in which no process without leases forks while one of its threads is
between a native call that took the Runtime up and `_active_leases.add`, a current process has
inherited nothing of the Runtime, and the descendants of a rejected process are rejected for good.
Source: `_runtime.py`, `_after_fork_child`, `_process_is_current` and `_check_process` -/
theorem fork_safe {s : Processes τ} (hs : (Processes.machine errorName pathlib τ).ReachWith
    (fun s a => forkGuard s a = true) s) :
    (∀ p proc, s p = some proc → proc.isCurrent = true → proc.inherited = ∅) ∧
    ∀ p parent, s p = some parent → parent.rejected = true →
      ∀ as t, (Processes.machine errorName pathlib τ).exec s as = some t →
        ∀ q proc, Processes.Descends t q p → t q = some proc → proc.isCurrent = false := by
  refine ⟨?_, ?_⟩
  · intro p proc hp hcurrent
    obtain ⟨hnot, hpending⟩ :=
      of_isCurrent ((reach_rejections hs.reach).process p proc hp) hcurrent
    exact ((reach_recorded hs p proc hp).settled hnot hpending).inherited
  · intro p parent hp hrej as t hrun q proc hq hproc
    exact rejected_inherited hs.reach hp hrej hrun hq hproc

/-- The process that has just imported the SDK. -/
def importer : Processes (Fin 2) :=
  Function.update (fun _ => none) 0 (some { registry := { pid := 0, flags := { processId := 0 } } })

/-- Thread `0` makes an RTC Client, and thread `1` forks a child that runs its hook. -/
def forkWhile (before after : List (ForkAction (Fin 2))) : List (ForkAction (Fin 2)) :=
  [.begin 0 0 (.acquireRtc { options := some Registry.someOptions, mode := .externalToken }),
    .enter 0 0 true (.code 0)] ++ before ++ [.fork 0 1 1, .afterFork 1] ++ after

/-- **The fork in the window**: right behind `rtc_initialize` the child is current, and it has the
parent's Runtime. -/
theorem fork_inherits_runtime :
    ¬ ∀ s : Processes (Fin 2),
      (Processes.machine (fun _ => "") Registry.posixPaths (Fin 2)).Reach s →
      ∀ p proc, s p = some proc → proc.isCurrent = true → proc.inherited = ∅ := by
  intro h
  have hstart : (Processes.machine (fun _ => "") Registry.posixPaths (Fin 2)).start importer :=
    ⟨0, rfl⟩
  obtain ⟨s, hs, hbad⟩ := Machine.exists_reach (l := forkWhile [] [])
    (p := fun s => (s 1).any fun proc => proc.isCurrent && decide (proc.inherited ≠ ∅)) hstart
    (by decide)
  obtain ⟨proc, hproc, hboth⟩ := (Option.any_eq_true _ _).mp hbad
  rw [Bool.and_eq_true, decide_eq_true_eq] at hboth
  exact hboth.2 (h s hs 1 proc hproc hboth.1)

/-- The fork two statements later: the lease is recorded, and the child is rejected. -/
theorem fork_safe_recorded :
    ∃ s, (Processes.machine (fun _ => "") Registry.posixPaths (Fin 2)).exec importer
        (forkWhile [.statement 0 0, .statement 0 0, .statement 0 0] []) = some s ∧
      ((∀ p proc, s p = some proc → proc.isCurrent = true → proc.inherited = ∅) ∧
      ∀ p parent, s p = some parent → parent.rejected = true →
        ∀ as t, (Processes.machine (fun _ => "") Registry.posixPaths (Fin 2)).exec s as = some t →
          ∀ q proc, Processes.Descends t q p → t q = some proc → proc.isCurrent = false) := by
  have hguarded : ((Processes.machine (fun _ => "") Registry.posixPaths (Fin 2)).guarded
      forkGuard).exec importer (forkWhile [.statement 0 0, .statement 0 0, .statement 0 0] []) =
      some _ := rfl
  exact ⟨_, rfl, fork_safe (Machine.ReachWith.exec (.start ⟨0, rfl⟩) hguarded)⟩

end Recorded

end Tirtc
