import Mathlib.Data.List.Chain
import Tirtc.Runtime.Registry

/-!
# The lease registry is consistent over whole runs

* `Alternates`: a history of switches goes up and down in turn.
* `acquireRtcSection_ok`, `acquireStorageSection_ok`, `releaseSection_ok`: what the locked part of a
  call that does not raise has checked, and what it leaves.
* `Globals.enrolled`, `Globals.released`: what the statements of the bookkeeping come to.
* `Consistent`, `Switched`: the invariant of the globals, and of the Runtime against them.
* `Consistent.enrolled`, `Consistent.released`: one lease more, one lease less.
* `ok_call`, `reach_ok`: the step lemma and the run lemma.
* `registry_consistent`: all of it for every run.
-/

set_option autoImplicit false

namespace Tirtc

/-! ## Histories of switches -/

/-- What a switch does to a product's Runtime, if it is that product's. -/
def Switch.of (product : Product) : Switch → Option Bool
  | .up p => if p = product then some true else none
  | .down p => if p = product then some false else none

/-- The switches of one product, the last one first; `true` is an initialisation. -/
def switchesOf (product : Product) (switches : List Switch) : List Bool :=
  switches.filterMap (Switch.of product)

/-- Initialisations and shutdowns take turns, beginning with an initialisation. -/
def Alternates (switches : List Bool) : Prop :=
  switches.IsChain (· ≠ ·) ∧ switches.getLast? ≠ some false

/-- A switch against the last one keeps the turns; before the first one the Runtime is down. -/
theorem Alternates.cons {switches : List Bool} (h : Alternates switches) {up : Bool}
    (hlast : switches.headD false = !up) : Alternates (up :: switches) := by
  obtain ⟨hchain, hfirst⟩ := h
  cases switches with
  | nil =>
      have hup : up = true := by simpa using hlast
      subst hup
      exact ⟨.singleton _, by simp⟩
  | cons last switches =>
      have hne : up ≠ last := by
        rintro rfl
        simp at hlast
      refine ⟨List.isChain_cons_cons.mpr ⟨hne, hchain⟩, ?_⟩
      rwa [List.getLast?_cons_cons]

/-! ## What a call without exception has done -/

section Sections

variable {errorName : ℤ → String} {g : Globals} {native native' : Native}
  {statements : List Statement} {mode : AuthMode} {configuration : Configuration}
  {writable : Bool} {result : NativeResult}

/-- A sequence of two parts that does not raise. -/
theorem bind_ok {α β : Type} {x : Except Raised α} {f : α → Except Raised β} {b : β}
    (h : (x >>= f) = .ok b) : ∃ a, x = .ok a ∧ f a = .ok b := by
  cases x with
  | error raised => cases h
  | ok a => exact ⟨a, rfl, h⟩

/-- A guard of a part that does not raise. -/
theorem unless_ok {α : Type} {p : Prop} [Decidable p] {raised : Raised}
    {f : Unit → Except Raised α} {a : α}
    (h : (if p then throw raised >>= f else f ()) = .ok a) : ¬ p ∧ f () = .ok a := by
  by_cases hp : p
  · rw [if_pos hp] at h
    cases h
  · rw [if_neg hp] at h
    exact ⟨hp, h⟩

/-- The handle of a lease, which is known by the lease's number. -/
def AuthMode.handle (mode : AuthMode) (n : ℕ) : Option ℕ :=
  match mode with
  | .accessKey => some n
  | .externalToken => none

/-- The shared settings are those of the leases so far, if there are any. -/
def Sharable (g : Globals) (configuration : Configuration) : Prop :=
  g.sharedConfiguration = none ∨ g.sharedConfiguration = some configuration.shared

/-- `_preflight_shared` passes. -/
theorem sharable_of_preflight (h : raising (preflightShared g configuration) = .ok ()) :
    Sharable g configuration := by
  unfold preflightShared at h
  split at h
  · cases h
  · next hno => exact or_iff_not_imp_left.mpr fun hne => by_contra fun hne' => hno ⟨hne, hne'⟩

/-- **What `_acquire_rtc` has done** when its locked part does not raise. -/
theorem acquireRtcSection_ok
    (h : acquireRtcSection errorName g native mode configuration writable result =
      .ok (native', statements)) :
    g.rtcLease = none ∧ Sharable g configuration ∧
      statements =
        rtcBookkeeping g.made ⟨.rtc, mode, configuration, mode.handle g.made, false⟩ ∧
      (mode = .accessKey → native' = native.create g.made) ∧
      (mode = .externalToken → native' = native.switchUp .rtc) := by
  unfold acquireRtcSection at h
  obtain ⟨hfree, h⟩ := unless_ok h
  obtain ⟨⟨⟩, hshared, h⟩ := bind_ok h
  obtain ⟨-, -, h⟩ := bind_ok h
  obtain ⟨-, -, h⟩ := bind_ok h
  refine ⟨not_not.mp hfree, sharable_of_preflight hshared, ?_⟩
  cases mode with
  | accessKey =>
      cases h
      exact ⟨rfl, fun _ => rfl, nofun⟩
  | externalToken =>
      cases h
      exact ⟨rfl, nofun, fun _ => rfl⟩

/-- **What `_acquire_storage` has done** when its locked part does not raise. -/
theorem acquireStorageSection_ok
    (h : acquireStorageSection errorName g native mode configuration writable result =
      .ok (native', statements)) :
    Sharable g configuration ∧
      (mode = .externalToken → g.externalStorageConfiguration = none ∨
        g.externalStorageConfiguration = some configuration.legacy) ∧
      statements =
        storageBookkeeping g.made ⟨.storage, mode, configuration, mode.handle g.made, false⟩ ∧
      (mode = .accessKey → native' = native.create g.made) ∧
      (mode = .externalToken → native' =
        if g.externalStorageCount = 0 then native.switchUp .storage else native) := by
  obtain ⟨⟨⟩, hshared, h⟩ := bind_ok h
  obtain ⟨hlegacy, h⟩ := unless_ok h
  obtain ⟨-, -, h⟩ := bind_ok h
  refine ⟨sharable_of_preflight hshared, ?_, ?_⟩
  · intro hmode
    by_contra hno
    exact hlegacy ⟨hmode, fun hn => hno (.inl hn), fun hs => hno (.inr hs)⟩
  · cases mode with
    | accessKey =>
        obtain ⟨-, -, h⟩ := bind_ok h
        cases h
        exact ⟨rfl, fun _ => rfl, nofun⟩
    | externalToken =>
        by_cases hcount : g.externalStorageCount = 0
        · simp only [hcount, if_true] at h ⊢
          obtain ⟨-, -, h⟩ := bind_ok h
          cases h
          exact ⟨rfl, nofun, fun _ => rfl⟩
        · simp only [hcount, if_false] at h ⊢
          cases h
          exact ⟨rfl, nofun, fun _ => rfl⟩

/-- **What `_release` has done** when its locked part does not raise: nothing to a closed lease,
else the native call that the product and the mode ask for. -/
theorem releaseSection_ok {n : ℕ} {lease : RuntimeLease}
    (h : releaseSection errorName g native n lease result = .ok (native', statements)) :
    (lease.closed = true ∧ native' = native ∧ statements = []) ∨
    (lease.closed = false ∧ n ∈ g.activeLeases ∧ statements = releaseBookkeeping n lease ∧
      match lease.mode, lease.product with
      | .accessKey, _ => ∃ handle, lease.handle = some handle ∧ native' = native.close handle
      | .externalToken, .rtc => native' = native.switchDown .rtc
      | .externalToken, .storage => 0 < g.externalStorageCount ∧
          native' = if g.externalStorageCount = 1 then native.switchDown .storage else native) := by
  unfold releaseSection at h
  cases hclosed : lease.closed with
  | true =>
      rw [hclosed, if_pos rfl] at h
      cases h
      exact .inl ⟨rfl, rfl, rfl⟩
  | false =>
      rw [hclosed, if_neg Bool.false_ne_true] at h
      obtain ⟨hactive, h⟩ := unless_ok h
      refine .inr ⟨rfl, not_not.mp hactive, ?_⟩
      split at h
      · next hmode =>
          split at h
          · cases h
          · next handle hhandle =>
              obtain ⟨-, -, h⟩ := bind_ok h
              cases h
              exact ⟨rfl, by simp [hmode, hhandle]⟩
      · next hmode hproduct =>
          obtain ⟨-, -, h⟩ := bind_ok h
          cases h
          exact ⟨rfl, by simp [hmode, hproduct]⟩
      · next hmode hproduct =>
          obtain ⟨hpos, h⟩ := unless_ok h
          by_cases hone : g.externalStorageCount = 1
          · rw [if_pos hone] at h
            obtain ⟨-, -, h⟩ := bind_ok h
            cases h
            exact ⟨rfl, by simp [hmode, hproduct, hone]⟩
          · rw [if_neg hone] at h
            cases h
            have hcount : 0 < g.externalStorageCount := by omega
            exact ⟨rfl, by simp [hmode, hproduct, hone, hcount]⟩

end Sections

/-! ## The globals with one lease more, and with one less -/

/-- The lease counts as one of the external-token storage leases. -/
def RuntimeLease.isExternalStorage (lease : RuntimeLease) : Bool :=
  lease.product = .storage && lease.mode = .externalToken

namespace Globals

variable {g : Globals} {n : ℕ} {lease : RuntimeLease}

/-- The active external-token storage leases. -/
def externalStorage (g : Globals) : Finset ℕ :=
  g.activeLeases.filter fun n => (g.lease n).any RuntimeLease.isExternalStorage

/-- The globals after the bookkeeping of an acquire. -/
def enrolled (g : Globals) (lease : RuntimeLease) : Globals where
  made := g.made + 1
  lease := Function.update g.lease g.made (some lease)
  activeLeases := insert g.made g.activeLeases
  rtcLease := if lease.product = .rtc then some g.made else g.rtcLease
  externalStorageConfiguration :=
    if lease.isExternalStorage then some lease.configuration.legacy
    else g.externalStorageConfiguration
  externalStorageCount := g.externalStorageCount + if lease.isExternalStorage then 1 else 0
  sharedConfiguration :=
    if g.sharedConfiguration = none then some lease.configuration.shared
    else g.sharedConfiguration

/-- The globals after the bookkeeping of a release. -/
def released (g : Globals) (n : ℕ) (lease : RuntimeLease) : Globals where
  made := g.made
  lease := Function.update g.lease n (some { lease with closed := true, handle := none })
  activeLeases := g.activeLeases.erase n
  rtcLease := if lease.product = .rtc then none else g.rtcLease
  externalStorageConfiguration :=
    if lease.isExternalStorage ∧ g.externalStorageCount - 1 = 0 then none
    else g.externalStorageConfiguration
  externalStorageCount := g.externalStorageCount - if lease.isExternalStorage then 1 else 0
  sharedConfiguration :=
    if g.activeLeases.erase n = ∅ then none else g.sharedConfiguration

@[simp] theorem enrolled_lease_self : (g.enrolled lease).lease g.made = some lease :=
  Function.update_self _ _ _

theorem enrolled_lease_of_ne {m : ℕ} (h : m ≠ g.made) : (g.enrolled lease).lease m = g.lease m :=
  Function.update_of_ne h _ _

@[simp] theorem released_lease_self : (g.released n lease).lease n =
    some { lease with closed := true, handle := none } :=
  Function.update_self _ _ _

theorem released_lease_of_ne {m : ℕ} (h : m ≠ n) : (g.released n lease).lease m = g.lease m :=
  Function.update_of_ne h _ _

/-- The statements of `_acquire_rtc` enrol the lease. -/
theorem runAll_rtcBookkeeping (h : lease.product = .rtc) :
    g.runAll (rtcBookkeeping g.made lease) = g.enrolled lease := by
  have hexternal : lease.isExternalStorage = false := by simp [RuntimeLease.isExternalStorage, h]
  simp [runAll, rtcBookkeeping, run, enrolled, h, hexternal]

/-- The statements of `_acquire_storage` enrol the lease. -/
theorem runAll_storageBookkeeping (h : lease.product = .storage) :
    g.runAll (storageBookkeeping g.made lease) = g.enrolled lease := by
  cases hmode : lease.mode with
  | externalToken =>
      have hexternal : lease.isExternalStorage = true := by
        simp [RuntimeLease.isExternalStorage, h, hmode]
      simp [runAll, storageBookkeeping, run, enrolled, h, hmode, hexternal]
  | accessKey =>
      have hexternal : lease.isExternalStorage = false := by
        simp [RuntimeLease.isExternalStorage, hmode]
      simp [runAll, storageBookkeeping, run, enrolled, h, hmode, hexternal]

/-- The statements of `_release` take the lease out. -/
theorem runAll_releaseBookkeeping (hlease : g.lease n = some lease) :
    g.runAll (releaseBookkeeping n lease) = g.released n lease := by
  cases hproduct : lease.product with
  | rtc =>
      have hexternal : lease.isExternalStorage = false := by
        simp [RuntimeLease.isExternalStorage, hproduct]
      simp [runAll, releaseBookkeeping, run, released, modifyLease, hproduct, hexternal, hlease]
  | storage =>
      cases hmode : lease.mode with
      | externalToken =>
          have hexternal : lease.isExternalStorage = true := by
            simp [RuntimeLease.isExternalStorage, hproduct, hmode]
          simp [runAll, releaseBookkeeping, run, released, modifyLease, hproduct, hmode,
            hexternal, hlease]
      | accessKey =>
          have hexternal : lease.isExternalStorage = false := by
            simp [RuntimeLease.isExternalStorage, hmode]
          simp [runAll, releaseBookkeeping, run, released, modifyLease, hproduct, hmode,
            hexternal, hlease]

/-- The external-token storage leases, one lease more. -/
theorem externalStorage_enrolled (hfresh : g.made ∉ g.activeLeases) (lease : RuntimeLease) :
    (g.enrolled lease).externalStorage =
      if lease.isExternalStorage then insert g.made g.externalStorage else g.externalStorage := by
  have hrest : (g.activeLeases.filter fun m =>
      ((g.enrolled lease).lease m).any RuntimeLease.isExternalStorage) = g.externalStorage :=
    Finset.filter_congr fun m hm => by
      rw [enrolled_lease_of_ne (ne_of_mem_of_not_mem hm hfresh)]
  show (insert g.made g.activeLeases).filter _ = _
  rw [Finset.filter_insert, enrolled_lease_self, hrest]
  rfl

/-- The external-token storage leases, one lease less. -/
theorem externalStorage_released (g : Globals) (n : ℕ) (lease : RuntimeLease) :
    (g.released n lease).externalStorage = g.externalStorage.erase n := by
  have hrest : ((g.activeLeases.erase n).filter fun m =>
      ((g.released n lease).lease m).any RuntimeLease.isExternalStorage) =
      (g.activeLeases.erase n).filter fun m =>
        (g.lease m).any RuntimeLease.isExternalStorage :=
    Finset.filter_congr fun m hm => by rw [released_lease_of_ne (Finset.ne_of_mem_erase hm)]
  exact hrest.trans (Finset.filter_erase _ _ _)

end Globals

/-! ## The invariant of the globals -/

/-- **The registry is consistent**: the five globals say of the active leases what they should, and
the lease objects are marked closed when they are not active any more. -/
structure Consistent (g : Globals) : Prop where
  made : ∀ n, g.lease n ≠ none ↔ n < g.made
  active : ∀ n ∈ g.activeLeases, n < g.made
  rtc : ∀ n, g.rtcLease = some n ↔
    n ∈ g.activeLeases ∧ ∃ lease, g.lease n = some lease ∧ lease.product = .rtc
  count : g.externalStorageCount = (g.externalStorage.card : ℤ)
  noExternal : g.externalStorageConfiguration = none ↔ g.externalStorageCount = 0
  external : ∀ n ∈ g.externalStorage, ∀ lease, g.lease n = some lease →
    g.externalStorageConfiguration = some lease.configuration.legacy
  noShared : g.sharedConfiguration = none ↔ g.activeLeases = ∅
  shared : ∀ n ∈ g.activeLeases, ∀ lease, g.lease n = some lease →
    g.sharedConfiguration = some lease.configuration.shared
  closed : ∀ n lease, g.lease n = some lease → (lease.closed = true ↔ n ∉ g.activeLeases)

namespace Consistent

open Globals

variable {g : Globals} {n : ℕ} {lease : RuntimeLease}

/-- A lease object that does not exist yet is not active. -/
theorem fresh (hg : Consistent g) : g.made ∉ g.activeLeases := fun h =>
  absurd (hg.active _ h) (Nat.lt_irrefl _)

/-- **One lease more**: it may be enrolled when it fits the leases there are. -/
theorem enrolled (hg : Consistent g) (hopen : lease.closed = false)
    (hrtc : lease.product = .rtc → g.rtcLease = none)
    (hshared : Sharable g lease.configuration)
    (hexternal : lease.isExternalStorage = true → g.externalStorageConfiguration = none ∨
      g.externalStorageConfiguration = some lease.configuration.legacy) :
    Consistent (g.enrolled lease) where
  made m := by
    have h := hg.made m
    show _ ↔ m < g.made + 1
    by_cases hm : m = g.made
    · simp [hm]
    · rw [enrolled_lease_of_ne hm, h]
      omega
  active m hm := by
    rcases Finset.mem_insert.mp hm with rfl | hm
    · exact Nat.lt_succ_self _
    · exact Nat.lt_succ_of_lt (hg.active m hm)
  rtc m := by
    have h := hg.rtc m
    have hfresh := hg.fresh
    by_cases hm : m = g.made
    · subst hm
      by_cases hp : lease.product = .rtc
      · simp [Globals.enrolled, hp]
      · have hne : g.rtcLease ≠ some g.made := fun heq => hfresh (h.mp heq).1
        simp [Globals.enrolled, hp, hne]
    · by_cases hp : lease.product = .rtc
      · have hno : ¬ (m ∈ g.activeLeases ∧ ∃ old, g.lease m = some old ∧ old.product = .rtc) := by
          rw [← h, hrtc hp]
          simp
        simpa [Globals.enrolled, hp, hm, Ne.symm hm] using hno
      · simpa [Globals.enrolled, hp, hm] using h
  count := by
    rw [externalStorage_enrolled hg.fresh]
    have hcount := hg.count
    have hfresh : g.made ∉ g.externalStorage := fun h => hg.fresh (Finset.mem_filter.mp h).1
    cases hx : lease.isExternalStorage with
    | true => simp [Globals.enrolled, hx, hcount, Finset.card_insert_of_notMem hfresh]
    | false => simp [Globals.enrolled, hx, hcount]
  noExternal := by
    have hcount := hg.count
    have hpos : (0 : ℤ) ≤ g.externalStorage.card := Int.natCast_nonneg _
    cases hx : lease.isExternalStorage with
    | true =>
        have hne : g.externalStorageCount + 1 ≠ 0 := by omega
        simp [Globals.enrolled, hx, hne]
    | false => simpa [Globals.enrolled, hx] using hg.noExternal
  external m hm old hold := by
    rw [externalStorage_enrolled hg.fresh] at hm
    have hfresh : g.made ∉ g.externalStorage := fun h => hg.fresh (Finset.mem_filter.mp h).1
    cases hx : lease.isExternalStorage with
    | true =>
        rw [hx, if_pos rfl, Finset.mem_insert] at hm
        show (if lease.isExternalStorage then _ else _) = _
        rw [if_pos hx]
        rcases hm with rfl | hm
        · rw [enrolled_lease_self, Option.some.injEq] at hold
          rw [hold]
        · have hne : m ≠ g.made := ne_of_mem_of_not_mem hm hfresh
          rw [enrolled_lease_of_ne hne] at hold
          -- there is an external-token lease already, so the settings were compared
          have hsome := hg.external m hm old hold
          rcases hexternal hx with hnone | hsame
          · rw [hsome] at hnone
            cases hnone
          · exact hsame.symm.trans hsome
    | false =>
        rw [hx, if_neg Bool.false_ne_true] at hm
        have hne : m ≠ g.made := ne_of_mem_of_not_mem hm hfresh
        rw [enrolled_lease_of_ne hne] at hold
        simpa [Globals.enrolled, hx] using hg.external m hm old hold
  noShared := by
    simp only [Globals.enrolled, Finset.insert_ne_empty, iff_false]
    split
    · simp
    · next h => exact h
  shared m hm old hold := by
    show (if g.sharedConfiguration = none then _ else _) = _
    rcases Finset.mem_insert.mp hm with rfl | hm
    · rw [enrolled_lease_self, Option.some.injEq] at hold
      rcases hshared with hnone | hsame
      · rw [if_pos hnone, hold]
      · rw [if_neg (by simp [hsame]), hsame, hold]
    · have hne : m ≠ g.made := ne_of_mem_of_not_mem hm hg.fresh
      rw [enrolled_lease_of_ne hne] at hold
      have hsome := hg.shared m hm old hold
      rw [if_neg (by simp [hsome]), hsome]
  closed m old hold := by
    by_cases hm : m = g.made
    · subst hm
      rw [enrolled_lease_self, Option.some.injEq] at hold
      simp [Globals.enrolled, ← hold, hopen]
    · rw [enrolled_lease_of_ne hm] at hold
      simpa [Globals.enrolled, hm] using hg.closed m old hold

/-- **One lease less.** -/
theorem released (hg : Consistent g) (hlease : g.lease n = some lease)
    (hactive : n ∈ g.activeLeases) : Consistent (g.released n lease) where
  made m := by
    have h := hg.made m
    by_cases hm : m = n
    · have hn := hg.active n hactive
      simp [Globals.released, hm, hn]
    · simpa [Globals.released, Function.update_of_ne hm] using h
  active m hm := hg.active m (Finset.mem_of_mem_erase hm)
  rtc m := by
    have h := hg.rtc m
    by_cases hp : lease.product = .rtc
    · -- the lease taken out was the only one of its product
      have hn : g.rtcLease = some n := (hg.rtc n).mpr ⟨hactive, lease, hlease, hp⟩
      have hno : m ≠ n → ¬ (m ∈ g.activeLeases ∧ ∃ old, g.lease m = some old ∧
          old.product = .rtc) := by
        intro hm hold
        exact hm (Option.some.inj ((h.mpr hold).symm.trans hn))
      by_cases hm : m = n
      · simp [Globals.released, hp, hm]
      · simpa [Globals.released, hp, hm] using hno hm
    · by_cases hm : m = n
      · subst hm
        have hne : g.rtcLease ≠ some m := by
          rw [Ne, h]
          rintro ⟨-, old, hold, hproduct⟩
          rw [hlease, Option.some.injEq] at hold
          exact hp (hold ▸ hproduct)
        simp [Globals.released, hp, hne]
      · simpa [Globals.released, hp, hm] using h
  count := by
    rw [externalStorage_released]
    have hcount := hg.count
    cases hx : lease.isExternalStorage with
    | true =>
        have hmem : n ∈ g.externalStorage :=
          Finset.mem_filter.mpr ⟨hactive, by simp [hlease, hx]⟩
        have hcard := Finset.card_erase_add_one hmem
        simp only [Globals.released, hx, if_true]
        omega
    | false =>
        have hmem : n ∉ g.externalStorage := by
          intro h
          have hany := (Finset.mem_filter.mp h).2
          simp [hlease, hx] at hany
        simp [Globals.released, hx, hcount, Finset.erase_eq_of_notMem hmem]
  noExternal := by
    have hno := hg.noExternal
    cases hx : lease.isExternalStorage with
    | true =>
        have hcount := hg.count
        have hmem : n ∈ g.externalStorage :=
          Finset.mem_filter.mpr ⟨hactive, by simp [hlease, hx]⟩
        have hpos : 0 < g.externalStorage.card := Finset.card_pos.mpr ⟨n, hmem⟩
        have hne : g.externalStorageConfiguration ≠ none := by
          rw [Ne, hno]
          omega
        by_cases hone : g.externalStorageCount - 1 = 0
        · simp [Globals.released, hx, hone]
        · simp [Globals.released, hx, hone, hne]
    | false => simpa [Globals.released, hx] using hno
  external m hm old hold := by
    rw [externalStorage_released] at hm
    obtain ⟨hne, hm⟩ := Finset.mem_erase.mp hm
    rw [released_lease_of_ne hne] at hold
    have hsome := hg.external m hm old hold
    cases hx : lease.isExternalStorage with
    | true =>
        -- two external-token leases, so the count does not fall to zero
        have hmem : n ∈ g.externalStorage :=
          Finset.mem_filter.mpr ⟨hactive, by simp [hlease, hx]⟩
        have hcount := hg.count
        have hcard : 1 < g.externalStorage.card :=
          Finset.one_lt_card.mpr ⟨m, hm, n, hmem, hne⟩
        have hleft : g.externalStorageCount - 1 ≠ 0 := by omega
        simpa [Globals.released, hx, hleft] using hsome
    | false => simpa [Globals.released, hx] using hsome
  noShared := by
    have hno := hg.noShared
    have hne : g.sharedConfiguration ≠ none := by
      rw [Ne, hno]
      exact Finset.ne_empty_of_mem hactive
    by_cases hempty : g.activeLeases.erase n = ∅
    · simp [Globals.released, hempty]
    · simp [Globals.released, hempty, hne]
  shared m hm old hold := by
    have hne : m ≠ n := Finset.ne_of_mem_erase hm
    rw [released_lease_of_ne hne] at hold
    have hsome := hg.shared m (Finset.mem_of_mem_erase hm) old hold
    have hleft : g.activeLeases.erase n ≠ ∅ := Finset.ne_empty_of_mem hm
    simpa [Globals.released, hleft] using hsome
  closed m old hold := by
    by_cases hm : m = n
    · subst hm
      rw [released_lease_self, Option.some.injEq] at hold
      simp [Globals.released, ← hold]
    · rw [released_lease_of_ne hm] at hold
      simpa [Globals.released, hm] using hg.closed m old hold

end Consistent

/-! ## The invariant of the Runtime -/

/-- **The Runtime is up as the registry has it**, and its switches have taken turns. -/
structure Switched (g : Globals) (native : Native) : Prop where
  alternates : ∀ product, Alternates (switchesOf product native.switches)
  last : ∀ product, (switchesOf product native.switches).headD false =
    decide (Resource.runtime product ∈ native.live)
  rtc : Resource.runtime .rtc ∈ native.live ↔
    ∃ n lease, g.rtcLease = some n ∧ g.lease n = some lease ∧ lease.mode = .externalToken
  storage : Resource.runtime .storage ∈ native.live ↔ 0 < g.externalStorageCount

namespace Switched

variable {g g' : Globals} {native : Native}

@[simp] theorem switchesOf_up (product p : Product) (switches : List Switch) :
    switchesOf product (.up p :: switches) =
      if p = product then true :: switchesOf product switches
      else switchesOf product switches := by
  by_cases h : p = product <;> simp [switchesOf, Switch.of, h]

@[simp] theorem switchesOf_down (product p : Product) (switches : List Switch) :
    switchesOf product (.down p :: switches) =
      if p = product then false :: switchesOf product switches
      else switchesOf product switches := by
  by_cases h : p = product <;> simp [switchesOf, Switch.of, h]

/-- A Runtime that is switched up was down. -/
theorem switchUp (h : Switched g native) {p : Product} (hdown : .runtime p ∉ native.live)
    (hrtc : .runtime .rtc ∈ (native.switchUp p).live ↔
      ∃ n lease, g'.rtcLease = some n ∧ g'.lease n = some lease ∧ lease.mode = .externalToken)
    (hstorage : .runtime .storage ∈ (native.switchUp p).live ↔ 0 < g'.externalStorageCount) :
    Switched g' (native.switchUp p) where
  alternates product := by
    by_cases hp : p = product
    · subst hp
      have hlast : (switchesOf p native.switches).headD false = !true := by
        simpa [hdown] using h.last p
      simpa [Native.switchUp] using (h.alternates p).cons hlast
    · simpa [Native.switchUp, hp] using h.alternates product
  last product := by
    by_cases hp : p = product
    · simp [Native.switchUp, hp]
    · simpa [Native.switchUp, hp, Ne.symm hp] using h.last product
  rtc := hrtc
  storage := hstorage

/-- A Runtime that is switched down was up. -/
theorem switchDown (h : Switched g native) {p : Product} (hup : .runtime p ∈ native.live)
    (hrtc : .runtime .rtc ∈ (native.switchDown p).live ↔
      ∃ n lease, g'.rtcLease = some n ∧ g'.lease n = some lease ∧ lease.mode = .externalToken)
    (hstorage : .runtime .storage ∈ (native.switchDown p).live ↔ 0 < g'.externalStorageCount) :
    Switched g' (native.switchDown p) where
  alternates product := by
    by_cases hp : p = product
    · subst hp
      have hlast : (switchesOf p native.switches).headD false = !false := by
        simpa [hup] using h.last p
      simpa [Native.switchDown] using (h.alternates p).cons hlast
    · simpa [Native.switchDown, hp] using h.alternates product
  last product := by
    by_cases hp : p = product
    · simp [Native.switchDown, hp]
    · simpa [Native.switchDown, hp, Ne.symm hp] using h.last product
  rtc := hrtc
  storage := hstorage

/-- A call that leaves the switches alone. -/
theorem congr (h : Switched g native) {native' : Native}
    (hswitches : native'.switches = native.switches)
    (hlive : ∀ product, Resource.runtime product ∈ native'.live ↔
      Resource.runtime product ∈ native.live)
    (hrtc : (∃ n lease, g'.rtcLease = some n ∧ g'.lease n = some lease ∧
        lease.mode = .externalToken) ↔
      ∃ n lease, g.rtcLease = some n ∧ g.lease n = some lease ∧ lease.mode = .externalToken)
    (hstorage : 0 < g'.externalStorageCount ↔ 0 < g.externalStorageCount) :
    Switched g' native' where
  alternates product := hswitches ▸ h.alternates product
  last product := by
    rw [hswitches, h.last product]
    exact decide_eq_decide.mpr (hlive product).symm
  rtc := (hlive .rtc).trans (h.rtc.trans hrtc.symm)
  storage := (hlive .storage).trans (h.storage.trans hstorage.symm)

end Switched

/-- A process whose registry is consistent and whose Runtime follows it. -/
structure RegistryOk (r : Registry) : Prop where
  consistent : Consistent r.globals
  switched : Switched r.globals r.native

namespace Registry

variable {errorName : ℤ → String} {pathlib : PathLibrary} {r : Registry}

/-- **A call that raises leaves the process as it was.** -/
theorem finish_of_raised {part : LockedPart} {raised : Raised} {r' : Registry}
    (h : r.finish part = (some raised, r')) : r' = r := by
  unfold finish at h
  split at h
  · exact (congrArg Prod.snd h).symm
  · cases h

/-- What `finish` keeps, from what the part that does not raise leaves. -/
theorem ok_finish (hr : RegistryOk r) {part : LockedPart}
    (h : ∀ native statements, part = .ok (native, statements) →
      RegistryOk { r with native := native, globals := r.globals.runAll statements }) :
    RegistryOk (r.finish part).2 := by
  unfold finish
  split
  · exact hr
  · exact h _ _ rfl

/-- `_acquire_rtc` -/
theorem ok_acquireRtc (hr : RegistryOk r) (call : AcquireCall) :
    RegistryOk (r.acquireRtc errorName pathlib call).2 := by
  refine ok_finish hr ?_
  intro native statements hpart
  obtain ⟨configuration, -, hpart⟩ := bind_ok hpart
  obtain ⟨hfree, hshared, rfl, hcreate, hup⟩ := acquireRtcSection_ok hpart
  rw [Globals.runAll_rtcBookkeeping rfl]
  have hc := hr.consistent
  refine ⟨hc.enrolled rfl (fun _ => hfree) hshared (fun h => by cases h), ?_⟩
  have hdown : Resource.runtime .rtc ∉ r.native.live := by
    intro h
    obtain ⟨n, lease, hn, -⟩ := hr.switched.rtc.mp h
    rw [hfree] at hn
    cases hn
  cases hmode : call.mode with
  | accessKey =>
      rw [hcreate hmode]
      refine hr.switched.congr rfl (fun product => by simp [Native.create]) ?_ ?_
      · simp [Globals.enrolled, hfree]
      · simp [Globals.enrolled, RuntimeLease.isExternalStorage]
  | externalToken =>
      rw [hup hmode]
      refine hr.switched.switchUp hdown ?_ ?_
      · simp [Native.switchUp, Globals.enrolled]
      · simpa [Native.switchUp, Globals.enrolled, RuntimeLease.isExternalStorage] using
          hr.switched.storage

/-- `_acquire_storage` -/
theorem ok_acquireStorage (hr : RegistryOk r) (call : AcquireCall) :
    RegistryOk (r.acquireStorage errorName pathlib call).2 := by
  refine ok_finish hr ?_
  intro native statements hpart
  obtain ⟨configuration, -, hpart⟩ := bind_ok hpart
  obtain ⟨hshared, hexternal, rfl, hcreate, hup⟩ := acquireStorageSection_ok hpart
  rw [Globals.runAll_storageBookkeeping rfl]
  have hc := hr.consistent
  refine ⟨hc.enrolled rfl (fun h => by cases h) hshared fun h => hexternal ?_, ?_⟩
  · simpa [RuntimeLease.isExternalStorage] using h
  -- the RTC lease is the old one
  have hrtc (new : RuntimeLease) : (∃ n lease, r.globals.rtcLease = some n ∧
        (r.globals.enrolled new).lease n = some lease ∧ lease.mode = .externalToken) ↔
      ∃ n lease, r.globals.rtcLease = some n ∧ r.globals.lease n = some lease ∧
        lease.mode = .externalToken := by
    refine exists_congr fun n => exists_congr ?_
    intro lease
    apply and_congr_right
    intro hn
    have hne : n ≠ r.globals.made := fun h =>
      hc.fresh (h ▸ ((hc.rtc n).mp hn).1)
    rw [Globals.enrolled_lease_of_ne hne]
  have hcount := hc.count
  cases hmode : call.mode with
  | accessKey =>
      rw [hcreate hmode]
      refine hr.switched.congr rfl (fun product => by simp [Native.create]) (hrtc _) ?_
      simp [Globals.enrolled, RuntimeLease.isExternalStorage]
  | externalToken =>
      rw [hup hmode]
      by_cases hzero : r.globals.externalStorageCount = 0
      · rw [if_pos hzero]
        apply hr.switched.switchUp
        · intro h
          have hpos := hr.switched.storage.mp h
          omega
        · simpa [Native.switchUp, Globals.enrolled] using hr.switched.rtc.trans (hrtc _).symm
        · simp [Native.switchUp, Globals.enrolled, RuntimeLease.isExternalStorage, hzero]
      · rw [if_neg hzero]
        refine hr.switched.congr rfl (fun product => Iff.rfl) (hrtc _) ?_
        simp only [Globals.enrolled, RuntimeLease.isExternalStorage, decide_true, Bool.and_self,
          if_true]
        omega

/-- `_release` -/
theorem ok_release (hr : RegistryOk r) {n : ℕ} {lease : RuntimeLease} (result : NativeResult)
    (hlease : r.globals.lease n = some lease) :
    RegistryOk (r.release errorName n lease result).2 := by
  refine ok_finish hr ?_
  intro native statements hpart
  obtain ⟨-, -, hpart⟩ := bind_ok hpart
  obtain ⟨-, rfl, rfl⟩ | ⟨-, hactive, rfl, hnative⟩ := releaseSection_ok hpart
  · exact hr
  rw [Globals.runAll_releaseBookkeeping hlease]
  have hc := hr.consistent
  refine ⟨hc.released hlease hactive, ?_⟩
  -- the RTC lease is another one, or it goes
  have hrtc : lease.product = .storage →
      ((∃ m old, (r.globals.released n lease).rtcLease = some m ∧
        (r.globals.released n lease).lease m = some old ∧ old.mode = .externalToken) ↔
      ∃ m old, r.globals.rtcLease = some m ∧ r.globals.lease m = some old ∧
        old.mode = .externalToken) := by
    intro hproduct
    refine exists_congr fun m => exists_congr ?_
    intro old
    have hsame : (r.globals.released n lease).rtcLease = r.globals.rtcLease := by
      simp [Globals.released, hproduct]
    rw [hsame]
    apply and_congr_right
    intro hm
    have hne : m ≠ n := by
      rintro rfl
      obtain ⟨-, old', hold', hrtc'⟩ := (hc.rtc m).mp hm
      rw [hlease, Option.some.injEq] at hold'
      subst hold'
      cases hproduct.symm.trans hrtc'
    rw [Globals.released_lease_of_ne hne]
  have hnow (hproduct : lease.product = .rtc) : r.globals.rtcLease = some n :=
    (hc.rtc n).mpr ⟨hactive, lease, hlease, hproduct⟩
  cases hmode : lease.mode with
  | accessKey =>
      rw [hmode] at hnative
      obtain ⟨handle, -, rfl⟩ := hnative
      refine hr.switched.congr rfl (fun product => by simp [Native.close]) ?_ ?_
      · cases hproduct : lease.product with
        | storage => exact hrtc hproduct
        | rtc => simp [Globals.released, hproduct, hnow hproduct, hlease, hmode]
      · simp [Globals.released, RuntimeLease.isExternalStorage, hmode]
  | externalToken =>
      cases hproduct : lease.product with
      | rtc =>
          rw [hmode, hproduct] at hnative
          subst hnative
          apply hr.switched.switchDown
          · exact hr.switched.rtc.mpr ⟨n, lease, hnow hproduct, hlease, hmode⟩
          · simp [Native.switchDown, Globals.released, hproduct]
          · simpa [Native.switchDown, Globals.released, RuntimeLease.isExternalStorage,
              hproduct] using hr.switched.storage
      | storage =>
          rw [hmode, hproduct] at hnative
          obtain ⟨hpos, rfl⟩ := hnative
          have hcount : (r.globals.released n lease).externalStorageCount =
              r.globals.externalStorageCount - 1 := by
            simp [Globals.released, RuntimeLease.isExternalStorage, hmode, hproduct]
          by_cases hone : r.globals.externalStorageCount = 1
          · rw [if_pos hone]
            refine hr.switched.switchDown (hr.switched.storage.mpr hpos) ?_ ?_
            · simpa [Native.switchDown] using hr.switched.rtc.trans (hrtc hproduct).symm
            · simp [Native.switchDown, hcount, hone]
          · rw [if_neg hone]
            refine hr.switched.congr rfl (fun product => Iff.rfl) (hrtc hproduct) ?_
            rw [hcount]
            omega

/-- **The step lemma**: every call keeps the registry consistent. -/
theorem ok_call (hr : RegistryOk r) {c : RegistryCall} {next : Option Raised × Registry}
    (h : r.call errorName pathlib c = some next) : RegistryOk next.2 := by
  cases c with
  | acquireRtc call =>
      cases h
      exact ok_acquireRtc hr call
  | acquireStorage call =>
      cases h
      exact ok_acquireStorage hr call
  | release n result =>
      obtain ⟨lease, hlease, rfl⟩ := Option.map_eq_some_iff.mp h
      exact ok_release hr result hlease
  | finalize =>
      cases h
      exact ⟨hr.consistent, hr.switched⟩

/-- **The run lemma.** -/
theorem reach_ok (hr : (machine errorName pathlib).Reach r) : RegistryOk r := by
  refine hr.invariant (I := RegistryOk) ?_ ?_
  · rintro r ⟨pid, rfl⟩
    refine ⟨?_, ?_⟩ <;> constructor <;> simp [Globals.externalStorage, switchesOf, Alternates]
  · intro r c t hr _ hstep
    obtain ⟨next, hnext, rfl⟩ := Option.map_eq_some_iff.mp hstep
    exact ok_call hr hnext

/-- A call that raises leaves the process as it was. -/
theorem call_of_raised {c : RegistryCall} {raised : Raised} {r' : Registry}
    (h : r.call errorName pathlib c = some (some raised, r')) : r' = r := by
  cases c with
  | acquireRtc call => exact finish_of_raised (Option.some.inj h)
  | acquireStorage call => exact finish_of_raised (Option.some.inj h)
  | release n result =>
      obtain ⟨lease, -, h⟩ := Option.map_eq_some_iff.mp h
      exact finish_of_raised h
  | finalize => cases h

/-! ## The promise -/

/-- **The lease registry is consistent over whole runs.** After any sequence of calls the globals
agree with the active leases, the Runtimes were switched up and down in turn, the storage Runtime is
up exactly while external-token leases are counted, and a call that raises changes nothing.
Source: `_runtime.py`, `_acquire_rtc`, `_acquire_storage` and `_release` -/
theorem registry_consistent (hr : (machine errorName pathlib).Reach r) :
    Consistent r.globals ∧
    (∀ product, Alternates (switchesOf product r.native.switches)) ∧
    (Resource.runtime .storage ∈ r.native.live ↔ 0 < r.globals.externalStorageCount) ∧
    ∀ c raised r', r.call errorName pathlib c = some (some raised, r') → r' = r :=
  have h := reach_ok hr
  ⟨h.consistent, h.switched.alternates, h.switched.storage, fun _ _ _ => call_of_raised⟩

/-- The options of an application, in the working directory of a POSIX system. -/
def someOptions : ClientOptions := { appId := .str "app", cacheDir := .str "/var/tirtc" }

/-- The paths of such a system, as far as these options go. -/
def posixPaths : PathLibrary := ⟨id, fun text => text.toList.head? = some '/'⟩

/-- An RTC Client and a Cloud Client are made, a Cloud Client of another application is refused, and
the RTC Client is closed. -/
def fourCalls : List RegistryCall :=
  let other := { someOptions with appId := .str "other" }
  [.acquireRtc { options := some someOptions, mode := .externalToken },
    .acquireStorage { options := some someOptions, mode := .externalToken },
    .acquireStorage { options := some other, mode := .externalToken }, .release 0 (.code 0)]

/-- One external-token storage lease is left, and the registry is consistent. -/
theorem registry_consistent_four :
    ∃ r, (machine (fun _ => "") posixPaths).exec ⟨1, { processId := 1 }, {}, {}⟩ fourCalls =
        some r ∧
      r.globals.activeLeases = {1} ∧ Consistent r.globals ∧
      (Resource.runtime .storage ∈ r.native.live ↔ 0 < r.globals.externalStorageCount) := by
  refine ⟨_, rfl, by decide, ?_⟩
  have hr : (machine (fun _ => "") posixPaths).Reach _ :=
    Transition.Machine.Reach.exec (.of_start ⟨1, rfl⟩)
      (rfl : (machine (fun _ => "") posixPaths).exec _ fourCalls = _)
  have h := registry_consistent hr
  exact ⟨h.1, h.2.2.1⟩

end Registry

end Tirtc
