import Tirtc.Util.Times

/-!
# The time ranges a CloudStorage and a Replay accept

The checks on the datetimes of `list_recordings`, `export_recording`, `play` and `seek`. They
compare the converted numbers only; as the conversion is exact, these compare as the instants do.

* `requestedRange`, `playRange`, `seekTarget`: the checks, in the order and with the texts of the
  source.
* `TimeAt`: an argument that converts, and the millisecond it stands for.
* `requestedRange_eq_ok`, `playRange_eq_ok`, `seekTarget_eq_ok`: exactly what they accept.
-/

set_option autoImplicit false

namespace Tirtc.Storage

open Datetime

/-! ## The checks -/

/-- Source: `storage/__init__.py`, `CloudStorage.list_recordings` and `export_recording` -/
def requestedRange (startTime endTime : TimeArgument) : Except TimeError (ℤ × ℤ) := do
  let start ← datetimeMs startTime "start_time"
  let finish ← datetimeMs endTime "end_time"
  if start ≥ finish then
    .error (.valueError "start_time must be before end_time")
  else
    .ok (start, finish)

/-- The playback range and the initial time, as they go to the Runtime.
Source: `storage/__init__.py`, `Replay.play` -/
def playRange (startTime endTime : TimeArgument) (initialTime : Option TimeArgument) :
    Except TimeError ((ℤ × ℤ) × ℤ) := do
  let range ← requestedRange startTime endTime
  let initial ← match initialTime with
    | none => .ok range.1
    | some value => datetimeMs value "initial_time"
  if initial < range.1 ∨ initial ≥ range.2 then
    .error (.valueError "initial_time must be inside the playback range")
  else
    .ok (range, initial)

/-- The target as it goes to the Runtime. `range` is `_playback_range`.
Source: `storage/__init__.py`, `Replay.seek` -/
def seekTarget (target : TimeArgument) (range : Option (ℤ × ℤ)) : Except TimeError ℤ := do
  let target ← datetimeMs target "target"
  match range with
  | none => .ok target
  | some (start, finish) =>
      if target < start ∨ target ≥ finish then
        .error (.valueError "target must be inside the playback range")
      else
        .ok target

/-! ## What they accept -/

/-- The argument is a datetime whose instant is millisecond `m` after the epoch. -/
def TimeAt (value : TimeArgument) (m : ℤ) : Prop :=
  ∃ d, ∃ r : Reading, value = .datetime d ∧ d.instant = some r.sinceEpoch ∧
    r.sinceEpoch = m * 1000 ∧ 0 ≤ m

/-- The name of an argument is only in the texts. -/
theorem datetimeMs_eq_ok_iff {value : TimeArgument} {name : String} {m : ℤ} :
    datetimeMs value name = .ok m ↔ TimeAt value m := datetimeMs_eq_ok

/-- A conversion and what follows it. -/
theorem datetimeMs_bind_eq_ok {β : Type} {value : TimeArgument} {name : String}
    {f : ℤ → Except TimeError β} {b : β} :
    (datetimeMs value name >>= f) = .ok b ↔ ∃ m, TimeAt value m ∧ f m = .ok b := by
  constructor
  · intro h
    cases hvalue : datetimeMs value name with
    | error e =>
        rw [hvalue] at h
        cases h
    | ok m =>
        rw [hvalue] at h
        exact ⟨m, datetimeMs_eq_ok_iff.mp hvalue, h⟩
  · rintro ⟨m, hm, hf⟩
    rw [datetimeMs_eq_ok_iff.mpr hm]
    exact hf

/-- **A requested range** is accepted exactly when its ends convert and the start is an earlier
instant. -/
theorem requestedRange_eq_ok {startTime endTime : TimeArgument} {start finish : ℤ} :
    requestedRange startTime endTime = .ok (start, finish) ↔
      TimeAt startTime start ∧ TimeAt endTime finish ∧ start < finish := by
  rw [requestedRange, datetimeMs_bind_eq_ok]
  constructor
  · rintro ⟨a, ha, h⟩
    obtain ⟨b, hb, h⟩ := datetimeMs_bind_eq_ok.mp h
    by_cases hle : a ≥ b
    · rw [if_pos hle] at h
      cases h
    · rw [if_neg hle] at h
      cases h
      exact ⟨ha, hb, by omega⟩
  · rintro ⟨ha, hb, hlt⟩
    refine ⟨start, ha, datetimeMs_bind_eq_ok.mpr ⟨finish, hb, ?_⟩⟩
    rw [if_neg (by omega)]

/-- A requested range and what follows it. -/
theorem requestedRange_bind_eq_ok {β : Type} {startTime endTime : TimeArgument}
    {f : ℤ × ℤ → Except TimeError β} {b : β} :
    (requestedRange startTime endTime >>= f) = .ok b ↔
      ∃ start finish, TimeAt startTime start ∧ TimeAt endTime finish ∧ start < finish ∧
        f (start, finish) = .ok b := by
  constructor
  · intro h
    cases hrange : requestedRange startTime endTime with
    | error e =>
        rw [hrange] at h
        cases h
    | ok range =>
        rw [hrange] at h
        obtain ⟨hs, hf, hlt⟩ := requestedRange_eq_ok.mp hrange
        exact ⟨range.1, range.2, hs, hf, hlt, h⟩
  · rintro ⟨start, finish, hs, hf, hlt, h⟩
    rw [requestedRange_eq_ok.mpr ⟨hs, hf, hlt⟩]
    exact h

/-- The last check of `play`. -/
theorem insideRange_eq_ok {error : TimeError} {a b c start finish initial : ℤ} :
    (if c < a ∨ c ≥ b then .error error else .ok ((a, b), c)) =
        Except.ok ((start, finish), initial) ↔
      a = start ∧ b = finish ∧ c = initial ∧ a ≤ c ∧ c < b := by
  by_cases hout : c < a ∨ c ≥ b
  · rw [if_pos hout]
    constructor
    · intro h
      cases h
    · intro h
      omega
  · rw [if_neg hout, Except.ok.injEq, Prod.mk.injEq, Prod.mk.injEq]
    constructor
    · rintro ⟨⟨ha, hb⟩, hc⟩
      exact ⟨ha, hb, hc, by omega, by omega⟩
    · rintro ⟨ha, hb, hc, -, -⟩
      exact ⟨⟨ha, hb⟩, hc⟩

/-- **A play** is accepted exactly when its range is, and its initial time is an instant of the
range; without an initial time it is the start. -/
theorem playRange_eq_ok {startTime endTime : TimeArgument} {initialTime : Option TimeArgument}
    {start finish initial : ℤ} :
    playRange startTime endTime initialTime = .ok ((start, finish), initial) ↔
      TimeAt startTime start ∧ TimeAt endTime finish ∧ start ≤ initial ∧ initial < finish ∧
        match initialTime with
        | none => initial = start
        | some value => TimeAt value initial := by
  rw [playRange, requestedRange_bind_eq_ok]
  cases initialTime with
  | none =>
      constructor
      · rintro ⟨a, b, ha, hb, -, h⟩
        obtain ⟨rfl, rfl, hc, hle, hlt⟩ := insideRange_eq_ok.mp h
        exact ⟨ha, hb, by omega, by omega, hc.symm⟩
      · rintro ⟨ha, hb, hle, hlt, rfl⟩
        exact ⟨_, _, ha, hb, by omega, insideRange_eq_ok.mpr ⟨rfl, rfl, rfl, le_refl _, hlt⟩⟩
  | some value =>
      constructor
      · rintro ⟨a, b, ha, hb, -, h⟩
        obtain ⟨c, hc, h⟩ := datetimeMs_bind_eq_ok.mp h
        obtain ⟨rfl, rfl, rfl, hle, hlt⟩ := insideRange_eq_ok.mp h
        exact ⟨ha, hb, hle, hlt, hc⟩
      · rintro ⟨ha, hb, hle, hlt, hc⟩
        refine ⟨_, _, ha, hb, by omega, datetimeMs_bind_eq_ok.mpr ⟨initial, hc, ?_⟩⟩
        exact insideRange_eq_ok.mpr ⟨rfl, rfl, rfl, hle, hlt⟩

/-- **A seek** is accepted exactly when its target converts and is an instant of the playback range,
if there is one. -/
theorem seekTarget_eq_ok {target : TimeArgument} {range : Option (ℤ × ℤ)} {m : ℤ} :
    seekTarget target range = .ok m ↔
      TimeAt target m ∧ ∀ start finish, range = some (start, finish) → start ≤ m ∧ m < finish := by
  rw [seekTarget, datetimeMs_bind_eq_ok]
  rcases range with _ | ⟨start, finish⟩
  · simp
  · constructor
    · rintro ⟨a, ha, h⟩
      by_cases hout : a < start ∨ a ≥ finish
      · simp [hout] at h
      · simp only [hout, if_false, Except.ok.injEq] at h
        subst h
        refine ⟨ha, ?_⟩
        intro s f hrange
        cases hrange
        omega
    · rintro ⟨hm, hin⟩
      obtain ⟨hle, hlt⟩ := hin start finish rfl
      refine ⟨m, hm, ?_⟩
      simp only [if_neg (show ¬ (m < start ∨ m ≥ finish) by omega)]

end Tirtc.Storage
