import Mathlib.Data.Int.Notation
import Mathlib.Tactic.Ring

/-!
# Dates, durations and offsets, in whole microseconds

The part of Python's `datetime` that the conversions of `_util.py` rest on. A duration is the
normalised triple (days, seconds, microseconds); a clock shows a day, a second of that day and a
microsecond of that second. A calendar day is known by its proleptic Gregorian ordinal, from
0001-01-01, which is 1, to 9999-12-31, which is 3652059.

* `Parts`, `normalize`: normalised triples, and the carries that make one of any three integers.
* `Parts.total_injective`, `total_normalize`: a triple is known by its microseconds, and the carries
  keep them.
* `TimeDelta`, `Reading`: durations, and what a clock shows; each has its own range of days.
* `Ranged.ofParts_eq_some`, `Reading.add_eq_some`, `Reading.sub_total`: an operation gives the
  value with the right microseconds if there is one.
* `DateTime`, `DateTime.instant`: a datetime with or without a UTC offset, and its instant.
* `DateTime.astimezone_utc`: the same instant on the UTC clock.
-/

set_option autoImplicit false

namespace Datetime

/-! ## Normalised triples -/

/-- Days, seconds of a day and microseconds of a second. -/
@[ext] structure Parts where
  days : ℤ
  seconds : ℤ
  microseconds : ℤ
  seconds_range : 0 ≤ seconds ∧ seconds < 86400
  microseconds_range : 0 ≤ microseconds ∧ microseconds < 1000000
  deriving DecidableEq

/-- All of a triple in microseconds. -/
def Parts.total (p : Parts) : ℤ :=
  p.days * 86400000000 + p.seconds * 1000000 + p.microseconds

/-- The carries: whole seconds go from the microseconds to the seconds, whole days from there to
the days. -/
def normalize (days seconds microseconds : ℤ) : Parts where
  days := days + (seconds + microseconds / 1000000) / 86400
  seconds := (seconds + microseconds / 1000000) % 86400
  microseconds := microseconds % 1000000
  seconds_range := by omega
  microseconds_range := by omega

/-- **The carries keep the microseconds.** -/
@[simp] theorem total_normalize (days seconds microseconds : ℤ) :
    (normalize days seconds microseconds).total =
      days * 86400000000 + seconds * 1000000 + microseconds := by
  simp only [Parts.total, normalize]
  omega

/-- The days of a triple, from its microseconds. -/
theorem Parts.days_eq (p : Parts) : p.days = p.total / 86400000000 := by
  have hs := p.seconds_range
  have hm := p.microseconds_range
  unfold Parts.total
  omega

/-- **A triple is known by its microseconds.** -/
theorem Parts.total_injective {p q : Parts} (h : p.total = q.total) : p = q := by
  have hps := p.seconds_range
  have hpm := p.microseconds_range
  have hqs := q.seconds_range
  have hqm := q.microseconds_range
  unfold Parts.total at h
  apply Parts.ext
  · omega
  · omega
  · omega

/-- The carries give the one triple with these microseconds. -/
theorem normalize_eq_iff {days seconds microseconds : ℤ} {p : Parts} :
    normalize days seconds microseconds = p ↔
      p.total = days * 86400000000 + seconds * 1000000 + microseconds := by
  constructor
  · rintro rfl
    exact total_normalize days seconds microseconds
  · intro h
    exact Parts.total_injective (by rw [total_normalize, h])

/-! ## Triples with a range of days -/

/-- A triple with its days between `lo` and `hi`. -/
@[ext] structure Ranged (lo hi : ℤ) extends Parts where
  days_range : lo ≤ days ∧ days ≤ hi
  deriving DecidableEq

namespace Ranged

variable {lo hi : ℤ}

/-- A triple in a range is known by its microseconds. -/
theorem total_injective {d e : Ranged lo hi} (h : d.total = e.total) : d = e := by
  have hparts := Parts.total_injective h
  cases d
  cases e
  cases hparts
  rfl

variable (lo hi) in
/-- The carries into a range; `none` is an `OverflowError`. -/
def ofParts (days seconds microseconds : ℤ) : Option (Ranged lo hi) :=
  if h : lo ≤ (normalize days seconds microseconds).days ∧
      (normalize days seconds microseconds).days ≤ hi then
    some ⟨normalize days seconds microseconds, h⟩
  else none

/-- **The carries into a range** give the triple with these microseconds, if the range has it. -/
theorem ofParts_eq_some {days seconds microseconds : ℤ} {d : Ranged lo hi} :
    ofParts lo hi days seconds microseconds = some d ↔
      d.total = days * 86400000000 + seconds * 1000000 + microseconds := by
  unfold ofParts
  constructor
  · intro h
    split at h
    · cases h
      exact total_normalize days seconds microseconds
    · cases h
  · intro h
    have hparts : normalize days seconds microseconds = d.toParts := normalize_eq_iff.mpr h
    rw [dif_pos (by rw [hparts]; exact d.days_range), Option.some.injEq]
    exact total_injective (by simp only [hparts])

/-- The microseconds of a triple lie between its first day and its last. -/
theorem total_range (d : Ranged lo hi) :
    lo * 86400000000 ≤ d.total ∧ d.total < (hi + 1) * 86400000000 := by
  have hdays := d.days_range
  have hs := d.seconds_range
  have hm := d.microseconds_range
  unfold Parts.total
  omega

/-- The range has a triple for all microseconds from its first day to its last. -/
theorem exists_total {value : ℤ} (h : lo * 86400000000 ≤ value)
    (h' : value < (hi + 1) * 86400000000) : ∃ d : Ranged lo hi, d.total = value := by
  have hdays := (normalize 0 0 value).days_eq
  rw [total_normalize] at hdays
  exact ⟨⟨normalize 0 0 value, by omega⟩, by simp⟩

end Ranged

/-! ## Durations -/

/-- A duration, of at most 999999999 days either way. -/
abbrev TimeDelta := Ranged (-999999999) 999999999

namespace TimeDelta

/-- `timedelta(milliseconds=value)` -/
def ofMilliseconds (value : ℤ) : Option TimeDelta := Ranged.ofParts _ _ 0 0 (value * 1000)

/-- `timedelta(microseconds=value)` -/
def ofMicroseconds (value : ℤ) : Option TimeDelta := Ranged.ofParts _ _ 0 0 value

theorem ofMilliseconds_eq_some {value : ℤ} {d : TimeDelta} :
    ofMilliseconds value = some d ↔ d.total = value * 1000 := by
  rw [ofMilliseconds, Ranged.ofParts_eq_some]
  simp

theorem ofMicroseconds_eq_some {value : ℤ} {d : TimeDelta} :
    ofMicroseconds value = some d ↔ d.total = value := by
  rw [ofMicroseconds, Ranged.ofParts_eq_some]
  simp

end TimeDelta

/-! ## Clocks -/

/-- What a clock shows: the ordinal of a day between 0001-01-01 and 9999-12-31, and the time of
day. -/
abbrev Reading := Ranged 1 3652059

namespace Reading

/-- A reading and a duration, field by field. -/
def add (r : Reading) (d : TimeDelta) : Option Reading :=
  Ranged.ofParts _ _ (r.days + d.days) (r.seconds + d.seconds) (r.microseconds + d.microseconds)

/-- A duration back from a reading, field by field. -/
def sub (r : Reading) (d : TimeDelta) : Option Reading :=
  Ranged.ofParts _ _ (r.days - d.days) (r.seconds - d.seconds) (r.microseconds - d.microseconds)

theorem add_eq_some {r s : Reading} {d : TimeDelta} :
    r.add d = some s ↔ s.total = r.total + d.total := by
  rw [add, Ranged.ofParts_eq_some]
  simp only [Parts.total]
  constructor
  · intro h
    omega
  · intro h
    omega

theorem sub_eq_some {r s : Reading} {d : TimeDelta} :
    r.sub d = some s ↔ s.total = r.total - d.total := by
  rw [sub, Ranged.ofParts_eq_some]
  simp only [Parts.total]
  constructor
  · intro h
    omega
  · intro h
    omega

end Reading

/-! ## Datetimes -/

/-- What `utcoffset()` may give: less than a day either way. -/
structure UtcOffset extends Parts where
  within_day : -86400000000 < toParts.total ∧ toParts.total < 86400000000
  deriving DecidableEq

/-- An offset as a duration. -/
def UtcOffset.toTimeDelta (offset : UtcOffset) : TimeDelta :=
  ⟨offset.toParts, by
    have h := offset.within_day
    rw [Parts.days_eq]
    omega⟩

@[simp] theorem UtcOffset.toTimeDelta_total (offset : UtcOffset) :
    offset.toTimeDelta.total = offset.total := rfl

/-- The offset of `timezone.utc`. -/
def UtcOffset.zero : UtcOffset where
  days := 0
  seconds := 0
  microseconds := 0
  seconds_range := by decide
  microseconds_range := by decide
  within_day := by decide

@[simp] theorem UtcOffset.zero_total : UtcOffset.zero.total = 0 := rfl

/-- A datetime: what its clock shows, and what `utcoffset()` gives. `none` is a naive datetime, or
one whose `tzinfo` gives no offset. -/
structure DateTime where
  reading : Reading
  utcoffset : Option UtcOffset
  deriving DecidableEq

/-- A datetime with `tzinfo=timezone.utc`. -/
def Reading.utc (r : Reading) : DateTime := ⟨r, some .zero⟩

/-- `datetime(1970, 1, 1)` -/
def epoch : Reading where
  days := 719163
  seconds := 0
  microseconds := 0
  seconds_range := by decide
  microseconds_range := by decide
  days_range := by decide

/-- The microseconds from the epoch to what a UTC clock shows. -/
def Reading.sinceEpoch (r : Reading) : ℤ := r.total - epoch.total

/-- An instant that a UTC clock can show, in microseconds since the epoch. -/
def Representable (instant : ℤ) : Prop := ∃ r : Reading, r.sinceEpoch = instant

namespace DateTime

/-- The instant of a datetime with an offset, in microseconds since the epoch. -/
def instant (d : DateTime) : Option ℤ :=
  d.utcoffset.map fun offset => d.reading.sinceEpoch - offset.total

@[simp] theorem instant_utc (r : Reading) : r.utc.instant = some r.sinceEpoch := by
  simp [instant, Reading.utc]

/-- `value.astimezone(timezone.utc)` for a datetime with this offset; `none` is an
`OverflowError`. -/
def astimezoneUtc (d : DateTime) (offset : UtcOffset) : Option DateTime :=
  (d.reading.sub offset.toTimeDelta).map Reading.utc

/-- The difference of two datetimes; `none` where one has an offset and the other has not, which
is a `TypeError`. -/
def sub (d e : DateTime) : Option TimeDelta :=
  match d.utcoffset, e.utcoffset with
  | none, none =>
      Ranged.ofParts _ _ (d.reading.days - e.reading.days)
        (d.reading.seconds - e.reading.seconds) (d.reading.microseconds - e.reading.microseconds)
  | some x, some y =>
      Ranged.ofParts _ _ (d.reading.days - e.reading.days - (x.days - y.days))
        (d.reading.seconds - e.reading.seconds - (x.seconds - y.seconds))
        (d.reading.microseconds - e.reading.microseconds - (x.microseconds - y.microseconds))
  | _, _ => none

/-- A datetime and a duration, on the same clock; `none` is an `OverflowError`. -/
def add (d : DateTime) (delta : TimeDelta) : Option DateTime :=
  (d.reading.add delta).map fun r => ⟨r, d.utcoffset⟩

/-- **To the UTC clock**: the result shows the same instant, and there is one exactly when a UTC
clock can show it. -/
theorem astimezone_utc {d : DateTime} {offset : UtcOffset} (h : d.utcoffset = some offset)
    {e : DateTime} :
    d.astimezoneUtc offset = some e ↔ ∃ r : Reading, e = r.utc ∧ d.instant = some r.sinceEpoch := by
  unfold astimezoneUtc
  rw [Option.map_eq_some_iff]
  apply exists_congr
  intro r
  rw [Reading.sub_eq_some, instant, h, Option.map_some, Option.some.injEq,
    UtcOffset.toTimeDelta_total]
  unfold Reading.sinceEpoch
  constructor
  · rintro ⟨htotal, rfl⟩
    exact ⟨rfl, by omega⟩
  · rintro ⟨rfl, htotal⟩
    exact ⟨by omega, rfl⟩

/-- The difference of two readings of the UTC clock is the difference of their instants. -/
theorem sub_utc {r s : Reading} :
    ∃ delta, r.utc.sub s.utc = some delta ∧ delta.total = r.sinceEpoch - s.sinceEpoch := by
  have hdiff : r.total - s.total = (r.days - s.days) * 86400000000 +
      (r.seconds - s.seconds) * 1000000 + (r.microseconds - s.microseconds) := by
    unfold Parts.total
    ring
  have hr := r.total_range
  have hs := s.total_range
  obtain ⟨delta, hdelta⟩ : ∃ delta : TimeDelta, delta.total = r.total - s.total :=
    Ranged.exists_total (by omega) (by omega)
  refine ⟨delta, ?_, ?_⟩
  · have hzero : ∀ x : ℤ, x - (0 - 0) = x := by omega
    simp only [sub, Reading.utc, UtcOffset.zero, hzero]
    exact Ranged.ofParts_eq_some.mpr (by rw [hdelta, hdiff])
  · rw [hdelta]
    unfold Reading.sinceEpoch
    ring

/-- A duration onto the UTC clock moves the instant by it. -/
theorem add_utc {r : Reading} {delta : TimeDelta} {e : DateTime} :
    r.utc.add delta = some e ↔
      ∃ s : Reading, e = s.utc ∧ s.sinceEpoch = r.sinceEpoch + delta.total := by
  unfold add
  rw [Option.map_eq_some_iff]
  apply exists_congr
  intro s
  rw [show r.utc.reading = r from rfl, Reading.add_eq_some]
  unfold Reading.sinceEpoch
  constructor
  · rintro ⟨htotal, rfl⟩
    exact ⟨rfl, by omega⟩
  · rintro ⟨rfl, htotal⟩
    exact ⟨by omega, rfl⟩

end DateTime

end Datetime
