import Tirtc.Lib.Datetime

/-!
# The conversions of times and durations

What `_util.py` makes of a `datetime` or a `timedelta` of the caller, and of the numbers of the
Runtime.

* `TimeArgument`, `TimeError`: what a caller may pass, and what a conversion raises.
* `durationUs`, `durationMs`, `awareDatetime`, `datetimeMs`, `datetimeFromUs`, `datetimeFromMs`: the
  conversions, with their texts.
* `durationMs_eq_ok`, `datetimeMs_eq_ok`, `datetimeFromMs_eq_ok`: what each gives, in microseconds.
* `time_conversions_exact`: they are exact, and inverse to each other.
-/

set_option autoImplicit false

namespace Tirtc

open Datetime

/-! ## The conversions -/

/-- A Python object as the conversions see it. -/
inductive TimeArgument
  | timedelta (value : TimeDelta)
  | datetime (value : DateTime)
  | other

/-- What a conversion raises. An `OverflowError` comes from the arithmetic of `datetime`. -/
inductive TimeError
  | typeError (message : String)
  | valueError (message : String)
  | overflowError
  deriving DecidableEq, Repr

/-- Source: `_util.py`, `_duration_us` -/
def durationUs (value : TimeArgument) (name : String) : Except TimeError ℤ :=
  match value with
  | .timedelta d => .ok (d.days * 86400000000 + d.seconds * 1000000 + d.microseconds)
  | _ => .error (.typeError (name ++ " must be datetime.timedelta"))

/-- Source: `_util.py`, `_duration_ms` -/
def durationMs (value : TimeArgument) (name : String) : Except TimeError ℤ := do
  let microseconds ← durationUs value name
  if microseconds % 1000 ≠ 0 then
    .error (.valueError (name ++ " must use whole milliseconds"))
  else
    .ok (microseconds / 1000)

/-- Source: `_util.py`, `_aware_datetime` -/
def awareDatetime (value : TimeArgument) (name : String) : Except TimeError DateTime :=
  match value with
  | .datetime d =>
      match d.utcoffset with
      | none => .error (.valueError (name ++ " must include timezone information"))
      | some offset =>
          match d.astimezoneUtc offset with
          | some moment => .ok moment
          | none => .error .overflowError
  | _ => .error (.typeError (name ++ " must be datetime.datetime"))

/-- Source: `_util.py`, `_datetime_ms` -/
def datetimeMs (value : TimeArgument) (name : String) : Except TimeError ℤ := do
  let moment ← awareDatetime value name
  match moment.sub epoch.utc with
  | none => .error (.typeError "can't subtract offset-naive and offset-aware datetimes")
  | some delta =>
      let microseconds :=
        delta.days * 86400000000 + delta.seconds * 1000000 + delta.microseconds
      if microseconds % 1000 ≠ 0 then
        .error (.valueError (name ++ " must use whole milliseconds"))
      else
        let milliseconds := microseconds / 1000
        if milliseconds < 0 then
          .error (.valueError (name ++ " must be at or after the Unix epoch"))
        else
          .ok milliseconds

/-- The epoch and a duration that the Runtime gave as a number. -/
def sinceEpoch (delta : Option TimeDelta) : Except TimeError DateTime :=
  match delta.bind epoch.utc.add with
  | some moment => .ok moment
  | none => .error .overflowError

/-- Source: `_util.py`, `_datetime_from_us` -/
def datetimeFromUs (value : ℤ) (present : Bool) : Except TimeError (Option DateTime) :=
  if !present then .ok none
  else (sinceEpoch (TimeDelta.ofMicroseconds value)).map some

/-- Source: `_util.py`, `_datetime_from_ms` -/
def datetimeFromMs (value : ℤ) : Except TimeError DateTime :=
  sinceEpoch (TimeDelta.ofMilliseconds value)

/-! ## What they give -/

/-- Every timedelta has its microseconds. -/
@[simp] theorem durationUs_timedelta (d : TimeDelta) (name : String) :
    durationUs (.timedelta d) name = .ok d.total := rfl

/-- **Whole milliseconds, and only they, convert**; nothing is rounded. -/
theorem durationMs_eq_ok {d : TimeDelta} {name : String} {m : ℤ} :
    durationMs (.timedelta d) name = .ok m ↔ d.total = m * 1000 := by
  have hval : durationMs (.timedelta d) name =
      if d.total % 1000 ≠ 0 then .error (.valueError (name ++ " must use whole milliseconds"))
      else .ok (d.total / 1000) := rfl
  rw [hval]
  by_cases hwhole : d.total % 1000 = 0
  · rw [if_neg (not_not.mpr hwhole), Except.ok.injEq]
    omega
  · rw [if_pos hwhole]
    constructor
    · intro h
      cases h
    · intro h
      omega

/-- What passes the check is a datetime with an offset, and the result shows its instant on the UTC
clock. -/
theorem awareDatetime_eq_ok {value : TimeArgument} {name : String} {moment : DateTime} :
    awareDatetime value name = .ok moment ↔
      ∃ d, ∃ r : Reading, value = .datetime d ∧ moment = r.utc ∧ d.instant = some r.sinceEpoch := by
  constructor
  · intro h
    cases value with
    | timedelta d => cases h
    | other => cases h
    | datetime d =>
        cases hoffset : d.utcoffset with
        | none =>
            simp only [awareDatetime, hoffset] at h
            cases h
        | some offset =>
            cases hutc : d.astimezoneUtc offset with
            | none =>
                simp only [awareDatetime, hoffset, hutc] at h
                cases h
            | some e =>
                simp only [awareDatetime, hoffset, hutc, Except.ok.injEq] at h
                obtain ⟨r, hr, hinstant⟩ := (DateTime.astimezone_utc hoffset).mp hutc
                exact ⟨d, r, rfl, h ▸ hr, hinstant⟩
  · rintro ⟨d, r, rfl, rfl, hinstant⟩
    cases hoffset : d.utcoffset with
    | none =>
        rw [DateTime.instant, hoffset] at hinstant
        cases hinstant
    | some offset =>
        have hutc := (DateTime.astimezone_utc hoffset).mpr ⟨r, rfl, hinstant⟩
        simp only [awareDatetime, hoffset, hutc]

/-- The conversion of a reading of the UTC clock. -/
theorem datetimeMs_of_aware {value : TimeArgument} {name : String} {r : Reading}
    (h : awareDatetime value name = .ok r.utc) :
    datetimeMs value name =
      if r.sinceEpoch % 1000 ≠ 0 then
        .error (.valueError (name ++ " must use whole milliseconds"))
      else if r.sinceEpoch / 1000 < 0 then
        .error (.valueError (name ++ " must be at or after the Unix epoch"))
      else .ok (r.sinceEpoch / 1000) := by
  obtain ⟨delta, hdelta, htotal⟩ := DateTime.sub_utc (r := r) (s := epoch)
  have hepoch : epoch.sinceEpoch = 0 := rfl
  have hmicroseconds :
      delta.days * 86400000000 + delta.seconds * 1000000 + delta.microseconds = r.sinceEpoch := by
    rw [← Parts.total, htotal, hepoch, sub_zero]
  unfold datetimeMs
  rw [h]
  simp only [bind, Except.bind, hdelta, hmicroseconds]

/-- **The instants that convert** are the whole milliseconds at or after the epoch that a UTC clock
can show; nothing is rounded. -/
theorem datetimeMs_eq_ok {value : TimeArgument} {name : String} {m : ℤ} :
    datetimeMs value name = .ok m ↔
      ∃ d, ∃ r : Reading, value = .datetime d ∧ d.instant = some r.sinceEpoch ∧
        r.sinceEpoch = m * 1000 ∧ 0 ≤ m := by
  constructor
  · intro h
    cases haware : awareDatetime value name with
    | error e =>
        unfold datetimeMs at h
        rw [haware] at h
        cases h
    | ok moment =>
        obtain ⟨d, r, hvalue, rfl, hinstant⟩ := awareDatetime_eq_ok.mp haware
        rw [datetimeMs_of_aware haware] at h
        by_cases hwhole : r.sinceEpoch % 1000 = 0
        · rw [if_neg (not_not.mpr hwhole)] at h
          by_cases hneg : r.sinceEpoch / 1000 < 0
          · rw [if_pos hneg] at h
            cases h
          · rw [if_neg hneg, Except.ok.injEq] at h
            exact ⟨d, r, hvalue, hinstant, by omega, by omega⟩
        · rw [if_pos hwhole] at h
          cases h
  · rintro ⟨d, r, hvalue, hinstant, hmilli, hpos⟩
    rw [datetimeMs_of_aware (awareDatetime_eq_ok.mpr ⟨d, r, hvalue, rfl, hinstant⟩),
      if_neg (by omega), if_neg (by omega), Except.ok.injEq]
    omega

/-- A number of the Runtime becomes the reading of the UTC clock at that distance from the
epoch, where the clock can show it. -/
theorem sinceEpoch_eq_ok {value : ℤ} {delta : Option TimeDelta} {e : DateTime}
    (hdelta : ∀ d, delta = some d ↔ d.total = value) :
    sinceEpoch delta = .ok e ↔ ∃ r : Reading, e = r.utc ∧ r.sinceEpoch = value := by
  have hepoch : epoch.sinceEpoch = 0 := rfl
  constructor
  · intro h
    cases hbind : delta.bind epoch.utc.add with
    | none =>
        rw [sinceEpoch, hbind] at h
        cases h
    | some moment =>
        rw [sinceEpoch, hbind] at h
        cases h
        obtain ⟨d, hd, hadd⟩ := Option.bind_eq_some_iff.mp hbind
        obtain ⟨r, hr, hsince⟩ := DateTime.add_utc.mp hadd
        exact ⟨r, hr, by rw [hsince, hepoch, (hdelta d).mp hd, zero_add]⟩
  · rintro ⟨r, rfl, hsince⟩
    have hrange := r.total_range
    have hfirst : epoch.total = 719163 * 86400000000 := rfl
    have hvalue : r.total - epoch.total = value := hsince
    -- a clock's range of days is narrower than a duration's
    obtain ⟨d, hd⟩ : ∃ d : TimeDelta, d.total = value :=
      Ranged.exists_total (by omega) (by omega)
    have hadd : epoch.utc.add d = some r.utc :=
      DateTime.add_utc.mpr ⟨r, rfl, by rw [hsince, hepoch, hd, zero_add]⟩
    rw [sinceEpoch, (hdelta d).mpr hd, Option.bind_some, hadd]

/-- **A number of milliseconds** becomes the reading of the UTC clock at that instant. -/
theorem datetimeFromMs_eq_ok {m : ℤ} {e : DateTime} :
    datetimeFromMs m = .ok e ↔ ∃ r : Reading, e = r.utc ∧ r.sinceEpoch = m * 1000 :=
  sinceEpoch_eq_ok fun _ => TimeDelta.ofMilliseconds_eq_some

/-- A number of microseconds that is present becomes the reading of the UTC clock at that
instant. -/
theorem datetimeFromUs_eq_ok {value : ℤ} {e : DateTime} :
    datetimeFromUs value true = .ok (some e) ↔
      ∃ r : Reading, e = r.utc ∧ r.sinceEpoch = value := by
  have hdelta : ∀ d, TimeDelta.ofMicroseconds value = some d ↔ d.total = value :=
    fun _ => TimeDelta.ofMicroseconds_eq_some
  rw [← sinceEpoch_eq_ok hdelta]
  unfold datetimeFromUs
  cases sinceEpoch (TimeDelta.ofMicroseconds value) with
  | error e => simp [Except.map]
  | ok moment => simp [Except.map]

/-- The instants of two datetimes compare as the milliseconds they convert to. -/
theorem datetimeMs_lt_iff {d e : DateTime} {name name' : String} {m n i j : ℤ}
    (hd : datetimeMs (.datetime d) name = .ok m) (he : datetimeMs (.datetime e) name' = .ok n)
    (hi : d.instant = some i) (hj : e.instant = some j) : m < n ↔ i < j := by
  obtain ⟨d', r, hvalue, hr, hm, -⟩ := datetimeMs_eq_ok.mp hd
  obtain ⟨e', s, hvalue', hs, hn, -⟩ := datetimeMs_eq_ok.mp he
  cases hvalue
  cases hvalue'
  rw [hi, Option.some.injEq] at hr
  rw [hj, Option.some.injEq] at hs
  omega

/-- **The conversions of times are exact and inverse to each other.** Milliseconds at or after the
epoch survive the way to a datetime and back. A datetime with an offset converts exactly when its
instant is a whole number of milliseconds at or after the epoch; the result is that number, leads
back to the same instant, and grows with the instant. A duration converts exactly when it is a whole
number of milliseconds, and the result leads back to it. -/
theorem time_conversions_exact (name : String) :
    (∀ m : ℤ, 0 ≤ m → Representable (m * 1000) →
      ∃ d, datetimeFromMs m = .ok d ∧ datetimeMs (.datetime d) name = .ok m) ∧
    (∀ (d : DateTime) (i : ℤ), d.instant = some i → Representable i →
      ((∃ m, datetimeMs (.datetime d) name = .ok m) ↔ i % 1000 = 0 ∧ 0 ≤ i) ∧
      ∀ m, datetimeMs (.datetime d) name = .ok m →
        i = m * 1000 ∧ ∃ e, datetimeFromMs m = .ok e ∧ e.instant = some i) ∧
    (∀ (d e : DateTime) (i j m n : ℤ), d.instant = some i → e.instant = some j →
      datetimeMs (.datetime d) name = .ok m → datetimeMs (.datetime e) name = .ok n →
        (m < n ↔ i < j)) ∧
    (∀ d : TimeDelta, ((∃ m, durationMs (.timedelta d) name = .ok m) ↔ d.total % 1000 = 0) ∧
      ∀ m, durationMs (.timedelta d) name = .ok m →
        d.total = m * 1000 ∧ TimeDelta.ofMilliseconds m = some d) := by
  refine ⟨?_, ?_, ?_, ?_⟩
  · rintro m hm ⟨r, hr⟩
    refine ⟨r.utc, datetimeFromMs_eq_ok.mpr ⟨r, rfl, hr⟩, ?_⟩
    exact datetimeMs_eq_ok.mpr ⟨r.utc, r, rfl, DateTime.instant_utc r, hr, hm⟩
  · rintro d i hi ⟨r, rfl⟩
    refine ⟨⟨?_, ?_⟩, ?_⟩
    · rintro ⟨m, h⟩
      obtain ⟨d', s, hvalue, hs, hmilli, hpos⟩ := datetimeMs_eq_ok.mp h
      cases hvalue
      rw [hi, Option.some.injEq] at hs
      exact ⟨by omega, by omega⟩
    · rintro ⟨hwhole, hpos⟩
      exact ⟨r.sinceEpoch / 1000,
        datetimeMs_eq_ok.mpr ⟨d, r, rfl, hi, by omega, by omega⟩⟩
    · intro m h
      obtain ⟨d', s, hvalue, hs, hmilli, -⟩ := datetimeMs_eq_ok.mp h
      cases hvalue
      rw [hi, Option.some.injEq] at hs
      exact ⟨hs.trans hmilli, s.utc, datetimeFromMs_eq_ok.mpr ⟨s, rfl, hmilli⟩,
        by rw [DateTime.instant_utc, hs]⟩
  · intro d e i j m n hi hj hd he
    exact datetimeMs_lt_iff hd he hi hj
  · intro d
    refine ⟨⟨?_, ?_⟩, ?_⟩
    · rintro ⟨m, h⟩
      have hmilli := durationMs_eq_ok.mp h
      omega
    · intro hwhole
      exact ⟨d.total / 1000, durationMs_eq_ok.mpr (by omega)⟩
    · intro m h
      have hmilli := durationMs_eq_ok.mp h
      exact ⟨hmilli, TimeDelta.ofMilliseconds_eq_some.mpr hmilli⟩

end Tirtc
