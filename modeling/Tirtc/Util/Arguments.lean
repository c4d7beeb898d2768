import Mathlib.Data.Finset.Insert
import Mathlib.Tactic.Common
import Tirtc.Lib.Results
import Tirtc.Util.Times

/-!
# The checks of the arguments

What the methods make of the Python objects of a caller before they go to the extension.

* `Argument`, `Buffer`, `ArgumentError`: the objects, and what a check raises.
* `integer`, `streamId`, `channelId`, `buffer`, `normalizeRawDumpIds`, `rawDumpOptions`: the checks,
  with their texts.
* `integer_eq_ok`, `buffer_eq_ok`, `normalizeLoop_eq_ok`, `normalizeRawDumpIds_eq_ok`: exactly what
  they accept.
-/

set_option autoImplicit false

namespace Tirtc.Arguments

open Datetime Results

/-! ## The objects -/

/-- A bytes-like object: its bytes, and what a memoryview of it may be like. `castable` says that
`cast("B")` takes it. -/
structure Buffer where
  bytes : List UInt8
  released : Bool := false
  contiguous : Bool := true
  castable : Bool := true

/-- A Python object, as far as the checks look at it. -/
inductive Argument
  | none
  | int (value : ℤ)
  | bool (value : Bool)
  | timedelta (value : TimeDelta)
  | datetime (value : DateTime)
  | buffer (value : Buffer)
  | str
  | iterable (items : List Argument)
  | other

/-- What a check raises; `memoryview` comes from a memoryview itself. -/
inductive ArgumentError
  | typeError (message : String)
  | valueError (message : String)
  | overflowError
  | memoryview
  deriving DecidableEq, Repr

/-- The object as the conversions of times see it. -/
def Argument.time : Argument → TimeArgument
  | .timedelta value => .timedelta value
  | .datetime value => .datetime value
  | .none | .int _ | .bool _ | .buffer _ | .str | .iterable _ | .other => .other

/-- An error of a conversion of a time. -/
def ArgumentError.ofTime : TimeError → ArgumentError
  | .typeError message => .typeError message
  | .valueError message => .valueError message
  | .overflowError => .overflowError

/-! ## The checks -/

/-- Source: `_util.py`, `_integer` -/
def integer (value : Argument) (name : String) (minimum maximum : ℤ) : Except ArgumentError ℤ :=
  match value with
  | .int v =>
      if v < minimum ∨ v > maximum then
        .error (.valueError
          (name ++ " must be between " ++ toString minimum ++ " and " ++ toString maximum))
      else .ok v
  | _ => .error (.typeError (name ++ " must be int"))

/-- Source: `_util.py`, `_stream_id` -/
def streamId (value : Argument) (name : String := "stream_id") : Except ArgumentError ℤ :=
  integer value name 0 15

/-- Source: `_util.py`, `_channel_id` -/
def channelId (value : Argument) (name : String := "channel_id") : Except ArgumentError ℤ :=
  integer value name 0 255

/-- Source: `_util.py`, `_buffer` -/
def buffer (value : Argument) (name : String := "data") : Except ArgumentError (List UInt8) :=
  match value with
  | .buffer b =>
      if b.released then .error .memoryview
      else if !b.contiguous then .error (.valueError (name ++ " must be contiguous"))
      else if !b.castable then .error .memoryview
      else .ok b.bytes
  | _ => .error (.typeError (name ++ " must be bytes, bytearray, or memoryview"))

/-- `_duration_ms` of an object. -/
def duration (value : Argument) (name : String) : Except ArgumentError ℤ :=
  (durationMs value.time name).mapError .ofTime

/-- The loop over the values: `seen` are those of `result`.
Source: `_raw_dump.py`, `normalize_raw_dump_ids` -/
def normalizeLoop (name : String) (maximum : ℤ) (seen : Finset ℤ) (result : List ℤ) :
    List Argument → Except ArgumentError (List ℤ)
  | [] => .ok result
  | .int value :: rest =>
      if value < 0 ∨ value > maximum then
        .error (.valueError (name ++ " values must be from 0 through " ++ toString maximum))
      else if value ∈ seen then normalizeLoop name maximum seen result rest
      else normalizeLoop name maximum (insert value seen) (result ++ [value]) rest
  | _ :: _ => .error (.typeError (name ++ " values must be integers"))

/-- Source: `_raw_dump.py`, `normalize_raw_dump_ids` -/
def normalizeRawDumpIds (values : Argument) (name : String) (maximum : ℤ) :
    Except ArgumentError (List ℤ) :=
  match values with
  | .iterable items => normalizeLoop name maximum ∅ [] items
  | _ => .error (.typeError (name ++ " must be an iterable of integers"))

/-- What the two classes of options have in common: the names and the largest id of the ids, and
what they select. -/
def rawDumpOptions (audioName videoName selects : String) (maximum : ℤ) (audio video : Argument) :
    Except ArgumentError (List ℤ × List ℤ) := do
  let audio ← normalizeRawDumpIds audio audioName maximum
  let video ← normalizeRawDumpIds video videoName maximum
  if audio.isEmpty && video.isEmpty then
    .error (.valueError ("at least one audio or video " ++ selects ++ " must be selected"))
  else .ok (audio, video)

/-- Source: `_core.py`, `RawDumpOptions.__post_init__` -/
def connectionDumpOptions : Argument → Argument → Except ArgumentError (List ℤ × List ℤ) :=
  rawDumpOptions "audio_stream_ids" "video_stream_ids" "stream" 15

/-- Source: `storage/__init__.py`, `RawDumpOptions.__post_init__` -/
def replayDumpOptions : Argument → Argument → Except ArgumentError (List ℤ × List ℤ) :=
  rawDumpOptions "audio_channel_ids" "video_channel_ids" "channel" 255

/-! ## What they accept -/

/-- **An integer in its range**, and no bool. -/
theorem integer_eq_ok {value : Argument} {name : String} {minimum maximum v : ℤ} :
    integer value name minimum maximum = .ok v ↔
      value = .int v ∧ minimum ≤ v ∧ v ≤ maximum := by
  cases value with
  | int u =>
      simp only [integer]
      split
      next hout =>
        constructor
        · intro h
          cases h
        · rintro ⟨hu, hmin, hmax⟩
          cases hu
          omega
      next hin =>
        constructor
        · intro h
          cases h
          exact ⟨rfl, by omega, by omega⟩
        · rintro ⟨hu, -, -⟩
          cases hu
          rfl
  | _ => simp [integer]

/-- The bytes of a bytes-like object that can be sent. -/
def Bytes (value : Argument) (data : List UInt8) : Prop :=
  ∃ b : Buffer, value = .buffer b ∧ b.released = false ∧ b.contiguous = true ∧
    b.castable = true ∧ data = b.bytes

theorem buffer_eq_ok {value : Argument} {name : String} {data : List UInt8} :
    buffer value name = .ok data ↔ Bytes value data := by
  cases value with
  | buffer b =>
      simp only [buffer]
      constructor
      · intro h
        split at h
        · cases h
        next hreleased =>
          split at h
          · cases h
          next hcontiguous =>
            split at h
            · cases h
            next hcastable =>
              cases h
              exact ⟨b, rfl, by simpa using hreleased, by simpa using hcontiguous,
                by simpa using hcastable, rfl⟩
      · rintro ⟨b', hb, hreleased, hcontiguous, hcastable, rfl⟩
        cases hb
        simp [hreleased, hcontiguous, hcastable]
  | _ => simp [buffer, Bytes]

/-- Whole milliseconds. -/
theorem duration_eq_ok {value : Argument} {name : String} {m : ℤ} :
    duration value name = .ok m ↔ ∃ d, value = .timedelta d ∧ d.total = m * 1000 := by
  have hmap : ∀ x : Except TimeError ℤ, x.mapError ArgumentError.ofTime = .ok m ↔ x = .ok m := by
    intro x
    cases x with
    | ok a => simp [Except.mapError]
    | error e => simp [Except.mapError]
  rw [duration, hmap]
  cases value with
  | timedelta d =>
      rw [show (Argument.timedelta d).time = .timedelta d from rfl, durationMs_eq_ok]
      simp
  | _ =>
      constructor
      · intro h
        cases h
      · rintro ⟨d, hd, -⟩
        cases hd

/-- **The loop** appends the first occurrences of what it has not seen, and takes nothing but
integers in the range. -/
theorem normalizeLoop_eq_ok {name : String} {maximum : ℤ} {seen : Finset ℤ} {result ids : List ℤ}
    {items : List Argument} :
    normalizeLoop name maximum seen result items = .ok ids ↔
      ∃ values : List ℤ, items = values.map .int ∧ (∀ v ∈ values, 0 ≤ v ∧ v ≤ maximum) ∧
        ids = result ++ (values.filter (· ∉ seen)).eraseDups := by
  induction items generalizing seen result with
  | nil => simp [normalizeLoop, eq_comm]
  | cons item rest ih =>
      cases item with
      | int value =>
          simp only [normalizeLoop]
          split
          next hout =>
            constructor
            · intro h
              cases h
            · rintro ⟨values, hvalues, hrange, -⟩
              cases values with
              | nil => cases hvalues
              | cons v vs =>
                  cases hvalues
                  have hv := hrange value List.mem_cons_self
                  omega
          next hin =>
            -- what the rest of the loop does, for the values with this one in front
            have hrest : ∀ (seen' : Finset ℤ) (result' : List ℤ),
                (∀ values : List ℤ, result' ++ (values.filter (· ∉ seen')).eraseDups =
                  result ++ ((value :: values).filter (· ∉ seen)).eraseDups) →
                (normalizeLoop name maximum seen' result' rest = .ok ids ↔
                  ∃ values : List ℤ, Argument.int value :: rest = values.map .int ∧
                    (∀ v ∈ values, 0 ≤ v ∧ v ≤ maximum) ∧
                    ids = result ++ (values.filter (· ∉ seen)).eraseDups) := by
              intro seen' result' hsame
              rw [ih]
              constructor
              · rintro ⟨values, rfl, hrange, rfl⟩
                refine ⟨value :: values, rfl, ?_, hsame values⟩
                intro v hv
                rcases List.mem_cons.mp hv with rfl | hv
                · omega
                · exact hrange v hv
              · rintro ⟨values, hvalues, hrange, rfl⟩
                cases values with
                | nil => cases hvalues
                | cons v vs =>
                    rw [List.map_cons, List.cons.injEq, Argument.int.injEq] at hvalues
                    obtain ⟨rfl, rfl⟩ := hvalues
                    refine ⟨vs, rfl, ?_, (hsame vs).symm⟩
                    intro u hu
                    exact hrange u (List.mem_cons_of_mem _ hu)
            split
            next hseen =>
              apply hrest
              intro values
              rw [List.filter_cons_of_neg (by simpa using hseen)]
            next hnew =>
              apply hrest
              intro values
              have hfilter : values.filter (fun v => decide (v ∉ insert value seen)) =
                  values.filter (fun v => !v == value && decide (v ∉ seen)) := by
                apply List.filter_congr
                intro v _
                by_cases hv : v = value
                · simp [hv]
                · simp [hv]
              rw [List.filter_cons_of_pos (by simpa using hnew), List.eraseDups_cons,
                List.filter_filter, List.append_assoc, hfilter]
              rfl
      | _ =>
          constructor
          · intro h
            cases h
          · rintro ⟨values, hvalues, -, -⟩
            cases values with
            | nil => cases hvalues
            | cons v vs => cases hvalues

/-- The ids of an iterable: its values in the order of their first occurrences. -/
def Selects (value : Argument) (maximum : ℤ) (ids : List ℤ) : Prop :=
  ∃ values : List ℤ, value = .iterable (values.map .int) ∧
    (∀ v ∈ values, 0 ≤ v ∧ v ≤ maximum) ∧ ids = values.eraseDups

theorem normalizeRawDumpIds_eq_ok {value : Argument} {name : String} {maximum : ℤ}
    {ids : List ℤ} :
    normalizeRawDumpIds value name maximum = .ok ids ↔ Selects value maximum ids := by
  cases value with
  | iterable items =>
      rw [normalizeRawDumpIds, normalizeLoop_eq_ok]
      simp [Selects]
  | _ => simp [normalizeRawDumpIds, Selects]

/-- What is selected lies in the range. -/
theorem Selects.range {value : Argument} {maximum : ℤ} {ids : List ℤ}
    (h : Selects value maximum ids) : ∀ v ∈ ids, 0 ≤ v ∧ v ≤ maximum := by
  obtain ⟨values, -, hrange, rfl⟩ := h
  intro v hv
  exact hrange v (List.mem_eraseDups.mp hv)

/-- **The options** are made exactly when both selections are, and not both are empty. -/
theorem rawDumpOptions_eq_ok {audioName videoName selects : String} {maximum : ℤ}
    {audio video : Argument} {ids : List ℤ × List ℤ} :
    rawDumpOptions audioName videoName selects maximum audio video = .ok ids ↔
      Selects audio maximum ids.1 ∧ Selects video maximum ids.2 ∧
        (ids.1 ≠ [] ∨ ids.2 ≠ []) := by
  simp only [rawDumpOptions, bind_eq_ok, normalizeRawDumpIds_eq_ok]
  constructor
  · rintro ⟨a, ha, v, hv, h⟩
    split at h
    · cases h
    next hsome =>
      cases h
      refine ⟨ha, hv, ?_⟩
      by_contra hnone
      apply hsome
      simpa [not_or] using hnone
  · rintro ⟨ha, hv, hsome⟩
    refine ⟨ids.1, ha, ids.2, hv, ?_⟩
    have hsome : ¬ (ids.1.isEmpty && ids.2.isEmpty) = true := by
      intro hnone
      simp only [Bool.and_eq_true, List.isEmpty_iff] at hnone
      rcases hsome with hsome | hsome
      · exact hsome hnone.1
      · exact hsome hnone.2
    rw [if_neg hsome]

end Tirtc.Arguments
