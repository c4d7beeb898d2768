import Mathlib.Data.Rat.Floor
import Mathlib.Tactic.Linarith
import Mathlib.Tactic.NormNum
import Tirtc.Errors

/-!
# The retry loop for objects in use

`_retry_in_use_result` calls a native operation until its code is not 6026 or the time is over. The
operation, the clock and `_sleep` are parameters of the source; here they are a `World`, over exact
rational seconds.

* `OperationResult`, `World`, `World.Lawful`: what a call gives back, the parameters, and a clock
  that never goes back and advances by at least `d` during `_sleep(d)`.
* `retryLoop`, `retryInUseResult`, `retryInUse`: the loop and its two wrappers, with fuel; `Retried`
  is the end of the loop and a history of it.
* `World.Goes`: the calls, readings and sleeps are those of the world, one after the other.
* `Retried.Complete`: every call before the last was in use, and the last one decides how the loop
  ends; `Retried.Complete.check`: and what `_retry_in_use` raises.
* `retryLoop_goes`, `retryLoop_complete`, `retryLoop_sleeps`, `retryLoop_bounded`: what holds of the
  loop from any iteration on.
* `retry_in_use_within_budget`: it ends within its budget and loses no result.
* `scripted`, `scripted_calls`: any stream of results, on a clock with any delays.
-/

set_option autoImplicit false

namespace Tirtc

/-! ## The loop -/

/-- What the operation returns: an integer, or a tuple that begins with one. -/
inductive OperationResult (β : Type)
  | int (code : ℤ)
  | tuple (code : ℤ) (rest : β)
  deriving DecidableEq, Repr

/-- `int(result[0] if isinstance(result, tuple) else result)` -/
def OperationResult.code {β : Type} : OperationResult β → ℤ
  | .int code => code
  | .tuple code _ => code

/-- One call of the operation: what it returns, or the exception it raises. -/
abbrev OperationCall (β : Type) := Except PyError (OperationResult β)

/-- The call returned code 6026. -/
def InUse {β : Type} : OperationCall β → Prop
  | .ok result => result.code = 6026
  | .error _ => False

/-- What the loop calls: `operation(*arguments)`, `_clock()` and `_sleep(seconds)`. -/
structure World (β σ : Type) where
  operation : σ → OperationCall β × σ
  clock : σ → ℚ × σ
  sleep : ℚ → σ → σ

/-- How the loop ends. -/
inductive RetryEnd (β : Type)
  | returned (result : OperationResult β)
  | raised (error : PyError)
  | timedOut
  deriving DecidableEq, Repr

/-- The end of the loop. `calls`, `readings` and `sleeps` are history: what the calls gave, the
clock readings after them, and what the loop asked `_sleep` for. -/
structure Retried (β σ : Type) where
  ending : RetryEnd β
  calls : List (OperationCall β)
  readings : List ℚ
  sleeps : List ℚ
  world : σ

/-- One more iteration before. -/
def Retried.after {β σ : Type} (call : OperationCall β) (reading slept : ℚ) (r : Retried β σ) :
    Retried β σ :=
  { r with
    calls := call :: r.calls
    readings := reading :: r.readings
    sleeps := slept :: r.sleeps }

section Loop

variable {β σ : Type} (W : World β σ)

/-- The loop, with `fuel` for so many calls. Source: `_util.py`, `_retry_in_use_result` -/
def retryLoop (deadline : ℚ) : ℕ → ℚ → σ → Option (Retried β σ)
  | 0, _, _ => none
  | fuel + 1, delay, s =>
      let (call, s) := W.operation s
      match call with
      | .error error => some ⟨.raised error, [call], [], [], s⟩
      | .ok result =>
          if result.code ≠ 6026 then some ⟨.returned result, [call], [], [], s⟩
          else
            let (now, s) := W.clock s
            let remaining := deadline - now
            if remaining ≤ 0 then some ⟨.timedOut, [call], [now], [], s⟩
            else
              let s := W.sleep (min delay remaining) s
              (retryLoop deadline fuel (min (delay * 2) (2 / 100)) s).map
                (Retried.after call now (min delay remaining))

/-- Source: `_util.py`, `_retry_in_use_result` -/
def retryInUseResult (timeoutSeconds : ℚ := 5) (fuel : ℕ) (s : σ) : Option (Retried β σ) :=
  let (now, s) := W.clock s
  retryLoop W (now + timeoutSeconds) fuel (1 / 1000) s

/-- The exception, if any, of `_check_code(int(result))` after the loop. `typeError` is what `int`
raises for a tuple. -/
def RetryEnd.check (errorName : ℤ → String) (typeError : PyError) : RetryEnd β → Option PyError
  | .returned (.int code) => NativeResult.check errorName (.code code)
  | .returned (.tuple _ _) => some typeError
  | .raised error => some error
  | .timedOut => some timeoutError

/-- The exception, if any, of the call. Source: `_util.py`, `_retry_in_use` -/
def retryInUse (errorName : ℤ → String) (typeError : PyError) (timeoutSeconds : ℚ := 5) (fuel : ℕ)
    (s : σ) : Option (Option PyError) :=
  (retryInUseResult W timeoutSeconds fuel s).map fun r => r.ending.check errorName typeError

end Loop

/-! ## What one call decides -/

/-- How a call that is not in use ends the loop. -/
def RetryEnd.ofCall {β : Type} : OperationCall β → RetryEnd β
  | .ok result => .returned result
  | .error error => .raised error

/-- The loop called the operation at least once, every call before the last one was in use, and the
last one decides: the loop returns what it gave, or it was in use too and the clock had reached the
deadline. -/
def Retried.Complete {β σ : Type} (deadline : ℚ) (r : Retried β σ) : Prop :=
  ∃ earlier last, r.calls = earlier ++ [last] ∧ (∀ call ∈ earlier, InUse call) ∧
    ((¬ InUse last ∧ r.ending = .ofCall last) ∨
      (InUse last ∧ r.ending = .timedOut ∧ ∃ now, r.readings.getLast? = some now ∧ deadline ≤ now))

/-- A call, as the native result that a caller of `_retry_in_use` sees. -/
def OperationCall.native {β : Type} (typeError : PyError) : OperationCall β → NativeResult
  | .ok (.int code) => .code code
  | .ok (.tuple code _) => if code = 6026 then .code 6026 else .raised typeError
  | .error error => .raised error

/-- **A retried call is known by its last result**: what `_retry_in_use` raises is what the last
call of the operation decides. -/
theorem Retried.Complete.check {β σ : Type} {deadline : ℚ} {r : Retried β σ}
    (h : r.Complete deadline) (errorName : ℤ → String) (typeError : PyError) :
    ∃ last, r.calls.getLast? = some last ∧
      r.ending.check errorName typeError = (last.native typeError).retryInUse errorName := by
  obtain ⟨earlier, last, hcalls, -, hlast⟩ := h
  refine ⟨last, by simp [hcalls], ?_⟩
  rcases hlast with ⟨huse, hend⟩ | ⟨huse, hend, -⟩
  · rw [hend]
    cases last with
    | error error => rfl
    | ok result =>
        cases result with
        | int code =>
            have hcode : code ≠ 6026 := huse
            rw [OperationCall.native, NativeResult.retryInUse, if_neg hcode]
            rfl
        | tuple code rest =>
            have hcode : code ≠ 6026 := huse
            rw [OperationCall.native, if_neg hcode]
            rfl
  · rw [hend]
    cases last with
    | error error => exact huse.elim
    | ok result =>
        cases result with
        | int code =>
            have hcode : code = 6026 := huse
            rw [OperationCall.native, NativeResult.retryInUse, if_pos hcode]
            rfl
        | tuple code rest =>
            have hcode : code = 6026 := huse
            rw [OperationCall.native, if_pos hcode]
            rfl

/-- A clock that never goes back, and advances by at least `d` during `_sleep(d)`: a time that the
readings lie between. -/
structure World.Lawful {β σ : Type} (W : World β σ) (time : σ → ℚ) : Prop where
  operation : ∀ s, time s ≤ time (W.operation s).2
  reads_after : ∀ s, time s ≤ (W.clock s).1
  reads_before : ∀ s, (W.clock s).1 ≤ time (W.clock s).2
  sleep : ∀ d s, 0 ≤ d → time s + d ≤ time (W.sleep d s)

section Runs

variable {β σ : Type} {W : World β σ} {time : σ → ℚ}

/-! ## One iteration -/

/-- The clock reading after the call. -/
def World.reading (W : World β σ) (s : σ) : ℚ := (W.clock (W.operation s).2).1

/-- What is left until the deadline after the call, or the delay if that is shorter. -/
def World.nap (W : World β σ) (deadline delay : ℚ) (s : σ) : ℚ :=
  min delay (deadline - W.reading s)

/-- The world after the call, the clock reading and the sleep. -/
def World.slept (W : World β σ) (deadline delay : ℚ) (s : σ) : σ :=
  W.sleep (W.nap deadline delay s) (W.clock (W.operation s).2).2

/-- The world goes from `s` through these calls of the operation, the clock readings behind them and
these sleeps, to `s'`: each of them in the state that the one before has left. -/
inductive World.Goes (W : World β σ) :
    σ → List (OperationCall β) → List ℚ → List ℚ → σ → Prop
  | called (s : σ) : W.Goes s [(W.operation s).1] [] [] (W.operation s).2
  | read (s : σ) :
      W.Goes s [(W.operation s).1] [W.reading s] [] (W.clock (W.operation s).2).2
  | slept (s : σ) (d : ℚ) {calls : List (OperationCall β)} {readings sleeps : List ℚ} {s' : σ}
      (rest : W.Goes (W.sleep d (W.clock (W.operation s).2).2) calls readings sleeps s') :
      W.Goes s ((W.operation s).1 :: calls) (W.reading s :: readings) (d :: sleeps) s'

/-- A call that is not in use ends the loop. -/
theorem retryLoop_ends {deadline delay : ℚ} {fuel : ℕ} {s : σ} (h : ¬ InUse (W.operation s).1) :
    retryLoop W deadline (fuel + 1) delay s =
      some ⟨.ofCall (W.operation s).1, [(W.operation s).1], [], [], (W.operation s).2⟩ := by
  unfold retryLoop
  cases hcall : (W.operation s).1 with
  | error error =>
      simp only [hcall]
      rfl
  | ok result =>
      rw [hcall] at h
      have hcode : result.code ≠ 6026 := h
      simp only [hcall, if_pos hcode]
      rfl

/-- A call in use at the deadline or after it ends the loop with the timeout. -/
theorem retryLoop_times_out {deadline delay : ℚ} {fuel : ℕ} {s : σ} (h : InUse (W.operation s).1)
    (hover : deadline ≤ W.reading s) :
    retryLoop W deadline (fuel + 1) delay s =
      some ⟨.timedOut, [(W.operation s).1], [W.reading s], [], (W.clock (W.operation s).2).2⟩ := by
  unfold retryLoop
  cases hcall : (W.operation s).1 with
  | error error =>
      rw [hcall] at h
      exact h.elim
  | ok result =>
      rw [hcall] at h
      have hcode : ¬ result.code ≠ 6026 := not_not.mpr h
      have hleft : deadline - (W.clock (W.operation s).2).1 ≤ 0 := sub_nonpos.mpr hover
      simp only [hcall, if_neg hcode, if_pos hleft]
      rfl

/-- A call in use before the deadline: the loop sleeps and goes on. -/
theorem retryLoop_goes_on {deadline delay : ℚ} {fuel : ℕ} {s : σ} (h : InUse (W.operation s).1)
    (hearly : W.reading s < deadline) :
    retryLoop W deadline (fuel + 1) delay s =
      (retryLoop W deadline fuel (min (delay * 2) (2 / 100)) (W.slept deadline delay s)).map
        (Retried.after (W.operation s).1 (W.reading s) (W.nap deadline delay s)) := by
  rw [retryLoop]
  cases hcall : (W.operation s).1 with
  | error error =>
      rw [hcall] at h
      exact h.elim
  | ok result =>
      rw [hcall] at h
      have hcode : ¬ result.code ≠ 6026 := not_not.mpr h
      have hleft : ¬ deadline - (W.clock (W.operation s).2).1 ≤ 0 := not_le.mpr (sub_pos.mpr hearly)
      simp only [hcall, if_neg hcode, if_neg hleft]
      rfl

/-- **One iteration**: the call or the deadline ends the loop, or the loop sleeps and goes on. -/
theorem retryLoop_succ {deadline delay : ℚ} {fuel : ℕ} {s : σ} {r : Retried β σ}
    (h : retryLoop W deadline (fuel + 1) delay s = some r) :
    (¬ InUse (W.operation s).1 ∧
      r = ⟨.ofCall (W.operation s).1, [(W.operation s).1], [], [], (W.operation s).2⟩) ∨
    (InUse (W.operation s).1 ∧ deadline ≤ W.reading s ∧
      r = ⟨.timedOut, [(W.operation s).1], [W.reading s], [], (W.clock (W.operation s).2).2⟩) ∨
    (InUse (W.operation s).1 ∧ W.reading s < deadline ∧
      ∃ rest, retryLoop W deadline fuel (min (delay * 2) (2 / 100)) (W.slept deadline delay s) =
          some rest ∧
        r = rest.after (W.operation s).1 (W.reading s) (W.nap deadline delay s)) := by
  by_cases hcall : InUse (W.operation s).1
  · right
    rcases le_or_gt deadline (W.reading s) with hover | hearly
    · rw [retryLoop_times_out hcall hover, Option.some.injEq] at h
      exact .inl ⟨hcall, hover, h.symm⟩
    · rw [retryLoop_goes_on hcall hearly, Option.map_eq_some_iff] at h
      obtain ⟨rest, hrest, hr⟩ := h
      exact .inr ⟨hcall, hearly, rest, hrest, hr.symm⟩
  · rw [retryLoop_ends hcall, Option.some.injEq] at h
    exact .inl ⟨hcall, h.symm⟩

/-- What an iteration that sleeps does to the time: the nap fits before the deadline, and is over
afterwards. -/
theorem World.Lawful.slept (hW : W.Lawful time) {deadline delay : ℚ} {s : σ} (hdelay : 0 < delay)
    (hearly : W.reading s < deadline) :
    time s ≤ W.reading s ∧ W.reading s + W.nap deadline delay s ≤ deadline ∧
      W.reading s + W.nap deadline delay s ≤ time (W.slept deadline delay s) := by
  have hop := hW.operation s
  have hread := hW.reads_after (W.operation s).2
  have hread' := hW.reads_before (W.operation s).2
  have hpos : 0 < W.nap deadline delay s := lt_min hdelay (sub_pos.mpr hearly)
  have hfits : W.nap deadline delay s ≤ deadline - W.reading s := min_le_right _ _
  have hslept := hW.sleep _ (W.clock (W.operation s).2).2 hpos.le
  unfold World.reading at *
  refine ⟨by linarith, by linarith, ?_⟩
  unfold World.slept
  linarith

/-- The next delay is at least a millisecond if this one is. -/
theorem delay_doubles {delay : ℚ} (h : 1 / 1000 ≤ delay) :
    1 / 1000 ≤ min (delay * 2) (2 / 100) := by
  apply le_min
  · linarith
  · norm_num

/-! ## From an iteration on -/

/-- The history of the loop is what the world went through. -/
theorem retryLoop_goes {deadline delay : ℚ} {fuel : ℕ} {s : σ} {r : Retried β σ}
    (h : retryLoop W deadline fuel delay s = some r) :
    W.Goes s r.calls r.readings r.sleeps r.world := by
  induction fuel generalizing delay s r with
  | zero => cases h
  | succ fuel ih =>
      rcases retryLoop_succ h with ⟨-, rfl⟩ | ⟨-, -, rfl⟩ | ⟨-, -, rest, hrest, rfl⟩
      · exact .called s
      · exact .read s
      · exact .slept s _ (ih hrest)

/-- The loop ends as its last call says, whatever the clock does. -/
theorem retryLoop_complete {deadline delay : ℚ} {fuel : ℕ} {s : σ} {r : Retried β σ}
    (h : retryLoop W deadline fuel delay s = some r) : r.Complete deadline := by
  induction fuel generalizing delay s r with
  | zero => cases h
  | succ fuel ih =>
      rcases retryLoop_succ h with ⟨hcall, rfl⟩ | ⟨hcall, hover, rfl⟩ | ⟨hcall, -, rest, hrest, rfl⟩
      · exact ⟨[], _, rfl, by simp, .inl ⟨hcall, rfl⟩⟩
      · exact ⟨[], _, rfl, by simp, .inr ⟨hcall, rfl, _, rfl, hover⟩⟩
      · obtain ⟨earlier, last, hcalls, hearlier, hlast⟩ := ih hrest
        refine ⟨(W.operation s).1 :: earlier, last, ?_, ?_, ?_⟩
        · simp [Retried.after, hcalls]
        · intro call hmem
          rcases List.mem_cons.mp hmem with rfl | hmem
          · exact hcall
          · exact hearlier call hmem
        · apply hlast.imp_right
          rintro ⟨huse, hend, now, hnow, hle⟩
          refine ⟨huse, hend, now, ?_, hle⟩
          rw [Retried.after, List.getLast?_cons, hnow]
          rfl

/-- From any iteration on, the sleeps fit into the time that is left. -/
theorem retryLoop_sleeps (hW : W.Lawful time) {deadline delay : ℚ} {fuel : ℕ} {s : σ}
    {r : Retried β σ} (hdelay : 1 / 1000 ≤ delay)
    (h : retryLoop W deadline fuel delay s = some r) :
    r.sleeps.sum ≤ max 0 (deadline - time s) := by
  induction fuel generalizing delay s r with
  | zero => cases h
  | succ fuel ih =>
      rcases retryLoop_succ h with ⟨-, rfl⟩ | ⟨-, -, rfl⟩ | ⟨-, hearly, rest, hrest, rfl⟩
      · simp
      · simp
      · have hpos : 0 < delay := by linarith
        obtain ⟨hafter, hfits, hslept⟩ := hW.slept hpos hearly
        have hsum := ih (delay_doubles hdelay) hrest
        rw [Retried.after, List.sum_cons]
        apply le_max_of_le_right
        -- the sleeps that follow fit into what this nap leaves
        have hrest : max 0 (deadline - time (W.slept deadline delay s)) ≤
            deadline - W.reading s - W.nap deadline delay s := max_le (by linarith) (by linarith)
        linarith

/-- More fuel changes nothing. -/
theorem retryLoop_mono {deadline delay : ℚ} {fuel fuel' : ℕ} {s : σ} {r : Retried β σ}
    (h : retryLoop W deadline fuel delay s = some r) (hle : fuel ≤ fuel') :
    retryLoop W deadline fuel' delay s = some r := by
  induction fuel generalizing fuel' delay s r with
  | zero => cases h
  | succ fuel ih =>
      obtain ⟨fuel', rfl⟩ : ∃ n, fuel' = n + 1 := ⟨fuel' - 1, by omega⟩
      rcases retryLoop_succ h with ⟨hcall, rfl⟩ | ⟨hcall, hover, rfl⟩ |
        ⟨hcall, hearly, rest, hrest, rfl⟩
      · exact retryLoop_ends hcall
      · exact retryLoop_times_out hcall hover
      · rw [retryLoop_goes_on hcall hearly, ih hrest (by omega)]
        rfl

/-- **The loop ends**: with `k` milliseconds left there are at most `k + 1` more calls. A whole
delay takes at least a millisecond, and a shortened one reaches the deadline. -/
theorem retryLoop_bounded (hW : W.Lawful time) {deadline delay : ℚ} {s : σ} (k : ℕ)
    (hdelay : 1 / 1000 ≤ delay) (hleft : deadline - time s ≤ k / 1000) :
    ∃ r, retryLoop W deadline (k + 1) delay s = some r ∧ r.calls.length ≤ k + 1 := by
  induction k generalizing delay s with
  | zero =>
      have hop := hW.operation s
      have hread : time (W.operation s).2 ≤ W.reading s := hW.reads_after (W.operation s).2
      rw [Nat.cast_zero, zero_div] at hleft
      by_cases hcall : InUse (W.operation s).1
      · exact ⟨_, retryLoop_times_out hcall (by linarith), by simp⟩
      · exact ⟨_, retryLoop_ends hcall, by simp⟩
  | succ k ih =>
      by_cases hcall : InUse (W.operation s).1
      · rcases le_or_gt deadline (W.reading s) with hover | hearly
        · exact ⟨_, retryLoop_times_out hcall hover, by simp⟩
        · have hpos : 0 < delay := by linarith
          obtain ⟨hafter, -, hslept⟩ := hW.slept hpos hearly
          have hk : ((k + 1 : ℕ) : ℚ) / 1000 = k / 1000 + 1 / 1000 := by
            rw [Nat.cast_succ]
            ring
          have hnonneg : (0 : ℚ) ≤ k / 1000 := by positivity
          have hless : deadline - time (W.slept deadline delay s) ≤ k / 1000 := by
            rcases min_cases delay (deadline - W.reading s) with ⟨hmin, -⟩ | ⟨hmin, -⟩
            · rw [World.nap, hmin] at hslept
              linarith
            · rw [World.nap, hmin] at hslept
              linarith
          obtain ⟨rest, hrest, hlen⟩ := ih (delay_doubles hdelay) hless
          refine ⟨_, by rw [retryLoop_goes_on hcall hearly, hrest]; rfl, ?_⟩
          simp only [Retried.after, List.length_cons]
          omega
      · exact ⟨_, retryLoop_ends hcall, by simp⟩

/-- **The retry loop ends within its budget and loses no result.** With enough fuel, for a number of
calls that depends on the timeout alone, the loop ends; its history is what the world went through.
It calls the operation at least once; a call that is not in use is the last one, and the loop ends
as that call says; it ends with the timeout only when every call was in use and the clock had
reached the deadline; and it never asks to sleep longer than the timeout in all. What
`_retry_in_use` raises is what the last call decides. -/
theorem retry_in_use_within_budget (hW : W.Lawful time) {timeout : ℚ} (htimeout : 0 ≤ timeout)
    (s : σ) :
    ∃ r : Retried β σ,
      (∀ fuel, ⌈timeout * 1000⌉₊ + 1 ≤ fuel → retryInUseResult W timeout fuel s = some r) ∧
      W.Goes (W.clock s).2 r.calls r.readings r.sleeps r.world ∧
      1 ≤ r.calls.length ∧ r.calls.length ≤ ⌈timeout * 1000⌉₊ + 1 ∧
      (∀ call ∈ r.calls, ¬ InUse call →
        r.ending = .ofCall call ∧ ∃ earlier, r.calls = earlier ++ [call] ∧ ∀ c ∈ earlier, InUse c) ∧
      (r.ending = .timedOut → (∀ call ∈ r.calls, InUse call) ∧
        ∃ now, r.readings.getLast? = some now ∧ (W.clock s).1 + timeout ≤ now) ∧
      ((∀ call ∈ r.calls, InUse call) → r.ending = .timedOut) ∧
      r.sleeps.sum ≤ timeout ∧
      ∀ errorName typeError fuel, ⌈timeout * 1000⌉₊ + 1 ≤ fuel →
        ∃ last, r.calls.getLast? = some last ∧ retryInUse W errorName typeError timeout fuel s =
          some ((last.native typeError).retryInUse errorName) := by
  have hread := hW.reads_before s
  have hceil := Nat.le_ceil (timeout * 1000)
  have hleft : (W.clock s).1 + timeout - time (W.clock s).2 ≤ (⌈timeout * 1000⌉₊ : ℚ) / 1000 := by
    linarith
  obtain ⟨r, hr, hlen⟩ := retryLoop_bounded hW ⌈timeout * 1000⌉₊ (le_refl (1 / 1000)) hleft
  have hsleeps := retryLoop_sleeps hW (le_refl _) hr
  have hmono (fuel : ℕ) (hfuel : ⌈timeout * 1000⌉₊ + 1 ≤ fuel) :
      retryInUseResult W timeout fuel s = some r := retryLoop_mono hr hfuel
  have hcomplete := retryLoop_complete hr
  obtain ⟨earlier, last, hcalls, hearlier, hlast⟩ := retryLoop_complete hr
  refine ⟨r, hmono, retryLoop_goes hr, ?_, hlen, ?_, ?_, ?_, ?_, ?_⟩
  · rw [hcalls, List.length_append, List.length_singleton]
    omega
  · intro call hmem hcall
    rw [hcalls, List.mem_append, List.mem_singleton] at hmem
    rcases hmem with hmem | rfl
    · exact absurd (hearlier call hmem) hcall
    · rcases hlast with ⟨-, hend⟩ | ⟨huse, -⟩
      · exact ⟨hend, earlier, hcalls, hearlier⟩
      · exact absurd huse hcall
  · intro hend
    rcases hlast with ⟨-, hend'⟩ | ⟨huse, -, hover⟩
    · rw [hend] at hend'
      cases last with
      | ok result => cases hend'
      | error error => cases hend'
    · refine ⟨?_, hover⟩
      intro call hmem
      rw [hcalls, List.mem_append, List.mem_singleton] at hmem
      rcases hmem with hmem | rfl
      · exact hearlier call hmem
      · exact huse
  · intro hall
    rcases hlast with ⟨huse, -⟩ | ⟨-, hend, -⟩
    · exact absurd (hall last (by simp [hcalls])) huse
    · exact hend
  · refine hsleeps.trans (max_le htimeout ?_)
    linarith
  · intro errorName typeError fuel hfuel
    obtain ⟨last, hlast, hcheck⟩ := hcomplete.check errorName typeError
    refine ⟨last, hlast, ?_⟩
    rw [retryInUse, hmono fuel hfuel, Option.map_some, hcheck]

end Runs

/-! ## Streams of results -/

/-- A world of a stream of results: call `n` takes `took n`, and a sleep before call `n` lasts
longer than asked by `overslept n`. -/
def scripted {β : Type} (results : ℕ → OperationCall β) (took overslept : ℕ → ℚ≥0) :
    World β (ℕ × ℚ) where
  operation s := (results s.1, (s.1 + 1, s.2 + took s.1))
  clock s := (s.2, s)
  sleep d s := (s.1, s.2 + d + overslept s.1)

theorem scripted_lawful {β : Type} (results : ℕ → OperationCall β) (took overslept : ℕ → ℚ≥0) :
    (scripted results took overslept).Lawful Prod.snd where
  operation s := le_add_of_nonneg_right (took s.1).2
  reads_after _ := le_refl _
  reads_before _ := le_refl _
  sleep _ s _ := le_add_of_nonneg_right (overslept s.1).2

/-- On a stream, the calls of the loop are its first results, in order. -/
theorem scripted_calls {β : Type} {results : ℕ → OperationCall β} {took overslept : ℕ → ℚ≥0}
    {s s' : ℕ × ℚ} {calls : List (OperationCall β)} {readings sleeps : List ℚ}
    (h : (scripted results took overslept).Goes s calls readings sleeps s') :
    calls = (List.range calls.length).map fun k => results (s.1 + k) := by
  induction h with
  | called s => rfl
  | read s => rfl
  | @slept s d calls readings sleeps s' _ ih =>
      change calls = (List.range calls.length).map fun k => results (s.1 + 1 + k) at ih
      have hshift : ∀ k, results (s.1 + 1 + k) = results (s.1 + (k + 1)) := by
        intro k
        rw [Nat.add_assoc, Nat.add_comm 1 k]
      change results s.1 :: calls =
        (List.range (calls.length + 1)).map fun k => results (s.1 + k)
      rw [List.range_succ_eq_map, List.map_cons, List.map_map, Nat.add_zero]
      congr 1
      calc calls
          = (List.range calls.length).map fun k => results (s.1 + 1 + k) := ih
        _ = (List.range calls.length).map ((fun k => results (s.1 + k)) ∘ Nat.succ) :=
            List.map_congr_left fun k _ => hshift k

/-- The budget on a stream of two results in use and a success: there are three calls, and the loop
returns what the third gave. -/
theorem retry_in_use_within_budget_scripted :
    ∃ r : Retried Empty (ℕ × ℚ),
      (∀ fuel, ⌈(1 / 100 : ℚ) * 1000⌉₊ + 1 ≤ fuel →
        retryInUseResult (scripted (fun n => .ok (.int (if n < 2 then 6026 else 0)))
          (fun _ => 0) (fun _ => 0)) (1 / 100) fuel (0, 0) = some r) ∧
      r.calls = [.ok (.int 6026), .ok (.int 6026), .ok (.int 0)] ∧
      r.ending = .returned (.int 0) ∧ r.sleeps.sum ≤ 1 / 100 := by
  have hceil : ⌈(1 / 100 : ℚ) * 1000⌉₊ = 10 := by
    norm_num
  obtain ⟨r, hr, hgoes, -, -, hends, -, -, hsum, -⟩ :=
    retry_in_use_within_budget
      (scripted_lawful (fun n => (.ok (.int (if n < 2 then 6026 else 0)) : OperationCall Empty))
        (fun _ => 0) (fun _ => 0))
      (show (0 : ℚ) ≤ 1 / 100 by norm_num) (0, 0)
  have hthree : r.calls.length = 3 := by
    have hrun : (retryInUseResult (scripted
        (fun n => (.ok (.int (if n < 2 then 6026 else 0)) : OperationCall Empty))
        (fun _ => 0) (fun _ => 0)) (1 / 100) 11 (0, 0)).map (fun r => r.calls.length) = some 3 := by
      decide +kernel
    rw [hr 11 (by rw [hceil])] at hrun
    simpa using hrun
  have hcalls : r.calls = [.ok (.int 6026), .ok (.int 6026), .ok (.int 0)] := by
    have hstream := scripted_calls hgoes
    rw [hthree] at hstream
    rw [hstream]
    rfl
  refine ⟨r, hr, hcalls, ?_, hsum⟩
  refine (hends (.ok (.int 0)) (by simp [hcalls]) ?_).1
  intro huse
  have huse : (0 : ℤ) = 6026 := huse
  omega

end Tirtc
