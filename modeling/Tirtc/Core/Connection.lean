import Mathlib.Logic.Function.Basic
import Tirtc.Dispatch.Dispatcher
import Tirtc.Lifecycle
import Tirtc.Runtime.Options

/-!
# The Connection record and its lock-held sections

`_core.Connection` as far as its lifecycle goes: the reported state, the connect attempt in
progress, the close coordinator and the dispatcher, with the sections that run under
`Connection._lock`. The calls that string these sections together are in `Calls`.

* `ConnectState`: one connect attempt; `Connection` keeps all of them, by generation.
* `stateOutcome`, `handleState`, `handleEvent`: what a state event does.
* `managedComplete`, `beginConnect`, `rollback`, `finishConnect`: the rest of an attempt's life.
* `requestCancel`, `cancelTerminal`: the sections of `_cancel_connect`.
* `closeDisconnects`: whether `close` disconnects the native connection.
-/

set_option autoImplicit false

namespace Tirtc

/-- Source: `_values.py`, `ConnectionState` -/
inductive ConnectionState
  | idle | connecting | connected | disconnected
  deriving DecidableEq, Repr

/-- `_CONNECTION_STATES[index]`, a tuple: a negative index counts from the end, and any other index
outside raises.
Source: `_values.py`, `_CONNECTION_STATES` -/
def connectionStates : ℤ → Option ConnectionState
  | 0 | -4 => some .idle
  | 1 | -3 => some .connecting
  | 2 | -2 => some .connected
  | 3 | -1 => some .disconnected
  | _ => none

/-- `int(value)` on a value a state event can have; `none` when it raises. -/
def PyValue.toInt : PyValue → Option ℤ
  | .int n => some n
  | .bool b => some (if b then 1 else 0)
  | _ => none

/-- A connect attempt. The events are flags; `deadline` is left out, since a wait on it may time
out at any moment of the model. The handle of the Runtime is known by a number.
Source: `_core.py`, `_ConnectState` -/
structure ConnectState where
  managed : Bool := false
  done : Bool := false
  finished : Bool := false
  nativeStarted : Bool := false
  error : Option PyError := none
  terminalCode : Option ℤ := none
  managedHandle : Option ℕ := none
  cancelling : Bool := false
  cancelError : Option PyError := none
  cancelFinished : Bool := false
  deriving DecidableEq

/-- The values the native state callback posts, with the number of the post. -/
abbrev ConnectionEvent := Event (Tagged (List PyValue))

/-- The attempts are kept by their generation, which is also their identity: each call of
`_begin_connect` makes one and counts the generation up.
Source: `_core.py`, `Connection._create` -/
structure Connection where
  state : ConnectionState := .idle
  close : CloseCoordinator := {}
  disconnectFinished : Bool := false
  connectGeneration : ℕ := 0
  activeConnect : Option ℕ := none
  dispatcher : Dispatcher (Tagged (List PyValue)) := .init
  attempts : ℕ → ConnectState := fun _ => {}

/-- The arguments of a call of `on_state_changed`: the state, and the code of its error. -/
abbrev StateChange := ConnectionState × ℤ

namespace Connection

variable (c : Connection)

/-- Attempt `a` becomes `f` of itself. -/
def modifyAttempt (a : ℕ) (f : ConnectState → ConnectState) : Connection :=
  { c with attempts := Function.update c.attempts a (f (c.attempts a)) }

/-! ## State events -/

/-- The terminal code a state event stands for: `0` for a clean CONNECTED, the code or `6012` for an
error or DISCONNECTED, none otherwise.
Source: `_core.py`, `Connection._handle_event` -/
def stateOutcome (state : ConnectionState) (code : ℤ) : Option ℤ :=
  if state = .connected ∧ code = 0 then some 0
  else if code ≠ 0 ∨ state = .disconnected then some (if code ≠ 0 then code else 6012)
  else none

/-- The attempt still takes the event: it has no terminal code yet, or it is connected and the
event ends that.
Source: `_core.py`, `Connection._handle_event` -/
def takesState (attempt : ConnectState) (state : ConnectionState) (code : ℤ) : Bool :=
  attempt.terminalCode = none ||
    (attempt.terminalCode = some 0 && (code ≠ 0 || state = .disconnected))

/-- The locked section for a state event, and the state change it reports to the user.
Source: `_core.py`, `Connection._handle_event` -/
def handleState (state : ConnectionState) (code : ℤ) : Connection × Option StateChange :=
  match c.activeConnect with
  | some a =>
      if takesState (c.attempts a) state code then
        match stateOutcome state code with
        | some terminal =>
            (modifyAttempt { c with state := state } a fun attempt =>
              { attempt with terminalCode := some terminal, done := true }, none)
        | none => ({ c with state := state }, none)
      else (c, none)
  | none =>
      if c.state = .connected ∧ state = .connecting then (c, none)
      else
        ({ c with state := state },
          if c.state ≠ state ∨ code ≠ 0 then some (state, code) else none)

/-- The state and the code of a state event; `none` when reading them raises.
Source: `_core.py`, `Connection._handle_event` -/
def readState (event : ConnectionEvent) : Option (ConnectionState × ℤ) :=
  if event.kind = .state then
    match event.values.values with
    | state :: code :: _ =>
        (state.toInt.bind connectionStates).bind fun state =>
          code.toInt.map fun code => (state, code)
    | _ => none
  else none

/-- The terminal code an event stands for, if any. -/
def eventOutcome (event : ConnectionEvent) : Option ℤ :=
  (readState event).bind fun change => stateOutcome change.1 change.2

/-- Events of other kinds, and state events that cannot be read, leave the record alone.
Source: `_core.py`, `Connection._handle_event` -/
def handleEvent (event : ConnectionEvent) : Connection × Option StateChange :=
  match readState event with
  | some (state, code) => c.handleState state code
  | none => (c, none)

/-- **What a state event does to the record**: at most the reported state changes, or the attempt in
progress takes the outcome the event stands for. -/
theorem handleEvent_cases (event : ConnectionEvent) :
    ((∃ state, (c.handleEvent event).1 = { c with state := state }) ∧
      ∀ a state code, c.activeConnect = some a → readState event = some (state, code) →
        takesState (c.attempts a) state code = true → stateOutcome state code = none) ∨
    ∃ a state code terminal, c.activeConnect = some a ∧ readState event = some (state, code) ∧
      takesState (c.attempts a) state code = true ∧ stateOutcome state code = some terminal ∧
      (c.handleEvent event).1 = modifyAttempt { c with state := state } a fun attempt =>
        { attempt with terminalCode := some terminal, done := true } := by
  unfold handleEvent
  cases hread : readState event with
  | none => exact .inl ⟨⟨c.state, rfl⟩, fun a state code _ h => by cases h⟩
  | some change =>
      obtain ⟨state, code⟩ := change
      rcases Option.eq_none_or_eq_some c.activeConnect with hactive | ⟨a, hactive⟩
      · refine .inl ⟨?_, fun a state code h => by cases hactive.symm.trans h⟩
        show ∃ state', (c.handleState state code).1 = { c with state := state' }
        by_cases hignored : c.state = .connected ∧ state = .connecting
        · refine ⟨c.state, ?_⟩
          show (c.handleState state code).1 = c
          simp [handleState, hactive, hignored]
        · refine ⟨state, ?_⟩
          simp [handleState, hactive, hignored]
      · cases htakes : takesState (c.attempts a) state code with
        | false =>
            refine .inl ⟨⟨c.state, ?_⟩, ?_⟩
            · show (c.handleState state code).1 = c
              simp [handleState, hactive, htakes]
            · rintro b state' code' hb hchange htakes'
              cases hactive.symm.trans hb
              cases hchange
              cases htakes.symm.trans htakes'
        | true =>
            cases houtcome : stateOutcome state code with
            | none =>
                refine .inl ⟨⟨state, ?_⟩, ?_⟩
                · show (c.handleState state code).1 = _
                  simp [handleState, hactive, htakes, houtcome]
                · rintro b state' code' hb hchange -
                  cases hchange
                  exact houtcome
            | some terminal =>
                refine .inr ⟨a, state, code, terminal, hactive, rfl, htakes, houtcome, ?_⟩
                show (c.handleState state code).1 = _
                simp [handleState, hactive, htakes, houtcome, modifyAttempt]

/-- An event that stands for an outcome is taken by an attempt without a terminal code, and by one
with the code `0` if it ends that. -/
theorem takes_iff {attempt : ConnectState} {state : ConnectionState} {code terminal : ℤ}
    (h : stateOutcome state code = some terminal) : takesState attempt state code = true ↔
      attempt.terminalCode = none ∨ (attempt.terminalCode = some 0 ∧ terminal ≠ 0) := by
  unfold stateOutcome at h
  unfold takesState
  grind

/-- Source: `_core.py`, `Connection._managed_complete` -/
def managedComplete (a : ℕ) (code : ℤ) : Connection :=
  let terminal := (c.attempts a).terminalCode
  if c.activeConnect = some a ∧ (terminal = none ∨ (terminal = some 0 ∧ code ≠ 0)) then
    c.modifyAttempt a fun attempt => { attempt with terminalCode := some code, done := true }
  else c

/-! ## The life of an attempt -/

/-- Source: `_core.py`, `Connection._begin_connect` -/
def beginConnect (mode expectedMode : AuthMode) : Except PyError (ℕ × Connection) :=
  match c.close.requireOpen with
  | some error => .error error
  | none =>
      if mode ≠ expectedMode ∨ c.activeConnect ≠ none then .error inUseError
      else
        let generation := c.connectGeneration + 1
        .ok (generation, modifyAttempt { c with
          connectGeneration := generation
          activeConnect := some generation
          state := .connecting
          disconnectFinished := false } generation
            fun _ => { managed := expectedMode = .accessKey })

/-- The record after `_begin_connect` has made an attempt. -/
def begun (managed : Bool) : Connection :=
  { c with
    connectGeneration := c.connectGeneration + 1
    activeConnect := some (c.connectGeneration + 1)
    state := .connecting
    disconnectFinished := false
    attempts := Function.update c.attempts (c.connectGeneration + 1) { managed := managed } }

/-- An attempt is made only on an open Connection without one. -/
theorem beginConnect_ok {mode expectedMode : AuthMode} {a : ℕ} {c' : Connection}
    (h : c.beginConnect mode expectedMode = .ok (a, c')) :
    c.close.requireOpen = none ∧ c.activeConnect = none ∧ a = c.connectGeneration + 1 ∧
      c' = c.begun (expectedMode = .accessKey) := by
  unfold beginConnect at h
  cases hopen : c.close.requireOpen with
  | some e => simp [hopen] at h
  | none =>
      by_cases hbusy : mode ≠ expectedMode ∨ c.activeConnect ≠ none
      · simp [hopen, hbusy] at h
      · simp only [hopen, if_neg hbusy, Except.ok.injEq, Prod.mk.injEq] at h
        obtain ⟨rfl, rfl⟩ := h
        exact ⟨rfl, by_contra fun hne => hbusy (.inr hne), rfl, rfl⟩

/-- The section of `connect` behind a failed start.
Source: `_core.py`, `Connection.connect` -/
def rollback (a : ℕ) : Connection :=
  if c.activeConnect = some a then { c with activeConnect := none, state := .idle } else c

/-- The attempt is connected and was not cancelled.
Source: `_core.py`, `Connection._finish_connect` -/
def succeeds (attempt : ConnectState) : Bool :=
  attempt.terminalCode = some 0 && attempt.error = none

/-- The section of `_finish_connect` behind its barrier.
Source: `_core.py`, `Connection._finish_connect` -/
def finishConnect (a : ℕ) : Connection :=
  let c := { c with activeConnect := if c.activeConnect = some a then none else c.activeConnect }
  let c :=
    if succeeds (c.attempts a) then { c with state := .connected }
    else { c with state := .disconnected, disconnectFinished := true }
  c.modifyAttempt a fun attempt => { attempt with finished := true }

/-- The fields that `_finish_connect` writes. -/
theorem finishConnect_eq (a : ℕ) :
    c.finishConnect a = { c with
      activeConnect := if c.activeConnect = some a then none else c.activeConnect
      state := if succeeds (c.attempts a) then .connected else .disconnected
      disconnectFinished := if succeeds (c.attempts a) then c.disconnectFinished else true
      attempts := Function.update c.attempts a { c.attempts a with finished := true } } := by
  unfold finishConnect
  cases h : succeeds (c.attempts a) <;> simp [modifyAttempt, h]

theorem rollback_of_active {a : ℕ} (h : c.activeConnect = some a) :
    c.rollback a = { c with activeConnect := none, state := .idle } := if_pos h

/-! ## Cancellation -/

/-- How the first section of `_cancel_connect` leaves. -/
inductive CancelEntry
  | over | wait | perform
  deriving DecidableEq, Repr

/-- The first section of `_cancel_connect`.
Source: `_core.py`, `Connection._cancel_connect` -/
def requestCancel (a : ℕ) (error : PyError) : CancelEntry × Connection :=
  if c.activeConnect ≠ some a then (.over, c)
  else if (c.attempts a).terminalCode ≠ none then (.over, c)
  else if (c.attempts a).cancelling then (.wait, c)
  else
    (.perform, c.modifyAttempt a fun attempt =>
      { attempt with error := some error, cancelling := true })

/-- **How a cancellation is taken up**: the attempt is over, or its cancellation is on its way, or
this is its cancellation. -/
theorem requestCancel_cases (a : ℕ) (error : PyError) :
    ((c.activeConnect ≠ some a ∨ (c.attempts a).terminalCode ≠ none) ∧
      c.requestCancel a error = (.over, c)) ∨
    (c.activeConnect = some a ∧ (c.attempts a).cancelling = true ∧
      c.requestCancel a error = (.wait, c)) ∨
    (c.activeConnect = some a ∧ (c.attempts a).terminalCode = none ∧
      (c.attempts a).cancelling = false ∧
      c.requestCancel a error = (.perform, c.modifyAttempt a fun attempt =>
        { attempt with error := some error, cancelling := true })) := by
  unfold requestCancel
  by_cases hactive : c.activeConnect = some a
  · by_cases ht : (c.attempts a).terminalCode = none
    · cases hc : (c.attempts a).cancelling with
      | true => exact .inr (.inl ⟨hactive, rfl, by simp [hactive, ht]⟩)
      | false => exact .inr (.inr ⟨hactive, ht, rfl, by simp [hactive, ht]⟩)
    · exact .inl ⟨.inr ht, by simp [hactive, ht]⟩
  · exact .inl ⟨.inl hactive, by simp [hactive]⟩

/-- The section of `_cancel_connect` behind the barrier of an external-token attempt.
Source: `_core.py`, `Connection._cancel_connect` -/
def cancelTerminal (a : ℕ) : Connection :=
  c.modifyAttempt a fun attempt =>
    { attempt with
      terminalCode := if attempt.terminalCode = none then some 6115 else attempt.terminalCode
      done := true }

/-! ## Closing -/

/-- Whether `close` disconnects the native connection before it destroys it.
Source: `_core.py`, `Connection._close_connection` -/
def closeDisconnects : Bool :=
  !c.disconnectFinished && (c.state = .connecting || c.state = .connected)

end Connection

end Tirtc
