import Mathlib.Tactic.Common
import Tirtc.Core.Events
import Tirtc.Core.Outcome

/-!
# What becomes of the error in a state event

A state event with an error code waits in the queue, where a newer one overwrites it; the handler
then passes it to `on_state_changed` or gives it to the connect attempt in progress. A state value
that `_CONNECTION_STATES` does not have makes the handler raise `IndexError` instead.

* `Handled`: a call of the handler and what it found; `Heard`: the calls on one Connection with the
  events posted, overwritten and handled so far; `heardCalls`: its steps.
* `Handled.Raised`, `Handled.Reported`, `Handled.Absorbed`: the ways out for the code of a handled
  event.
* `handle_raised`, `handle_reported`, `handle_absorbed`: one call of the handler.
* `HeardOk`, `heard_rely_guarantee`: every accepted event is on its way, overwritten or handled, and
  a code that an attempt has absorbed stays with it.
* `errors_accounted`: what becomes of every error, with the error that `connect` raises.
* `errors_disappear`: the errors of which the application hears nothing.
-/

set_option autoImplicit false
set_option linter.unusedSectionVars false

namespace Tirtc.ErrorEvents

open Transition

variable {ι : Type}

/-! ## The calls with a record of the events -/

/-- A call of the handler: the event, the state and the attempt in progress that it found, that with
its terminal code, and what it passes to `on_state_changed`. -/
structure Handled where
  event : ConnectionEvent
  before : ConnectionState
  attempt : Option (ℕ × Option ℤ)
  change : Option StateChange
  deriving DecidableEq

/-- The calls on one Connection; the events accepted, those taken out of the queue by a later one,
with that one, and those handled. -/
structure Heard (ι : Type) where
  calls : Shared ι := {}
  posted : List ConnectionEvent := []
  replaced : List (ConnectionEvent × ConnectionEvent) := []
  handled : List Handled := []

namespace Heard

variable (s : Heard ι)

/-- What the handler finds and does with the event. -/
def handling (event : ConnectionEvent) : Handled where
  event := event
  before := s.calls.connection.state
  attempt := s.calls.connection.activeConnect.map fun a => (a, (s.calls.attempt a).terminalCode)
  change := (s.calls.connection.handleEvent event).2

/-- The sink is called. -/
def post (kind : EventKind) (values : List PyValue) : Heard ι :=
  let event : ConnectionEvent := nativeEvent kind ⟨s.calls.clock, values⟩
  let dispatcher := s.calls.connection.dispatcher
  let result := dispatcher.nativeSink kind ⟨s.calls.clock, values⟩
  { s with
    calls := postEvent s.calls kind values
    posted := if result.accepted then event :: s.posted else s.posted
    replaced :=
      (dispatcher.events.filter fun old => old ∉ result.dispatcher.events).map (·, event) ++
        s.replaced }

/-- A step of the Runtime or the pool. -/
def env (s : Heard ι) : Environment → Option (Heard ι)
  | .post kind values => some (s.post kind values)
  | .handle => s.calls.delivering.map fun event =>
      { s with calls := deliver s.calls event, handled := s.handling event :: s.handled }
  | e => (environmentStep s.calls e).map fun calls => { s with calls := calls }

end Heard

/-- **The calls on one Connection with a record of its events.** -/
def heardCalls (ι : Type) (mode : AuthMode) (errorName : ℤ → String) :
    Threads ι (Heard ι) Pc CallAction Environment where
  start s := s = {}
  entry := .idle none
  step i s p act := (callStep errorName s.calls i mode p act).map fun next =>
    ({ s with calls := next.1 }, next.2)
  env := Heard.env

/-- The record changes nothing in the calls. -/
theorem env_calls {s s' : Heard ι} {e : Environment} (h : s.env e = some s') :
    environmentStep s.calls e = some s'.calls := by
  cases e with
  | post kind values =>
      cases h
      rfl
  | handle =>
      obtain ⟨event, hevent, rfl⟩ := Option.map_eq_some_iff.mp h
      simp [environmentStep, hevent]
  | managedComplete a code =>
      obtain ⟨calls, hcalls, rfl⟩ := Option.map_eq_some_iff.mp h
      exact hcalls
  | drainBegin =>
      obtain ⟨calls, hcalls, rfl⟩ := Option.map_eq_some_iff.mp h
      exact hcalls
  | drainEnd =>
      obtain ⟨calls, hcalls, rfl⟩ := Option.map_eq_some_iff.mp h
      exact hcalls

/-! ## One call of the handler -/

/-- The error code of a state event, if it has one, whatever its state value. -/
def errorCode (event : ConnectionEvent) : Option ℤ :=
  if event.kind = .state then
    match event.values.values with
    | _ :: code :: _ => code.toInt.bind fun code => if code = 0 then none else some code
    | _ => none
  else none

/-- The state value of the event is not in `_CONNECTION_STATES`: looking it up raises
`IndexError`. -/
def unknownState (event : ConnectionEvent) : Bool :=
  event.values.values.head?.any fun state => (state.toInt.bind connectionStates).isNone

/-- An error comes with a state that can be looked up, or not. -/
theorem errorCode_eq_some {event : ConnectionEvent} {code : ℤ} (h : errorCode event = some code) :
    code ≠ 0 ∧ ((unknownState event = true ∧ Connection.readState event = none) ∨
      ∃ state, Connection.readState event = some (state, code)) := by
  unfold errorCode at h
  split at h
  next hkind =>
    split at h
    next state value rest hvalues =>
      obtain ⟨code', hvalue, hcode⟩ := Option.bind_eq_some_iff.mp h
      split at hcode
      · cases hcode
      next hne =>
        cases hcode
        refine ⟨hne, ?_⟩
        cases hstate : state.toInt.bind connectionStates with
        | none =>
            left
            constructor
            · simp [unknownState, hvalues, hstate]
            · simp [Connection.readState, hkind, hvalues, hstate]
        | some known =>
            right
            exact ⟨known, by simp [Connection.readState, hkind, hvalues, hstate, hvalue]⟩
    · cases h
  · cases h

/-- The handler has raised `IndexError`, and has told nobody of the code. -/
structure Handled.Raised (h : Handled) : Prop where
  unknown : unknownState h.event = true
  change : h.change = none

/-- Without an attempt in progress: the code is passed on, unless CONNECTING is reported to a
Connection that is connected. -/
structure Handled.Reported (h : Handled) (code : ℤ) : Prop where
  idle : h.attempt = none
  change : (∃ state, h.change = some (state, code)) ∨
    (h.before = .connected ∧ Connection.readState h.event = some (.connecting, code))

/-- With an attempt in progress: it has a terminal code from then on, this one or an earlier one. -/
def Handled.Absorbed (h : Handled) (code : ℤ) (s : Shared ι) (a : ℕ) (terminal : ℤ) : Prop :=
  ∃ was, h.attempt = some (a, was) ∧ terminal ≠ 0 ∧ (terminal = code ∨ was = some terminal) ∧
    (s.attempt a).terminalCode = some terminal

/-- **The handler with an unknown state.** -/
theorem handle_raised {s : Heard ι} {event : ConnectionEvent} (hunknown : unknownState event = true)
    (hread : Connection.readState event = none) : (s.handling event).Raised := by
  refine ⟨hunknown, ?_⟩
  show (s.calls.connection.handleEvent event).2 = none
  simp [Connection.handleEvent, hread]

/-- **The handler without an attempt in progress.** -/
theorem handle_reported {s : Heard ι} {event : ConnectionEvent} {state : ConnectionState} {code : ℤ}
    (hnone : s.calls.connection.activeConnect = none) (hne : code ≠ 0)
    (hread : Connection.readState event = some (state, code)) :
    (s.handling event).Reported code := by
  refine ⟨by simp [Heard.handling, hnone], ?_⟩
  by_cases hshort : s.calls.connection.state = .connected ∧ state = .connecting
  · obtain ⟨hconnected, rfl⟩ := hshort
    exact .inr ⟨hconnected, hread⟩
  · refine .inl ⟨state, ?_⟩
    simp [Heard.handling, Connection.handleEvent, hread, Connection.handleState, hnone, hshort, hne]

/-- **The handler with an attempt in progress.** A code that comes first, or behind a success, is
the terminal code; a later one finds a terminal code. -/
theorem handle_absorbed {s : Heard ι} {event : ConnectionEvent} {state : ConnectionState} {code : ℤ}
    {a : ℕ} (hactive : s.calls.connection.activeConnect = some a) (hne : code ≠ 0)
    (hread : Connection.readState event = some (state, code)) :
    ∃ terminal, (s.handling event).Absorbed code (deliver s.calls event) a terminal := by
  have hattempt : (s.handling event).attempt = some (a, (s.calls.attempt a).terminalCode) := by
    simp [Heard.handling, hactive]
  have houtcome : Connection.stateOutcome state code = some code := by
    simp [Connection.stateOutcome, hne]
  rcases deliver_cases s.calls event with
    ⟨⟨state', hd⟩, hkept⟩ | ⟨a', state', code', terminal, hactive', hread', hout, hwas, hd⟩
  · -- the attempt does not take the event: it has a terminal code other than `0`
    have htaken : ¬ Connection.takesState (s.calls.attempt a) state code = true := by
      intro htakes
      cases houtcome.symm.trans (hkept a state code hactive hread htakes)
    rw [Connection.takes_iff houtcome] at htaken
    cases hterminal : (s.calls.attempt a).terminalCode with
    | none => exact absurd (.inl hterminal) htaken
    | some terminal =>
        have hterminal' : terminal ≠ 0 := by
          rintro rfl
          exact htaken (.inr ⟨hterminal, hne⟩)
        refine ⟨terminal, _, hattempt, hterminal', .inr hterminal, ?_⟩
        rw [hd]
        exact hterminal
  · obtain rfl : a = a' := Option.some.inj (hactive.symm.trans hactive')
    obtain ⟨rfl, rfl⟩ : state = state' ∧ code = code' := by
      simpa using hread.symm.trans hread'
    obtain rfl : code = terminal := Option.some.inj (houtcome.symm.trans hout)
    refine ⟨code, _, hattempt, hne, .inl rfl, ?_⟩
    rw [hd]
    simp [Shared.attempt, Shared.note, Shared.modify, Connection.modifyAttempt]

/-- A terminal code other than `0` is never changed. -/
theorem absorbed_kept {k : Option ι} {s s' : Shared ι} {h : Handled} {code terminal : ℤ} {a : ℕ}
    (hG : Guarantees k s s') (habsorbed : h.Absorbed code s a terminal) :
    h.Absorbed code s' a terminal := by
  obtain ⟨was, hattempt, hne, hwas, hterminal⟩ := habsorbed
  refine ⟨was, hattempt, hne, hwas, ?_⟩
  have hview : (s.view a).attempt.terminalCode = some terminal := hterminal
  rcases (hG a).terminal with hsame | hnone | ⟨hzero, -⟩
  · exact hsame.trans hview
  · cases hview.symm.trans hnone
  · exact absurd (Option.some.inj (hview.symm.trans hzero)) hne

/-! ## The invariant -/

/-- The posts are state events only. -/
def statesOnly (_ : Heard ι) : Environment → Prop
  | .post kind _ => kind = .state
  | _ => True

/-- What has become of an accepted event. -/
inductive Fate (s : Heard ι) (event : ConnectionEvent) : Prop
  | pending : event ∈ s.calls.pending → Fate s event
  | replaced (newer : ConnectionEvent) : (event, newer) ∈ s.replaced → Fate s event
  | handled (h : Handled) : h ∈ s.handled → h.event = event → Fate s event

/-- What holds of a call of the handler with an error. -/
def Surfaces (s : Shared ι) (h : Handled) : Prop :=
  ∀ code, errorCode h.event = some code →
    h.Raised ∨ h.Reported code ∨ ∃ a terminal, h.Absorbed code s a terminal

/-- What an attempt has absorbed stays with it. -/
theorem Surfaces.kept {k : Option ι} {s s' : Shared ι} {h : Handled} (hG : Guarantees k s s')
    (hsurfaces : Surfaces s h) : Surfaces s' h := by
  intro code hcode
  rcases hsurfaces code hcode with hraised | hreported | ⟨a, terminal, habsorbed⟩
  · exact .inl hraised
  · exact .inr (.inl hreported)
  · exact .inr (.inr ⟨a, terminal, absorbed_kept hG habsorbed⟩)

/-- **The invariant of the record.** -/
structure HeardOk (s : Heard ι) : Prop where
  idle : s.calls.connection.dispatcher.executing = false → s.calls.delivering = none
  tags : ∀ event ∈ s.calls.pending, event.values.tag < s.calls.clock
  fates : ∀ event ∈ s.posted, Fate s event
  replaced : ∀ event newer, (event, newer) ∈ s.replaced →
    newer ∈ s.posted ∧ newer.kind = .state ∧ event.values.tag < newer.values.tag
  handled : ∀ h ∈ s.handled, Surfaces s.calls h

/-- A step of the calls that leaves the events where they are. -/
theorem HeardOk.of_calls {s : Heard ι} {calls : Shared ι} {k : Option ι} (hs : HeardOk s)
    (hpending : calls.pending = s.calls.pending) (hclock : calls.clock = s.calls.clock)
    (hidle : calls.connection.dispatcher.executing = false → calls.delivering = none)
    (hG : Guarantees k s.calls calls) : HeardOk { s with calls := calls } where
  idle := hidle
  tags := by
    rw [hpending, hclock]
    exact hs.tags
  fates event hevent := by
    cases hs.fates event hevent with
    | pending h => exact .pending (hpending ▸ h)
    | replaced newer h => exact .replaced newer h
    | handled h hmem heq => exact .handled h hmem heq
  replaced := hs.replaced
  handled h hmem := (hs.handled h hmem).kept hG

/-- **A post of a state event.** What is in the queue stays or is taken out by it, and what is
accepted is in the queue behind it. -/
theorem HeardOk.post {s : Heard ι} {values : List PyValue} (hs : HeardOk s) :
    HeardOk (s.post .state values) := by
  have hposted := s.calls.connection.dispatcher.post_spec
    (nativeEvent .state (⟨s.calls.clock, values⟩ : Tagged (List PyValue))) true
  have hmarked (d : Dispatcher (Tagged (List PyValue))) :
      d.marked (nativeEvent .state ⟨s.calls.clock, values⟩) =
        nativeEvent .state ⟨s.calls.clock, values⟩ := d.marked_of_not_frame rfl
  have hexecuting := s.calls.connection.dispatcher.post_executing
    (nativeEvent .state (⟨s.calls.clock, values⟩ : Tagged (List PyValue))) true
  generalize hevent : nativeEvent .state (⟨s.calls.clock, values⟩ : Tagged (List PyValue)) = event
    at hposted hmarked hexecuting
  generalize hr : s.calls.connection.dispatcher.post event true = result at hposted hexecuting
  -- a post that takes an event out of the queue is accepted, and so is one that puts itself in
  have haccepted : (result.accepted = true ∧ event ∈ result.dispatcher.events) ∨
      (result.accepted = false ∧
        result.dispatcher.events = s.calls.connection.dispatcher.events) := by
    cases hposted with
    | closed => exact .inr ⟨rfl, rfl⟩
    | coalesced xs old ys => exact .inl ⟨rfl, by simp⟩
    | frameRefused => exact .inr ⟨rfl, rfl⟩
    | refused => exact .inr ⟨rfl, rfl⟩
    | evicted xs victim ys => exact .inl ⟨rfl, by simp [hmarked]⟩
    | beyond => exact .inl ⟨rfl, by simp [hmarked]⟩
    | appended => exact .inl ⟨rfl, by simp [hmarked]⟩
  have hpost : s.post .state values = { s with
      calls := postEvent s.calls .state values
      posted := if result.accepted then event :: s.posted else s.posted
      replaced := (s.calls.connection.dispatcher.events.filter
        fun old => old ∉ result.dispatcher.events).map (·, event) ++ s.replaced } := by
    rw [← hr, ← hevent]
    rfl
  have hpending : (postEvent s.calls .state values).pending =
      s.calls.delivering.toList ++ result.dispatcher.events := by
    rw [← hr, ← hevent]
    rfl
  have htag : event.values.tag = s.calls.clock := by
    rw [← hevent]
    rfl
  have hkept : ∀ old ∈ s.calls.pending, old ∈ (postEvent s.calls .state values).pending ∨
      old ∈ s.calls.connection.dispatcher.events.filter
        fun old => old ∉ result.dispatcher.events := by
    intro old hold
    rw [hpending]
    rcases List.mem_append.mp hold with hold | hold
    · exact .inl (List.mem_append_left _ hold)
    · by_cases hin : old ∈ result.dispatcher.events
      · exact .inl (List.mem_append_right _ hin)
      · exact .inr (List.mem_filter.mpr ⟨hold, by simpa using hin⟩)
  rw [hpost]
  refine ⟨?_, ?_, ?_, ?_, fun h hmem code hcode => hs.handled h hmem code hcode⟩
  · intro hidle
    refine hs.idle (hexecuting.symm.trans ?_)
    rw [← hr, ← hevent]
    exact hidle
  · intro old hold
    rcases mem_pending_post hold with hold | hold
    · exact Nat.lt_succ_of_lt (hs.tags old hold)
    · exact hold ▸ Nat.lt_succ_self _
  · intro old hold
    have hcases : (result.accepted = true ∧ old = event) ∨ old ∈ s.posted := by
      change old ∈ (if result.accepted then event :: s.posted else s.posted) at hold
      split at hold
      next hacc =>
        rcases List.mem_cons.mp hold with heq | hold
        · exact .inl ⟨hacc, heq⟩
        · exact .inr hold
      next => exact .inr hold
    rcases hcases with ⟨hacc, rfl⟩ | hold
    · rcases haccepted with ⟨-, hin⟩ | ⟨hrefused, -⟩
      · exact .pending (hpending ▸ List.mem_append_right _ hin)
      · cases hacc.symm.trans hrefused
    · cases hs.fates old hold with
      | pending hin =>
          rcases hkept old hin with hin | hout
          · exact .pending hin
          · exact .replaced event (List.mem_append_left _ (List.mem_map.mpr ⟨old, hout, rfl⟩))
      | replaced newer hmem => exact .replaced newer (List.mem_append_right _ hmem)
      | handled h hmem heq => exact .handled h hmem heq
  · intro old newer hmem
    have hposted' : newer ∈ s.posted →
        newer ∈ if result.accepted then event :: s.posted else s.posted := by
      intro hin
      split
      · exact List.mem_cons_of_mem _ hin
      · exact hin
    rcases List.mem_append.mp hmem with hmem | hmem
    · obtain ⟨old', hout, heq⟩ := List.mem_map.mp hmem
      obtain ⟨rfl, rfl⟩ : old' = old ∧ event = newer := by simpa using heq
      obtain ⟨hin, hgone⟩ := List.mem_filter.mp hout
      have hacc : result.accepted = true := by
        rcases haccepted with ⟨hacc, -⟩ | ⟨-, hsame⟩
        · exact hacc
        · simp [hsame, hin] at hgone
      refine ⟨by simp [hacc], by rw [← hevent]; rfl, ?_⟩
      rw [htag]
      exact hs.tags old' (List.mem_append_right _ hin)
    · obtain ⟨hin, hkind, hlt⟩ := hs.replaced old newer hmem
      exact ⟨hposted' hin, hkind, hlt⟩

/-- **A call of the handler.** -/
theorem HeardOk.handle {s : Heard ι} {event : ConnectionEvent} (hs : HeardOk s)
    (hdelivering : s.calls.delivering = some event)
    (hG : Guarantees none s.calls (deliver s.calls event)) :
    HeardOk { s with
      calls := deliver s.calls event, handled := s.handling event :: s.handled } := by
  have hpending := pending_deliver s.calls event
  have hqueue : s.calls.pending = event :: s.calls.connection.dispatcher.events := by
    simp [Shared.pending, hdelivering]
  have hclock : (deliver s.calls event).clock = s.calls.clock := by
    rcases deliver_cases s.calls event with ⟨⟨state, hd⟩, -⟩ | ⟨_, _, _, _, -, -, -, -, hd⟩
    · rw [hd]
      rfl
    · rw [hd]
      rfl
  have hgone : (deliver s.calls event).delivering = none := by
    rcases deliver_cases s.calls event with ⟨⟨state, hd⟩, -⟩ | ⟨_, _, _, _, -, -, -, -, hd⟩
    · rw [hd]
      rfl
    · rw [hd]
      rfl
  refine ⟨fun _ => hgone, ?_, ?_, hs.replaced, ?_⟩
  · intro old hold
    change old ∈ (deliver s.calls event).pending at hold
    change old.values.tag < (deliver s.calls event).clock
    rw [hpending] at hold
    rw [hclock]
    exact hs.tags old (hqueue ▸ List.mem_cons_of_mem _ hold)
  · intro old hold
    cases hs.fates old hold with
    | pending hin =>
        rcases List.mem_cons.mp (hqueue ▸ hin) with rfl | hin
        · exact .handled _ List.mem_cons_self rfl
        · exact .pending (hpending ▸ hin)
    | replaced newer hmem => exact .replaced newer hmem
    | handled h hmem heq => exact .handled h (List.mem_cons_of_mem _ hmem) heq
  · intro h hmem
    rcases List.mem_cons.mp hmem with rfl | hmem
    · intro code hcode
      obtain ⟨hne, ⟨hunknown, hread⟩ | ⟨state, hread⟩⟩ := errorCode_eq_some hcode
      · exact .inl (handle_raised hunknown hread)
      · rcases Option.eq_none_or_eq_some s.calls.connection.activeConnect with hnone | ⟨a, hactive⟩
        · exact .inr (.inl (handle_reported hnone hne hread))
        · obtain ⟨terminal, habsorbed⟩ := handle_absorbed hactive hne hread
          exact .inr (.inr ⟨a, terminal, habsorbed⟩)
    · exact (hs.handled h hmem).kept hG

/-- The pool takes the next event out of the queue. -/
theorem drainBegin_pending {s s' : Shared ι} (hstep : environmentStep s .drainBegin = some s')
    (hidle : s.connection.dispatcher.executing = false → s.delivering = none) :
    s'.pending = s.pending ∧ s'.clock = s.clock ∧
      (s'.connection.dispatcher.executing = false → s'.delivering = none) := by
  simp only [environmentStep] at hstep
  split at hstep
  · cases hstep
  next hexecuting =>
    cases hstep
    have hnone := hidle (Bool.not_eq_true _ ▸ hexecuting)
    cases hevents : s.connection.dispatcher.events with
    | nil =>
        refine ⟨?_, rfl, ?_⟩
        · simp [Shared.pending, Dispatcher.drainBegin_nil hevents, hevents, hnone]
        · simp [Dispatcher.drainBegin_nil hevents]
    | cons head rest =>
        refine ⟨?_, rfl, ?_⟩
        · simp [Shared.pending, Dispatcher.drainBegin_cons hevents, hevents, hnone]
        · simp [Dispatcher.drainBegin_cons hevents]

/-- The pool is done with an event. -/
theorem drainEnd_pending {s s' : Shared ι} (hstep : environmentStep s .drainEnd = some s') :
    s'.pending = s.pending ∧ s'.clock = s.clock ∧
      (s'.connection.dispatcher.executing = false → s'.delivering = none) := by
  simp only [environmentStep] at hstep
  split at hstep
  next hdone =>
    cases hstep
    simp only [Bool.and_eq_true, Option.isNone_iff_eq_none] at hdone
    exact ⟨rfl, rfl, fun _ => hdone.2⟩
  · cases hstep

/-- **Any number of calls on one Connection keep the record in order.** -/
theorem heard_rely_guarantee {mode : AuthMode} {errorName : ℤ → String} :
    Threads.RelyGuarantee (heardCalls ι mode errorName) (fun _ _ _ _ => True) statesOnly
      (fun s => Attempts errorName s.calls ∧ HeardOk s) (fun i s p => CallAt i s.calls p)
      (fun k s s' => Guarantees k s.calls s'.calls) where
  start := by
    rintro s rfl
    exact ⟨⟨attempts_start, by simp, by simp [Shared.pending, Dispatcher.init], by simp, by simp,
      by simp⟩, fun i => trivial⟩
  thread i s p act s' p' hI hA _ hstep := by
    obtain ⟨⟨calls, pc⟩, hnext, heq⟩ := Option.map_eq_some_iff.mp hstep
    obtain ⟨rfl, rfl⟩ := Prod.mk.inj heq
    have hspec := callStep_spec hI.1 hA hnext
    refine ⟨⟨hspec.step.1, ?_⟩, hspec.at_, hspec.step.2⟩
    rcases callStep_queue hnext with hsame | ⟨-, -, -, hbegun, -⟩
    · refine hI.2.of_calls hsame.pending hsame.clock ?_ hspec.step.2
      show calls.connection.dispatcher.executing = false → calls.delivering = none
      rw [hsame.executing, hsame.delivering]
      exact hI.2.idle
    · subst hbegun
      exact hI.2.of_calls rfl rfl hI.2.idle hspec.step.2
  env s e s' hI hok hstep := by
    have hcalls := env_calls hstep
    obtain ⟨hattempts, hG⟩ := environment_spec hI.1 hcalls
    refine ⟨⟨hattempts, ?_⟩, hG⟩
    cases e with
    | post kind values =>
        obtain rfl : kind = .state := hok
        cases hstep
        exact hI.2.post
    | handle =>
        obtain ⟨event, hdelivering, rfl⟩ := Option.map_eq_some_iff.mp hstep
        exact hI.2.handle hdelivering hG
    | managedComplete a code =>
        obtain ⟨calls, hnext, rfl⟩ := Option.map_eq_some_iff.mp hstep
        have hsame : SameQueue s.calls calls := by
          simp only [environmentStep] at hnext
          split at hnext
          · cases hnext
            exact managedComplete_queue s.calls a code
          · cases hnext
        refine hI.2.of_calls hsame.pending hsame.clock ?_ hG
        rw [hsame.executing, hsame.delivering]
        exact hI.2.idle
    | drainBegin =>
        obtain ⟨calls, hnext, rfl⟩ := Option.map_eq_some_iff.mp hstep
        obtain ⟨hpending, hclock, hidle⟩ := drainBegin_pending hnext hI.2.idle
        exact hI.2.of_calls hpending hclock hidle hG
    | drainEnd =>
        obtain ⟨calls, hnext, rfl⟩ := Option.map_eq_some_iff.mp hstep
        obtain ⟨hpending, hclock, hidle⟩ := drainEnd_pending hnext
        exact hI.2.of_calls hpending hclock hidle hG
  stable j k s s' p hk hI hI' hG hA := hA.stable hk hI.1 hI'.1 hG

/-! ## What becomes of every error -/

/-- What `connect` of attempt `a` raises with the terminal code `terminal`: its error, if the native
connect call did not fail, the attempt was not cancelled and its handle could be closed; in any case
it raises. -/
def Raises (errorName : ℤ → String) (s : Shared ι) (a : ℕ) (terminal : ℤ) : Prop :=
  ∀ raised, (s.history a).outcome = some raised → raised ≠ none ∧
    ((s.history a).startFailed = false → (s.history a).canceller = none →
      (s.history a).closeFailed = false →
        raised = some (errorFromCode terminal (errorName terminal)))

/-- An attempt with a terminal code other than `0` ends with an error. -/
theorem raises_of_terminal {errorName : ℤ → String} {s : Shared ι} {a : ℕ} {terminal : ℤ}
    (hok : AttemptOk errorName (s.view a)) (hne : terminal ≠ 0)
    (hterminal : (s.attempt a).terminalCode = some terminal) : Raises errorName s a terminal := by
  intro raised houtcome
  have hcancelled : (s.history a).canceller = none → (s.attempt a).cancelling = false := by
    intro hnobody
    rw [← Bool.not_eq_true]
    intro hcancelling
    exact hok.canceller.mpr hcancelling hnobody
  rcases hok.ended raised houtcome with ⟨hfailed, -, -, hraised, -⟩ |
    ⟨seen, -, -, hview, -, -, hraises⟩ | ⟨-, -, hraised, -, hcase⟩
  · exact ⟨hraised, fun hstart => absurd (hstart.symm.trans hfailed) (by simp)⟩
  · obtain ⟨-, hcode, herror, -⟩ := hok.seen seen hview
    have hcode : seen.code = some terminal := hcode.trans hterminal
    cases hseen : seen.error with
    | some e =>
        refine ⟨by simp [hraises, FinishView.raises, hseen], fun _ hnobody => ?_⟩
        have hcancelling := hok.error.mp (by simp [← herror, hseen])
        exact absurd ((hcancelled hnobody).symm.trans hcancelling) (by simp)
    | none =>
        have hraised : raised = some (errorFromCode terminal (errorName terminal)) := by
          simp [hraises, FinishView.raises, hseen, hcode, hne]
        exact ⟨by simp [hraised], fun _ _ _ => hraised⟩
  · refine ⟨hraised, fun _ hnobody hclose => ?_⟩
    rcases hcase with hfailed | ⟨hfinished, -⟩
    · exact absurd (hclose.symm.trans hfailed) (by simp)
    · have hcancelling := hok.cancelFinished hfinished
      exact absurd ((hcancelled hnobody).symm.trans hcancelling) (by simp)

section Runs

variable [DecidableEq ι] {mode : AuthMode} {errorName : ℤ → String}

/-- **What becomes of every error**, when the posts are state events only and any number of threads
call `connect`, `disconnect` and `close`: an accepted event with an error code is on its way, or was
overwritten in the queue by a later state event, or was handled. With a state value that is not
known the handler has raised `IndexError` and told nobody. Without an attempt in progress it has
passed the code to `on_state_changed`, unless it reports CONNECTING to a Connection that is
connected. With one, the attempt has a terminal code other than `0` from then on, this code or
the one it had before, and its `connect` raises: the error of that code, unless the native connect
call failed, the attempt was cancelled or its handle could not be closed.
Source: `_core.py`, `Connection._handle_event`; `_dispatch.py`, `_Dispatcher.post` -/
theorem errors_accounted {c : Config ι (Heard ι) Pc}
    (hc : (heardCalls ι mode errorName).machine.ReachWith
      (Threads.guard (fun _ _ _ _ => True) statesOnly) c)
    {event : ConnectionEvent} (hposted : event ∈ c.shared.posted) {code : ℤ}
    (hcode : errorCode event = some code) :
    event ∈ c.shared.calls.pending ∨
    (∃ newer, (event, newer) ∈ c.shared.replaced ∧ newer ∈ c.shared.posted ∧
      newer.kind = .state ∧ event.values.tag < newer.values.tag) ∨
    ∃ h ∈ c.shared.handled, h.event = event ∧ (h.Raised ∨ h.Reported code ∨
      ∃ a terminal, h.Absorbed code c.shared.calls a terminal ∧
        Raises errorName c.shared.calls a terminal) := by
  obtain ⟨⟨hattempts, hs⟩, -⟩ := heard_rely_guarantee.reach hc
  cases hs.fates event hposted with
  | pending hin => exact .inl hin
  | replaced newer hmem => exact .inr (.inl ⟨newer, hmem, hs.replaced event newer hmem⟩)
  | handled h hmem heq =>
      subst heq
      refine .inr (.inr ⟨h, hmem, rfl, ?_⟩)
      rcases hs.handled h hmem code hcode with hraised | hreported | ⟨a, terminal, habsorbed⟩
      · exact .inl hraised
      · exact .inr (.inl hreported)
      · obtain ⟨was, hattempt, hne, hwas, hterminal⟩ := habsorbed
        exact .inr (.inr ⟨a, terminal, ⟨was, hattempt, hne, hwas, hterminal⟩,
          raises_of_terminal (hattempts.ok a) hne hterminal⟩)

end Runs

/-! ## The errors of which the application hears nothing -/

/-- The call of the handler tells the application of the code: `on_state_changed` gets it, or it is
the terminal code of the attempt, or comes behind that, and `connect` raises no other error. -/
def surfaces (errorName : ℤ → String) (s : Shared ι) (code : ℤ) (h : Handled) : Bool :=
  match h.attempt with
  | none => h.change.any fun change => change.2 = code
  | some (a, was) =>
      (s.attempt a).terminalCode.any fun terminal =>
        terminal ≠ 0 && (terminal = code || was = some terminal) &&
          (s.history a).outcome.all fun raised =>
            raised = some (errorFromCode terminal (errorName terminal))

/-- An accepted event with an error code that is no longer on its way, and of which the application
has heard nothing. -/
def Heard.disappears (errorName : ℤ → String) (s : Heard ι) (event : ConnectionEvent) : Bool :=
  (errorCode event).any fun code => event ∈ s.posted && event ∉ s.calls.pending &&
    !s.handled.any fun h => h.event = event && surfaces errorName s.calls code h

/-- A step that is no call of `disconnect` or `close`, and no post of another kind. -/
def onlyConnects : Label Unit CallAction Environment → Bool
  | .thread _ .disconnect | .thread _ .close => false
  | .env (.post kind _) => kind = .state
  | _ => true

/-- The Connection with its record, behind a run of such steps from its creation on. -/
def Connects (c : Config Unit (Heard Unit) Pc) : Prop :=
  ∃ ls : List (Label Unit CallAction Environment), ls.all onlyConnects = true ∧
    (heardCalls Unit .externalToken fun _ => "").machine.exec ⟨{}, fun _ => .idle none⟩ ls = some c

/-- A state event is posted. -/
def posts (state code : ℤ) : Label Unit CallAction Environment :=
  .env (.post .state [.int state, .int code])

/-- The pool handles the next event. -/
def drains : List (Label Unit CallAction Environment) :=
  [.env .drainBegin, .env .handle, .env .drainEnd]

/-- An error is overwritten before the pool gets to it. -/
def overwritten : List (Label Unit CallAction Environment) := [posts 3 6013, posts 1 0] ++ drains

/-- A connected Connection reports that it reconnects, with an error. -/
def reconnecting : List (Label Unit CallAction Environment) :=
  [posts 2 0] ++ drains ++ [posts 1 6013] ++ drains

/-- An error comes while the native connect call is under way, and the call fails with another. -/
def failedStart : List (Label Unit CallAction Environment) :=
  [.thread () .connect, posts 3 6013] ++ drains ++
    [.thread () (.native (.code 6028)), .thread () .go, .thread () .go]

/-- An error comes with a state that `_CONNECTION_STATES` does not have. -/
def unknown : List (Label Unit CallAction Environment) := [posts 7 6013] ++ drains

theorem exists_connects (ls : List (Label Unit CallAction Environment))
    {p : Config Unit (Heard Unit) Pc → Bool} (hls : ls.all onlyConnects = true)
    (h : ((heardCalls Unit .externalToken fun _ => "").machine.exec ⟨{}, fun _ => .idle none⟩
      ls).any p = true) : ∃ c, Connects c ∧ p c = true := by
  obtain ⟨c, hrun, hp⟩ := (Option.any_eq_true p _).mp h
  exact ⟨c, ⟨ls, hls, hrun⟩, hp⟩

/-- **Errors disappear**: one that a later state event overwrites in the queue; even among those
that are handled, one that comes with CONNECTING to a Connection that is connected, and one that
comes with an unknown state; and even among those that an attempt absorbs, one whose native connect
call then fails with another error. -/
theorem errors_disappear :
    (¬ ∀ c, Connects c → ∀ event, c.shared.disappears (fun _ => "") event = false) ∧
    (¬ ∀ c, Connects c → ∀ h ∈ c.shared.handled,
      c.shared.disappears (fun _ => "") h.event = false) ∧
    (¬ ∀ c, Connects c → ∀ h ∈ c.shared.handled, h.before = .idle →
      c.shared.disappears (fun _ => "") h.event = false) ∧
    (¬ ∀ c, Connects c → ∀ h ∈ c.shared.handled, h.attempt ≠ none →
      c.shared.disappears (fun _ => "") h.event = false) := by
  refine ⟨?_, ?_, ?_, ?_⟩
  · intro hall
    obtain ⟨c, hc, hlost⟩ := exists_connects overwritten rfl
      (p := fun c => c.shared.posted.any (c.shared.disappears fun _ => "")) (by decide +kernel)
    obtain ⟨event, -, hlost⟩ := List.any_eq_true.mp hlost
    cases hlost.symm.trans (hall c hc event)
  · intro hall
    obtain ⟨c, hc, hlost⟩ := exists_connects reconnecting rfl
      (p := fun c => c.shared.handled.any fun h => c.shared.disappears (fun _ => "") h.event)
      (by decide +kernel)
    obtain ⟨h, hmem, hlost⟩ := List.any_eq_true.mp hlost
    cases hlost.symm.trans (hall c hc h hmem)
  · intro hall
    obtain ⟨c, hc, hlost⟩ := exists_connects unknown rfl
      (p := fun c => c.shared.handled.any fun h =>
        h.before = .idle && c.shared.disappears (fun _ => "") h.event) (by decide +kernel)
    obtain ⟨h, hmem, hlost⟩ := List.any_eq_true.mp hlost
    obtain ⟨hidle, hlost⟩ := Bool.and_eq_true_iff.mp hlost
    cases hlost.symm.trans (hall c hc h hmem (of_decide_eq_true hidle))
  · intro hall
    obtain ⟨c, hc, hlost⟩ := exists_connects failedStart rfl
      (p := fun c => c.shared.handled.any fun h =>
        h.attempt.isSome && c.shared.disappears (fun _ => "") h.event) (by decide +kernel)
    obtain ⟨h, hmem, hlost⟩ := List.any_eq_true.mp hlost
    obtain ⟨hattempt, hlost⟩ := Bool.and_eq_true_iff.mp hlost
    cases hlost.symm.trans (hall c hc h hmem (Option.isSome_iff_ne_none.mp hattempt))

/-- A refused connection: the error comes behind the native connect call; `connect` raises it. -/
def refused : List (Label Unit CallAction Environment) :=
  [.thread () .connect, .thread () (.native (.code 0)), posts 3 6013] ++ drains ++
    List.replicate 6 (.thread () .go)

/-- The error of that run is accounted for. -/
theorem errors_accounted_refused : ∃ c : Config Unit (Heard Unit) Pc, ∃ event,
    errorCode event = some 6013 ∧ event ∈ c.shared.posted ∧
    c.pc () = .idle (some (errorFromCode 6013 "")) ∧
    (event ∈ c.shared.calls.pending ∨
    (∃ newer, (event, newer) ∈ c.shared.replaced ∧ newer ∈ c.shared.posted ∧
      newer.kind = .state ∧ event.values.tag < newer.values.tag) ∨
    ∃ h ∈ c.shared.handled, h.event = event ∧ (h.Raised ∨ h.Reported 6013 ∨
      ∃ a terminal, h.Absorbed 6013 c.shared.calls a terminal ∧
        Raises (fun _ => "") c.shared.calls a terminal)) := by
  have hrun : (((heardCalls Unit .externalToken fun _ => "").machine.guarded fun _ l =>
      onlyConnects l).exec ⟨{}, fun _ => .idle none⟩ refused).any (fun c =>
        c.pc () = .idle (some (errorFromCode 6013 "")) &&
          c.shared.posted.any (errorCode · = some 6013)) = true := by
    decide +kernel
  obtain ⟨c, hrun, hend⟩ := (Option.any_eq_true _ _).mp hrun
  obtain ⟨hraised, hposted⟩ := Bool.and_eq_true_iff.mp hend
  obtain ⟨event, hposted, hcode⟩ := List.any_eq_true.mp hposted
  have hstart : (heardCalls Unit .externalToken fun _ => "").machine.start
      ⟨{}, fun _ => .idle none⟩ := ⟨rfl, rfl⟩
  have hreach := Machine.ReachWith.exec (.start hstart) hrun
  have hc := hreach.mono fun c l hl => show Threads.guard (fun _ _ _ _ => True) statesOnly c l by
    rcases l with ⟨i, act⟩ | e
    · trivial
    · cases e with
      | post kind values =>
          have hkind : kind = .state := by simpa [onlyConnects] using hl
          exact hkind
      | _ => trivial
  exact ⟨c, event, of_decide_eq_true hcode, hposted, of_decide_eq_true hraised,
    errors_accounted hc hposted (of_decide_eq_true hcode)⟩

end Tirtc.ErrorEvents
