import Tirtc.Core.Events

/-!
# A Connection and its native connection

The calls on an open Connection together with the native connection they steer: every native
connect, disconnect and drop changes it and posts the matching state event, every native call
succeeds, and no state event is lost in the queue. Nothing here is code of the repository but what
the steps of `calls` bring in; the Runtime's side is what the calls assume of it.

* `Link`, `Link.values`, `Reports`: the native connection and the state event that reports it.
* `losesState`: a post that takes a state event out of the queue, or does not take one in.
* `Linked`, `linkedCalls`: the calls of `connect` and `disconnect` with the native connection.
* `news`, `states_other`, `states_state`: the state events on their way, and what a post makes of
  them.
-/

set_option autoImplicit false

namespace Tirtc

open Transition

/-! ### The native connection and its reports -/

/-- The native connection. -/
inductive Link
  | down | connecting | up
  deriving DecidableEq, Repr

namespace Link

/-- The state that reports it. -/
def state : Link → ConnectionState
  | .down => .disconnected
  | .connecting => .connecting
  | .up => .connected

/-- The code of its report: only a disconnect can carry one. -/
def code : Link → ℤ → ℤ
  | .down, code => code
  | _, _ => 0

/-- The values of its report. -/
def values (link : Link) (code : ℤ) : List PyValue :=
  match link with
  | .down => [.int 3, .int code]
  | .connecting => [.int 1, .int 0]
  | .up => [.int 2, .int 0]

end Link

/-- The event reports the link. -/
def Reports (link : Link) (event : ConnectionEvent) : Prop :=
  ∃ code, Connection.readState event = some (link.state, link.code code)

/-- The event that the values of a link make reports it. -/
theorem reports_values (link : Link) (code : ℤ) (tag : ℕ) :
    Reports link (nativeEvent .state ⟨tag, link.values code⟩) := by
  refine ⟨code, ?_⟩
  cases link <;> rfl

/-- An event reports at most one link. -/
theorem Reports.unique {link link' : Link} {event : ConnectionEvent} (h : Reports link event)
    (h' : Reports link' event) : link' = link := by
  obtain ⟨code, hcode⟩ := h
  obtain ⟨code', hcode'⟩ := h'
  have hstate := congrArg Prod.fst (Option.some.inj (hcode.symm.trans hcode'))
  cases link <;> cases link' <;> first | rfl | cases hstate

/-- What a report stands for: success when the link is up, an error when it is down. -/
theorem outcome_of_reports {link : Link} {event : ConnectionEvent} (h : Reports link event) :
    match link with
    | .up => Connection.eventOutcome event = some 0
    | .connecting => Connection.eventOutcome event = none
    | .down => ∃ terminal, terminal ≠ 0 ∧ Connection.eventOutcome event = some terminal := by
  obtain ⟨code, hcode⟩ := h
  cases link with
  | up => simp [Connection.eventOutcome, hcode, Connection.stateOutcome, Link.state, Link.code]
  | connecting =>
      simp [Connection.eventOutcome, hcode, Connection.stateOutcome, Link.state, Link.code]
  | down =>
      refine ⟨if code ≠ 0 then code else 6012, ?_, ?_⟩
      · split
        · assumption
        · decide
      · simp [Connection.eventOutcome, hcode, Connection.stateOutcome, Link.state, Link.code]

/-! ### The system -/

/-- The post evicts a state event, or is one that is not taken in. -/
def losesState (d : Dispatcher (Tagged (List PyValue))) (event : ConnectionEvent)
    (latest : Bool) : Bool :=
  match d.victim? event latest with
  | some victim => victim.kind = .state
  | none => event.kind = .state && !(d.post event latest).accepted

/-- The record with the native connection. -/
structure Linked (ι : Type) where
  shared : Shared ι := {}
  link : Link := .down

namespace Linked

variable {ι : Type}

/-- The Runtime posts an event that does not lose a state event. -/
def post (s : Linked ι) (kind : EventKind) (values : List PyValue) : Option (Linked ι) :=
  if losesState s.shared.connection.dispatcher (nativeEvent kind ⟨s.shared.clock, values⟩)
      kind.isLatest then none
  else some { s with shared := postEvent s.shared kind values }

/-- The native connection becomes `link`, with the report of that. -/
def report (s : Linked ι) (link : Link) (code : ℤ) : Option (Linked ι) :=
  { s with link := link }.post .state (link.values code)

/-- The native connection that the native call at this place of a call brings about. -/
def effect : Pc → Option Link
  | .connect _ .starting => some .connecting
  | .connect _ (.cancel .disconnect) => some .down
  | .disconnect .native => some .down
  | .disconnect (.cancel _ .disconnect) => some .down
  | _ => none

/-- A step of a thread that calls `connect` and `disconnect`. Native calls succeed; one that changes
the native connection reports it. What happens between the begin and the return of a native call
can as well happen behind its return, so both are one step. -/
def step (errorName : ℤ → String) (mode : AuthMode) (i : ι) (s : Linked ι) (p : Pc)
    (act : CallAction) : Option (Linked ι × Pc) :=
  (callStep errorName s.shared i mode p act).bind fun next =>
    match act with
    | .close => none
    | .native r =>
        if r = .code 0 then
          match effect p with
          | some link =>
              if s.link = link then some ({ s with shared := next.1 }, next.2)
              else (report { s with shared := next.1 } link 0).map fun s => (s, next.2)
          | none => some ({ s with shared := next.1 }, next.2)
        else none
    | _ => some ({ s with shared := next.1 }, next.2)

/-- What the Runtime and the pool do: the native connection is established, drops, or is reported
again; or a step as in `Environment`. -/
inductive Action
  | establish
  | drop (code : ℤ)
  | again (code : ℤ)
  | runtime (e : Environment)

/-- A managed attempt completes with `0` only behind its connection, and with an error only when
there is none. -/
def completes (s : Linked ι) (a : ℕ) (code : ℤ) : Bool :=
  (s.shared.history a).startedAt.isSome &&
    if code = 0 then s.link != .connecting else s.link == .down

/-- A step of the Runtime or the pool. -/
def env (s : Linked ι) : Action → Option (Linked ι)
  | .establish => if s.link = .connecting then s.report .up 0 else none
  | .drop code => if s.link = .down then none else s.report .down code
  | .again code => s.report s.link code
  | .runtime (.post kind values) => if kind = .state then none else s.post kind values
  | .runtime (.managedComplete a code) =>
      if s.completes a code then
        (environmentStep s.shared (.managedComplete a code)).map fun t => { s with shared := t }
      else none
  | .runtime e => (environmentStep s.shared e).map fun t => { s with shared := t }

end Linked

/-- **The calls of `connect` and `disconnect`, with the native connection.** -/
def linkedCalls (ι : Type) (mode : AuthMode) (errorName : ℤ → String) :
    Threads ι (Linked ι) Pc CallAction Linked.Action where
  start s := s = {}
  entry := .idle none
  step i s p act := Linked.step errorName mode i s p act
  env := Linked.env

/-! ### The state events on their way -/

/-- The state events with the handler and in the queue, in their order. -/
def Shared.news {ι : Type} (s : Shared ι) : List ConnectionEvent :=
  s.pending.filter fun event => event.kind = .state

/-- An event is a piece of news if and only if it is a state event on its way. -/
@[simp] theorem mem_news {ι : Type} {s : Shared ι} {event : ConnectionEvent} :
    event ∈ s.news ↔ event ∈ s.pending ∧ event.kind = .state := by
  simp [Shared.news]

/-- The news are those of the handler and those of the queue. -/
theorem news_eq {ι : Type} (s : Shared ι) : s.news =
    s.delivering.toList.filter (·.kind = .state) ++
      s.connection.dispatcher.events.filter (·.kind = .state) := by
  simp [Shared.news, Shared.pending]

section Posts

variable {d : Dispatcher (Tagged (List PyValue))}

/-- **A post of another event** that evicts no state event leaves those of the queue alone. -/
theorem states_other {event : ConnectionEvent} {latest : Bool} (hkind : event.kind ≠ .state)
    (hkeeps : losesState d event latest = false) :
    (d.post event latest).dispatcher.events.filter (·.kind = .state) =
      d.events.filter (·.kind = .state) := by
  have hposted := d.post_spec event latest
  unfold losesState at hkeeps
  generalize hr : d.post event latest = r at hposted hkeeps
  cases hposted with
  | closed => rfl
  | coalesced xs old ys _ hsplit hold =>
      have hold' : old.kind ≠ .state := fun h => hkind (hold.symm.trans h)
      simp [hsplit, List.filter_append, hkind, hold']
  | frameRefused => rfl
  | refused => rfl
  | evicted xs victim ys hnot hframe hfull hsplit hxs hv =>
      have hopen : d.closed = false := by
        rw [← Bool.not_eq_true]
        intro hclosed
        have hpost := hr.symm.trans (Dispatcher.post_of_closed hclosed event latest)
        have haccepted := congrArg (fun r => r.accepted) hpost
        simp [Dispatcher.enqueue] at haccepted
      rw [Dispatcher.victim?_eq_some hopen hnot hframe hfull hsplit hxs hv] at hkeeps
      have hvictim : victim.kind ≠ .state := by simpa using hkeeps
      simp [hsplit, Dispatcher.without, List.filter_append, hkind, hvictim]
  | beyond => simp [List.filter_append, hkind]
  | appended => simp [List.filter_append, hkind]

/-- **A post of a state event** that is not lost makes it the last one of the queue, and at most
overwrites the one that was. -/
theorem states_state {tagged : Tagged (List PyValue)}
    (hkeeps : losesState d (nativeEvent .state tagged) true = false)
    (hframes : ∀ event ∈ d.events, event.kind = .state → event.frame = false) :
    ∃ states, (∀ event ∈ states, event ∈ d.events.filter (·.kind = .state)) ∧
      (d.post (nativeEvent .state tagged) true).dispatcher.events.filter (·.kind = .state) =
        states ++ [nativeEvent .state tagged] := by
  have hposted := d.post_spec (nativeEvent .state tagged) true
  unfold losesState at hkeeps
  generalize hr : d.post (nativeEvent .state tagged) true = r at hposted hkeeps
  have hmarked (d' : Dispatcher (Tagged (List PyValue))) :
      d'.marked (nativeEvent .state tagged) = nativeEvent .state tagged :=
    d'.marked_of_not_frame rfl
  have hstate : (nativeEvent .state tagged).kind = .state := rfl
  cases hposted with
  | closed hclosed =>
      rw [show d.victim? (nativeEvent .state tagged) true = none by
        simp [Dispatcher.victim?, hclosed]] at hkeeps
      simp [hstate] at hkeeps
  | coalesced xs old ys _ hsplit hold hframe hys =>
      refine ⟨xs.filter (·.kind = .state), ?_, ?_⟩
      · intro event hmem
        rw [hsplit]
        rw [List.mem_filter] at hmem ⊢
        exact ⟨List.mem_append_left _ hmem.1, hmem.2⟩
      · have hnone : ys.filter (fun event => decide (event.kind = .state)) = [] := by
          rw [List.filter_eq_nil_iff]
          intro event hmem hkind
          have hkind : event.kind = .state := of_decide_eq_true hkind
          have hnot := hframes event (by simp [hsplit, hmem]) hkind
          rw [hys event hmem hkind] at hnot
          cases hnot
        simp [List.filter_append, hstate, hnone]
  | frameRefused hframe => cases hframe
  | refused hnot hframe hfull hall =>
      rw [Dispatcher.victim?_eq_none (.inr (.inr (.inr hall)))] at hkeeps
      simp [hstate] at hkeeps
  | evicted xs victim ys hnot hframe hfull hsplit hxs hv =>
      refine ⟨(xs ++ ys).filter (·.kind = .state), ?_, ?_⟩
      · intro event hmem
        rw [hsplit]
        rw [List.mem_filter, List.mem_append] at hmem
        rw [List.mem_filter]
        refine ⟨?_, hmem.2⟩
        rcases hmem.1 with h | h
        · exact List.mem_append_left _ h
        · exact List.mem_append_right _ (List.mem_cons_of_mem _ h)
      · simp [Dispatcher.without, List.filter_append, hmarked, hstate]
  | beyond _ _ hterminal => cases hterminal
  | appended =>
      refine ⟨d.events.filter (·.kind = .state), fun event hmem => hmem, ?_⟩
      simp [List.filter_append, hmarked, hstate]

end Posts

end Tirtc
