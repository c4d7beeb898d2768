import Tirtc.Core.Outcome

/-!
# A connect whose native start fails

`_begin_connect` overwrites the reported state, the active attempt and `_disconnect_finished`; when
the native call fails, `connect` puts the active attempt back and sets the state to IDLE, whatever
it was before.

* `handlesState`: the steps that a quiet run leaves out, the handling of a state event.
* `StartPhase`: where a failing `connect` is, by the steps that it still has to take.
* `failed_start_atomic_iff`: it restores what it found if and only if it found IDLE and a
  `_disconnect_finished` that was not set; it never restores the need to disconnect in `close`.
* `failed_start_forgets`: a second `connect` that fails to start on a connected Connection.
-/

set_option autoImplicit false

namespace Tirtc

open Transition

variable {ι : Type} [DecidableEq ι] {mode : AuthMode} {errorName : ℤ → String}
  {c c' : Config ι (Shared ι) Pc}

/-! ### Quiet runs -/

/-- The step hands a state event to the handler. -/
def handlesState (c : Config ι (Shared ι) Pc) : Label ι CallAction Environment → Bool
  | .env .handle => c.shared.delivering.any fun event => (Connection.readState event).isSome
  | _ => false

/-- The steps that threads take in a run. -/
def ownSteps (ls : List (Label ι CallAction Environment)) : List (ι × CallAction) :=
  ls.filterMap fun
    | .thread i a => some (i, a)
    | .env _ => none

/-- What `connect` overwrites, and what it is decided by. -/
structure StartFields where
  state : ConnectionState
  activeConnect : Option ℕ
  disconnectFinished : Bool
  close : CloseCoordinator

/-- These fields of the record. -/
def Shared.startFields (s : Shared ι) : StartFields :=
  ⟨s.connection.state, s.connection.activeConnect, s.connection.disconnectFinished,
    s.connection.close⟩

omit [DecidableEq ι] in
/-- A step of the Runtime or the pool that handles no state event leaves them alone. -/
theorem startFields_environment {s s' : Shared ι} {e : Environment}
    (hquiet : e = .handle → ∀ event, s.delivering = some event →
      Connection.readState event = none)
    (hstep : environmentStep s e = some s') : s'.startFields = s.startFields := by
  cases e with
  | post kind values =>
      cases hstep
      rfl
  | managedComplete a code =>
      simp only [environmentStep] at hstep
      split at hstep
      · cases hstep
        rcases managedComplete_cases s a code with ⟨-, -, heq⟩ | heq
        · rw [heq]
          rfl
        · rw [heq]
      · cases hstep
  | drainBegin =>
      simp only [environmentStep] at hstep
      split at hstep
      · cases hstep
      · cases hstep
        rfl
  | handle =>
      obtain ⟨event, hevent, rfl⟩ := Option.map_eq_some_iff.mp hstep
      have hread := hquiet rfl event hevent
      have hsame : (s.connection.handleEvent event).1 = s.connection := by
        simp [Connection.handleEvent, hread]
      unfold deliver
      rw [hsame]
      split
      · rw [Shared.settle_same rfl]
        rfl
      · rfl
  | drainEnd =>
      simp only [environmentStep] at hstep
      split at hstep
      · cases hstep
        rfl
      · cases hstep

/-! ### The phases of a failing start -/

/-- The fields while the attempt that fails to start is the active one. -/
def StartFields.started (f : StartFields) (a : ℕ) : StartFields :=
  { f with state := .connecting, activeConnect := some a, disconnectFinished := false }

/-- The fields that a failed start leaves. -/
def StartFields.failed (f : StartFields) : StartFields :=
  { f with state := .idle, activeConnect := none, disconnectFinished := false }

/-- Behind `_begin_connect`: it has raised, or the attempt that will fail to start is made. -/
def Starting (f : StartFields) (s : Shared ι) (pc : Pc) : Prop :=
  (∃ e, pc = .idle e) ∨ (f.activeConnect = none ∧ ∃ a,
    pc = .connect a .starting ∧ s.startFields = f.started a)

/-- Where a failing `connect` of thread `i` is, by the steps it still has to take; `f` are the
fields it found. -/
def StartPhase (i : ι) (f : StartFields) (r : NativeResult) (c : Config ι (Shared ι) Pc) :
    List CallAction → Prop
  | [.connect, .native r', .go, .go] =>
      r' = r ∧ (∃ e, c.pc i = .idle e) ∧ c.shared.startFields = f
  | [.native r', .go, .go] => r' = r ∧ Starting f c.shared (c.pc i)
  | [.go, .go] => f.activeConnect = none ∧ ∃ a e,
      c.pc i = .connect a (.rollback e) ∧ c.shared.startFields = f.started a
  | [.go] => f.activeConnect = none ∧ ∃ a e,
      c.pc i = .connect a (.startFinish e) ∧ c.shared.startFields = f.failed
  | [] => f.activeConnect = none ∧ (∃ e, c.pc i = .idle (some e)) ∧
      c.shared.startFields = f.failed
  | _ => False

omit [DecidableEq ι] in
/-- A quiet step of the Runtime or the pool stays in the phase. -/
theorem StartPhase.env {i : ι} {f : StartFields} {r : NativeResult} {rest : List CallAction}
    (hphase : StartPhase i f r c rest) (hpc : c'.pc = c.pc)
    (hfields : c'.shared.startFields = c.shared.startFields) : StartPhase i f r c' rest := by
  unfold StartPhase Starting at hphase ⊢
  rw [hpc, hfields]
  exact hphase

omit [DecidableEq ι] in
/-- `_begin_connect` raises, or it makes the attempt that will fail to start. -/
theorem starting_of_begin {i : ι} {s s' : Shared ι} {pc : Pc}
    (hbegin : connectBegin s i mode = (s', pc)) : Starting s.startFields s' pc := by
  rcases connectBegin_cases s i mode with ⟨e, h⟩ | ⟨-, hnone, h⟩
  · cases h.symm.trans hbegin
    exact .inl ⟨some e, rfl⟩
  · cases h.symm.trans hbegin
    exact .inr ⟨hnone, s.next, rfl, rfl⟩

omit [DecidableEq ι] in
/-- The native call fails: only the flag of the attempt is written. -/
theorem start_fails {i : ι} {s s' : Shared ι} {a : ℕ} {pc : Pc} {r : NativeResult}
    (hfail : r.check errorName ≠ none)
    (hstep : connectStep errorName s i a .starting (.native r) = some (s', pc)) :
    s'.startFields = s.startFields ∧ ∃ e, pc = .connect a (.rollback e) := by
  obtain ⟨e, he⟩ := Option.ne_none_iff_exists'.mp hfail
  simp only [connectStep, he, Option.some.injEq] at hstep
  cases hstep
  exact ⟨rfl, e, rfl⟩

omit [DecidableEq ι] in
/-- The section behind a failed start. -/
theorem rollback_started {f : StartFields} {s : Shared ι} {a : ℕ}
    (hs : s.startFields = f.started a) :
    Shared.startFields { s with connection := s.connection.rollback a } = f.failed := by
  have hactive : s.connection.activeConnect = some a := congrArg StartFields.activeConnect hs
  have hclose : s.connection.close = f.close := congrArg StartFields.close hs
  have hfinished : s.connection.disconnectFinished = false :=
    congrArg StartFields.disconnectFinished hs
  rw [s.connection.rollback_of_active hactive]
  simp [Shared.startFields, StartFields.failed, hclose, hfinished]

/-- A step of the thread goes to the next phase. -/
theorem StartPhase.own {i : ι} {f : StartFields} {r : NativeResult} {a : CallAction}
    {rest : List CallAction} (hfail : r.check errorName ≠ none)
    (hphase : StartPhase i f r c (a :: rest))
    (hstep : (callsMachine ι mode errorName).step c (.thread i a) = some c') :
    StartPhase i f r c' rest := by
  obtain ⟨⟨s', p'⟩, hnext, rfl⟩ := Option.map_eq_some_iff.mp hstep
  replace hnext : callStep errorName c.shared i mode (c.pc i) a = some (s', p') := hnext
  unfold StartPhase at hphase
  split at hphase
  · -- `connect`: `_begin_connect`
    next heq =>
      cases heq
      obtain ⟨rfl, ⟨e, hpc⟩, rfl⟩ := hphase
      rw [hpc] at hnext
      refine ⟨rfl, ?_⟩
      simpa using starting_of_begin (Option.some.inj hnext)
  · next heq =>
      cases heq
      obtain ⟨rfl, ⟨e, hpc⟩ | ⟨hnone, b, hpc, hfields⟩⟩ := hphase
      · rw [hpc] at hnext
        cases hnext
      · rw [hpc] at hnext
        obtain ⟨hsame, e, rfl⟩ := start_fails (i := i) hfail hnext
        exact ⟨hnone, b, e, by simp, hsame.trans hfields⟩
  · next heq =>
      cases heq
      obtain ⟨hnone, b, e, hpc, hfields⟩ := hphase
      rw [hpc] at hnext
      cases hnext
      exact ⟨hnone, b, e, by simp, rollback_started hfields⟩
  · next heq =>
      cases heq
      obtain ⟨hnone, b, e, hpc, hfields⟩ := hphase
      rw [hpc] at hnext
      cases hnext
      exact ⟨hnone, ⟨e, by simp⟩, hfields⟩
  · next heq => cases heq
  · exact hphase.elim

/-- The calls on one Connection, without the steps that handle a state event. -/
abbrev quietCalls (ι : Type) [DecidableEq ι] (mode : AuthMode) (errorName : ℤ → String) :=
  (callsMachine ι mode errorName).guarded fun c l => !handlesState c l

/-- **A failing `connect` goes through its phases** in every quiet run in which no other thread
steps. -/
theorem StartPhase.run {i : ι} {f : StartFields} {r : NativeResult}
    {ls : List (Label ι CallAction Environment)} {rest : List CallAction}
    (hfail : r.check errorName ≠ none) (hown : ownSteps ls = rest.map (i, ·))
    (hrun : (quietCalls ι mode errorName).exec c ls = some c')
    (hphase : StartPhase i f r c rest) : StartPhase i f r c' [] := by
  induction ls generalizing c rest with
  | nil =>
      rcases rest with _ | ⟨a, rest⟩
      · exact Option.some.inj hrun ▸ hphase
      · cases hown
  | cons l ls ih =>
      obtain ⟨d, hd, hrest⟩ := Machine.exec_cons_eq_some.mp hrun
      obtain ⟨hquiet, hd⟩ := Machine.guarded_step_eq_some.mp hd
      rcases l with ⟨j, a⟩ | ⟨e⟩
      · rcases rest with _ | ⟨b, rest⟩
        · cases hown
        · obtain ⟨hl, hls⟩ := List.cons.inj hown
          cases hl
          exact ih hls hrest (hphase.own hfail hd)
      · obtain ⟨s', hs', rfl⟩ := Option.map_eq_some_iff.mp hd
        refine ih hown hrest (hphase.env rfl (startFields_environment ?_ hs'))
        rintro rfl event hevent
        simpa [handlesState, hevent] using hquiet

/-! ### What it restores -/

/-- The steps of a `connect` whose native call gives `r`, up to its end when that is a failure. -/
def failedStart (r : NativeResult) : List CallAction := [.connect, .native r, .go, .go]

/-- The Connection is as if the `connect` of thread `i` between `c` and `c'` had not been called,
apart from the error that it raises. -/
def StartAtomic (i : ι) (c c' : Config ι (Shared ι) Pc) : Prop :=
  (∃ e, c'.pc i = .idle (some e)) ∧
  c'.shared.connection.state = c.shared.connection.state ∧
  c'.shared.connection.activeConnect = c.shared.connection.activeConnect ∧
  c'.shared.connection.disconnectFinished = c.shared.connection.disconnectFinished ∧
  c'.shared.connection.closeDisconnects = c.shared.connection.closeDisconnects

section FailedStart

variable {i : ι} {r : NativeResult} {ls : List (Label ι CallAction Environment)}

/-- **What a failed start leaves**: `connect` raises, no attempt is active, the state is IDLE, and
`close` does not disconnect. -/
theorem failed_start_leaves (hidle : ∃ e, c.pc i = .idle e) (hfail : r.check errorName ≠ none)
    (hown : ownSteps ls = (failedStart r).map (i, ·))
    (hrun : (quietCalls ι mode errorName).exec c ls = some c') :
    c.shared.connection.activeConnect = none ∧ (∃ e, c'.pc i = .idle (some e)) ∧
      c'.shared.startFields = c.shared.startFields.failed :=
  StartPhase.run hfail hown hrun ⟨rfl, hidle, rfl⟩

/-- **A failed start is atomic if and only if** it finds the state IDLE and a
`_disconnect_finished` that is not set. -/
theorem failed_start_atomic_iff (hidle : ∃ e, c.pc i = .idle e)
    (hfail : r.check errorName ≠ none) (hown : ownSteps ls = (failedStart r).map (i, ·))
    (hrun : (quietCalls ι mode errorName).exec c ls = some c') :
    StartAtomic i c c' ↔ c.shared.connection.state = .idle ∧
      c.shared.connection.disconnectFinished = false := by
  obtain ⟨hnone, hraises, hfields⟩ := failed_start_leaves hidle hfail hown hrun
  have hstate : c'.shared.connection.state = .idle := congrArg StartFields.state hfields
  have hactive : c'.shared.connection.activeConnect = none :=
    congrArg StartFields.activeConnect hfields
  have hfinished : c'.shared.connection.disconnectFinished = false :=
    congrArg StartFields.disconnectFinished hfields
  constructor
  · rintro ⟨-, hsame, -, hsame', -⟩
    exact ⟨hsame.symm.trans hstate, hsame'.symm.trans hfinished⟩
  · rintro ⟨hidle', hfinished'⟩
    refine ⟨hraises, hstate.trans hidle'.symm, hactive.trans hnone.symm,
      hfinished.trans hfinished'.symm, ?_⟩
    unfold Connection.closeDisconnects
    rw [hstate, hfinished, hidle', hfinished']

/-- Behind a failed start `close` never disconnects, whatever it would have done before. -/
theorem failed_start_disarms (hidle : ∃ e, c.pc i = .idle e) (hfail : r.check errorName ≠ none)
    (hown : ownSteps ls = (failedStart r).map (i, ·))
    (hrun : (quietCalls ι mode errorName).exec c ls = some c') :
    c'.shared.connection.closeDisconnects = false := by
  obtain ⟨-, -, hfields⟩ := failed_start_leaves hidle hfail hown hrun
  have hstate : c'.shared.connection.state = .idle := congrArg StartFields.state hfields
  unfold Connection.closeDisconnects
  rw [hstate]
  simp

end FailedStart

/-- The first `connect` fails to start, and leaves nothing behind. -/
theorem failed_start_atomic_first : ∃ c c' : Config Unit (Shared Unit) Pc,
    c.shared.connection.state = .idle ∧ c.shared.connection.disconnectFinished = false ∧
      StartAtomic () c c' := by
  have hrun : ((quietCalls Unit .externalToken fun _ => "").exec ⟨{}, fun _ => .idle none⟩
      ((failedStart (.code 6028)).map (.thread ()))).isSome = true := by decide +kernel
  obtain ⟨c', hc'⟩ := Option.isSome_iff_exists.mp hrun
  refine ⟨⟨{}, fun _ => .idle none⟩, c', rfl, rfl, ?_⟩
  exact (failed_start_atomic_iff ⟨none, rfl⟩ (by decide) rfl hc').mpr ⟨rfl, rfl⟩

/-- A state event arrives and is handled. -/
def stateEvent (state code : ℤ) : List Environment :=
  [.post .state [.int state, .int code], .drainBegin, .handle, .drainEnd]

/-- A `connect` that ends well. -/
def connectRun : List (Label Unit CallAction Environment) :=
  [.thread () .connect, .thread () nativeOk] ++ (stateEvent 2 0).map .env ++
    List.replicate 6 (.thread () .go)

/-- **A failed start forgets the connection**: a reachable, connected Connection on which no call
is in progress; after a `connect` that fails to start it reports IDLE, and `close`, which would
have disconnected it, does not any more. -/
theorem failed_start_forgets : ∃ c c' : Config Unit (Shared Unit) Pc,
    (callsMachine Unit .externalToken fun _ => "").Reach c ∧ c.pc () = .idle none ∧
      (quietCalls Unit .externalToken fun _ => "").exec c
        ((failedStart (.code 6028)).map (.thread ())) = some c' ∧
      ¬ StartAtomic () c c' ∧
      c.shared.connection.state = .connected ∧ c'.shared.connection.state = .idle ∧
      c.shared.connection.closeDisconnects = true ∧
      c'.shared.connection.closeDisconnects = false := by
  have hrun : ((callsMachine Unit .externalToken fun _ => "").exec ⟨{}, fun _ => .idle none⟩
      connectRun).any (fun c => decide (c.pc () = .idle none ∧
        c.shared.connection.state = .connected ∧ c.shared.connection.closeDisconnects = true ∧
        ((quietCalls Unit .externalToken fun _ => "").exec c
          ((failedStart (.code 6028)).map (.thread ()))).any fun c' => decide
            (c'.shared.connection.state = .idle ∧
              c'.shared.connection.closeDisconnects = false))) = true := by
    decide +kernel
  obtain ⟨c, hc, hend⟩ := exists_calls hrun
  obtain ⟨hpc, hstate, hdisconnects, hnext⟩ := of_decide_eq_true hend
  obtain ⟨c', hc', hend'⟩ := (Option.any_eq_true _ _).mp hnext
  obtain ⟨hstate', hdisconnects'⟩ := of_decide_eq_true hend'
  refine ⟨c, c', hc, hpc, hc', fun h => ?_, hstate, hstate', hdisconnects, hdisconnects'⟩
  have hsame := h.2.1
  rw [hstate, hstate'] at hsame
  cases hsame

end Tirtc
