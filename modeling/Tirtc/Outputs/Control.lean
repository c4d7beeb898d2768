import Tirtc.Outputs.Bindings

/-!
# Who may do what with an Output

What the locks, the `_detaching` flags and the coordinators keep apart, in every interleaving: the
thread in `attach` has an open Output without a binding, a thread in a detach its binding, and the
thread that closes an Output the binding it has read, or none.

* `Moves`, `bindingStep_cases`: the steps, inverted.
* `OutputOk`: the invariant of an Output; `DetachAt`, `CloseAt`, `ParentAt`, `At`: what a thread
  knows at its place.
* `Keeps`, `KeepsParent`: what a step of one thread leaves to the others.
* `Good`, `moves_good`: every step keeps all of it; `control`: the rely-guarantee proof.
-/

set_option autoImplicit false
set_option linter.unusedSectionVars false

namespace Tirtc.Outputs

open Transition

variable {O P ι : Type} [DecidableEq O] [DecidableEq P] {errorName : ℤ → String}
  {s s' : Bindings O P ι} {i : ι}

/-! ## The steps -/

/-- **What a step of thread `i` can do**: where it is, what moves it, what becomes of the records,
and where it goes. -/
inductive Moves (s : Bindings O P ι) (i : ι) :
    BindingPc O P → BindingAction O P → Bindings O P ι → BindingPc O P → Prop
  | refused (raised raised' : Option PyError) (act : BindingAction O P) :
      Moves s i (.idle raised) act s (.idle raised')
  | attach (raised : Option PyError) (o : O) (p : P) :
      (s.output o).lock = none → (s.output o).close.status = .open → (s.output o).bound = none →
      Moves s i (.idle raised) (.attach o p) (s.setOutput o { s.output o with lock := some i })
        (.attach o p .add)
  | notAdded (o : O) (p : P) (busy : Bool) (e : PyError) :
      Moves s i (.attach o p .add) (.add busy) s (.attach o p (.release e))
  | added (o : O) (p : P) (busy : Bool) : (s.parent p).close.status = .open →
      Moves s i (.attach o p .add) (.add busy)
        (s.setParent p { s.parent p with outputs := insert o (s.parent p).outputs })
        (.attach o p .native)
  | attached (o : O) (p : P) (timedOut : Bool) :
      Moves s i (.attach o p .native) (.native (.code 0) timedOut)
        (s.setOutput o { s.output o with
          attached := some p
          bound := some p
          nativeDetached := false
          lock := none }) (.idle none)
  | notAttached (o : O) (p : P) (r : NativeResult) (timedOut : Bool) (e : PyError) : r ≠ .code 0 →
      Moves s i (.attach o p .native) (.native r timedOut) s (.attach o p (.failed e))
  | withdrawn (o : O) (p : P) (e : PyError) :
      Moves s i (.attach o p (.failed e)) .go (s.discard p o) (.attach o p (.release e))
  | released (o : O) (p : P) (e : PyError) :
      Moves s i (.attach o p (.release e)) .go (s.setOutput o { s.output o with lock := none })
        (.idle (some e))
  | detach (raised : Option PyError) (o : O) (p : P) (callback : Bool) :
      (s.output o).lock = none → (s.output o).close.status = .open →
      (s.output o).bound = some p → (s.output o).detaching = false →
      Moves s i (.idle raised) (.detach o callback)
        (s.setOutput o { s.output o with lock := some i }) (.detach o p none .native)
  | detachAgain (o : O) (p : P) (origin : Option (ℕ × List O)) (r : NativeResult)
      (timedOut : Bool) : r ≠ .code 0 →
      Moves s i (.detach o p origin .native) (.native r timedOut)
        (s.setOutput o ((s.output o).nativeDetach r)) (.detach o p origin .native)
  | detached (o : O) (p : P) (origin : Option (ℕ × List O)) (timedOut : Bool) :
      Moves s i (.detach o p origin .native) (.native (.code 0) timedOut)
        (s.setOutput o { (s.output o).nativeDetach (.code 0) with
          detaching := true
          lock := none
          detacher := some i }) (.detach o p origin .barrier)
  | notDetached (o : O) (p : P) (origin : Option (ℕ × List O)) (r : NativeResult)
      (timedOut : Bool) (e : PyError) : r ≠ .code 0 →
      Moves s i (.detach o p origin .native) (.native r timedOut)
        (s.setOutput o { (s.output o).nativeDetach r with lock := none }) (.raised p origin e)
  | unbound (o : O) (p : P) (origin : Option (ℕ × List O)) : (s.output o).lock = none →
      Moves s i (.detach o p origin .barrier) .go
        (s.setOutput o { s.output o with bound := none, detaching := false, detacher := none })
        (.detach o p origin .leave)
  | left (o : O) (p : P) (origin : Option (ℕ × List O)) :
      Moves s i (.detach o p origin .leave) .go
        (s.setParent p { s.parent p with
          outputs := (s.parent p).outputs.erase o
          remaining := match origin with
            | none => (s.parent p).remaining
            | some (_, rest) => rest }) (.returned p origin)
  | joined (raised : Option PyError) (o : O) (callback : Bool) (g : ℕ) (close : CloseCoordinator) :
      (s.output o).lock = none → close.status = (s.output o).close.status →
      Moves s i (.idle raised) (.closeOutput o callback)
        (s.setOutput o { s.output o with close := close }) (.joinOutput o g)
  | woken (o : O) (g : ℕ) (close : CloseCoordinator) (raised : Option PyError) :
      (s.output o).lock = none → close.status = (s.output o).close.status →
      Moves s i (.joinOutput o g) .go (s.setOutput o { s.output o with close := close })
        (.idle raised)
  | closes (raised : Option PyError) (o : O) (callback : Bool) (g : ℕ) (close : CloseCoordinator) :
      (s.output o).lock = none → (s.output o).detaching = false →
      ((s.output o).close.status = .open ∨ (s.output o).close.status = .closeFailed) →
      close.status = .closing →
      Moves s i (.idle raised) (.closeOutput o callback)
        (s.setOutput o { s.output o with close := close, closer := some i })
        (.closeOutput o g (s.output o).bound .dispatcher)
  | toDetach (o : O) (g : ℕ) (p : P) : (s.output o).nativeDetached = false →
      Moves s i (.closeOutput o g (some p) .dispatcher) .go s (.closeOutput o g (some p) .detach)
  | toDestroy (o : O) (g : ℕ) (bound : Option P) :
      (bound.isSome = true → (s.output o).nativeDetached = true) →
      Moves s i (.closeOutput o g bound .dispatcher) .go s (.closeOutput o g bound .destroy)
  | closeDetachAgain (o : O) (g : ℕ) (bound : Option P) (r : NativeResult) (timedOut : Bool) :
      r ≠ .code 0 →
      Moves s i (.closeOutput o g bound .detach) (.native r timedOut)
        (s.setOutput o ((s.output o).nativeDetach r)) (.closeOutput o g bound .detach)
  | closeDetached (o : O) (g : ℕ) (bound : Option P) (timedOut : Bool) :
      Moves s i (.closeOutput o g bound .detach) (.native (.code 0) timedOut)
        (s.setOutput o { (s.output o).nativeDetach (.code 0) with nativeDetached := true })
        (.closeOutput o g bound .destroy)
  | closeNotDetached (o : O) (g : ℕ) (bound : Option P) (r : NativeResult) (timedOut : Bool)
      (e : PyError) : r ≠ .code 0 →
      Moves s i (.closeOutput o g bound .detach) (.native r timedOut)
        (s.setOutput o ((s.output o).nativeDetach r)) (.closeOutput o g bound (.fail e))
  | destroyed (o : O) (g : ℕ) (bound : Option P) (timedOut : Bool) :
      Moves s i (.closeOutput o g bound .destroy) (.native (.code 0) timedOut)
        (s.setOutput o { s.output o with destroyed := true }) (.closeOutput o g bound .unbind)
  | notDestroyed (o : O) (g : ℕ) (bound : Option P) (r : NativeResult) (timedOut : Bool)
      (e : PyError) :
      Moves s i (.closeOutput o g bound .destroy) (.native r timedOut) s
        (.closeOutput o g bound (.fail e))
  | closeUnbound (o : O) (g : ℕ) (bound : Option P) : (s.output o).lock = none →
      Moves s i (.closeOutput o g bound .unbind) .go
        (s.setOutput o { s.output o with bound := none }) (.closeOutput o g bound .leave)
  | closeLeft (o : O) (g : ℕ) (p : P) :
      Moves s i (.closeOutput o g (some p) .leave) .go (s.discard p o)
        (.closeOutput o g (some p) .succeed)
  | closeUnheld (o : O) (g : ℕ) :
      Moves s i (.closeOutput o g none .leave) .go s (.closeOutput o g none .succeed)
  | closed (o : O) (g : ℕ) (bound : Option P) : (s.output o).lock = none →
      Moves s i (.closeOutput o g bound .succeed) .go
        (s.setOutput o { s.output o with
          close := (s.output o).close.succeed g
          closer := none }) (.idle none)
  | closeFailed (o : O) (g : ℕ) (bound : Option P) (e : PyError) : (s.output o).lock = none →
      Moves s i (.closeOutput o g bound (.fail e)) .go
        (s.setOutput o { s.output o with
          close := (s.output o).close.fail g e
          closer := none }) (.idle (some e))
  | parentJoined (raised : Option PyError) (p : P) (order : List O) (callback : Bool) (g : ℕ)
      (close : CloseCoordinator) : close.status = (s.parent p).close.status →
      Moves s i (.idle raised) (.closeParent p order callback)
        (s.setParent p { s.parent p with close := close }) (.joinParent p g)
  | parentWoken (p : P) (g : ℕ) (close : CloseCoordinator) (raised : Option PyError) :
      close.status = (s.parent p).close.status →
      Moves s i (.joinParent p g) .go (s.setParent p { s.parent p with close := close })
        (.idle raised)
  | parentCloses (raised : Option PyError) (p : P) (order : List O) (callback : Bool) (g : ℕ)
      (close : CloseCoordinator) : order.toFinset = (s.parent p).outputs →
      ((s.parent p).close.status = .open ∨ (s.parent p).close.status = .closeFailed) →
      close.status = .closing →
      Moves s i (.idle raised) (.closeParent p order callback)
        (s.setParent p { s.parent p with close := close, closer := some i, remaining := order })
        (.closeParent p g (.outputs order))
  | skipped (p : P) (g : ℕ) (o : O) (rest : List O) (callback : Bool) :
      (s.output o).lock = none → (s.output o).bound ≠ some p →
      Moves s i (.closeParent p g (.outputs (o :: rest))) (.next callback)
        (s.setParent p { s.parent p with remaining := rest }) (.closeParent p g (.outputs rest))
  | fromParent (p : P) (g : ℕ) (o : O) (rest : List O) (callback : Bool) :
      (s.output o).lock = none → (s.output o).bound = some p → (s.output o).detaching = false →
      Moves s i (.closeParent p g (.outputs (o :: rest))) (.next callback)
        (s.setOutput o { s.output o with lock := some i })
        (.detach o p (some (g, rest)) .native)
  | parentFails (p : P) (g : ℕ) (rest : List O) (act : BindingAction O P) (e : PyError) :
      Moves s i (.closeParent p g (.outputs rest)) act s (.closeParent p g (.fail e))
  | parentDestroyed (p : P) (g : ℕ) (act : BindingAction O P) :
      Moves s i (.closeParent p g (.outputs [])) act s (.closeParent p g .succeed)
  | parentClosed (p : P) (g : ℕ) (childError : Option PyError) :
      Moves s i (.closeParent p g .succeed) (.report childError)
        (s.setParent p { s.parent p with
          close := (s.parent p).close.succeed g childError
          closer := none }) (.idle childError)
  | parentFailed (p : P) (g : ℕ) (e : PyError) :
      Moves s i (.closeParent p g (.fail e)) .go
        (s.setParent p { s.parent p with
          close := (s.parent p).close.fail g e
          closer := none }) (.idle (some e))

/-- **The steps, inverted.** -/
theorem bindingStep_cases {pc pc' : BindingPc O P} {act : BindingAction O P}
    (h : bindingStep errorName s i pc act = some (s', pc')) : Moves s i pc act s' pc' := by
  cases pc with
  | idle raised =>
      cases act with
      | attach o p =>
          simp only [bindingStep, attachBegin] at h
          split at h
          · cases h
          next hlock =>
            split at h
            · cases h
              exact .refused _ _ _
            next hopen =>
              split at h
              · cases h
                exact .refused _ _ _
              next hbound =>
                cases h
                exact .attach raised o p (by simpa using hlock)
                  (CloseCoordinator.requireOpen_eq_none.mp hopen) (by simpa using hbound)
      | detach o callback =>
          simp only [bindingStep, detachBegin] at h
          split at h
          · cases h
          next hlock =>
            split at h
            · cases h
              exact .refused _ _ _
            next hopen =>
              split at h
              · cases h
                exact .refused _ _ _
              next p hbound =>
                split at h
                · cases h
                  exact .refused _ _ _
                next hfree =>
                  cases h
                  simp only [Bool.or_eq_true, not_or, Bool.not_eq_true] at hfree
                  exact .detach raised o p callback (by simpa using hlock)
                    (CloseCoordinator.requireOpen_eq_none.mp hopen) hbound hfree.1
      | closeOutput o callback =>
          simp only [bindingStep, closeOutputBegin] at h
          split at h
          · cases h
          next hlock =>
            split at h
            · cases h
              exact .refused _ _ _
            next hfree =>
              simp only [Bool.or_eq_true, not_or, Bool.not_eq_true] at hfree
              have hlock : (s.output o).lock = none := by simpa using hlock
              rcases (s.output o).close.begin_cases false with ⟨hst, hbegin⟩ | ⟨hst, hbegin⟩ |
                ⟨hst, hbegin⟩ | ⟨hst, hbegin⟩
              all_goals
                rw [hbegin] at h
                cases h
              · exact .joined raised o callback _ _ hlock rfl
              · exact .refused _ _ _
              · exact .refused _ _ _
              · exact .closes raised o callback _ _ hlock hfree.1 hst rfl
      | closeParent p order callback =>
          simp only [bindingStep, closeParentBegin] at h
          split at h
          · cases h
            exact .refused _ _ _
          · split at h
            next horder =>
              rcases (s.parent p).close.begin_cases false with ⟨hst, hbegin⟩ | ⟨hst, hbegin⟩ |
                ⟨hst, hbegin⟩ | ⟨hst, hbegin⟩
              all_goals
                rw [hbegin] at h
                cases h
              · exact .parentJoined raised p order callback _ _ rfl
              · exact .refused _ _ _
              · exact .refused _ _ _
              · exact .parentCloses raised p order callback _ _ horder.2 hst rfl
            next => cases h
      | _ => cases h
  | attach o p stage =>
      cases stage with
      | add =>
          cases act with
          | add busy =>
              simp only [bindingStep, attachStep] at h
              split at h
              · cases h
                exact .notAdded _ _ _ _
              · split at h
                · cases h
                  exact .notAdded _ _ _ _
                next hopen =>
                  cases h
                  exact .added o p busy (CloseCoordinator.requireOpen_eq_none.mp hopen)
          | _ => cases h
      | native =>
          cases act with
          | native r timedOut =>
              simp only [bindingStep, attachStep] at h
              split at h
              next hr =>
                cases h
                obtain rfl := NativeResult.check_eq_none.mp hr
                exact .attached o p timedOut
              next e hr =>
                cases h
                refine .notAttached o p r timedOut e ?_
                intro hcode
                rw [NativeResult.check_eq_none.mpr hcode] at hr
                cases hr
          | _ => cases h
      | failed e =>
          cases act with
          | go =>
              cases h
              exact .withdrawn o p e
          | _ => cases h
      | release e =>
          cases act with
          | go =>
              cases h
              exact .released o p e
          | _ => cases h
  | detach o p origin stage =>
      cases stage with
      | native =>
          cases act with
          | native r timedOut =>
              simp only [bindingStep, detachStep] at h
              split at h
              next hagain =>
                cases h
                exact .detachAgain o p origin r timedOut (by simp [hagain.1])
              next =>
                split at h
                next hr =>
                  cases h
                  obtain rfl := NativeResult.retryInUse_eq_none.mp hr
                  exact .detached o p origin timedOut
                next e hr =>
                  cases h
                  refine .notDetached o p origin r timedOut e ?_
                  intro hcode
                  rw [NativeResult.retryInUse_eq_none.mpr hcode] at hr
                  cases hr
          | _ => cases h
      | barrier =>
          cases act with
          | go =>
              simp only [bindingStep, detachStep] at h
              split at h
              · cases h
              next hlock =>
                cases h
                exact .unbound o p origin (by simpa using hlock)
          | _ => cases h
      | leave =>
          cases act with
          | go =>
              cases h
              have hleft := Moves.left (s := s) (i := i) o p origin
              cases origin with
              | none => simpa [Bindings.discard, Bindings.setParent] using hleft
              | some back => simpa [Bindings.discard, Bindings.setParent] using hleft
          | _ => cases h
  | joinOutput o g =>
      cases act with
      | go =>
          simp only [bindingStep, wakeOutput] at h
          split at h
          · cases h
          next hlock =>
            obtain ⟨error, -, h⟩ := Option.bind_eq_some_iff.mp h
            obtain ⟨close, hleave, h⟩ := Option.map_eq_some_iff.mp h
            cases h
            exact .woken o g close _ (by simpa using hlock) ((s.output o).close.leave_spec hleave).1
      | _ => cases h
  | closeOutput o g bound stage =>
      cases stage with
      | dispatcher =>
          cases act with
          | go =>
              simp only [bindingStep, closeOutputStep] at h
              split at h
              next hdetach =>
                cases h
                simp only [Bool.and_eq_true, Bool.not_eq_true'] at hdetach
                obtain ⟨p, rfl⟩ := Option.isSome_iff_exists.mp hdetach.1
                exact .toDetach o g p hdetach.2
              next hdetach =>
                cases h
                exact .toDestroy o g bound (by simpa using hdetach)
          | _ => cases h
      | detach =>
          cases act with
          | native r timedOut =>
              simp only [bindingStep, closeOutputStep] at h
              split at h
              next hagain =>
                cases h
                exact .closeDetachAgain o g bound r timedOut (by simp [hagain.1])
              next =>
                split at h
                next hr =>
                  cases h
                  obtain rfl := NativeResult.retryInUse_eq_none.mp hr
                  exact .closeDetached o g bound timedOut
                next e hr =>
                  cases h
                  refine .closeNotDetached o g bound r timedOut e ?_
                  intro hcode
                  rw [NativeResult.retryInUse_eq_none.mpr hcode] at hr
                  cases hr
          | _ => cases h
      | destroy =>
          cases act with
          | native r timedOut =>
              simp only [bindingStep, closeOutputStep] at h
              split at h
              next hr =>
                cases h
                obtain rfl := NativeResult.retryInUse_eq_none.mp hr
                exact .destroyed o g bound timedOut
              next =>
                cases h
                exact .notDestroyed o g bound r timedOut _
          | _ => cases h
      | unbind =>
          cases act with
          | go =>
              simp only [bindingStep, closeOutputStep] at h
              split at h
              · cases h
              next hlock =>
                cases h
                exact .closeUnbound o g bound (by simpa using hlock)
          | _ => cases h
      | leave =>
          cases act with
          | go =>
              cases bound with
              | some p =>
                  cases h
                  exact .closeLeft o g p
              | none =>
                  cases h
                  exact .closeUnheld o g
          | _ => cases h
      | succeed =>
          cases act with
          | go =>
              simp only [bindingStep, closeOutputStep] at h
              split at h
              · cases h
              next hlock =>
                cases h
                exact .closed o g bound (by simpa using hlock)
          | _ => cases h
      | fail e =>
          cases act with
          | go =>
              simp only [bindingStep, closeOutputStep] at h
              split at h
              · cases h
              next hlock =>
                cases h
                exact .closeFailed o g bound e (by simpa using hlock)
          | _ => cases h
  | joinParent p g =>
      cases act with
      | go =>
          simp only [bindingStep, wakeParent] at h
          obtain ⟨error, -, h⟩ := Option.bind_eq_some_iff.mp h
          obtain ⟨close, hleave, h⟩ := Option.map_eq_some_iff.mp h
          cases h
          exact .parentWoken p g close _ ((s.parent p).close.leave_spec hleave).1
      | _ => cases h
  | closeParent p g stage =>
      cases stage with
      | outputs rest =>
          cases act with
          | next callback =>
              cases rest with
              | nil => cases h
              | cons o rest =>
                  simp only [bindingStep, closeParentStep, detachFromParent] at h
                  split at h
                  · cases h
                  next hlock =>
                    have hlock : (s.output o).lock = none := by simpa using hlock
                    split at h
                    next hbound =>
                      cases h
                      exact .skipped p g o rest callback hlock hbound
                    next hbound =>
                      split at h
                      · cases h
                        exact .parentFails p g _ _ _
                      next hfree =>
                        cases h
                        simp only [Bool.or_eq_true, not_or, Bool.not_eq_true] at hfree
                        exact .fromParent p g o rest callback hlock (not_not.mp hbound) hfree.1
          | native r timedOut =>
              cases rest with
              | nil =>
                  simp only [bindingStep, closeParentStep] at h
                  split at h
                  · cases h
                    exact .parentDestroyed p g _
                  · cases h
                    exact .parentFails p g _ _ _
              | cons o rest => cases h
          | other e =>
              cases rest with
              | nil =>
                  cases h
                  exact .parentFails p g _ _ _
              | cons o rest =>
                  cases h
                  exact .parentFails p g _ _ _
          | _ =>
              cases rest with
              | nil => cases h
              | cons o rest => cases h
      | succeed =>
          cases act with
          | report childError =>
              cases h
              exact .parentClosed p g childError
          | _ => cases h
      | fail e =>
          cases act with
          | go =>
              cases h
              exact .parentFailed p g e
          | _ => cases h

/-! ## What a thread knows at its place -/

/-- The invariant of an Output. -/
def OutputOk (out : Output P ι) : Prop := out.close.status = .closed → out.bound = none

/-- What the thread in a detach knows of the Output; `app` says that it is a call of `detach`. -/
def DetachAt (i : ι) (out : Output P ι) (p : P) (app : Bool) : DetachStage → Prop
  | .native =>
      out.lock = some i ∧ out.bound = some p ∧ out.detaching = false ∧
        (app = true → out.close.status = .open)
  | .barrier =>
      out.detacher = some i ∧ out.detaching = true ∧
        (out.bound = some p ∨ (out.bound = none ∧ out.close.status ≠ .open))
  | .leave => True

/-- What the thread that closes an Output knows of it. -/
def CloseAt (i : ι) (out : Output P ι) (bound : Option P) : OutputCloseStage → Prop
  | .dispatcher | .detach | .destroy | .unbind | .fail _ =>
      (out.closer = some i ∧ out.close.status = .closing) ∧ (out.bound = bound ∨ out.bound = none)
  | .leave | .succeed =>
      (out.closer = some i ∧ out.close.status = .closing) ∧ out.bound = none

/-- What the thread that closes a parent knows of it, with the Outputs still to be detached. -/
def ParentAt (i : ι) (par : Parent O ι) (rest : Option (List O)) : Prop :=
  par.closer = some i ∧ par.close.status = .closing ∧ ∀ l, rest = some l → par.remaining = l

/-- What thread `i` knows at its place. -/
def At (i : ι) (s : Bindings O P ι) : BindingPc O P → Prop
  | .idle _ | .joinOutput _ _ | .joinParent _ _ => True
  | .attach o _ _ =>
      (s.output o).lock = some i ∧ (s.output o).bound = none ∧ (s.output o).close.status = .open
  | .detach o p none stage => DetachAt i (s.output o) p true stage
  | .detach o p (some (_, rest)) stage =>
      DetachAt i (s.output o) p false stage ∧ ParentAt i (s.parent p) (some (o :: rest))
  | .closeOutput o _ bound stage => CloseAt i (s.output o) bound stage
  | .closeParent p _ (.outputs rest) => ParentAt i (s.parent p) (some rest)
  | .closeParent p _ .succeed => ParentAt i (s.parent p) (some [])
  | .closeParent p _ (.fail _) => ParentAt i (s.parent p) none

/-- What it knows of the Output in a detach. -/
theorem At.detach {o : O} {p : P} {origin : Option (ℕ × List O)} {stage : DetachStage}
    (h : At i s (.detach o p origin stage)) :
    DetachAt i (s.output o) p origin.isNone stage := by
  cases origin with
  | none => exact h
  | some back => exact h.1

/-! ## What a step leaves to the others -/

/-- **What a step of `k` leaves to the others** in an Output: who has the lock, who detaches and who
closes keeps it, and the binding goes only where one of these three lets it go. -/
structure Keeps (k : Option ι) (out out' : Output P ι) : Prop where
  lock : ∀ j, k ≠ some j → out.lock = some j → out'.lock = some j ∧ out'.bound = out.bound ∧
    out'.detaching = out.detaching ∧ out'.close.status = out.close.status
  detacher : ∀ j, k ≠ some j → out.detacher = some j → out.detaching = true →
    out'.detacher = some j ∧ out'.detaching = true
  closer : ∀ j, k ≠ some j → out.closer = some j → out.close.status = .closing →
    out'.closer = some j ∧ out'.close.status = .closing
  bound : out'.bound = out.bound ∨
    (out'.bound = none ∧ ((∃ j, out.detacher = some j ∧ k = some j) ∨ out.close.status ≠ .open)) ∨
    (out.bound = none ∧ out.close.status = .open)
  status : out.close.status ≠ .open → out'.close.status ≠ .open

/-- What a step of `k` leaves to the others in a parent: its teardown, and no way back. -/
structure KeepsParent (k : Option ι) (par par' : Parent O ι) : Prop where
  closer : ∀ j, k ≠ some j → par.closer = some j → par.close.status = .closing →
    par'.closer = some j ∧ par'.close.status = .closing ∧ par'.remaining = par.remaining
  status : par.close.status ≠ .open → par'.close.status ≠ .open
  outputs : par.close.status ≠ .open → par'.outputs ⊆ par.outputs

theorem Keeps.refl (k : Option ι) (out : Output P ι) : Keeps k out out where
  lock _ _ h := ⟨h, rfl, rfl, rfl⟩
  detacher _ _ h h' := ⟨h, h'⟩
  closer _ _ h h' := ⟨h, h'⟩
  bound := .inl rfl
  status h := h

theorem KeepsParent.refl (k : Option ι) (par : Parent O ι) : KeepsParent k par par where
  closer _ _ h h' := ⟨h, h', rfl⟩
  status h := h
  outputs _ := Finset.Subset.refl _

/-- What a thread in a detach knows, no other thread takes back. -/
theorem DetachAt.stable {j : ι} {k : Option ι} {out out' : Output P ι} {p : P} {app : Bool}
    {stage : DetachStage} (hk : k ≠ some j) (h : Keeps k out out')
    (hA : DetachAt j out p app stage) : DetachAt j out' p app stage := by
  cases stage with
  | native =>
      obtain ⟨hlock, hbound, hdetaching, hopen⟩ := hA
      obtain ⟨hlock', hbound', hdetaching', hstatus'⟩ := h.lock j hk hlock
      exact ⟨hlock', hbound'.trans hbound, hdetaching'.trans hdetaching,
        fun happ => hstatus'.trans (hopen happ)⟩
  | barrier =>
      obtain ⟨hdetacher, hdetaching, hbound⟩ := hA
      obtain ⟨hdetacher', hdetaching'⟩ := h.detacher j hk hdetacher hdetaching
      refine ⟨hdetacher', hdetaching', ?_⟩
      rcases h.bound with heq | ⟨hnone, ⟨l, hl, rfl⟩ | hstatus⟩ | ⟨hnone, hopen⟩
      · rw [heq]
        exact hbound.imp id fun hnone => ⟨hnone.1, h.status hnone.2⟩
      · -- nobody else detaches
        rw [hdetacher] at hl
        exact absurd hl.symm hk
      · exact .inr ⟨hnone, h.status hstatus⟩
      · rcases hbound with hbound | ⟨-, hstatus⟩
        · rw [hnone] at hbound
          cases hbound
        · exact absurd hopen hstatus
  | leave => trivial

/-- What the thread that closes an Output knows, no other thread takes back. -/
theorem CloseAt.stable {j : ι} {k : Option ι} {out out' : Output P ι} {bound : Option P}
    {stage : OutputCloseStage} (hk : k ≠ some j) (h : Keeps k out out')
    (hA : CloseAt j out bound stage) : CloseAt j out' bound stage := by
  have hgoes : out.close.status = .closing → out'.bound = out.bound ∨ out'.bound = none := by
    intro hstatus
    rcases h.bound with heq | ⟨hnone, -⟩ | ⟨-, hopen⟩
    · exact .inl heq
    · exact .inr hnone
    · rw [hstatus] at hopen
      cases hopen
  cases stage with
  | dispatcher | detach | destroy | unbind | fail _ =>
      obtain ⟨⟨hcloser, hstatus⟩, hbound⟩ := hA
      refine ⟨h.closer j hk hcloser hstatus, ?_⟩
      rcases hgoes hstatus with heq | hnone
      · rw [heq]
        exact hbound
      · exact .inr hnone
  | leave | succeed =>
      obtain ⟨⟨hcloser, hstatus⟩, hbound⟩ := hA
      refine ⟨h.closer j hk hcloser hstatus, ?_⟩
      rcases hgoes hstatus with heq | hnone
      · exact heq.trans hbound
      · exact hnone

/-- What the thread that closes a parent knows, no other thread takes back. -/
theorem ParentAt.stable {j : ι} {k : Option ι} {par par' : Parent O ι} {rest : Option (List O)}
    (hk : k ≠ some j) (h : KeepsParent k par par') (hA : ParentAt j par rest) :
    ParentAt j par' rest := by
  obtain ⟨hcloser, hstatus, hrest⟩ := hA
  obtain ⟨hcloser', hstatus', hremaining⟩ := h.closer j hk hcloser hstatus
  exact ⟨hcloser', hstatus', fun l hl => hremaining.trans (hrest l hl)⟩

/-- What a thread knows, no other thread takes back. -/
theorem At.stable {j : ι} {k : Option ι} {pc : BindingPc O P} (hk : k ≠ some j)
    (h : ∀ o, Keeps k (s.output o) (s'.output o))
    (hparent : ∀ p, KeepsParent k (s.parent p) (s'.parent p)) (hA : At j s pc) : At j s' pc := by
  cases pc with
  | idle _ | joinOutput _ _ | joinParent _ _ => trivial
  | attach o p stage =>
      obtain ⟨hlock, hbound, hstatus⟩ := hA
      obtain ⟨hlock', hbound', -, hstatus'⟩ := (h o).lock j hk hlock
      exact ⟨hlock', hbound'.trans hbound, hstatus'.trans hstatus⟩
  | detach o p origin stage =>
      cases origin with
      | none => exact DetachAt.stable hk (h o) hA
      | some back => exact ⟨hA.1.stable hk (h o), hA.2.stable hk (hparent p)⟩
  | closeOutput o g bound stage => exact CloseAt.stable hk (h o) hA
  | closeParent p g stage =>
      cases stage with
      | outputs _ | succeed | fail _ => exact ParentAt.stable hk (hparent p) hA

/-! ## Every step keeps it -/

/-- What a step of thread `i` to `pc` owes. -/
structure Good (i : ι) (s s' : Bindings O P ι) (pc : BindingPc O P) : Prop where
  output : ∀ o, OutputOk (s'.output o)
  here : At i s' pc
  keeps : ∀ o, Keeps (some i) (s.output o) (s'.output o)
  parents : ∀ p, KeepsParent (some i) (s.parent p) (s'.parent p)

variable {pc pc' : BindingPc O P} {act : BindingAction O P}

/-- A step that leaves the records alone. -/
theorem Good.same (hs : ∀ o, OutputOk (s.output o)) (hA : At i s pc) : Good i s s pc :=
  ⟨hs, hA, fun _ => .refl _ _, fun _ => .refl _ _⟩

/-- A step on one Output. -/
theorem Good.ofOutput {o : O} {out : Output P ι} (hs : ∀ o, OutputOk (s.output o))
    (hout : OutputOk out) (hkeeps : Keeps (some i) (s.output o) out)
    (hA : At i (s.setOutput o out) pc) : Good i s (s.setOutput o out) pc where
  output q := by
    by_cases hq : q = o
    · simpa [hq] using hout
    · simpa [hq] using hs q
  here := hA
  keeps q := by
    by_cases hq : q = o
    · subst hq
      simpa using hkeeps
    · simpa [hq] using Keeps.refl _ _
  parents _ := .refl _ _

/-- A step on one parent. -/
theorem Good.ofParent {p : P} {par : Parent O ι} (hs : ∀ o, OutputOk (s.output o))
    (hkeeps : KeepsParent (some i) (s.parent p) par) (hA : At i (s.setParent p par) pc) :
    Good i s (s.setParent p par) pc where
  output := hs
  here := hA
  keeps _ := .refl _ _
  parents q := by
    by_cases hq : q = p
    · subst hq
      simpa using hkeeps
    · simpa [hq] using KeepsParent.refl _ _

/-- An update of the Runtime's side. -/
theorem Keeps.congr {k : Option ι} {out out' : Output P ι} (hlock : out'.lock = out.lock)
    (hbound : out'.bound = out.bound) (hdetaching : out'.detaching = out.detaching)
    (hstatus : out'.close.status = out.close.status) (hdetacher : out'.detacher = out.detacher)
    (hcloser : out'.closer = out.closer) : Keeps k out out' where
  lock _ _ h := ⟨hlock.trans h, hbound, hdetaching, hstatus⟩
  detacher _ _ h h' := ⟨hdetacher.trans h, hdetaching.trans h'⟩
  closer _ _ h h' := ⟨hcloser.trans h, hstatus.trans h'⟩
  bound := .inl hbound
  status h := by rwa [hstatus]

/-- A section of a thread that has the lock to itself. -/
theorem Keeps.locked {out out' : Output P ι} (hlock : out.lock = none ∨ out.lock = some i)
    (hbound : out'.bound = out.bound) (hstatus : out'.close.status = out.close.status)
    (hdetacher : ∀ j, i ≠ j → out.detacher = some j → out.detaching = true →
      out'.detacher = some j ∧ out'.detaching = true)
    (hcloser : out'.closer = out.closer) : Keeps (some i) out out' where
  lock j hj h := by
    rcases hlock with hnone | hmine
    · rw [hnone] at h
      cases h
    · exact absurd (hmine.symm.trans h) hj
  detacher j hj h h' := hdetacher j (fun hij => hj (by rw [hij])) h h'
  closer _ _ h h' := ⟨hcloser.trans h, hstatus.trans h'⟩
  bound := .inl hbound
  status h := by rwa [hstatus]

/-- A thread that detaches for a parent goes back to it. -/
theorem At.origin {o : O} {p : P} {origin : Option (ℕ × List O)} {stage : DetachStage} {e : PyError}
    (hA : At i s (.detach o p origin stage)) : At i s (.raised p origin e) := by
  cases origin with
  | none => trivial
  | some back => exact ⟨hA.2.1, hA.2.2.1, fun _ h => by cases h⟩

/-- **Every step keeps what the threads know.** -/
theorem moves_good (hs : ∀ o, OutputOk (s.output o)) (hA : At i s pc)
    (h : Moves s i pc act s' pc') : Good i s s' pc' := by
  cases h with
  | refused raised raised' => exact .same hs trivial
  | attach raised o p hlock hopen hbound =>
      refine .ofOutput hs ?_ (.locked (.inl hlock) rfl rfl (fun _ _ h h' => ⟨h, h'⟩) rfl) ?_
      · intro hclosed
        exact hbound
      · simp [At, hbound, hopen]
  | notAdded o p busy e => exact .same hs hA
  | added o p busy hopen =>
      refine .ofParent hs ⟨fun _ _ h h' => ⟨h, h', rfl⟩, id, fun hne => absurd hopen hne⟩ hA
  | attached o p timedOut =>
      obtain ⟨hlock, hbound, hopen⟩ := hA
      refine .ofOutput hs ?_ ⟨?_, fun _ _ h h' => ⟨h, h'⟩,
        fun _ _ h h' => ⟨h, h'⟩, .inr (.inr ⟨hbound, hopen⟩), id⟩ trivial
      · intro hclosed
        rw [show (s.output o).close.status = .closed from hclosed] at hopen
        cases hopen
      · intro j hj h
        exact absurd (hlock.symm.trans h) hj
  | notAttached o p r timedOut e hr => exact .same hs hA
  | withdrawn o p e =>
      refine .ofParent hs ⟨fun _ _ h h' => ⟨h, h', rfl⟩, id, fun _ => ?_⟩ hA
      exact Finset.erase_subset _ _
  | released o p e =>
      obtain ⟨hlock, hbound, hopen⟩ := hA
      exact .ofOutput hs (fun _ => hbound)
        (.locked (.inr hlock) rfl rfl (fun _ _ h h' => ⟨h, h'⟩) rfl) trivial
  | detach raised o p callback hlock hopen hbound hdetaching =>
      refine .ofOutput hs (hs o) (.locked (.inl hlock) rfl rfl (fun _ _ h h' => ⟨h, h'⟩) rfl) ?_
      simp [At, DetachAt, hbound, hdetaching, hopen]
  | detachAgain o p origin r timedOut hr =>
      refine .ofOutput hs (hs o) (.congr rfl rfl rfl rfl rfl rfl) ?_
      cases origin with
      | none => simpa [At, DetachAt, Output.nativeDetach] using hA
      | some back => simpa [At, DetachAt, Output.nativeDetach] using hA
  | detached o p origin timedOut =>
      obtain ⟨hlock, hbound, hdetaching, hopen⟩ := hA.detach
      refine .ofOutput hs (hs o) (.locked (.inr hlock) rfl rfl ?_ rfl) ?_
      · intro j _ _ h'
        rw [hdetaching] at h'
        cases h'
      · cases origin with
        | none => simp [At, DetachAt, Output.nativeDetach, hbound]
        | some back => simpa [At, DetachAt, Output.nativeDetach, hbound] using hA.2
  | notDetached o p origin r timedOut e hr =>
      obtain ⟨hlock, hbound, hdetaching, hopen⟩ := hA.detach
      exact .ofOutput hs (hs o) (.locked (.inr hlock) rfl rfl (fun _ _ h h' => ⟨h, h'⟩) rfl)
        (by cases origin <;> exact hA.origin (e := e))
  | unbound o p origin hlock =>
      obtain ⟨hdetacher, hdetaching, hbound⟩ := hA.detach
      refine .ofOutput hs (fun _ => rfl) ⟨?_, ?_,
        fun _ _ h h' => ⟨h, h'⟩, .inr (.inl ⟨rfl, .inl ⟨i, hdetacher, rfl⟩⟩), id⟩ ?_
      · intro j _ h
        rw [hlock] at h
        cases h
      · intro j hj h _
        exact absurd (hdetacher.symm.trans h) hj
      · cases origin with
        | none => trivial
        | some back => exact ⟨trivial, hA.2⟩
  | left o p origin =>
      cases origin with
      | none =>
          exact .ofParent hs ⟨fun _ _ h h' => ⟨h, h', rfl⟩, id, fun _ => Finset.erase_subset _ _⟩
            trivial
      | some back =>
          obtain ⟨hcloser, hstatus, hrest⟩ := hA.2
          refine .ofParent hs ⟨fun j hj h _ => absurd (hcloser.symm.trans h) hj, id,
            fun _ => Finset.erase_subset _ _⟩ ?_
          simp [BindingPc.returned, At, ParentAt, hcloser, hstatus]
  | joined raised o callback g close hlock hclose =>
      exact .ofOutput hs (fun hclosed => hs o (hclose.symm.trans hclosed))
        (.locked (.inl hlock) rfl hclose (fun _ _ h h' => ⟨h, h'⟩) rfl) trivial
  | woken o g close raised hlock hclose =>
      exact .ofOutput hs (fun hclosed => hs o (hclose.symm.trans hclosed))
        (.locked (.inl hlock) rfl hclose (fun _ _ h h' => ⟨h, h'⟩) rfl) trivial
  | closes raised o callback g close hlock hdetaching hstatus hclose =>
      refine .ofOutput hs ?_ ⟨?_, fun _ _ h h' => ⟨h, h'⟩, ?_, .inl rfl, ?_⟩ ?_
      · intro hclosed
        rw [show close.status = .closed from hclosed] at hclose
        cases hclose
      · intro j _ h
        rw [hlock] at h
        cases h
      · intro j _ _ h'
        rw [h'] at hstatus
        rcases hstatus with hst | hst <;> cases hst
      · intro _
        rw [show _ = close from rfl, hclose]
        simp
      · simp [At, CloseAt, hclose]
  | toDetach o g p hdetached => exact .same hs hA
  | toDestroy o g bound hdetached => exact .same hs hA
  | closeDetachAgain o g bound r timedOut hr =>
      refine .ofOutput hs (hs o) (.congr rfl rfl rfl rfl rfl rfl) ?_
      simpa [At, CloseAt, Output.nativeDetach] using hA
  | closeDetached o g bound timedOut =>
      refine .ofOutput hs (hs o) (.congr rfl rfl rfl rfl rfl rfl) ?_
      simpa [At, CloseAt, Output.nativeDetach] using hA
  | closeNotDetached o g bound r timedOut e hr =>
      refine .ofOutput hs (hs o) (.congr rfl rfl rfl rfl rfl rfl) ?_
      simpa [At, CloseAt, Output.nativeDetach] using hA
  | destroyed o g bound timedOut =>
      refine .ofOutput hs (hs o) (.congr rfl rfl rfl rfl rfl rfl) ?_
      simpa [At, CloseAt] using hA
  | notDestroyed o g bound r timedOut e => exact .same hs hA
  | closeUnbound o g bound hlock =>
      obtain ⟨⟨hcloser, hstatus⟩, -⟩ := hA
      refine .ofOutput hs (fun _ => rfl) ⟨?_, fun _ _ h h' => ⟨h, h'⟩,
        fun _ _ h h' => ⟨h, h'⟩, .inr (.inl ⟨rfl, .inr ?_⟩), id⟩ ?_
      · intro j _ h
        rw [hlock] at h
        cases h
      · simp [hstatus]
      · simp [At, CloseAt, hcloser, hstatus]
  | closeLeft o g p =>
      refine .ofParent hs ⟨fun _ _ h h' => ⟨h, h', rfl⟩, id, fun _ => ?_⟩ hA
      exact Finset.erase_subset _ _
  | closeUnheld o g => exact .same hs hA
  | closed o g bound hlock =>
      obtain ⟨⟨hcloser, hstatus⟩, hbound⟩ := hA
      refine .ofOutput hs (fun _ => hbound) ⟨fun j _ h => ?_, fun _ _ h h' => ⟨h, h'⟩,
        fun j hj h _ => absurd (hcloser.symm.trans h) hj, .inl rfl, fun _ => by
          simp [CloseCoordinator.succeed]⟩ trivial
      rw [hlock] at h
      cases h
  | closeFailed o g bound e hlock =>
      obtain ⟨⟨hcloser, hstatus⟩, -⟩ := hA
      refine .ofOutput hs ?_ ⟨?_, fun _ _ h h' => ⟨h, h'⟩,
        fun j hj h _ => absurd (hcloser.symm.trans h) hj, .inl rfl, fun _ => by
          simp [CloseCoordinator.fail]⟩ trivial
      · intro hclosed
        cases hclosed
      · intro j _ h
        rw [hlock] at h
        cases h
  | parentJoined raised p order callback g close hclose =>
      exact .ofParent hs ⟨fun _ _ h h' => ⟨h, hclose.trans h', rfl⟩, fun h => by rwa [hclose],
        fun _ => Finset.Subset.refl _⟩ trivial
  | parentWoken p g close raised hclose =>
      exact .ofParent hs ⟨fun _ _ h h' => ⟨h, hclose.trans h', rfl⟩, fun h => by rwa [hclose],
        fun _ => Finset.Subset.refl _⟩ trivial
  | parentCloses raised p order callback g close horder hstatus hclose =>
      refine .ofParent hs ⟨?_, ?_, fun _ => Finset.Subset.refl _⟩ ?_
      · intro j _ _ h'
        rw [h'] at hstatus
        rcases hstatus with hst | hst <;> cases hst
      · intro _
        simp [hclose]
      · simp [At, ParentAt, hclose]
  | skipped p g o rest callback hlock hbound =>
      obtain ⟨hcloser, hstatus, hrest⟩ := hA
      refine .ofParent hs ⟨fun j hj h _ => absurd (hcloser.symm.trans h) hj, id,
        fun _ => Finset.Subset.refl _⟩ ?_
      simp [At, ParentAt, hcloser, hstatus]
  | fromParent p g o rest callback hlock hbound hdetaching =>
      refine .ofOutput hs (hs o) (.locked (.inl hlock) rfl rfl (fun _ _ h h' => ⟨h, h'⟩) rfl) ?_
      refine ⟨?_, hA⟩
      simp [DetachAt, hbound, hdetaching]
  | parentFails p g rest act e => exact .same hs ⟨hA.1, hA.2.1, fun _ h => by cases h⟩
  | parentDestroyed p g act => exact .same hs hA
  | parentClosed p g childError =>
      obtain ⟨hcloser, hstatus, -⟩ := hA
      exact .ofParent hs ⟨fun j hj h _ => absurd (hcloser.symm.trans h) hj, fun _ => by
        simp [CloseCoordinator.succeed], fun _ => Finset.Subset.refl _⟩ trivial
  | parentFailed p g e =>
      obtain ⟨hcloser, hstatus, -⟩ := hA
      exact .ofParent hs ⟨fun j hj h _ => absurd (hcloser.symm.trans h) hj, fun _ => by
        simp [CloseCoordinator.fail], fun _ => Finset.Subset.refl _⟩ trivial

/-- Nobody has called yet. -/
theorem control_start : (∀ o, OutputOk (({} : Bindings O P ι).output o)) ∧
    ∀ i, At i ({} : Bindings O P ι) (.idle none) :=
  ⟨fun _ _ => rfl, fun _ => trivial⟩

/-- **The rely-guarantee proof**, for every interleaving. -/
theorem control (errorName : ℤ → String) :
    Threads.RelyGuarantee (bindings O P ι errorName) (fun _ _ _ _ => True) (fun _ _ => True)
      (fun s => ∀ o, OutputOk (s.output o)) At
      (fun k s s' => (∀ o, Keeps k (s.output o) (s'.output o)) ∧
        ∀ p, KeepsParent k (s.parent p) (s'.parent p)) where
  start s hs := by
    obtain rfl := hs
    exact control_start
  thread i s pc act s' pc' hs hA _ hstep := by
    have hgood := moves_good hs hA (bindingStep_cases hstep)
    exact ⟨hgood.output, hgood.here, hgood.keeps, hgood.parents⟩
  env _ e := nomatch e
  stable _ _ _ _ _ hk _ _ hG hA := hA.stable hk hG.1 hG.2

/-- In every run, under whatever condition, the threads know what they should. -/
theorem reach_control [DecidableEq ι]
    {ok : Config ι (Bindings O P ι) (BindingPc O P) → Label ι (BindingAction O P) Empty → Prop}
    {c : Config ι (Bindings O P ι) (BindingPc O P)}
    (hc : (bindings O P ι errorName).machine.ReachWith ok c) :
    (∀ o, OutputOk (c.shared.output o)) ∧ ∀ i, At i c.shared (c.pc i) :=
  (control errorName).reach_of
    (fun _ l _ _ _ => by rcases l with ⟨_, _⟩ | e <;> trivial) hc

end Tirtc.Outputs
