import Tirtc.Core.AttemptSteps
import Tirtc.Outputs.Control
import Tirtc.Teardown.HandleUse

/-!
# Who may use the native handle of a Connection

What the lock, the attempts and the coordinator keep apart, in every interleaving: an operation in
its native call has an open Connection; the close comes behind its wait for the attempt only when
that is finished, so no `connect` is in a native call any more; and it comes behind the Outputs only
when it has met every one of its snapshot without a thread in `attach`.

* `Settled`: no attempt is unfinished.
* `Ok`, `CloseAt`, `OutputAt`, `Here`: the invariant, and what a thread knows at its place.
* `Leaves`: what a step of one thread leaves to the others.
* `Good`, and a lemma for each kind of step; `handle_control`: the rely-guarantee proof.
-/

set_option autoImplicit false
set_option linter.unusedSectionVars false

namespace Tirtc.HandleUse

open Transition Outputs

variable {O ι : Type} [DecidableEq O] {errorName : ℤ → String} {mode : AuthMode}
  {s s' : Handle O ι} {i : ι} {pc' : HandlePc O}

/-! ## What a thread knows at its place -/

/-- No attempt is unfinished. -/
def Settled (s : Shared ι) : Prop :=
  ∀ a, s.connection.activeConnect = some a → (s.attempt a).finished = true

/-- The invariant of the record. -/
structure Ok (errorName : ℤ → String) (s : Handle O ι) : Prop where
  attempts : Attempts errorName s.shared
  outputs : ∀ o, OutputOk (s.output o)
  failed : ∀ a, (s.shared.history a).closeFailed = true → Over (s.shared.view a)
  lock : s.lock ≠ none → s.status = .open
  destroyed : s.destroyed = true → s.status = .closing ∨ s.status = .closed
  settled : s.destroyed = true → Settled s.shared

/-- Thread `i` performs the teardown. -/
def Closer (i : ι) (s : Handle O ι) : Prop := s.closer = some i ∧ s.status = .closing

/-- What it knows at a stage of the close. -/
def CloseAt (s : Handle O ι) : CloseStage → Prop
  | .cancel a _ | .awaitFinished a =>
      s.destroyed = false ∧ ∀ b, s.shared.connection.activeConnect = some b → b = a
  | .state _ | .succeed _ => True
  | .fail _ => s.destroyed = false
  | _ => s.destroyed = false ∧ Settled s.shared ∧ s.remaining = []

/-- What a thread in a call on an Output knows of the Connection. The thread in the native call of
an `attach` has an Output that the teardown has still to come to, or one that has been taken out of
the set of the Connection meanwhile. -/
def OutputAt (s : Handle O ι) : BindingPc O Unit → Prop
  | .attach o _ .native => o ∈ s.outputs → s.status = .closing → o ∈ s.remaining
  | .attach _ _ _ | .detach _ _ none _ | .joinOutput _ _ | .closeOutput _ _ _ _ => True
  | .detach _ _ (some _) _ | .closeParent _ _ (.outputs (_ :: _)) =>
      s.destroyed = false ∧ Settled s.shared
  | _ => False

/-- What thread `i` knows at its place. -/
def Here (i : ι) (s : Handle O ι) : HandlePc O → Prop
  | .call (.close g stage) =>
      CallAt i s.shared (.close g stage) ∧ Closer i s ∧ CloseAt s stage
  | .call pc => CallAt i s.shared pc
  | .output pc => Outputs.At i s.bindings pc ∧ OutputAt s pc
  | .operation => s.lock = some i

/-- What it knows of the attempt that it works on. -/
theorem Here.call {pc : Pc} (h : Here i s (.call pc)) : CallAt i s.shared pc := by
  cases pc with
  | close g stage => exact h.1
  | _ => exact h

/-! ## What a step leaves to the others -/

/-- **What a step of `k` leaves to the others**: the attempts, the Outputs and the teardown, as in
`Guarantee`, `Keeps` and `KeepsParent`; the lock; no new attempt once the close has begun; the
handle to the thread that closes; and an Output that somebody attaches to the teardown. -/
structure Leaves (k : Option ι) (s s' : Handle O ι) : Prop where
  attempts : Guarantees k s.shared s'.shared
  outputs : ∀ o, Keeps k (s.output o) (s'.output o)
  parent : KeepsParent k (s.bindings.parent ()) (s'.bindings.parent ())
  lock : ∀ j, k ≠ some j → s.lock = some j → s'.lock = some j
  active : s.status ≠ .open → ∀ a, s'.shared.connection.activeConnect = some a →
    s.shared.connection.activeConnect = some a
  destroyed : ∀ j, k ≠ some j → s.closer = some j → s.status = .closing →
    s'.destroyed = s.destroyed
  waits : ∀ j o, k ≠ some j → (s.output o).lock = some j →
    (o ∈ s.outputs → s.status = .closing → o ∈ s.remaining) →
    o ∈ s'.outputs → s'.status = .closing → o ∈ s'.remaining

/-- What was settled stays so. -/
theorem Settled.stable {k : Option ι} {t t' : Shared ι} (h : Settled t) (hG : Guarantees k t t')
    (hactive : ∀ a, t'.connection.activeConnect = some a → t.connection.activeConnect = some a) :
    Settled t' :=
  fun a ha => (hG a).finished (h a (hactive a ha))

/-- The thread that closes is alone with its teardown. -/
theorem Closer.stable {j : ι} {k : Option ι} (hk : k ≠ some j) (h : Leaves k s s')
    (hA : Closer j s) : Closer j s' ∧ s'.remaining = s.remaining ∧ s'.destroyed = s.destroyed := by
  obtain ⟨hcloser, hstatus⟩ := hA
  obtain ⟨hcloser', hstatus', hremaining⟩ := h.parent.closer j hk hcloser hstatus
  exact ⟨⟨hcloser', hstatus'⟩, hremaining, h.destroyed j hk hcloser hstatus⟩

/-- What it knows, no other thread takes back. -/
theorem CloseAt.stable {j : ι} {k : Option ι} {stage : CloseStage} (hk : k ≠ some j)
    (h : Leaves k s s') (hcloser : Closer j s) (hA : CloseAt s stage) : CloseAt s' stage := by
  have hopen : s.status ≠ .open := by simp [hcloser.2]
  obtain ⟨-, hremaining, hdestroyed⟩ := hcloser.stable hk h
  cases stage with
  | cancel _ _ | awaitFinished _ =>
      exact ⟨hdestroyed.trans hA.1, fun b hb => hA.2 b (h.active hopen b hb)⟩
  | state _ | succeed _ => trivial
  | fail _ => exact hdestroyed.trans hA
  | children | dispatcher _ | drain _ | read _ | decide _ _ | disconnect _ | destroy _ =>
      exact ⟨hdestroyed.trans hA.1, hA.2.1.stable h.attempts (h.active hopen),
        hremaining.trans hA.2.2⟩

/-- What a thread in a call on an Output knows, no other thread takes back. -/
theorem OutputAt.stable {j : ι} {k : Option ι} {pc : BindingPc O Unit} (hk : k ≠ some j)
    (h : Leaves k s s') (hat : Outputs.At j s.bindings pc) (hA : OutputAt s pc) :
    OutputAt s' pc := by
  have hclose : Closer j s → s.destroyed = false ∧ Settled s.shared →
      s'.destroyed = false ∧ Settled s'.shared := fun hcloser hA =>
    ⟨(hcloser.stable hk h).2.2.trans hA.1,
      hA.2.stable h.attempts (h.active (by simp [hcloser.2]))⟩
  cases pc with
  | attach o p stage =>
      cases stage with
      | native => exact h.waits j o hk hat.1 hA
      | add | failed _ | release _ => trivial
  | detach o p origin stage =>
      cases origin with
      | none => trivial
      | some back => exact hclose ⟨hat.2.1, hat.2.2.1⟩ hA
  | joinOutput _ _ | closeOutput _ _ _ _ => trivial
  | closeParent p g stage =>
      cases stage with
      | outputs rest =>
          cases rest with
          | nil => exact hA
          | cons o rest => exact hclose ⟨hat.1, hat.2.1⟩ hA
      | succeed | fail _ => exact hA
  | idle _ | joinParent _ _ => exact hA

/-- What a thread knows, no other thread takes back. -/
theorem Here.stable {j : ι} {k : Option ι} {pc : HandlePc O} (hk : k ≠ some j)
    (hs : Ok errorName s) (hs' : Ok errorName s') (h : Leaves k s s') (hA : Here j s pc) :
    Here j s' pc := by
  cases pc with
  | call pc =>
      have hcall := hA.call.stable hk hs.attempts hs'.attempts h.attempts
      cases pc with
      | close g stage =>
          exact ⟨hcall, (hA.2.1.stable hk h).1, hA.2.2.stable hk h hA.2.1⟩
      | _ => exact hcall
  | output pc =>
      exact ⟨hA.1.stable hk h.outputs fun _ => h.parent, hA.2.stable hk h hA.1⟩
  | operation => exact h.lock j hk hA

/-! ## The calls on the Outputs -/

/-- What a call on an Output goes on with. -/
def OutputNext (s : Handle O ι) : BindingPc O Unit → Prop
  | .attach _ _ .native => s.status = .open
  | .detach _ _ (some _) _ | .closeParent _ _ (.outputs _) | .closeParent _ _ (.fail _) =>
      s.destroyed = false ∧ Settled s.shared
  | .closeParent _ _ .succeed | .joinParent _ _ => False
  | _ => True

/-- The calls on the Outputs that threads make here. -/
def OutputCall (s : Handle O ι) : BindingPc O Unit → BindingAction O Unit → Prop
  | .idle _, .closeParent _ _ _ => False
  | .idle _, _ => True
  | pc, _ => OutputAt s pc

/-- **What a step of a call on an Output does** to the Connection. -/
structure OutputMoves (i : ι) (s : Handle O ι) (b : Bindings O Unit ι) (pc' : BindingPc O Unit) :
    Prop where
  close : (b.parent ()).close = s.shared.connection.close
  closer : (b.parent ()).closer = s.closer
  waits : ∀ j o, i ≠ j → (s.output o).lock = some j →
    (o ∈ s.outputs → s.status = .closing → o ∈ s.remaining) →
    o ∈ (b.parent ()).outputs → s.status = .closing → o ∈ (b.parent ()).remaining
  next : OutputNext s pc'

variable {b : Bindings O Unit ι} {opc opc' : BindingPc O Unit} {oact : BindingAction O Unit}

/-- A step that leaves the Connection alone. -/
theorem OutputMoves.same (hparent : b.parent = s.bindings.parent) (hnext : OutputNext s opc') :
    OutputMoves i s b opc' where
  close := by rw [hparent]; rfl
  closer := by rw [hparent]; rfl
  waits j o _ _ hold hin hclosing := by
    rw [hparent] at hin ⊢
    exact hold hin hclosing
  next := hnext

/-- A step that takes an Output out of the set. -/
theorem OutputMoves.takesOut (o : O) (hnext : OutputNext s opc') :
    OutputMoves i s (s.bindings.discard () o) opc' where
  close := rfl
  closer := rfl
  waits _ _ _ _ hold hin hclosing := hold (Finset.mem_of_mem_erase hin) hclosing
  next := hnext

/-- **The steps of the calls on the Outputs.** -/
theorem outputMoves (hA : Outputs.At i s.bindings opc) (hcall : OutputCall s opc oact)
    (h : Outputs.Moves s.bindings i opc oact b opc') : OutputMoves i s b opc' := by
  cases h with
  | refused raised raised' => exact .same rfl trivial
  | attach raised o p hlock hopen hbound => exact .same rfl trivial
  | notAdded o p busy e => exact .same rfl trivial
  | added o p busy hopen =>
      refine ⟨rfl, rfl, fun _ _ _ _ _ _ hclosing => ?_, hopen⟩
      rw [show s.status = .open from hopen] at hclosing
      cases hclosing
  | attached o p timedOut => exact .same rfl trivial
  | notAttached o p r timedOut e hr => exact .same rfl trivial
  | withdrawn o p e => exact .takesOut o trivial
  | released o p e => exact .same rfl trivial
  | detach raised o p callback hlock hopen hbound hdetaching => exact .same rfl trivial
  | detachAgain o p origin r timedOut hr =>
      exact .same rfl (by cases origin <;> exact hcall)
  | detached o p origin timedOut => exact .same rfl (by cases origin <;> exact hcall)
  | notDetached o p origin r timedOut e hr => exact .same rfl (by cases origin <;> exact hcall)
  | unbound o p origin hlock => exact .same rfl (by cases origin <;> exact hcall)
  | left o p origin =>
      cases origin with
      | none => exact .takesOut o trivial
      | some back =>
          have hrest : s.remaining = o :: back.2 := hA.2.2.2 _ rfl
          refine ⟨rfl, rfl, fun j q _ _ hold hin hclosing => ?_, hcall⟩
          -- the Output that has left is not in the set any more
          have hne : q ≠ o := Finset.ne_of_mem_erase hin
          have hq := hold (Finset.mem_of_mem_erase hin) hclosing
          rw [hrest] at hq
          exact (List.mem_cons.mp hq).resolve_left hne
  | joined raised o callback g close hlock hclose => exact .same rfl trivial
  | woken o g close raised hlock hclose => exact .same rfl trivial
  | closes raised o callback g close hlock hdetaching hstatus hclose => exact .same rfl trivial
  | toDetach o g p hdetached => exact .same rfl trivial
  | toDestroy o g bound hdetached => exact .same rfl trivial
  | closeDetachAgain o g bound r timedOut hr => exact .same rfl trivial
  | closeDetached o g bound timedOut => exact .same rfl trivial
  | closeNotDetached o g bound r timedOut e hr => exact .same rfl trivial
  | destroyed o g bound timedOut => exact .same rfl trivial
  | notDestroyed o g bound r timedOut e => exact .same rfl trivial
  | closeUnbound o g bound hlock => exact .same rfl trivial
  | closeLeft o g p => exact .takesOut o trivial
  | closeUnheld o g => exact .same rfl trivial
  | closed o g bound hlock => exact .same rfl trivial
  | closeFailed o g bound e hlock => exact .same rfl trivial
  | parentJoined raised p order callback g close hclose => exact hcall.elim
  | parentWoken p g close raised hclose => exact hcall.elim
  | parentCloses raised p order callback g close horder hstatus hclose => exact hcall.elim
  | skipped p g o rest callback hlock hbound =>
      have hrest : s.remaining = o :: rest := hA.2.2 _ rfl
      refine ⟨rfl, rfl, fun j q _ hj hold hin hclosing => ?_, hcall⟩
      -- nobody has the lock of the Output that is skipped
      have hne : q ≠ o := by
        rintro rfl
        rw [show (s.output q).lock = none from hlock] at hj
        cases hj
      have hq := hold hin hclosing
      rw [hrest] at hq
      exact (List.mem_cons.mp hq).resolve_left hne
  | fromParent p g o rest callback hlock hbound hdetaching => exact .same rfl hcall
  | parentFails p g rest act e =>
      cases rest with
      | nil => exact hcall.elim
      | cons o rest => exact .same rfl hcall
  | parentDestroyed p g act => exact hcall.elim
  | parentClosed p g childError => exact hcall.elim
  | parentFailed p g e => exact hcall.elim

/-! ## Every step keeps it -/

/-- What a step of thread `i` to `pc'` owes. -/
structure Good (errorName : ℤ → String) (i : ι) (s s' : Handle O ι) (pc' : HandlePc O) : Prop where
  ok : Ok errorName s'
  here : Here i s' pc'
  leaves : Leaves (some i) s s'

/-- What was destroyed, or was used late, is history. -/
theorem Leaves.refl (k : Option ι) (s : Handle O ι) (late : Bool) :
    Leaves k s { s with late := late } where
  attempts _ := .refl k _
  outputs _ := .refl k _
  parent := .refl k _
  lock _ _ h := h
  active _ _ h := h
  destroyed _ _ _ _ := rfl
  waits _ _ _ _ h := h

/-- The thread that closes goes on with the Outputs, and then with the other children. -/
theorem here_detachNext {g : ℕ} {rest : List O} (hcloser : Closer i s)
    (hdestroyed : s.destroyed = false) (hsettled : Settled s.shared) (hrest : s.remaining = rest) :
    Here i s (detachNext g rest) := by
  cases rest with
  | nil => exact ⟨trivial, hcloser, hdestroyed, hsettled, hrest⟩
  | cons o rest =>
      exact ⟨⟨hcloser.1, hcloser.2, fun l hl => hrest.trans (Option.some.inj hl)⟩,
        hdestroyed, hsettled⟩

/-- A thread that goes on with a call on an Output. -/
theorem here_afterOutput (hA : Outputs.At i s.bindings opc') (hnext : OutputNext s opc') :
    Here i s (afterOutput opc') := by
  cases opc' with
  | idle _ => trivial
  | attach o p stage =>
      cases stage with
      | native =>
          refine ⟨hA, fun _ hclosing => ?_⟩
          rw [show s.status = .open from hnext] at hclosing
          cases hclosing
      | add | failed _ | release _ => exact ⟨hA, trivial⟩
  | detach o p origin stage =>
      cases origin with
      | none => exact ⟨hA, trivial⟩
      | some back => exact ⟨hA, hnext⟩
  | joinOutput _ _ | closeOutput _ _ _ _ => exact ⟨hA, trivial⟩
  | joinParent _ _ => exact hnext.elim
  | closeParent p g stage =>
      cases stage with
      | outputs rest => exact here_detachNext ⟨hA.1, hA.2.1⟩ hnext.1 hnext.2 (hA.2.2 _ rfl)
      | succeed => exact hnext.elim
      | fail e => exact ⟨trivial, ⟨hA.1, hA.2.1⟩, hnext.1⟩

/-- **A step of a call on an Output.** -/
theorem good_output (hs : Ok errorName s) (hA : Outputs.At i s.bindings opc)
    (hcall : OutputCall s opc oact)
    (h : outputSection errorName s i opc oact = some (s', pc')) : Good errorName i s s' pc' := by
  unfold outputSection at h
  split at h
  · cases h
  obtain ⟨⟨b, opc'⟩, hstep, h⟩ := Option.map_eq_some_iff.mp h
  cases h
  have hmoves := bindingStep_cases hstep
  have hgood := moves_good (P := Unit) hs.outputs hA hmoves
  have hout := outputMoves hA hcall hmoves
  have hbindings : (s.withBindings b).bindings = b := by
    have hparent : ∀ p, (s.withBindings b).bindings.parent p = b.parent p := by
      rintro ⟨⟩
      simp [Handle.withBindings, Handle.bindings, ← hout.close, ← hout.closer]
    exact congrArg (Bindings.mk b.output) (funext hparent)
  refine ⟨⟨hs.attempts, hgood.output, hs.failed, hs.lock, hs.destroyed, hs.settled⟩, ?_,
    ⟨fun _ => .refl _ _, hgood.keeps, ?_, fun _ _ h => h, fun _ _ h => h, fun _ _ _ _ => rfl,
      fun j o hj => hout.waits j o fun hij => hj (congrArg some hij)⟩⟩
  · refine here_afterOutput ?_ hout.next
    show Outputs.At i (s.withBindings b).bindings opc'
    rw [hbindings]
    exact hgood.here
  · show KeepsParent (some i) (s.bindings.parent ()) ((s.withBindings b).bindings.parent ())
    rw [hbindings]
    exact hgood.parents ()

/-- **An operation** takes the lock of an open Connection. -/
theorem good_operationBegin (hs : Ok errorName s)
    (h : operationBegin s i = some (s', pc')) : Good errorName i s s' pc' := by
  unfold operationBegin at h
  split at h
  · cases h
  next hlock =>
    split at h
    · cases h
      exact ⟨hs, trivial, .refl _ s s.late⟩
    next hopen =>
      cases h
      refine ⟨⟨hs.attempts, hs.outputs, hs.failed, ?_, hs.destroyed, hs.settled⟩, rfl,
        ⟨fun _ => .refl _ _, fun _ => .refl _ _, .refl _ _, ?_, fun _ _ h => h,
          fun _ _ _ _ => rfl, fun _ _ _ _ h => h⟩⟩
      · intro _
        exact CloseCoordinator.requireOpen_eq_none.mp hopen
      · intro j _ hj
        simp [hj] at hlock

/-- It gives it back. -/
theorem good_operationEnd {r : NativeResult} (hs : Ok errorName s) (hA : s.lock = some i)
    (h : operationEnd errorName s r = some (s', pc')) : Good errorName i s s' pc' := by
  cases h
  refine ⟨⟨hs.attempts, hs.outputs, hs.failed, fun h => absurd rfl h, hs.destroyed, hs.settled⟩,
    trivial, ⟨fun _ => .refl _ _, fun _ => .refl _ _, .refl _ _, fun j hj hlock => ?_,
      fun _ _ h => h, fun _ _ _ _ => rfl, fun _ _ _ _ h => h⟩⟩
  exact absurd (hA.symm.trans hlock) hj

/-- The invariant after a step of a call, or of the Runtime. -/
theorem Ok.ofShared {k : Option ι} {t : Shared ι} {late : Bool} (hs : Ok errorName s)
    (hI : Attempts errorName t ∧ Guarantees k s.shared t)
    (hfailed : ∀ a, (t.history a).closeFailed = true →
      (s.shared.history a).closeFailed = true ∨ Over (s.shared.view a))
    (hactive : s.status ≠ .open → ∀ a, t.connection.activeConnect = some a →
      s.shared.connection.activeConnect = some a)
    (hlock : s.lock ≠ none → t.connection.close.status = .open)
    (hdestroyed : s.destroyed = true → t.connection.close.status = .closing ∨
      t.connection.close.status = .closed) :
    Ok errorName { s with shared := t, late := late } where
  attempts := hI.1
  outputs := hs.outputs
  failed a h := by
    rcases hfailed a h with hold | hover
    · exact (hs.failed a hold).stable (hI.2 a)
    · exact hover.stable (hI.2 a)
  lock := hlock
  destroyed := hdestroyed
  settled h := by
    refine (hs.settled h).stable hI.2 (hactive ?_)
    rcases hs.destroyed h with hst | hst
    · simp [hst]
    · simp [hst]

/-- What such a step leaves to the others, when the status of the close stays or a teardown of
thread `k` ends. -/
theorem Leaves.ofShared {k : Option ι} {t : Shared ι} {late : Bool}
    (hG : Guarantees k s.shared t)
    (hactive : s.status ≠ .open → ∀ a, t.connection.activeConnect = some a →
      s.shared.connection.activeConnect = some a)
    (hstatus : t.connection.close.status = s.status ∨ ((∃ j, k = some j ∧ Closer j s) ∧
      t.connection.close.status ≠ .open ∧ t.connection.close.status ≠ .closing)) :
    Leaves k s { s with shared := t, late := late } where
  attempts := hG
  outputs _ := .refl k _
  parent := by
    refine ⟨?_, ?_, fun _ => Finset.Subset.refl _⟩
    · intro j hj hcloser hclosing
      rcases hstatus with hsame | ⟨⟨l, hl, hmine, -⟩, -⟩
      · exact ⟨hcloser, hsame.trans hclosing, rfl⟩
      · -- nobody else ends the teardown
        have hlj : l = j := Option.some.inj (hmine.symm.trans hcloser)
        exact absurd (hl.trans (congrArg some hlj)) hj
    · intro hopen
      rcases hstatus with hsame | ⟨-, hnot, -⟩
      · show t.connection.close.status ≠ .open
        rw [hsame]
        exact hopen
      · exact hnot
  lock _ _ h := h
  active := hactive
  destroyed _ _ _ _ := rfl
  waits j o _ _ hold hin hclosing := by
    rcases hstatus with hsame | ⟨-, -, hnot⟩
    · exact hold hin (hsame.symm.trans hclosing)
    · exact absurd hclosing hnot

/-- A step of a call that leaves the status of the close. -/
theorem Good.ofCall {t : Shared ι} {late : Bool} (hs : Ok errorName s)
    (hI : Attempts errorName t ∧ Guarantees (some i) s.shared t)
    (hfailed : ∀ a, (t.history a).closeFailed = true →
      (s.shared.history a).closeFailed = true ∨ Over (s.shared.view a))
    (hactive : s.status ≠ .open → ∀ a, t.connection.activeConnect = some a →
      s.shared.connection.activeConnect = some a)
    (hstatus : t.connection.close.status = s.status)
    (hhere : Here i { s with shared := t, late := late } pc') :
    Good errorName i s { s with shared := t, late := late } pc' where
  ok := hs.ofShared hI hfailed hactive (fun h => hstatus.trans (hs.lock h))
    fun h => by rw [hstatus]; exact hs.destroyed h
  here := hhere
  leaves := .ofShared hI.2 hactive (.inl hstatus)

/-- A step that only touches the coordinator makes and fails no attempt. -/
theorem attempts_close (hs : Ok errorName s) (k : Option ι) (close : CloseCoordinator) :
    Attempts errorName
        { s.shared with connection := { s.shared.connection with close := close } } ∧
      Guarantees k s.shared
        { s.shared with connection := { s.shared.connection with close := close } } :=
  hs.attempts.same rfl fun _ => rfl

/-- **The teardown begins**, with all Outputs of the set in its snapshot. -/
theorem good_begins {order : List O} (close : CloseCoordinator) (hs : Ok errorName s)
    (hlock : s.lock = none) (horder : order.toFinset = s.outputs)
    (hst : s.status = .open ∨ s.status = .closeFailed) (hclose : close.status = .closing)
    (hhere : s.destroyed = false → Here i
      { s with
        shared := { s.shared with connection := { s.shared.connection with close := close } }
        closer := some i
        remaining := order } pc') :
    Good errorName i s
      { s with
        shared := { s.shared with connection := { s.shared.connection with close := close } }
        closer := some i
        remaining := order } pc' := by
  have hfree : s.destroyed = false := by
    apply Bool.eq_false_iff.mpr
    intro hd
    rcases hst with hst | hst
    all_goals
      rcases hs.destroyed hd with hclosing | hclosed
      · cases hst.symm.trans hclosing
      · cases hst.symm.trans hclosed
  have hsame := attempts_close hs (some i) close
  refine ⟨⟨hsame.1, hs.outputs, hs.failed, fun h => absurd hlock h, fun _ => .inl hclose, ?_⟩,
    hhere hfree, ⟨hsame.2, fun _ => .refl _ _, ⟨?_, ?_,
      fun _ => Finset.Subset.refl _⟩, fun _ _ h => h, fun _ _ h => h, fun _ _ _ _ => rfl,
      ?_⟩⟩
  · exact fun hd => absurd (hfree.symm.trans hd) (by simp)
  · intro j _ _ hclosing
    -- nobody tears down yet
    have hclosing : s.status = .closing := hclosing
    rcases hst with hst | hst <;> cases hst.symm.trans hclosing
  · intro _
    show close.status ≠ .open
    simp [hclose]
  · intro j o _ _ _ hin _
    have hin : o ∈ s.outputs := hin
    rw [← horder] at hin
    exact List.mem_toFinset.mp hin

/-- **The close begins**, or is joined. -/
theorem good_close {order : List O} (hs : Ok errorName s)
    (h : closeSection s i order = some (s', pc')) : Good errorName i s s' pc' := by
  unfold closeSection at h
  split at h
  · cases h
  next hlock =>
    have hlock : s.lock = none := by simpa using hlock
    split at h
    next horder =>
      obtain ⟨close, ⟨pc, heq, hstatus, hpc⟩ | ⟨g, stage, heq, hst, hclose, hstage⟩⟩ :=
        closeBegin_cases s.shared
      · have hgood : Good errorName i s
            { s with
              shared :=
                { s.shared with connection := { s.shared.connection with close := close } } }
            (.call pc) := by
          refine .ofCall hs (attempts_close hs (some i) close) (fun _ => .inl)
            (fun _ _ h => h) hstatus ?_
          rcases hpc with ⟨g, rfl⟩ | ⟨e, rfl⟩
          · trivial
          · trivial
        simp only [heq] at h
        rcases hpc with ⟨g, rfl⟩ | ⟨e, rfl⟩
        all_goals
          cases h
          exact hgood
      · simp only [heq] at h
        cases h
        refine good_begins close hs hlock horder.2 hst hclose ?_
        intro hfree
        rcases hstage with ⟨hactive, rfl⟩ | ⟨a, hactive, rfl⟩
        · refine here_detachNext ⟨rfl, hclose⟩ hfree (fun a ha => ?_) rfl
          cases hactive.symm.trans ha
        · exact ⟨trivial, ⟨rfl, hclose⟩, hfree, fun b hb => Option.some.inj (hb.symm.trans hactive)⟩
    next => cases h

/-! ## The other calls -/

/-- What a step of a call fails, is over. -/
theorem failed_over {p : Pc} {t : Shared ι} (hA : CallAt i s.shared p)
    (hframe : Frame s.shared t p) (a : ℕ) (h : (t.history a).closeFailed = true) :
    (s.shared.history a).closeFailed = true ∨ Over (s.shared.view a) := by
  rcases hframe.closeFailed a h with hold | rfl
  · exact .inl hold
  · exact .inr hA.2.2.1

/-- A step of a call makes no attempt. -/
theorem active_of_frame {p : Pc} {t : Shared ι} (hframe : Frame s.shared t p) (a : ℕ)
    (h : t.connection.activeConnect = some a) : s.shared.connection.activeConnect = some a := by
  rcases hframe.active with hsame | hnone
  · exact hsame.symm.trans h
  · cases hnone.symm.trans h

/-- A step of `connect`, or of `disconnect`. -/
theorem Good.ofFrame {p pc : Pc} {t : Shared ι} {late : Bool} (hs : Ok errorName s)
    (hA : CallAt i s.shared p) (hspec : CallSpec errorName i s.shared t pc)
    (hframe : Frame s.shared t p) (hclose : t.connection.close.status = s.status)
    (hpc : ∀ g stage, pc ≠ .close g stage) :
    Good errorName i s { s with shared := t, late := late } (afterCall s.remaining pc) := by
  refine .ofCall hs hspec.step (failed_over hA hframe) (fun _ => active_of_frame hframe) hclose ?_
  cases pc with
  | close g stage => exact absurd rfl (hpc g stage)
  | _ => exact hspec.at_

/-- **The end of a teardown**: only its thread writes the outcome. -/
theorem good_ends {close : CloseCoordinator} {late : Bool} {raised : Option PyError}
    (hs : Ok errorName s) (hcloser : Closer i s) (hlock : s.lock = none)
    (hclose : close.status = .closed ∨ (close.status = .closeFailed ∧ s.destroyed = false)) :
    Good errorName i s
      { s with
        shared := { s.shared with connection := { s.shared.connection with close := close } }
        late := late } (.call (.idle raised)) where
  ok := by
    refine hs.ofShared (attempts_close hs (some i) close) (fun _ => .inl) (fun _ _ h => h)
      (fun h => absurd hlock h) ?_
    intro h
    rcases hclose with hclosed | ⟨-, hfree⟩
    · exact .inr hclosed
    · cases hfree.symm.trans h
  here := trivial
  leaves := by
    refine .ofShared (attempts_close hs (some i) close).2 (fun _ _ h => h)
      (.inr ⟨⟨i, rfl, hcloser⟩, ?_⟩)
    rcases hclose with hclosed | ⟨hfailed, -⟩
    · exact ⟨by simp [hclosed], by simp [hclosed]⟩
    · exact ⟨by simp [hfailed], by simp [hfailed]⟩

/-- **The handle is destroyed** when no attempt is unfinished and every Output of the snapshot has
been dealt with. -/
theorem good_destroyed {g : ℕ} {dumpError : Option PyError} {late : Bool} (hs : Ok errorName s)
    (hcloser : Closer i s) (hsettled : Settled s.shared) :
    Good errorName i s { s with late := late, destroyed := true }
      (.call (.close g (.state dumpError))) where
  ok := ⟨hs.attempts, hs.outputs, hs.failed, hs.lock, fun _ => .inl hcloser.2, fun _ => hsettled⟩
  here := ⟨trivial, hcloser, trivial⟩
  leaves :=
    { attempts := fun _ => .refl _ _
      outputs := fun _ => .refl _ _
      parent := .refl _ _
      lock := fun _ _ h => h
      active := fun _ _ h => h
      destroyed := fun _ hj h _ =>
        absurd (congrArg some (Option.some.inj (hcloser.1.symm.trans h))) hj
      waits := fun _ _ _ _ h => h }

/-- **A stage of the close** in the thread that performs it. -/
theorem good_closeStage {g : ℕ} {stage : CloseStage} {act : CallAction} {t : Shared ι} {pc : Pc}
    {late : Bool} (hs : Ok errorName s) (hA : Here i s (.call (.close g stage)))
    (hlock : (locks (.close g stage) && s.lock.isSome) = false)
    (hspec : CallSpec errorName i s.shared t pc)
    (h : CloseMoves errorName s.shared i g stage act t pc) :
    Good errorName i s { s with
      shared := t
      late := late
      destroyed := s.destroyed || destroys (.close g stage) act } (afterCall s.remaining pc) := by
  obtain ⟨hcall, hcloser, hclose⟩ := hA
  have hframe := h.frame
  have hsame : destroys (.close g stage) act = false → t.connection.close.status = s.status →
      Here i { s with shared := t, late := late } (afterCall s.remaining pc) →
      Good errorName i s { s with
        shared := t
        late := late
        destroyed := s.destroyed || destroys (.close g stage) act } (afterCall s.remaining pc) := by
    intro hdestroys hstatus hhere
    rw [hdestroys, Bool.or_false]
    exact .ofCall hs hspec.step (failed_over hcall hframe) (fun _ => active_of_frame hframe) hstatus
      hhere
  cases h with
  | cancels a stage stage' act t hcancel =>
      have hstatus := hcancel.status_eq
      exact hsame rfl hstatus ⟨hspec.at_, ⟨hcloser.1, hstatus.trans hcloser.2⟩, hclose.1,
        fun b hb => hclose.2 b (active_of_frame hframe b hb)⟩
  | cancelled a stage act t hcancel =>
      have hstatus := hcancel.status_eq
      exact hsame rfl hstatus ⟨trivial, ⟨hcloser.1, hstatus.trans hcloser.2⟩, hclose.1,
        fun b hb => hclose.2 b (active_of_frame hframe b hb)⟩
  | cancelRaises a stage act t e hcancel =>
      have hstatus := hcancel.status_eq
      exact hsame rfl hstatus ⟨trivial, ⟨hcloser.1, hstatus.trans hcloser.2⟩, hclose.1⟩
  | awaited a hfinished =>
      refine hsame rfl rfl (here_detachNext hcloser hclose.1 (fun b hb => ?_) rfl)
      rw [hclose.2 b hb]
      exact hfinished
  | childrenClosed dumpError => exact hsame rfl rfl ⟨trivial, hcloser, hclose⟩
  | fails stage act e hstage hact =>
      have hfree : s.destroyed = false := by
        rcases hstage with rfl | ⟨d, rfl⟩ | ⟨d, rfl⟩
        · exact hclose.1
        · exact hclose.1
        · exact hclose.1
      refine hsame ?_ rfl ⟨trivial, hcloser, hfree⟩
      unfold destroys
      split
      · exact absurd rfl hact
      · rfl
  | dispatcher dumpError => exact hsame rfl rfl ⟨trivial, hcloser, hclose⟩
  | drained dumpError hdrained => exact hsame rfl rfl ⟨trivial, hcloser, hclose⟩
  | reads dumpError => exact hsame rfl rfl ⟨trivial, hcloser, hclose⟩
  | toDisconnect dumpError state => exact hsame rfl rfl ⟨trivial, hcloser, hclose⟩
  | toDestroy dumpError state => exact hsame rfl rfl ⟨trivial, hcloser, hclose⟩
  | disconnected dumpError => exact hsame rfl rfl ⟨trivial, hcloser, hclose⟩
  | destroyed dumpError =>
      rw [show destroys (.close g (.destroy dumpError)) (.native (.code 0)) = true from rfl,
        Bool.or_true]
      exact good_destroyed hs hcloser hclose.2.1
  | stated dumpError => exact hsame rfl rfl ⟨trivial, hcloser, trivial⟩
  | succeeds dumpError =>
      rw [show destroys (.close g (.succeed dumpError)) .go = false from rfl, Bool.or_false]
      exact good_ends hs hcloser (by simpa [locks] using hlock) (.inl rfl)
  | failed e =>
      rw [show destroys (.close g (.fail e)) .go = false from rfl, Bool.or_false]
      exact good_ends hs hcloser (by simpa [locks] using hlock) (.inr ⟨rfl, hclose⟩)

/-- A step of a call that destroys nothing. -/
theorem Good.ofStage {p pc : Pc} {act : CallAction} {t : Shared ι} {late : Bool}
    (hs : Ok errorName s) (hA : CallAt i s.shared p) (hspec : CallSpec errorName i s.shared t pc)
    (hframe : Frame s.shared t p) (hclose : t.connection.close.status = s.status)
    (hpc : ∀ g stage, pc ≠ .close g stage) (hdestroys : destroys p act = false) :
    Good errorName i s
      { s with shared := t, late := late, destroyed := s.destroyed || destroys p act }
      (afterCall s.remaining pc) := by
  rw [hdestroys, Bool.or_false]
  exact .ofFrame hs hA hspec hframe hclose hpc

/-- **An attempt is made** on an open Connection. -/
theorem good_begun {managed late : Bool} (hs : Ok errorName s) (hopen : s.status = .open)
    (hspec : CallSpec errorName i s.shared (s.shared.begun i managed)
      (.connect s.shared.next .starting)) :
    Good errorName i s { s with shared := s.shared.begun i managed, late := late }
      (.call (.connect s.shared.next .starting)) := by
  refine .ofCall hs hspec.step (fun a h => .inl ?_) (fun hne => absurd hopen hne) rfl hspec.at_
  by_cases ha : a = s.shared.next
  · subst ha
    simp [Shared.begun, Shared.note] at h
  · simpa [Shared.begun, Shared.note, ha] using h

/-- **A call begins**, or is refused. -/
theorem good_idle {raised : Option PyError} {act : CallAction} {t : Shared ι} {pc : Pc}
    {late : Bool} (hs : Ok errorName s) (hact : act ≠ .close)
    (hspec : CallSpec errorName i s.shared t pc)
    (h : callStep errorName s.shared i mode (.idle raised) act = some (t, pc)) :
    Good errorName i s
      { s with shared := t, late := late, destroyed := s.destroyed || destroys (.idle raised) act }
      (afterCall s.remaining pc) := by
  have hA : CallAt i s.shared (.idle raised) := trivial
  have hdestroys : destroys (.idle raised) act = false := rfl
  cases act with
  | connect =>
      rcases connectBegin_cases s.shared i mode with ⟨e, heq⟩ | ⟨hopen, -, heq⟩
      · cases heq.symm.trans (Option.some.inj h)
        exact .ofStage hs hA hspec (.refl _ _) rfl (fun g stage h => nomatch h) hdestroys
      · cases heq.symm.trans (Option.some.inj h)
        rw [hdestroys, Bool.or_false]
        exact good_begun hs (CloseCoordinator.requireOpen_eq_none.mp hopen) hspec
  | disconnect =>
      rcases disconnectBegin_cases s.shared with ⟨e, -, heq⟩ | ⟨-, stage, heq⟩
      · cases heq.symm.trans (Option.some.inj h)
        exact .ofStage hs hA hspec (.refl _ _) rfl (fun g stage h => nomatch h) hdestroys
      · cases heq.symm.trans (Option.some.inj h)
        exact .ofStage hs hA hspec (.refl _ _) rfl (fun g stage h => nomatch h) hdestroys
  | close => exact absurd rfl hact
  | _ => cases h

/-- **The wait for the close of another thread ends.** -/
theorem good_closeJoin {g : ℕ} {act : CallAction} {t : Shared ι} {pc : Pc} {late : Bool}
    (hs : Ok errorName s) (hspec : CallSpec errorName i s.shared t pc)
    (h : callStep errorName s.shared i mode (.closeJoin g) act = some (t, pc)) :
    Good errorName i s
      { s with shared := t, late := late, destroyed := s.destroyed || destroys (.closeJoin g) act }
      (afterCall s.remaining pc) := by
  cases act with
  | go =>
      obtain ⟨outcome, -, hwake⟩ := Option.bind_eq_some_iff.mp h
      obtain ⟨close, hleave, hnext⟩ := Option.map_eq_some_iff.mp hwake
      cases hnext
      have hstatus := (s.shared.connection.close.leave_spec hleave).1
      exact .ofStage (p := .closeJoin g) hs trivial hspec (.same rfl rfl rfl) hstatus
        (fun g stage h => nomatch h) rfl
  | _ => cases h

/-- **A step of a call.** -/
theorem good_call {p : Pc} {act : CallAction} (hs : Ok errorName s) (hA : Here i s (.call p))
    (hact : ∀ raised, p = .idle raised → act ≠ .close)
    (h : callSection errorName mode s i p act = some (s', pc')) : Good errorName i s s' pc' := by
  unfold callSection at h
  split at h
  · cases h
  next hlock =>
    obtain ⟨⟨t, pc⟩, hstep, h⟩ := Option.map_eq_some_iff.mp h
    cases h
    have hspec := callStep_spec hs.attempts hA.call hstep
    have hlock : (locks p && s.lock.isSome) = false := by simpa using hlock
    cases p with
    | close g stage => exact good_closeStage hs hA hlock hspec (closeStep_cases hstep)
    | idle raised => exact good_idle hs (hact raised rfl) hspec hstep
    | connect a stage =>
        have hmoves := connectStep_cases hstep
        have hclose := congrArg CloseCoordinator.status hmoves.frame.2
        exact .ofStage hs hA.call hspec hmoves.frame.1 hclose hmoves.next rfl
    | disconnect stage =>
        have hmoves := disconnectStep_cases hstep
        have hclose := congrArg CloseCoordinator.status hmoves.frame.2
        exact .ofStage hs hA.call hspec hmoves.frame.1 hclose hmoves.next rfl
    | closeJoin g => exact good_closeJoin hs hspec hstep

/-! ## Every step -/

/-- **A step of a thread.** -/
theorem good_step {pc : HandlePc O} {act : HandleAction O} (hs : Ok errorName s) (hA : Here i s pc)
    (h : handleStep errorName mode s i pc act = some (s', pc')) : Good errorName i s s' pc' := by
  unfold handleStep at h
  split at h
  · exact good_operationBegin hs h
  · exact good_operationEnd hs hA h
  · exact good_close hs h
  · cases h
  next hact => exact good_call hs hA (fun raised hp hclose => hact raised hp hclose) h
  next raised o p =>
    have hat : Outputs.At i s.bindings (.idle raised) := trivial
    have hcall : OutputCall s (.idle raised) (.attach o p) := trivial
    exact good_output hs hat hcall h
  next raised o callback =>
    have hat : Outputs.At i s.bindings (.idle raised) := trivial
    have hcall : OutputCall s (.idle raised) (.detach o callback) := trivial
    exact good_output hs hat hcall h
  next raised o callback =>
    have hat : Outputs.At i s.bindings (.idle raised) := trivial
    have hcall : OutputCall s (.idle raised) (.closeOutput o callback) := trivial
    exact good_output hs hat hcall h
  · cases h
  next opc oact hbusy =>
    refine good_output hs hA.1 ?_ h
    cases opc with
    | idle raised => exact hA.2.elim
    | _ => exact hA.2
  · cases h

/-- **A step of the Runtime or the pool.** -/
theorem good_environment {e : Environment} (hs : Ok errorName s)
    (h : handleEnvironment s e = some s') : Ok errorName s' ∧ Leaves none s s' := by
  unfold handleEnvironment at h
  split at h
  · cases h
  obtain ⟨t, hstep, h⟩ := Option.map_eq_some_iff.mp h
  cases h
  have hspec := environment_spec hs.attempts hstep
  have hframe := environmentStep_frame hstep
  have hstatus : t.connection.close.status = s.status :=
    congrArg CloseCoordinator.status hframe.close
  have hactive : s.status ≠ .open → ∀ a, t.connection.activeConnect = some a →
      s.shared.connection.activeConnect = some a := fun _ a ha => hframe.active.symm.trans ha
  refine ⟨.ofShared hs hspec (fun a ha => .inl ((hframe.closeFailed a).symm.trans ha)) hactive
    (fun hlock => hstatus.trans (hs.lock hlock)) (fun hd => ?_), .ofShared hspec.2 hactive
      (.inl hstatus)⟩
  rw [hstatus]
  exact hs.destroyed hd

/-- **The rely-guarantee proof** over all calls on one Connection and its Outputs. -/
theorem handle_control : Threads.RelyGuarantee (handleCalls O ι mode errorName)
    (fun _ _ _ _ => True) (fun _ _ => True) (Ok errorName) Here Leaves where
  start := by
    rintro s rfl
    exact ⟨⟨attempts_start, nofun, nofun, fun h => absurd rfl h, nofun, nofun⟩, fun i => trivial⟩
  thread _ _ _ _ _ _ hI h _ hstep :=
    let hgood := good_step hI h hstep
    ⟨hgood.ok, hgood.here, hgood.leaves⟩
  env _ _ _ hI _ hstep := good_environment hI hstep
  stable _ _ _ _ _ hk hI hI' hG h := h.stable hk hI hI' hG

end Tirtc.HandleUse
