import Tirtc.Outputs.Control

/-!
# Native attach and detach stay paired

`detach`, the close of a parent and the close of the Output itself can all detach one binding. The
first two set `_detaching` and clear `_bound`; the last sets `_native_detached`, which neither of
the others reads, and it does not keep a parent away.

* `Paired`: the invariant of an Output on the Runtime's side; `ClosePaired`: what the thread that
  closes it knows; `KeepsNative`: what a step of one thread leaves to the one that closes.
* `BindingPc.parentDetaches`, `sparesCloses`: a parent detaches no Output that is being closed, or
  whose close has detached it.
* `moves_paired`: every such step keeps it; `detach_paired`: the runs.
* `parent_detaches_again`: the run in which a parent does detach such an Output.
-/

set_option autoImplicit false
set_option linter.unusedSectionVars false

namespace Tirtc.Outputs

open Transition

variable {O P ι : Type} [DecidableEq O] [DecidableEq P] {errorName : ℤ → String}
  {s s' : Bindings O P ι} {i : ι} {pc pc' : BindingPc O P} {act : BindingAction O P}

/-! ## The condition -/

/-- The Output that the close of a parent is about to detach natively. -/
def BindingPc.parentDetaches : BindingPc O P → Option O
  | .detach o _ (some _) .native => some o
  | _ => none

/-- **The condition**: the close of a parent detaches natively only while the Output is not being
closed, and no close of it that failed has detached it. -/
def sparesCloses (_ : ι) (s : Bindings O P ι) (pc : BindingPc O P) (_ : BindingAction O P) : Prop :=
  ∀ o ∈ pc.parentDetaches, (s.output o).close.status ≠ .closing ∧
    (s.output o).nativeDetached = false

instance (i : ι) (s : Bindings O P ι) (pc : BindingPc O P) (act : BindingAction O P) :
    Decidable (sparesCloses i s pc act) :=
  inferInstanceAs (Decidable (∀ o ∈ pc.parentDetaches, _))

/-! ## The Runtime's side -/

/-- **The invariant of an Output on the Runtime's side**: while it is not being closed, a binding
that nobody has let go is attached, and the Output is not destroyed. -/
structure Paired (out : Output P ι) : Prop where
  unpaired : out.unpaired = false
  fresh : out.close.status = .open → out.nativeDetached = false
  live : out.close.status = .open ∨ out.close.status = .closeFailed → out.destroyed = false
  bound : out.close.status ≠ .closing → out.bound.isSome = true → out.detaching = false →
    out.nativeDetached = false → out.attached.isSome = true

/-- What the thread that closes an Output knows of the Runtime's side. -/
def ClosePaired (out : Output P ι) (bound : Option P) : OutputCloseStage → Prop
  | .dispatcher =>
      out.destroyed = false ∧
        (bound.isSome = true → out.nativeDetached = false → out.attached.isSome = true)
  | .detach => out.destroyed = false ∧ out.nativeDetached = false ∧ out.attached.isSome = true
  | .destroy => out.destroyed = false ∧ (bound.isSome = true → out.nativeDetached = true)
  | .fail _ =>
      out.destroyed = false ∧
        (bound.isSome = true → out.nativeDetached = false → out.attached.isSome = true)
  | .unbind | .leave | .succeed => True

/-- What a thread knows of the Runtime's side. -/
def PairedAt (s : Bindings O P ι) : BindingPc O P → Prop
  | .closeOutput o _ bound stage => ClosePaired (s.output o) bound stage
  | _ => True

/-- What a step of `k` leaves to another thread that closes the Output. -/
def KeepsNative (k : Option ι) (out out' : Output P ι) : Prop :=
  ∀ j, k ≠ some j → out.closer = some j → out.close.status = .closing →
    out'.destroyed = out.destroyed ∧ out'.nativeDetached = out.nativeDetached ∧
      out'.attached = out.attached

theorem KeepsNative.refl (k : Option ι) (out : Output P ι) : KeepsNative k out out :=
  fun _ _ _ _ => ⟨rfl, rfl, rfl⟩

/-- What the thread that closes an Output knows, no other thread takes back. -/
theorem ClosePaired.congr {out out' : Output P ι} {bound : Option P} {stage : OutputCloseStage}
    (hdestroyed : out'.destroyed = out.destroyed)
    (hdetached : out'.nativeDetached = out.nativeDetached)
    (hattached : out'.attached = out.attached)
    (h : ClosePaired out bound stage) : ClosePaired out' bound stage := by
  cases stage with
  | dispatcher | detach | destroy | fail _ =>
      simpa only [ClosePaired, hdestroyed, hdetached, hattached] using h
  | unbind | leave | succeed => trivial

/-- The thread that closes an Output performs its teardown. -/
theorem CloseAt.closes {out : Output P ι} {bound : Option P} {stage : OutputCloseStage}
    (h : CloseAt i out bound stage) : out.closer = some i ∧ out.close.status = .closing := by
  cases stage <;> exact h.1

theorem PairedAt.stable {j : ι} {k : Option ι} (hk : k ≠ some j)
    (h : ∀ o, KeepsNative k (s.output o) (s'.output o)) (hA : At j s pc) (hpaired : PairedAt s pc) :
    PairedAt s' pc := by
  cases pc with
  | closeOutput o g bound stage =>
      obtain ⟨hcloser, hstatus⟩ := CloseAt.closes hA
      obtain ⟨hdestroyed, hdetached, hattached⟩ := h o j hk hcloser hstatus
      exact ClosePaired.congr hdestroyed hdetached hattached hpaired
  | _ => trivial

/-! ## One step -/

/-- An update of the locks and the histories. -/
theorem Paired.congr {out out' : Output P ι} (h : Paired out)
    (hunpaired : out'.unpaired = out.unpaired)
    (hstatus : out'.close.status = out.close.status)
    (hdetached : out'.nativeDetached = out.nativeDetached)
    (hdestroyed : out'.destroyed = out.destroyed) (hbound : out'.bound = out.bound)
    (hdetaching : out'.detaching = out.detaching) (hattached : out'.attached = out.attached) :
    Paired out' where
  unpaired := hunpaired.trans h.unpaired
  fresh := by rw [hstatus, hdetached]; exact h.fresh
  live := by rw [hstatus, hdestroyed]; exact h.live
  bound := by rw [hstatus, hbound, hdetaching, hdetached, hattached]; exact h.bound

/-- **A detach meets an attached Output**, while the Output is not being closed. -/
theorem Paired.meets {out : Output P ι} {p : P} (h : Paired out) (hok : OutputOk out)
    (hbound : out.bound = some p) (hdetaching : out.detaching = false)
    (hstatus : out.close.status ≠ .closing) (hdetached : out.nativeDetached = false) :
    out.attached.isSome = true ∧ out.destroyed = false := by
  refine ⟨h.bound hstatus (by simp [hbound]) hdetaching hdetached, h.live ?_⟩
  cases hst : out.close.status with
  | «open» => exact .inl rfl
  | closeFailed => exact .inr rfl
  | closing => exact absurd hst hstatus
  | closed =>
      rw [hok hst] at hbound
      cases hbound

/-- Such a detach is paired. -/
theorem nativeDetach_unpaired {out : Output P ι} (r : NativeResult) (h : out.unpaired = false)
    (hattached : out.attached.isSome = true) (hdestroyed : out.destroyed = false) :
    (out.nativeDetach r).unpaired = false := by
  obtain ⟨p, hp⟩ := Option.isSome_iff_exists.mp hattached
  simp [Output.nativeDetach, h, hp, hdestroyed]

/-- A detach that does not succeed leaves the Output attached. -/
theorem nativeDetach_attached {out : Output P ι} {r : NativeResult} (hr : r ≠ .code 0) :
    (out.nativeDetach r).attached = out.attached := by
  simp [Output.nativeDetach, hr]

/-- What a step of thread `i` to `pc` owes on the Runtime's side. -/
structure PairedGood (i : ι) (s s' : Bindings O P ι) (pc : BindingPc O P) : Prop where
  output : ∀ o, Paired (s'.output o)
  here : PairedAt s' pc
  keeps : ∀ o, KeepsNative (some i) (s.output o) (s'.output o)

/-- A step that leaves the Outputs alone. -/
theorem PairedGood.same (hs : ∀ o, Paired (s.output o)) (houtput : s'.output = s.output)
    (hA : PairedAt s' pc) : PairedGood i s s' pc where
  output := by rw [houtput]; exact hs
  here := hA
  keeps := by rw [houtput]; exact fun _ => .refl _ _

/-- A step on one Output. -/
theorem PairedGood.ofOutput {o : O} {out : Output P ι} (hs : ∀ o, Paired (s.output o))
    (hout : Paired out) (hkeeps : KeepsNative (some i) (s.output o) out)
    (hA : PairedAt (s.setOutput o out) pc) : PairedGood i s (s.setOutput o out) pc where
  output q := by
    by_cases hq : q = o
    · simpa [hq] using hout
    · simpa [hq] using hs q
  here := hA
  keeps q := by
    by_cases hq : q = o
    · subst hq
      simpa using hkeeps
    · simpa [hq] using KeepsNative.refl _ _

/-- A step on one Output that leaves the Runtime's side alone. -/
theorem PairedGood.control {o : O} {out : Output P ι} (hs : ∀ o, Paired (s.output o))
    (hunpaired : out.unpaired = (s.output o).unpaired)
    (hstatus : out.close.status = (s.output o).close.status)
    (hdetached : out.nativeDetached = (s.output o).nativeDetached)
    (hdestroyed : out.destroyed = (s.output o).destroyed) (hbound : out.bound = (s.output o).bound)
    (hdetaching : out.detaching = (s.output o).detaching)
    (hattached : out.attached = (s.output o).attached) (hA : PairedAt (s.setOutput o out) pc) :
    PairedGood i s (s.setOutput o out) pc :=
  .ofOutput hs
    ((hs o).congr hunpaired hstatus hdetached hdestroyed hbound hdetaching hattached)
    (fun _ _ _ _ => ⟨hdestroyed, hdetached, hattached⟩) hA

/-- Nobody closes the Output. -/
theorem KeepsNative.of_not_closing {k : Option ι} {out out' : Output P ι}
    (h : out.close.status ≠ .closing) : KeepsNative k out out' :=
  fun _ _ _ hstatus => absurd hstatus h

/-- The thread closes the Output itself. -/
theorem KeepsNative.of_closer {out out' : Output P ι} (h : out.closer = some i) :
    KeepsNative (some i) out out' :=
  fun _ hj hcloser _ => absurd (h.symm.trans hcloser) hj

/-- While the Output is being closed, the invariant says nothing but that all has been paired. -/
theorem Paired.of_closing {out : Output P ι} (h : out.unpaired = false)
    (hstatus : out.close.status = .closing) : Paired out where
  unpaired := h
  fresh hopen := by rw [hstatus] at hopen; cases hopen
  live hst := by rw [hstatus] at hst; rcases hst with hst | hst <;> cases hst
  bound hne := absurd hstatus hne

/-- A thread that is about to detach natively finds the Output attached. -/
theorem detach_meets {o : O} {p : P} {origin : Option (ℕ × List O)}
    (hs : ∀ o, OutputOk (s.output o))
    (hp : ∀ o, Paired (s.output o)) (hA : At i s (.detach o p origin .native))
    (hok : sparesCloses i s (.detach o p origin .native) act) :
    ((s.output o).attached.isSome = true ∧ (s.output o).destroyed = false) ∧
      (s.output o).close.status ≠ .closing := by
  obtain ⟨-, hbound, hdetaching, hopen⟩ := hA.detach
  have hspared : (s.output o).close.status ≠ .closing ∧ (s.output o).nativeDetached = false := by
    cases origin with
    | none =>
        have hst := hopen rfl
        exact ⟨by simp [hst], (hp o).fresh hst⟩
    | some back => exact hok o rfl
  exact ⟨(hp o).meets (hs o) hbound hdetaching hspared.1 hspared.2, hspared.1⟩

/-- **Every step under the condition keeps the Runtime's side paired.** -/
theorem moves_paired (hs : ∀ o, OutputOk (s.output o)) (hp : ∀ o, Paired (s.output o))
    (hA : At i s pc) (hpaired : PairedAt s pc) (hok : sparesCloses i s pc act)
    (h : Moves s i pc act s' pc') : PairedGood i s s' pc' := by
  cases h with
  | refused raised raised' => exact .same hp rfl trivial
  | attach raised o p hlock hopen hbound =>
      exact .control hp rfl rfl rfl rfl rfl rfl rfl trivial
  | notAdded o p busy e => exact .same hp rfl trivial
  | added o p busy hopen => exact .same hp rfl trivial
  | attached o p timedOut =>
      obtain ⟨-, -, hopen⟩ := hA
      refine .ofOutput hp ⟨(hp o).unpaired, fun _ => rfl, fun _ => (hp o).live (.inl hopen),
        fun _ _ _ _ => rfl⟩ (.of_not_closing (by simp [hopen])) trivial
  | notAttached o p r timedOut e hr => exact .same hp rfl trivial
  | withdrawn o p e => exact .same hp rfl trivial
  | released o p e => exact .control hp rfl rfl rfl rfl rfl rfl rfl trivial
  | detach raised o p callback hlock hopen hbound hdetaching =>
      exact .control hp rfl rfl rfl rfl rfl rfl rfl trivial
  | detachAgain o p origin r timedOut hr =>
      obtain ⟨⟨hattached, hdestroyed⟩, hstatus⟩ := detach_meets hs hp hA hok
      have hsame : ((s.output o).nativeDetach r).attached = (s.output o).attached :=
        nativeDetach_attached hr
      refine .ofOutput hp ((hp o).congr ?_ rfl rfl rfl rfl rfl hsame) (.of_not_closing hstatus)
        trivial
      rw [nativeDetach_unpaired r (hp o).unpaired hattached hdestroyed, (hp o).unpaired]
  | detached o p origin timedOut =>
      obtain ⟨⟨hattached, hdestroyed⟩, hstatus⟩ := detach_meets hs hp hA hok
      have hunpaired := nativeDetach_unpaired (.code 0) (hp o).unpaired hattached hdestroyed
      exact .ofOutput hp ⟨hunpaired, (hp o).fresh, (hp o).live, fun _ _ hfalse => by cases hfalse⟩
        (.of_not_closing hstatus) trivial
  | notDetached o p origin r timedOut e hr =>
      obtain ⟨⟨hattached, hdestroyed⟩, hstatus⟩ := detach_meets hs hp hA hok
      have hsame : ((s.output o).nativeDetach r).attached = (s.output o).attached :=
        nativeDetach_attached hr
      refine .ofOutput hp ((hp o).congr ?_ rfl rfl rfl rfl rfl hsame) (.of_not_closing hstatus)
        (by cases origin <;> trivial)
      exact (nativeDetach_unpaired r (hp o).unpaired hattached hdestroyed).trans
        (hp o).unpaired.symm
  | unbound o p origin hlock =>
      exact .ofOutput hp ⟨(hp o).unpaired, (hp o).fresh, (hp o).live, fun _ hfalse => by
        cases hfalse⟩ (fun _ _ _ _ => ⟨rfl, rfl, rfl⟩) trivial
  | left o p origin => exact .same hp rfl (by cases origin <;> trivial)
  | joined raised o callback g close hlock hclose =>
      exact .control hp rfl hclose rfl rfl rfl rfl rfl trivial
  | woken o g close raised hlock hclose =>
      exact .control hp rfl hclose rfl rfl rfl rfl rfl trivial
  | closes raised o callback g close hlock hdetaching hstatus hclose =>
      have hne : (s.output o).close.status ≠ .closing := by
        intro hst
        rw [hst] at hstatus
        rcases hstatus with hst | hst <;> cases hst
      refine .ofOutput hp (.of_closing (hp o).unpaired hclose) (.of_not_closing hne) ?_
      have hlive := (hp o).live hstatus
      simpa [PairedAt, ClosePaired, hlive] using fun hbound hdetached =>
        (hp o).bound hne hbound hdetaching hdetached
  | toDetach o g p hdetached => exact .same hp rfl ⟨hpaired.1, hdetached, hpaired.2 rfl hdetached⟩
  | toDestroy o g bound hdetached => exact .same hp rfl ⟨hpaired.1, hdetached⟩
  | closeDetachAgain o g bound r timedOut hr =>
      obtain ⟨⟨hcloser, hstatus⟩, -⟩ := hA
      obtain ⟨hdestroyed, hdetached, hattached⟩ := hpaired
      refine .ofOutput hp (.of_closing
        (nativeDetach_unpaired r (hp o).unpaired hattached hdestroyed) hstatus)
        (.of_closer hcloser) ?_
      have hsame : ((s.output o).nativeDetach r).attached = (s.output o).attached :=
        nativeDetach_attached hr
      simp only [PairedAt, ClosePaired, Bindings.setOutput_output, if_true, hsame]
      exact ⟨hdestroyed, hdetached, hattached⟩
  | closeDetached o g bound timedOut =>
      obtain ⟨⟨hcloser, hstatus⟩, -⟩ := hA
      obtain ⟨hdestroyed, hdetached, hattached⟩ := hpaired
      have hunpaired := nativeDetach_unpaired (.code 0) (hp o).unpaired hattached hdestroyed
      refine .ofOutput hp (.of_closing hunpaired hstatus) (.of_closer hcloser) ?_
      simp [PairedAt, ClosePaired, Output.nativeDetach, hdestroyed]
  | closeNotDetached o g bound r timedOut e hr =>
      obtain ⟨⟨hcloser, hstatus⟩, -⟩ := hA
      obtain ⟨hdestroyed, hdetached, hattached⟩ := hpaired
      refine .ofOutput hp (.of_closing
        (nativeDetach_unpaired r (hp o).unpaired hattached hdestroyed) hstatus)
        (.of_closer hcloser) ?_
      have hsame : ((s.output o).nativeDetach r).attached = (s.output o).attached :=
        nativeDetach_attached hr
      simp only [PairedAt, ClosePaired, Bindings.setOutput_output, if_true, hsame]
      exact ⟨hdestroyed, fun _ _ => hattached⟩
  | destroyed o g bound timedOut =>
      obtain ⟨⟨hcloser, hstatus⟩, -⟩ := hA
      exact .ofOutput hp (.of_closing (hp o).unpaired hstatus) (.of_closer hcloser) trivial
  | notDestroyed o g bound r timedOut e =>
      obtain ⟨hdestroyed, hdetached⟩ := hpaired
      refine .same hp rfl ⟨hdestroyed, fun hbound hfalse => ?_⟩
      rw [hdetached hbound] at hfalse
      cases hfalse
  | closeUnbound o g bound hlock =>
      obtain ⟨⟨hcloser, hstatus⟩, -⟩ := hA
      exact .ofOutput hp (.of_closing (hp o).unpaired hstatus) (.of_closer hcloser) trivial
  | closeLeft o g p => exact .same hp rfl trivial
  | closeUnheld o g => exact .same hp rfl trivial
  | closed o g bound hlock =>
      obtain ⟨⟨hcloser, hstatus⟩, hbound⟩ := hA
      refine .ofOutput hp ⟨(hp o).unpaired, fun hopen => (by cases hopen), ?_,
        ?_⟩ (.of_closer hcloser) trivial
      · intro hst
        rcases hst with hst | hst <;> cases hst
      · intro _ hsome
        rw [show (s.output o).bound = none from hbound] at hsome
        cases hsome
  | closeFailed o g bound e hlock =>
      obtain ⟨⟨hcloser, hstatus⟩, hbound⟩ := hA
      obtain ⟨hdestroyed, hattached⟩ := hpaired
      refine .ofOutput hp ⟨(hp o).unpaired, fun hopen => (by cases hopen), fun _ => hdestroyed,
        fun _ hsome _ hdetached => ?_⟩ (.of_closer hcloser) trivial
      rcases hbound with hsame | hnone
      · exact hattached (hsame ▸ hsome) hdetached
      · rw [show (s.output o).bound = none from hnone] at hsome
        cases hsome
  | parentJoined raised p order callback g close hclose => exact .same hp rfl trivial
  | parentWoken p g close raised hclose => exact .same hp rfl trivial
  | parentCloses raised p order callback g close horder hstatus hclose =>
      exact .same hp rfl trivial
  | skipped p g o rest callback hlock hbound => exact .same hp rfl trivial
  | fromParent p g o rest callback hlock hbound hdetaching =>
      exact .control hp rfl rfl rfl rfl rfl rfl rfl trivial
  | parentFails p g rest act e => exact .same hp rfl trivial
  | parentDestroyed p g act => exact .same hp rfl trivial
  | parentClosed p g childError => exact .same hp rfl trivial
  | parentFailed p g e => exact .same hp rfl trivial

/-! ## All runs -/

/-- **The rely-guarantee proof** under the condition. -/
theorem paired (errorName : ℤ → String) :
    Threads.RelyGuarantee (bindings O P ι errorName) sparesCloses (fun _ _ => True)
      (fun s => (∀ o, OutputOk (s.output o)) ∧ ∀ o, Paired (s.output o))
      (fun i s pc => At i s pc ∧ PairedAt s pc)
      (fun k s s' => ((∀ o, Keeps k (s.output o) (s'.output o)) ∧
        ∀ p, KeepsParent k (s.parent p) (s'.parent p)) ∧
          ∀ o, KeepsNative k (s.output o) (s'.output o)) where
  start s hs := by
    obtain rfl := hs
    obtain ⟨hok, hat⟩ := control_start (O := O) (P := P) (ι := ι)
    exact ⟨⟨hok, fun o => ⟨rfl, fun _ => rfl, fun _ => rfl, fun _ hfalse => by cases hfalse⟩⟩,
      fun i => ⟨hat i, trivial⟩⟩
  thread i s pc act s' pc' hs hA hok hstep := by
    have hmoves := bindingStep_cases hstep
    have hgood := moves_good hs.1 hA.1 hmoves
    have hpaired := moves_paired hs.1 hs.2 hA.1 hA.2 hok hmoves
    exact ⟨⟨hgood.output, hpaired.output⟩, ⟨hgood.here, hpaired.here⟩,
      ⟨hgood.keeps, hgood.parents⟩, hpaired.keeps⟩
  env _ e := nomatch e
  stable _ _ _ _ _ hk _ _ hG hA :=
    ⟨hA.1.stable hk hG.1.1 hG.1.2, PairedAt.stable hk hG.2 hA.1 hA.2⟩

section Runs

variable [DecidableEq ι]

/-- **Native attach and detach stay paired** in every run under the condition: no native detach
meets an Output that is not attached, or that has been destroyed.
Source: `_core.py`, `_OutputBase._detach_from_parent` and `_OutputBase._close_output` -/
theorem detach_paired {c : Config ι (Bindings O P ι) (BindingPc O P)}
    (hc : (bindings O P ι errorName).machine.ReachWith
      (Threads.guard sparesCloses fun _ _ => True) c) (o : O) :
    (c.shared.output o).unpaired = false :=
  (((paired errorName).reach hc).1.2 o).unpaired

end Runs

/-- One Output, one parent, and one thread that has not called yet. -/
def fresh : Config (Fin 1) (Bindings (Fin 1) (Fin 1) (Fin 1)) (BindingPc (Fin 1) (Fin 1)) :=
  ⟨{}, fun _ => .idle none⟩

/-- The Output is attached. -/
def attached : List (BindingAction (Fin 1) (Fin 1)) :=
  [.attach 0 0, .add false, .native (.code 0) false]

/-- Its close detaches it natively, and fails in the native destroy. -/
def closeFails : List (BindingAction (Fin 1) (Fin 1)) :=
  [.closeOutput 0 false, .go, .native (.code 0) false, .native (.code 6044) false, .go]

/-- The close of the parent detaches it natively. -/
def parentDetaches : List (BindingAction (Fin 1) (Fin 1)) :=
  [.closeParent 0 [0] false, .next false, .native (.code 0) false]

/-- **A parent detaches again** what the failed close of the Output has detached. -/
theorem parent_detaches_again :
    ¬ ∀ c : Config (Fin 1) (Bindings (Fin 1) (Fin 1) (Fin 1)) (BindingPc (Fin 1) (Fin 1)),
      (bindings (Fin 1) (Fin 1) (Fin 1) fun _ => "").machine.Reach c →
      ∀ o, (c.shared.output o).unpaired = false := by
  intro h
  have hstart : (bindings (Fin 1) (Fin 1) (Fin 1) fun _ => "").machine.start fresh := ⟨rfl, rfl⟩
  have hrun : ((bindings (Fin 1) (Fin 1) (Fin 1) fun _ => "").machine.exec fresh
      ((attached ++ closeFails ++ parentDetaches).map (.thread 0))).any
        (fun c => (c.shared.output 0).unpaired) = true := by
    decide +kernel
  obtain ⟨c, hc, hbad⟩ := Machine.exists_reach hstart hrun
  rw [h c hc 0] at hbad
  cases hbad

/-- Without that close, the Output is attached when the parent detaches it. -/
theorem detach_paired_parent :
    ∃ c, (bindings (Fin 1) (Fin 1) (Fin 1) fun _ => "").machine.Reach c ∧
      (c.shared.output 0).detaching = true ∧ (c.shared.output 0).unpaired = false := by
  have hstart : (bindings (Fin 1) (Fin 1) (Fin 1) fun _ => "").machine.start fresh := ⟨rfl, rfl⟩
  have hrun : (((bindings (Fin 1) (Fin 1) (Fin 1) fun _ => "").machine.guarded fun c l =>
      decide (Threads.guard sparesCloses (fun _ _ => True) c l)).exec fresh
        ((attached ++ parentDetaches).map (.thread 0))).any
          (fun c => (c.shared.output 0).detaching) = true := by
    decide +kernel
  obtain ⟨c, hc, hdetaching⟩ := Machine.exists_reachWith hstart hrun
  exact ⟨c, hc.reach, hdetaching, detach_paired hc 0⟩

end Tirtc.Outputs
