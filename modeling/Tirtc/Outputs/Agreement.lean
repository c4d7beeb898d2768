import Tirtc.Outputs.Control

/-!
# Both sides of a binding agree

An Output knows its parent, and a parent its Outputs, each under a lock of its own. `attach` writes
the parent's side first, a detach the Output's: between the two writes of a detach the Output can be
attached again, and then the second write takes out what `attach` has put in.

* `BindingPc.leaves`, `BindingPc.binds`, `keepsMembers`: nobody takes out an Output that is bound
  again, and nobody binds one that has been taken out.
* `Member`, `Awaited`: a bound Output is in the set, and in the snapshot of a parent that closes.
* `BindingPc.pending`, `Pends`: an Output in the set is bound, or a thread is about to bind it or to
  take it out.
* `moves_member`, `moves_pends`: every such step keeps that; `bindings_agree`: the runs.
* `lost_member`: the run in which a detach takes out an Output that is bound again; `late_leave` and
  `late_bind`: each step that does not meet the condition leaves the two sides apart.
-/

set_option autoImplicit false
set_option linter.unusedSectionVars false

namespace Tirtc.Outputs

open Transition

variable {O P ι : Type} [DecidableEq O] [DecidableEq P] {errorName : ℤ → String}
  {s s' : Bindings O P ι} {i : ι} {pc pc' : BindingPc O P} {act : BindingAction O P}

/-! ## The condition -/

/-- The Output that a detach is about to take out of the set of a parent. -/
def BindingPc.leaves : BindingPc O P → Option (O × P)
  | .detach o p _ .leave => some (o, p)
  | _ => none

/-- The Output that a step binds, and to which parent. -/
def BindingPc.binds : BindingPc O P → BindingAction O P → Option (O × P)
  | .attach o p .native, .native (.code 0) _ => some (o, p)
  | _, _ => none

/-- **The condition**: a detach takes an Output out of the set of a parent only while it is not
bound to that parent again, and an attach binds one only while it is still in the set. -/
def keepsMembers (_ : ι) (s : Bindings O P ι) (pc : BindingPc O P) (act : BindingAction O P) :
    Prop :=
  (∀ x ∈ pc.leaves, (s.output x.1).bound ≠ some x.2) ∧
  ∀ x ∈ pc.binds act, x.1 ∈ (s.parent x.2).outputs

instance (i : ι) (s : Bindings O P ι) (pc : BindingPc O P) (act : BindingAction O P) :
    Decidable (keepsMembers i s pc act) :=
  inferInstanceAs (Decidable ((∀ x ∈ pc.leaves, _) ∧ ∀ x ∈ pc.binds act, _))

/-! ## A bound Output is a member -/

/-- The parent is being closed, or closed. -/
def Closes (par : Parent O ι) : Prop :=
  par.close.status = .closing ∨ par.close.status = .closed

/-- **The invariant**: a bound Output is in the set of its parent, and if that is being closed its
close has still to detach it. -/
structure Member (s : Bindings O P ι) : Prop where
  member : ∀ o p, (s.output o).bound = some p → o ∈ (s.parent p).outputs
  remaining : ∀ o p, Closes (s.parent p) → (s.output o).bound = some p →
    o ∈ (s.parent p).remaining
  closed : ∀ p, (s.parent p).close.status = .closed → (s.parent p).remaining = []

/-- If `o` is in the set of a parent that is being closed, its close has still to come to it. -/
def Awaited (par : Parent O ι) (o : O) : Prop := Closes par → o ∈ par.outputs → o ∈ par.remaining

/-- What the thread in `attach` knows of the parent. -/
def AwaitedAt (s : Bindings O P ι) : BindingPc O P → Prop
  | .attach o p .native => Awaited (s.parent p) o
  | _ => True

/-- What a step of `k` leaves to the thread that has the lock of an Output. -/
def KeepsAwaited (k : Option ι) (s s' : Bindings O P ι) : Prop :=
  ∀ j o p, k ≠ some j → (s.output o).lock = some j → Awaited (s.parent p) o →
    Awaited (s'.parent p) o

theorem AwaitedAt.stable {j : ι} {k : Option ι} (hk : k ≠ some j) (h : KeepsAwaited k s s')
    (hA : At j s pc) (haw : AwaitedAt s pc) : AwaitedAt s' pc := by
  cases pc with
  | attach o p stage =>
      cases stage with
      | native => exact h j o p hk hA.1 haw
      | _ => trivial
  | _ => trivial

/-! ## One step -/

/-- What a step to `pc` owes. -/
structure MemberGood (i : ι) (s s' : Bindings O P ι) (pc : BindingPc O P) : Prop where
  member : Member s'
  here : AwaitedAt s' pc
  keeps : KeepsAwaited (some i) s s'

/-- The parents stay as they are, and no Output is bound. -/
theorem MemberGood.unbinds (hs : Member s) (hparent : s'.parent = s.parent)
    (hbound : ∀ o p, (s'.output o).bound = some p → (s.output o).bound = some p)
    (hA : AwaitedAt s' pc) : MemberGood i s s' pc where
  member :=
    ⟨fun o p h => by rw [hparent]; exact hs.member o p (hbound o p h),
      fun o p hp h => by
        rw [hparent] at hp ⊢
        exact hs.remaining o p hp (hbound o p h),
      fun p hp => by rw [hparent] at hp ⊢; exact hs.closed p hp⟩
  here := hA
  keeps _ _ _ _ _ h := by rw [hparent]; exact h

/-- A step on one Output that does not bind it. -/
theorem MemberGood.ofOutput {o : O} {out : Output P ι} (hs : Member s)
    (hbound : out.bound = (s.output o).bound ∨ out.bound = none)
    (hA : AwaitedAt (s.setOutput o out) pc) : MemberGood i s (s.setOutput o out) pc := by
  refine .unbinds hs rfl (fun q p h => ?_) hA
  by_cases hq : q = o
  · subst hq
    simp only [Bindings.setOutput_output, if_true] at h
    rcases hbound with heq | hnone
    · rw [← heq, h]
    · rw [hnone] at h
      cases h
  · simpa [hq] using h

/-- A step on one parent. -/
theorem MemberGood.ofParent {p : P} {par : Parent O ι} (hs : Member s)
    (hmember : ∀ o, (s.output o).bound = some p → o ∈ par.outputs)
    (hremaining : Closes par → ∀ o, (s.output o).bound = some p → o ∈ par.remaining)
    (hclosed : par.close.status = .closed → par.remaining = [])
    (hawaited : ∀ o j, some i ≠ some j → (s.output o).lock = some j → Awaited (s.parent p) o →
      Awaited par o)
    (hA : AwaitedAt (s.setParent p par) pc) : MemberGood i s (s.setParent p par) pc where
  member := by
    refine ⟨?_, ?_, ?_⟩
    · intro o q h
      by_cases hp : q = p
      · subst hp
        simpa using hmember o h
      · simpa [hp] using hs.member o q h
    · intro o q hq h
      by_cases hp : q = p
      · subst hp
        simp only [Bindings.setParent_parent, if_true] at hq ⊢
        exact hremaining hq o h
      · simp only [Bindings.setParent_parent, hp, if_false] at hq ⊢
        exact hs.remaining o q hq h
    · intro q hq
      by_cases hp : q = p
      · subst hp
        simp only [Bindings.setParent_parent, if_true] at hq ⊢
        exact hclosed hq
      · simp only [Bindings.setParent_parent, hp, if_false] at hq ⊢
        exact hs.closed q hq
  here := hA
  keeps j o q hj hlock h := by
    by_cases hp : q = p
    · subst hp
      simpa using hawaited o j hj hlock h
    · simpa [hp] using h

/-- An Output that is not bound to the parent is taken out of its set. -/
theorem MemberGood.discard {o : O} {p : P} (hs : Member s) (hbound : (s.output o).bound ≠ some p)
    (hA : AwaitedAt (s.discard p o) pc) : MemberGood i s (s.discard p o) pc := by
  refine .ofParent hs (fun q hq => ?_) (fun hp q hq => hs.remaining q p hp hq)
    (fun hp => hs.closed p hp) (fun q j _ _ h hp hq => h hp (Finset.mem_of_mem_erase hq)) hA
  exact Finset.mem_erase.mpr ⟨fun hqo => hbound (hqo ▸ hq), hs.member q p hq⟩

/-- The coordinator of a parent is touched by a thread that joins or wakes. -/
theorem MemberGood.coordinator {p : P} {close : CloseCoordinator} (hs : Member s)
    (hclose : close.status = (s.parent p).close.status)
    (hA : AwaitedAt (s.setParent p { s.parent p with close := close }) pc) :
    MemberGood i s (s.setParent p { s.parent p with close := close }) pc := by
  have hcloses : Closes { s.parent p with close := close } → Closes (s.parent p) := by
    simp [Closes, hclose]
  exact .ofParent hs (fun o h => hs.member o p h)
    (fun hp o h => hs.remaining o p (hcloses hp) h)
    (fun hp => hs.closed p (hclose.symm.trans hp))
    (fun o j _ _ h hp => h (hcloses hp)) hA

/-- **Every step under the condition keeps the bound Outputs in the sets.** -/
theorem moves_member (hs : Member s) (hA : At i s pc) (haw : AwaitedAt s pc)
    (hok : keepsMembers i s pc act) (h : Moves s i pc act s' pc') : MemberGood i s s' pc' := by
  cases h with
  | refused raised raised' => exact .unbinds hs rfl (fun _ _ => id) trivial
  | attach raised o p hlock hopen hbound => exact .ofOutput hs (.inl rfl) trivial
  | notAdded o p busy e => exact .unbinds hs rfl (fun _ _ => id) trivial
  | added o p busy hopen =>
      have hno : ¬ Closes { s.parent p with outputs := insert o (s.parent p).outputs } := by
        simp [Closes, hopen]
      refine .ofParent hs (fun q hq => Finset.mem_insert_of_mem (hs.member q p hq))
        (fun hp => absurd hp hno) ?_ (fun q j _ _ _ hp => absurd hp hno)
        ?_
      · intro hp
        rw [show (s.parent p).close.status = .closed from hp] at hopen
        cases hopen
      · intro hp
        exact absurd (by simpa using hp) hno
  | attached o p timedOut =>
      have hin : o ∈ (s.parent p).outputs := hok.2 (o, p) rfl
      refine ⟨⟨?_, ?_, hs.closed⟩, trivial, fun _ _ _ _ _ h => h⟩
      · intro q r h
        by_cases hq : q = o
        · subst hq
          obtain rfl : p = r := by simpa using h
          exact hin
        · exact hs.member q r (by simpa [hq] using h)
      · intro q r hr h
        by_cases hq : q = o
        · subst hq
          obtain rfl : p = r := by simpa using h
          exact haw hr hin
        · exact hs.remaining q r hr (by simpa [hq] using h)
  | notAttached o p r timedOut e hr => exact .unbinds hs rfl (fun _ _ => id) trivial
  | withdrawn o p e => exact .discard hs (by simp [hA.2.1]) trivial
  | released o p e => exact .ofOutput hs (.inl rfl) trivial
  | detach raised o p callback hlock hopen hbound hdetaching =>
      exact .ofOutput hs (.inl rfl) trivial
  | detachAgain o p origin r timedOut hr => exact .ofOutput hs (.inl rfl) trivial
  | detached o p origin timedOut => exact .ofOutput hs (.inl rfl) trivial
  | notDetached o p origin r timedOut e hr =>
      exact .ofOutput hs (.inl rfl) (by cases origin <;> trivial)
  | unbound o p origin hlock => exact .ofOutput hs (.inr rfl) trivial
  | left o p origin =>
      have hbound : (s.output o).bound ≠ some p := hok.1 (o, p) rfl
      cases origin with
      | none => exact .discard hs hbound trivial
      | some back =>
          obtain ⟨g, rest⟩ := back
          obtain ⟨hcloser, hstatus, hrest⟩ := hA.2
          have hrest : (s.parent p).remaining = o :: rest := hrest _ rfl
          refine .ofParent hs ?_ ?_ ?_ ?_ trivial
          · intro q hq
            exact Finset.mem_erase.mpr ⟨fun hqo => hbound (hqo ▸ hq), hs.member q p hq⟩
          · intro _ q hq
            have hmem := hs.remaining q p (.inl hstatus) hq
            rw [hrest] at hmem
            exact (List.mem_cons.mp hmem).resolve_left fun hqo => hbound (hqo ▸ hq)
          · intro hp
            rw [show (s.parent p).close.status = .closed from hp] at hstatus
            cases hstatus
          · intro q j _ _ h _ hq
            obtain ⟨hne, hin⟩ := Finset.mem_erase.mp hq
            have hmem := h (.inl hstatus) hin
            rw [hrest] at hmem
            exact (List.mem_cons.mp hmem).resolve_left hne
  | joined raised o callback g close hlock hclose => exact .ofOutput hs (.inl rfl) trivial
  | woken o g close raised hlock hclose => exact .ofOutput hs (.inl rfl) trivial
  | closes raised o callback g close hlock hdetaching hstatus hclose =>
      exact .ofOutput hs (.inl rfl) trivial
  | toDetach o g p hdetached => exact .unbinds hs rfl (fun _ _ => id) trivial
  | toDestroy o g bound hdetached => exact .unbinds hs rfl (fun _ _ => id) trivial
  | closeDetachAgain o g bound r timedOut hr => exact .ofOutput hs (.inl rfl) trivial
  | closeDetached o g bound timedOut => exact .ofOutput hs (.inl rfl) trivial
  | closeNotDetached o g bound r timedOut e hr => exact .ofOutput hs (.inl rfl) trivial
  | destroyed o g bound timedOut => exact .ofOutput hs (.inl rfl) trivial
  | notDestroyed o g bound r timedOut e => exact .unbinds hs rfl (fun _ _ => id) trivial
  | closeUnbound o g bound hlock => exact .ofOutput hs (.inr rfl) trivial
  | closeLeft o g p => exact .discard hs (by simp [hA.2]) trivial
  | closeUnheld o g => exact .unbinds hs rfl (fun _ _ => id) trivial
  | closed o g bound hlock => exact .ofOutput hs (.inl rfl) trivial
  | closeFailed o g bound e hlock => exact .ofOutput hs (.inl rfl) trivial
  | parentJoined raised p order callback g close hclose => exact .coordinator hs hclose trivial
  | parentWoken p g close raised hclose => exact .coordinator hs hclose trivial
  | parentCloses raised p order callback g close horder hstatus hclose =>
      have hin : ∀ q ∈ (s.parent p).outputs, q ∈ order := by
        intro q hq
        rw [← horder] at hq
        exact List.mem_toFinset.mp hq
      refine .ofParent hs (fun q hq => hs.member q p hq) (fun _ q hq => hin q (hs.member q p hq))
        (fun hp => ?_) (fun q j _ _ _ _ hq => hin q hq) trivial
      rw [show close.status = .closed from hp] at hclose
      cases hclose
  | skipped p g o rest callback hlock hbound =>
      obtain ⟨hcloser, hstatus, hrest⟩ := hA
      have hrest : (s.parent p).remaining = o :: rest := hrest _ rfl
      refine .ofParent hs (fun q hq => hs.member q p hq) ?_ ?_ ?_ trivial
      · intro _ q hq
        have hmem := hs.remaining q p (.inl hstatus) hq
        rw [hrest] at hmem
        exact (List.mem_cons.mp hmem).resolve_left fun hqo => hbound (hqo ▸ hq)
      · intro hp
        rw [show (s.parent p).close.status = .closed from hp] at hstatus
        cases hstatus
      · intro q j _ hj h hp hq
        have hmem := h hp hq
        rw [hrest] at hmem
        refine (List.mem_cons.mp hmem).resolve_left ?_
        intro hqo
        rw [hqo, hlock] at hj
        cases hj
  | fromParent p g o rest callback hlock hbound hdetaching => exact .ofOutput hs (.inl rfl) trivial
  | parentFails p g rest act e => exact .unbinds hs rfl (fun _ _ => id) trivial
  | parentDestroyed p g act => exact .unbinds hs rfl (fun _ _ => id) trivial
  | parentClosed p g childError =>
      obtain ⟨hcloser, hstatus, hrest⟩ := hA
      exact .ofParent hs (fun q hq => hs.member q p hq)
        (fun _ q hq => hs.remaining q p (.inl hstatus) hq) (fun _ => hrest _ rfl)
        (fun q j _ _ h _ hq => h (.inl hstatus) hq) trivial
  | parentFailed p g e =>
      have hno : ¬ Closes ({ s.parent p with
          close := (s.parent p).close.fail g e
          closer := none } : Parent O ι) := by
        simp [Closes, CloseCoordinator.fail]
      exact .ofParent hs (fun q hq => hs.member q p hq) (fun hp => absurd hp hno)
        (fun hp => by cases hp) (fun q j _ _ _ hp => absurd hp hno) trivial

/-! ## A member is bound, or a thread has still to deal with it -/

/-- The Output that a thread is about to bind, or to take out of the set of a parent. -/
def BindingPc.pending : BindingPc O P → Option (O × P)
  | .attach o p .native => some (o, p)
  | .attach o p (.failed _) => some (o, p)
  | .detach o p _ .barrier => some (o, p)
  | .detach o p _ .leave => some (o, p)
  | .closeOutput o _ (some p) .leave => some (o, p)
  | _ => none

/-- **What a step does to the members**: one comes in or loses its binding through a thread that
deals with it, and that thread goes on only when the Output is bound or taken out. -/
structure Pends (s s' : Bindings O P ι) (pc pc' : BindingPc O P) : Prop where
  comes : ∀ o p, o ∈ (s'.parent p).outputs → o ∈ (s.parent p).outputs ∨ pc'.pending = some (o, p)
  unbound : ∀ o p, (s.output o).bound = some p →
    (s'.output o).bound = some p ∨ pc'.pending = some (o, p)
  dealt : ∀ o p, pc.pending = some (o, p) →
    pc'.pending = some (o, p) ∨ (s'.output o).bound = some p ∨ o ∉ (s'.parent p).outputs

/-- Nobody's binding and nobody's set is touched. -/
theorem Pends.same (hparent : ∀ p, (s'.parent p).outputs = (s.parent p).outputs)
    (hbound : ∀ o, (s'.output o).bound = (s.output o).bound)
    (hpending : ∀ x, pc.pending = some x → pc'.pending = some x) : Pends s s' pc pc' where
  comes o p h := .inl (by rwa [hparent] at h)
  unbound o p h := .inl (by rw [hbound, h])
  dealt o p h := .inl (hpending _ h)

/-- A step on one Output that leaves its binding. -/
theorem Pends.ofOutput {o : O} {out : Output P ι} (hbound : out.bound = (s.output o).bound)
    (hpending : ∀ x, pc.pending = some x → pc'.pending = some x) :
    Pends s (s.setOutput o out) pc pc' := by
  refine .same (fun _ => rfl) (fun q => ?_) hpending
  by_cases hq : q = o
  · subst hq
    simpa using hbound
  · simp [hq]

/-- A step that clears a binding. -/
theorem Pends.clears {o : O} {p : P} {out : Output P ι}
    (hbound : ∀ q, (s.output o).bound = some q → q = p)
    (hpending : ∀ x, pc.pending = some x → x = (o, p)) (hpending' : pc'.pending = some (o, p)) :
    Pends s (s.setOutput o out) pc pc' where
  comes _ _ h := .inl h
  unbound q r h := by
    by_cases hq : q = o
    · subst hq
      obtain rfl := hbound r h
      exact .inr hpending'
    · exact .inl (by simpa [hq] using h)
  dealt q r h := .inl (by rw [hpending', ← hpending _ h])

/-- A step on a parent that leaves its set. -/
theorem Pends.ofParent {p : P} {par : Parent O ι} (houtputs : par.outputs = (s.parent p).outputs)
    (hpending : ∀ x, pc.pending = some x → pc'.pending = some x) :
    Pends s (s.setParent p par) pc pc' := by
  refine .same (fun q => ?_) (fun _ => rfl) hpending
  by_cases hq : q = p
  · subst hq
    simpa using houtputs
  · simp [hq]

/-- A step that takes an Output out of a set. -/
theorem Pends.takesOut {o : O} {p : P} {par : Parent O ι}
    (houtputs : par.outputs = (s.parent p).outputs.erase o)
    (hpending : ∀ x, pc.pending = some x → x = (o, p)) : Pends s (s.setParent p par) pc pc' where
  comes q r h := by
    by_cases hr : r = p
    · subst hr
      simp only [Bindings.setParent_parent, if_true, houtputs] at h
      exact .inl (Finset.mem_of_mem_erase h)
    · exact .inl (by simpa [hr] using h)
  unbound _ _ h := .inl h
  dealt q r h := by
    obtain ⟨rfl, rfl⟩ := Prod.mk.inj (hpending _ h)
    refine .inr (.inr ?_)
    simp [houtputs]

/-- **Every step** does only that to the members. -/
theorem moves_pends (hA : At i s pc) (h : Moves s i pc act s' pc') : Pends s s' pc pc' := by
  cases h with
  | refused raised raised' => exact .same (fun _ => rfl) (fun _ => rfl) (by nofun)
  | attach raised o p hlock hopen hbound => exact .ofOutput rfl (by nofun)
  | notAdded o p busy e => exact .same (fun _ => rfl) (fun _ => rfl) (by nofun)
  | added o p busy hopen =>
      refine ⟨fun q r h => ?_, fun _ _ h => .inl h, fun q r h => by cases h⟩
      by_cases hr : r = p
      · subst hr
        simp only [Bindings.setParent_parent, if_true, Finset.mem_insert] at h
        rcases h with rfl | hin
        · exact .inr rfl
        · exact .inl hin
      · exact .inl (by simpa [hr] using h)
  | attached o p timedOut =>
      refine ⟨fun _ _ h => .inl h, fun q r h => .inl ?_, fun q r h => .inr (.inl ?_)⟩
      · by_cases hq : q = o
        · subst hq
          rw [hA.2.1] at h
          cases h
        · simpa [hq] using h
      · obtain ⟨rfl, rfl⟩ := Prod.mk.inj (Option.some.inj h)
        simp
  | notAttached o p r timedOut e hr => exact .same (fun _ => rfl) (fun _ => rfl) fun _ h => h
  | withdrawn o p e => exact .takesOut rfl fun x h => (Option.some.inj h).symm
  | released o p e => exact .ofOutput rfl (by nofun)
  | detach raised o p callback hlock hopen hbound hdetaching => exact .ofOutput rfl (by nofun)
  | detachAgain o p origin r timedOut hr => exact .ofOutput rfl (by nofun)
  | detached o p origin timedOut => exact .ofOutput rfl (by nofun)
  | notDetached o p origin r timedOut e hr => exact .ofOutput rfl (by nofun)
  | unbound o p origin hlock =>
      obtain ⟨-, -, hbound⟩ := hA.detach
      refine .clears (fun q hq => ?_) (fun x h => (Option.some.inj h).symm) rfl
      rcases hbound with hbound | ⟨hnone, -⟩
      · rw [hbound] at hq
        exact (Option.some.inj hq).symm
      · rw [hnone] at hq
        cases hq
  | left o p origin => exact .takesOut rfl fun x h => (Option.some.inj h).symm
  | joined raised o callback g close hlock hclose => exact .ofOutput rfl (by nofun)
  | woken o g close raised hlock hclose => exact .ofOutput rfl (by nofun)
  | closes raised o callback g close hlock hdetaching hstatus hclose =>
      exact .ofOutput rfl (by nofun)
  | toDetach o g p hdetached => exact .same (fun _ => rfl) (fun _ => rfl) (by nofun)
  | toDestroy o g bound hdetached =>
      exact .same (fun _ => rfl) (fun _ => rfl) (by cases bound <;> nofun)
  | closeDetachAgain o g bound r timedOut hr => exact .ofOutput rfl (by cases bound <;> nofun)
  | closeDetached o g bound timedOut => exact .ofOutput rfl (by cases bound <;> nofun)
  | closeNotDetached o g bound r timedOut e hr => exact .ofOutput rfl (by cases bound <;> nofun)
  | destroyed o g bound timedOut => exact .ofOutput rfl (by cases bound <;> nofun)
  | notDestroyed o g bound r timedOut e =>
      exact .same (fun _ => rfl) (fun _ => rfl) (by cases bound <;> nofun)
  | closeUnbound o g bound hlock =>
      obtain ⟨-, hbound⟩ := hA
      cases bound with
      | some p =>
          refine .clears (fun q hq => ?_) (by nofun) rfl
          rcases hbound with hbound | hnone
          · rw [hbound] at hq
            exact (Option.some.inj hq).symm
          · rw [hnone] at hq
            cases hq
      | none => exact .ofOutput (by rcases hbound with h | h <;> exact h.symm) (by nofun)
  | closeLeft o g p => exact .takesOut rfl fun x h => (Option.some.inj h).symm
  | closeUnheld o g => exact .same (fun _ => rfl) (fun _ => rfl) (by nofun)
  | closed o g bound hlock => exact .ofOutput rfl (by cases bound <;> nofun)
  | closeFailed o g bound e hlock => exact .ofOutput rfl (by cases bound <;> nofun)
  | parentJoined raised p order callback g close hclose => exact .ofParent rfl (by nofun)
  | parentWoken p g close raised hclose => exact .ofParent rfl (by nofun)
  | parentCloses raised p order callback g close horder hstatus hclose =>
      exact .ofParent rfl (by nofun)
  | skipped p g o rest callback hlock hbound => exact .ofParent rfl (by nofun)
  | fromParent p g o rest callback hlock hbound hdetaching => exact .ofOutput rfl (by nofun)
  | parentFails p g rest act e => exact .same (fun _ => rfl) (fun _ => rfl) (by nofun)
  | parentDestroyed p g act => exact .same (fun _ => rfl) (fun _ => rfl) (by nofun)
  | parentClosed p g childError => exact .ofParent rfl (by nofun)
  | parentFailed p g e => exact .ofParent rfl (by nofun)

/-! ## All runs -/

/-- **The rely-guarantee proof** under the condition. -/
theorem members (errorName : ℤ → String) :
    Threads.RelyGuarantee (bindings O P ι errorName) keepsMembers (fun _ _ => True)
      (fun s => (∀ o, OutputOk (s.output o)) ∧ Member s)
      (fun i s pc => At i s pc ∧ AwaitedAt s pc)
      (fun k s s' => ((∀ o, Keeps k (s.output o) (s'.output o)) ∧
        ∀ p, KeepsParent k (s.parent p) (s'.parent p)) ∧ KeepsAwaited k s s') where
  start s hs := by
    obtain rfl := hs
    obtain ⟨hok, hat⟩ := control_start (O := O) (P := P) (ι := ι)
    refine ⟨⟨hok, fun o p h => (by cases h), fun o p _ h => (by cases h), fun p h => rfl⟩,
      fun i => ⟨hat i, trivial⟩⟩
  thread i s pc act s' pc' hs hA hok hstep := by
    have hmoves := bindingStep_cases hstep
    have hgood := moves_good hs.1 hA.1 hmoves
    have hmember := moves_member hs.2 hA.1 hA.2 hok hmoves
    exact ⟨⟨hgood.output, hmember.member⟩, ⟨hgood.here, hmember.here⟩,
      ⟨hgood.keeps, hgood.parents⟩, hmember.keeps⟩
  env _ e := nomatch e
  stable _ _ _ _ _ hk _ _ hG hA :=
    ⟨hA.1.stable hk hG.1.1 hG.1.2, AwaitedAt.stable hk hG.2 hA.1 hA.2⟩

section Runs

variable [DecidableEq ι]

/-- **A member is bound, or pending** in every run, under whatever condition. -/
theorem reach_pends
    {ok : Config ι (Bindings O P ι) (BindingPc O P) → Label ι (BindingAction O P) Empty → Prop}
    {c : Config ι (Bindings O P ι) (BindingPc O P)}
    (hc : (bindings O P ι errorName).machine.ReachWith ok c) (o : O) (p : P)
    (h : o ∈ (c.shared.parent p).outputs) :
    (c.shared.output o).bound = some p ∨ ∃ i, (c.pc i).pending = some (o, p) := by
  revert o p
  refine hc.invariant_of (I := fun c : Config ι (Bindings O P ι) (BindingPc O P) =>
      ∀ o p, o ∈ (c.shared.parent p).outputs →
        (c.shared.output o).bound = some p ∨ ∃ i, (c.pc i).pending = some (o, p))
    (fun _ hc => reach_control hc) ?_ ?_
  · rintro c ⟨hstart, -⟩ _ o p h
    rw [show c.shared = {} from hstart] at h
    simp at h
  · rintro c (⟨i, act⟩ | e) c' ⟨-, hA⟩ _ ih - hstep o p h
    · obtain ⟨⟨s', pc'⟩, hnext, rfl⟩ := Option.map_eq_some_iff.mp hstep
      have hpends := moves_pends (hA i) (bindingStep_cases hnext)
      have hhere : pc'.pending = some (o, p) →
          ∃ j, (Function.update c.pc i pc' j).pending = some (o, p) :=
        fun hpending => ⟨i, by simpa using hpending⟩
      rcases hpends.comes o p h with hold | hpending
      · rcases ih o p hold with hbound | ⟨j, hj⟩
        · exact (hpends.unbound o p hbound).imp id hhere
        · by_cases hji : j = i
          · subst hji
            rcases hpends.dealt o p hj with hpending | hbound | hout
            · exact .inr (hhere hpending)
            · exact .inl hbound
            · exact absurd h hout
          · exact .inr ⟨j, by simpa [hji] using hj⟩
      · exact .inr (hhere hpending)
    · exact nomatch e

/-- **Both sides of a binding agree**, in every run under the condition: while no call is in
progress, an Output is bound to a parent exactly if it is in the set of that parent. The close of a
parent detaches only Outputs that are bound to it, and when it has succeeded none is.
Source: `_core.py`, `_OutputBase.attach` and `_OutputBase.detach` -/
theorem bindings_agree {c : Config ι (Bindings O P ι) (BindingPc O P)}
    (hc : (bindings O P ι errorName).machine.ReachWith
      (Threads.guard keepsMembers fun _ _ => True) c) :
    ((∀ i, ∃ raised, c.pc i = .idle raised) → ∀ o p,
      (c.shared.output o).bound = some p ↔ o ∈ (c.shared.parent p).outputs) ∧
    (∀ i o p back, c.pc i = .detach o p (some back) .native →
      (c.shared.output o).bound = some p) ∧
    ∀ p, (c.shared.parent p).close.status = .closed → ∀ o, (c.shared.output o).bound ≠ some p := by
  obtain ⟨⟨-, hmember⟩, hA⟩ := (members errorName).reach hc
  refine ⟨fun hrest o p => ⟨hmember.member o p, ?_⟩, ?_, ?_⟩
  · intro h
    rcases reach_pends hc o p h with hbound | ⟨i, hi⟩
    · exact hbound
    · obtain ⟨raised, hidle⟩ := hrest i
      rw [hidle] at hi
      cases hi
  · intro i o p back hi
    have hat := (hA i).1
    rw [hi] at hat
    exact hat.1.2.1
  · intro p hp o ho
    have hmem := hmember.remaining o p (.inr hp) ho
    rw [hmember.closed p hp] at hmem
    cases hmem

/-- **A late leave**: a detach that does not meet the condition leaves a bound Output out of the
set. -/
theorem late_leave {c c' : Config ι (Bindings O P ι) (BindingPc O P)} {i : ι} {o : O} {p : P}
    (hi : (c.pc i).leaves = some (o, p)) (hbound : (c.shared.output o).bound = some p)
    (hstep : (bindings O P ι errorName).machine.step c (.thread i .go) = some c') :
    (c'.shared.output o).bound = some p ∧ o ∉ (c'.shared.parent p).outputs := by
  obtain ⟨⟨s', pc'⟩, hnext, rfl⟩ := Option.map_eq_some_iff.mp hstep
  unfold BindingPc.leaves at hi
  split at hi
  next q r origin hpc =>
    obtain ⟨rfl, rfl⟩ := Prod.mk.inj (Option.some.inj hi)
    rw [hpc] at hnext
    cases hnext
    exact ⟨hbound, by simp [Bindings.discard]⟩
  next => cases hi

/-- **A late bind**: so does an attach that does not. -/
theorem late_bind {c c' : Config ι (Bindings O P ι) (BindingPc O P)} {i : ι} {o : O} {p : P}
    {act : BindingAction O P} (hi : (c.pc i).binds act = some (o, p))
    (hout : o ∉ (c.shared.parent p).outputs)
    (hstep : (bindings O P ι errorName).machine.step c (.thread i act) = some c') :
    (c'.shared.output o).bound = some p ∧ o ∉ (c'.shared.parent p).outputs := by
  obtain ⟨⟨s', pc'⟩, hnext, rfl⟩ := Option.map_eq_some_iff.mp hstep
  unfold BindingPc.binds at hi
  split at hi
  next q r timedOut hpc =>
    obtain ⟨rfl, rfl⟩ := Prod.mk.inj (Option.some.inj hi)
    rw [hpc] at hnext
    cases hnext
    exact ⟨by simp, hout⟩
  next => cases hi

end Runs

/-- One Output, one parent, and two threads that have not called yet. -/
def unattached : Config (Fin 2) (Bindings (Fin 1) (Fin 1) (Fin 2)) (BindingPc (Fin 1) (Fin 1)) :=
  ⟨{}, fun _ => .idle none⟩

/-- A thread attaches the Output. -/
def attaches (i : Fin 2) : List (Label (Fin 2) (BindingAction (Fin 1) (Fin 1)) Empty) :=
  [.thread i (.attach 0 0), .thread i (.add false), .thread i (.native (.code 0) false)]

/-- Thread `0` detaches it, as far as to the set of the parent. -/
def detaches : List (Label (Fin 2) (BindingAction (Fin 1) (Fin 1)) Empty) :=
  [.thread 0 (.detach 0 false), .thread 0 (.native (.code 0) false), .thread 0 .go]

/-- **A lost member**: thread `1` attaches the Output again before thread `0` takes it out of the
set. -/
theorem lost_member :
    ¬ ∀ c : Config (Fin 2) (Bindings (Fin 1) (Fin 1) (Fin 2)) (BindingPc (Fin 1) (Fin 1)),
      (bindings (Fin 1) (Fin 1) (Fin 2) fun _ => "").machine.Reach c →
      (∀ i, ∃ raised, c.pc i = .idle raised) → ∀ o p,
        (c.shared.output o).bound = some p ↔ o ∈ (c.shared.parent p).outputs := by
  intro h
  have hstart : (bindings (Fin 1) (Fin 1) (Fin 2) fun _ => "").machine.start unattached :=
    ⟨rfl, rfl⟩
  have hrun : ((bindings (Fin 1) (Fin 1) (Fin 2) fun _ => "").machine.exec unattached
      (attaches 0 ++ detaches ++ attaches 1 ++ [.thread 0 .go])).any (fun c => decide (
        (∀ i, c.pc i = .idle none) ∧ (c.shared.output 0).bound = some 0 ∧
          0 ∉ (c.shared.parent 0).outputs)) = true := by
    decide +kernel
  obtain ⟨c, hc, htest⟩ := Machine.exists_reach hstart hrun
  obtain ⟨hidle, hbound, hout⟩ := of_decide_eq_true htest
  exact hout ((h c hc (fun i => ⟨none, hidle i⟩) 0 0).mp hbound)

/-- When thread `0` takes the Output out of the set first, it is in the set in the end. -/
theorem bindings_agree_again :
    ∃ c, (bindings (Fin 1) (Fin 1) (Fin 2) fun _ => "").machine.Reach c ∧
      (c.shared.output 0).bound = some 0 ∧ 0 ∈ (c.shared.parent 0).outputs := by
  have hstart : (bindings (Fin 1) (Fin 1) (Fin 2) fun _ => "").machine.start unattached :=
    ⟨rfl, rfl⟩
  have hrun : (((bindings (Fin 1) (Fin 1) (Fin 2) fun _ => "").machine.guarded fun c l =>
      decide (Threads.guard keepsMembers (fun _ _ => True) c l)).exec unattached
        (attaches 0 ++ detaches ++ [.thread 0 .go] ++ attaches 1)).any (fun c => decide (
          (∀ i, c.pc i = .idle none) ∧ (c.shared.output 0).bound = some 0)) = true := by
    decide +kernel
  obtain ⟨c, hc, htest⟩ := Machine.exists_reachWith hstart hrun
  obtain ⟨hidle, hbound⟩ := of_decide_eq_true htest
  have hagree := (bindings_agree hc).1 fun i => ⟨none, hidle i⟩
  exact ⟨c, hc.reach, hbound, (hagree 0 0).mp hbound⟩

end Tirtc.Outputs
