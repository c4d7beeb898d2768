import Tirtc.Teardown.ChildrenFirst

/-!
# Exports that are terminal without a result

An ExportTask is terminal before its file is made, and `_done` is set behind that. When `timedelta`
does not have the duration of the file, the exception comes between the two: nobody sets `_done` any
more, and `wait` does not return.

* `Node.LeftBehind`: the export is terminal, and `_done` is not set.
* `Ended`: what a step does to the end of an object; `step_ended`.
* `leftBehind_for_ever`: an export that is left behind stays so.
* `not_leftBehind`: only the duration of a file leaves one behind.
-/

set_option autoImplicit false

namespace Tirtc.Teardown

open Transition

variable {ι : Type} {errorName : ℤ → String} {cloud : Bool} {s t : Tree} {f : Frame}
  {given : ℤ → ℤ → Prop} {n n' : Node}

/-- The export is terminal, and `_done` is not set. -/
def Node.LeftBehind (n : Node) : Prop :=
  n.kind = .exportTask ∧ n.stopped = true ∧ n.done = false

/-- What a step does to the end of an object: nothing; it ends it with a code and a duration that
are `given`; the object is a RawDump; or it is new. -/
inductive Ended (errorName : ℤ → String) (given : ℤ → ℤ → Prop) (n n' : Node) : Prop
  | same : n'.kind = n.kind → n'.stopped = n.stopped → n'.done = n.done → Ended errorName given n n'
  | ends (code durationMs : ℤ) : given code durationMs →
      n' = (n.ends errorName code durationMs).1 → Ended errorName given n n'
  | dump : n.kind = .rawDump → n'.kind = .rawDump → Ended errorName given n n'
  | born : n = {} → n'.stopped = false → Ended errorName given n n'

/-- An export that is left behind does not end again. -/
theorem Ended.stays (h : Ended errorName given n n') (hn : n.LeftBehind) : n'.LeftBehind := by
  obtain ⟨hkind, hstopped, hdone⟩ := hn
  cases h with
  | same hsame hstopped' hdone' =>
      exact ⟨hsame.trans hkind, hstopped'.trans hstopped, hdone'.trans hdone⟩
  | ends code durationMs _ hends =>
      have hsame : n' = n := by rw [hends, Node.ends, if_pos hstopped]
      exact hsame ▸ ⟨hkind, hstopped, hdone⟩
  | dump hdump => cases hkind.symm.trans hdump
  | born hnew =>
      subst hnew
      cases hkind

/-- Only a duration that `timedelta` lacks leaves one behind. -/
theorem Ended.comes (h : Ended errorName given n n') (hn : n'.LeftBehind) :
    n.LeftBehind ∨ ∃ code durationMs, given code durationMs ∧ overflows code durationMs = true := by
  obtain ⟨hkind, hstopped, hdone⟩ := hn
  cases h with
  | same hsame hstopped' hdone' =>
      exact .inl ⟨hsame.symm.trans hkind, hstopped'.symm.trans hstopped, hdone'.symm.trans hdone⟩
  | ends code durationMs hgiven hends =>
      subst hends
      unfold Node.ends at hkind hstopped hdone
      by_cases hbefore : n.stopped = true
      · simp only [hbefore, if_true] at hkind hdone
        exact .inl ⟨hkind, hbefore, hdone⟩
      · by_cases hover : overflows code durationMs = true
        · exact .inr ⟨code, durationMs, hgiven, hover⟩
        · simp [hbefore, hover] at hdone
  | dump _ hdump => cases hkind.symm.trans hdump
  | born _ hopen => cases hopen.symm.trans hstopped

/-! ### The steps -/

theorem Ended.refl (n : Node) : Ended errorName given n n := .same rfl rfl rfl

/-- A write to one object. -/
theorem ended_modify {x : ℕ} {write : Node → Node}
    (h : Ended errorName given (s.node x) (write (s.node x))) (y : ℕ) :
    Ended errorName given (s.node y) ((s.modify x write).node y) := by
  rw [Tree.modify_node]
  split
  · next heq => exact heq ▸ h
  · exact .refl _

theorem ended_setClose (x : ℕ) (close : CloseCoordinator) (y : ℕ) :
    Ended errorName given (s.node y) ((s.setClose x close).node y) :=
  ended_modify (.same rfl rfl rfl) y

theorem ended_finish (x y : ℕ) :
    Ended errorName given (s.node y) ((s.finish x).node y) := by
  unfold Tree.finish
  split
  · exact ended_modify (.same rfl rfl rfl) y
  · exact .refl _

/-- A step of `RawDump.close` or of `RawDump.stop`. -/
theorem dumpStep_ended {act : Action} {next : Next} (hf : FrameOk s f)
    (hstep : dumpStep errorName s f act = some (t, next)) (y : ℕ) :
    Ended errorName given (s.node y) (t.node y) := by
  have hknows := hf.knows
  unfold dumpStep at hstep
  split at hstep
  · cases hstep
    exact .refl _
  · split at hstep
    · cases hstep
    · split at hstep
      · cases hstep
        exact .refl _
      · cases hstep
        exact ended_modify (.same rfl rfl rfl) y
  · cases hstep
    exact .refl _
  · split at hstep
    · cases hstep
      exact .refl _
    · cases hstep
  · split at hstep
    · cases hstep
    · split at hstep
      · cases hstep
        refine ended_modify (.dump ?_ ?_) y
        · exact hknows
        · exact hknows
      · cases hstep
        exact .refl _
  · split at hstep
    · cases hstep
      exact ended_modify (.same rfl rfl rfl) y
    · cases hstep
      exact ended_modify (.same rfl rfl rfl) y
  · cases hstep
    exact ended_finish _ y
  · cases hstep
    exact .refl _
  · split at hstep
    · cases hstep
    · split at hstep
      · cases hstep
        exact .refl _
      · split at hstep
        · cases hstep
          exact .refl _
        · cases hstep
          exact ended_modify (.same rfl rfl rfl) y
  · split at hstep
    · cases hstep
      refine ended_modify (.dump ?_ ?_) y
      · exact hknows
      · exact hknows
    · cases hstep
      exact ended_modify (.same rfl rfl rfl) y
  · cases hstep

/-- A step of `ExportTask._close_from_parent` or of `ExportTask.wait` reads. -/
theorem exportStep_reads {act : Action} {next : Next}
    (hstep : exportStep errorName s f act = some (t, next)) : t = s := by
  unfold exportStep at hstep
  split at hstep
  · split at hstep
    · cases hstep
      rfl
    · cases hstep
      rfl
  · cases hstep
    rfl
  · split at hstep
    · cases hstep
      rfl
    · split at hstep
      · cases hstep
        rfl
      · cases hstep
        rfl
  · split at hstep
    · cases hstep
      rfl
    · cases hstep
      rfl
  · split at hstep
    · cases hstep
      rfl
    · cases hstep
      rfl
  · cases hstep
    rfl
  · cases hstep
    rfl
  · cases hstep
    rfl
  · cases hstep
    rfl
  · split at hstep
    · cases hstep
      rfl
    · cases hstep
  · cases hstep

/-- A part of a teardown. -/
theorem performStep_ended {x g : ℕ} {kept : Option PyError} {items : List Item} {act : Action}
    {next : Next} (hstep : performStep errorName s x g kept items act = some (t, next)) (y : ℕ) :
    Ended errorName (fun code durationMs => act = .stopped (.code code) durationMs)
      (s.node y) (t.node y) := by
  unfold performStep at hstep
  split at hstep
  · cases hstep
    exact .refl _
  · cases hstep
    exact .refl _
  · cases hstep
    exact .refl _
  · next r durationMs =>
      split at hstep
      · next code hresult =>
          obtain ⟨rfl, -⟩ := retryInUseResult_eq_ok.mp hresult
          cases hstep
          exact ended_modify (.ends code durationMs rfl rfl) y
      · cases hstep
        exact .refl _
  · cases hstep
    exact .refl _
  · split at hstep
    · cases hstep
      exact ended_modify (.same rfl rfl rfl) y
    · cases hstep
      exact .refl _
  · cases hstep
    exact ended_setClose _ _ y
  · cases hstep
    exact ended_finish _ y
  · cases hstep

/-- Up to `begin`. -/
theorem enterStep_ended {x : ℕ} {stops : Bool} {act : Action} {next : Next}
    (hstep : enterStep s x stops act = some (t, next)) (y : ℕ) :
    Ended errorName given (s.node y) (t.node y) := by
  unfold enterStep at hstep
  split at hstep
  · split at hstep
    · cases hstep
    · cases hstep
      exact .refl _
  · dsimp only at hstep
    split at hstep
    · split at hstep
      · cases hstep
        exact ended_setClose _ _ y
      · cases hstep
        exact ended_setClose _ _ y
      · cases hstep
        exact ended_setClose _ _ y
      · obtain ⟨items, -, hnext⟩ := Option.map_eq_some_iff.mp hstep
        cases hnext
        exact ended_setClose _ _ y
    · cases hstep
  · cases hstep

/-- The wait of `begin` ends. -/
theorem joinStep_ended {x g : ℕ} {act : Action} {next : Next}
    (hstep : joinStep s x g act = some (t, next)) (y : ℕ) :
    Ended errorName given (s.node y) (t.node y) := by
  unfold joinStep at hstep
  split at hstep
  · obtain ⟨error, -, hleave⟩ := Option.bind_eq_some_iff.mp hstep
    obtain ⟨close, -, hnext⟩ := Option.map_eq_some_iff.mp hleave
    cases hnext
    exact ended_setClose _ _ y
  · cases hstep

/-- **A step of a call.** -/
theorem frameStep_ended {act : Action} {next : Next} (hf : FrameOk s f)
    (hstep : frameStep errorName s f act = some (t, next)) (y : ℕ) :
    Ended errorName (fun code durationMs => act = .stopped (.code code) durationMs)
      (s.node y) (t.node y) := by
  have hexport {f : Frame} (h : exportStep errorName s f act = some (t, next)) :
      Ended errorName (fun code durationMs => act = .stopped (.code code) durationMs)
        (s.node y) (t.node y) := by
    rw [exportStep_reads h]
    exact .refl _
  unfold frameStep at hstep
  split at hstep
  · exact enterStep_ended hstep y
  · exact joinStep_ended hstep y
  · exact performStep_ended hstep y
  · split at hstep
    · cases hstep
      exact .refl _
    · cases hstep
      exact .refl _
  · cases hstep
    exact ended_setClose _ _ y
  · cases hstep
  · cases hstep
  · exact hexport hstep
  · exact hexport hstep
  · exact hexport hstep
  · exact hexport hstep
  · exact hexport hstep
  · exact hexport hstep
  · exact hexport hstep
  · exact dumpStep_ended hf hstep y

/-- A new object. -/
theorem ended_add (hs : TreeOk s) (kind : Kind) (x y : ℕ) :
    Ended errorName given (s.node y) ((s.add kind x).node y) := by
  by_cases hy : y = s.count
  · exact .born (hs.fresh y hy.ge) (by simp [Tree.add, hy])
  · by_cases hyx : y = x
    · subst hyx
      exact .same (by simp [Tree.add, hy]) (by simp [Tree.add, hy]) (by simp [Tree.add, hy])
    · exact .same (by simp [Tree.add, hy, hyx]) (by simp [Tree.add, hy, hyx])
        (by simp [Tree.add, hy, hyx])

/-- **A step of a thread.** -/
theorem threadStep_ended {thread thread' : Thread} {act : Action} (hs : TreeOk s)
    (hstack : StackOk s thread.stack)
    (hstep : threadStep errorName s thread act = some (t, thread')) (y : ℕ) :
    Ended errorName (fun code durationMs => act = .stopped (.code code) durationMs)
      (s.node y) (t.node y) := by
  unfold threadStep at hstep
  split at hstep
  · split at hstep
    · obtain ⟨-, hnext⟩ := Option.ite_none_right_eq_some.mp hstep
      cases hnext
      unfold Tree.create
      split
      · exact .refl _
      · split
        · exact .refl _
        · exact ended_add hs _ _ y
    · obtain ⟨f, -, hnext⟩ := Option.map_eq_some_iff.mp hstep
      cases hnext
      exact .refl _
  · next f stack heq =>
      rw [heq] at hstack
      obtain ⟨⟨t', next⟩, hframe, hnext⟩ := Option.map_eq_some_iff.mp hstep
      cases hnext
      exact frameStep_ended hstack.1 hframe y

/-! ### All runs -/

/-- The step gives a task or an export this code and this duration. -/
def Gives : Label ι Action Completed → ℤ → ℤ → Prop
  | .thread _ act, code, durationMs => act = .stopped (.code code) durationMs
  | .env e, code, durationMs => e.code = code ∧ e.durationMs = durationMs

/-- The step gives no duration that `timedelta` lacks. -/
def InRange (label : Label ι Action Completed) : Prop :=
  ∀ code durationMs, Gives label code durationMs → overflows code durationMs = false

section Runs

variable [DecidableEq ι] {c c' : Config ι Tree Thread} {x : ℕ}

theorem step_ended (hc : (teardown ι cloud errorName).machine.Reach c)
    {label : Label ι Action Completed}
    (hstep : (teardown ι cloud errorName).machine.step c label = some c') (y : ℕ) :
    Ended errorName (Gives label) (c.shared.node y) (c'.shared.node y) := by
  obtain ⟨hs, hstack⟩ := reach_tree hc
  cases label with
  | thread i act =>
      obtain ⟨⟨t, thread'⟩, hnext, rfl⟩ := Option.map_eq_some_iff.mp hstep
      exact threadStep_ended hs (hstack i) hnext y
  | env e =>
      obtain ⟨t, hnext, rfl⟩ := Option.map_eq_some_iff.mp hstep
      obtain ⟨-, hwrite⟩ := Option.ite_none_right_eq_some.mp hnext
      cases hwrite
      show Ended _ _ _
        ((c.shared.modify e.x fun n => (n.ends errorName e.code e.durationMs).1).node y)
      refine ended_modify (.ends e.code e.durationMs ?_ ?_) y
      · exact ⟨rfl, rfl⟩
      · rfl

/-- **An export that is left behind stays so**, whatever the threads and the Runtime do. -/
theorem leftBehind_for_ever (hc : (teardown ι cloud errorName).machine.Reach c)
    (hx : (c.shared.node x).LeftBehind)
    (hc' : ((teardown ι cloud errorName).machine.after c).Reach c') :
    (c'.shared.node x).LeftBehind := by
  refine (hc'.invariant (I := fun c' => (teardown ι cloud errorName).machine.Reach c' ∧
    (c'.shared.node x).LeftBehind) ?_ ?_).2
  · rintro d (rfl : d = c)
    exact ⟨hc, hx⟩
  · rintro d label d' ⟨hd, hleft⟩ - hstep
    exact ⟨hd.tail hstep, (step_ended hd hstep x).stays hleft⟩

/-- **Only the duration of a file leaves an export behind.** -/
theorem not_leftBehind
    (hc : (teardown ι cloud errorName).machine.ReachWith (fun _ label => InRange label) c) :
    ¬ (c.shared.node x).LeftBehind := by
  have hreach :
      ∀ d, (teardown ι cloud errorName).machine.ReachWith (fun _ label => InRange label) d →
        (teardown ι cloud errorName).machine.Reach d := fun d hd => hd.reach
  refine hc.invariant_of (I := fun d => ¬ (d.shared.node x).LeftBehind) hreach ?_ ?_
  · rintro ⟨shared, pc⟩ ⟨hshared, -⟩ - hleft
    obtain ⟨-, hstopped, -⟩ := hleft
    obtain rfl : shared = .root cloud := hshared
    unfold Tree.root at hstopped
    by_cases hx : x = 0
    · simp [hx] at hstopped
    · simp [hx] at hstopped
  · rintro d label d' hd - hnot hrange hstep hleft
    rcases (step_ended hd hstep x).comes hleft with hbefore | ⟨code, durationMs, hgives, hover⟩
    · exact hnot hbefore
    · exact Bool.false_ne_true ((hrange code durationMs hgives).symm.trans hover)

end Runs

end Tirtc.Teardown
