import Mathlib.Logic.Relation
import Tirtc.Teardown.Frames

/-!
# Children before parents

In every run on the objects below one Client, the native destroy of a parent is attempted only when
that of every child has succeeded.

* `Plan`: the items that a teardown has still to do cover the children that are not destroyed yet,
  ahead of the native destroy.
* `TreeOk`: what holds of the objects; `Grows`: what a step leaves.
* `FrameOk`, `StackOk`: what a thread knows in a call, and below it in the calls that wait for it.
* `frameStep_spec`, `threadStep_spec`: the steps; `teardown_rely_guarantee`: all of them together.
* `children_before_parents`: the result; `destroyed_below`: what it means for a whole subtree.
-/

set_option autoImplicit false

namespace Tirtc.Teardown

open Transition

variable {ι : Type} {errorName : ℤ → String} {cloud : Bool}

/-- The native destroy of `y` has succeeded. -/
def Tree.Done (s : Tree) (y : ℕ) : Prop := (s.node y).destroyed = true

/-- `y` was created from `x`. -/
def Tree.ChildOf (s : Tree) (x y : ℕ) : Prop := (s.node y).parent = some x

/-! ### What a teardown has still to do -/

/-- The items close all objects of `P` that are not destroyed before they destroy `x`. -/
def Plan (s : Tree) (x : ℕ) : (ℕ → Prop) → List Item → Prop
  | _, [] => s.Done x
  | P, .work :: items => Plan s x P items
  | P, .stop :: items => Plan s x P items
  | P, .child c _ :: items => c < s.count ∧ Plan s x (fun y => P y ∧ y ≠ c) items
  | P, .destroy :: items =>
      (∀ y, P y → s.Done y) ∧ ∀ item ∈ items, item = .succeed ∨ item = .finish
  | P, .succeed :: items => s.Done x ∧ Plan s x P items
  | P, .finish :: items => s.Done x ∧ Plan s x P items

/-- Objects that are destroyed need not be closed any more. -/
theorem Plan.mono {s t : Tree} {x : ℕ} (hcount : s.count ≤ t.count)
    (hdone : ∀ y, s.Done y → t.Done y) {items : List Item} :
    ∀ {P Q : ℕ → Prop}, (∀ y, Q y → P y ∨ t.Done y) → Plan s x P items → Plan t x Q items := by
  induction items with
  | nil => exact fun _ h => hdone x h
  | cons item items ih =>
      intro P Q hQ h
      cases item with
      | work => exact ih hQ h
      | stop => exact ih hQ h
      | child c onError =>
          refine ⟨h.1.trans_le hcount, ih (fun y hy => ?_) h.2⟩
          rcases hQ y hy.1 with hP | hd
          · exact .inl ⟨hP, hy.2⟩
          · exact .inr hd
      | destroy =>
          refine ⟨fun y hy => ?_, h.2⟩
          rcases hQ y hy with hP | hd
          · exact hdone y (h.1 y hP)
          · exact hd
      | succeed => exact ⟨hdone x h.1, ih hQ h.2⟩
      | finish => exact ⟨hdone x h.1, ih hQ h.2⟩

/-- Behind the native destroy nothing is left that depends on the children. -/
theorem plan_of_done {s : Tree} {x : ℕ} (hdone : s.Done x) {P : ℕ → Prop} {items : List Item}
    (h : ∀ item ∈ items, item = .succeed ∨ item = .finish) : Plan s x P items := by
  induction items with
  | nil => exact hdone
  | cons item items ih =>
      obtain ⟨hitem, hitems⟩ := List.forall_mem_cons.mp h
      rcases hitem with rfl | rfl
      · exact ⟨hdone, ih hitems⟩
      · exact ⟨hdone, ih hitems⟩

/-- A part that closes the children `cs` one after the other. -/
theorem plan_children {s : Tree} {x : ℕ} (onError : OnError) {cs : List ℕ} {items : List Item} :
    ∀ {P : ℕ → Prop}, (∀ c ∈ cs, c < s.count) → Plan s x (fun y => P y ∧ y ∉ cs) items →
      Plan s x P (cs.map (Item.child · onError) ++ items) := by
  induction cs with
  | nil =>
      intro P _ h
      exact h.mono le_rfl (fun _ => id) fun y hy => .inl ⟨hy, List.not_mem_nil⟩
  | cons c cs ih =>
      intro P hcs h
      obtain ⟨hc, hcs⟩ := List.forall_mem_cons.mp hcs
      refine ⟨hc, ih hcs (h.mono le_rfl (fun _ => id) fun y hy => .inl ⟨hy.1.1, ?_⟩)⟩
      rw [List.mem_cons]
      rintro (heq | hmem)
      · exact hy.1.2 heq
      · exact hy.2 hmem

/-- A part that stops the tasks `cs` and deletes their files. -/
theorem plan_tasks {s : Tree} {x : ℕ} {cs : List ℕ} {items : List Item} :
    ∀ {P : ℕ → Prop}, (∀ c ∈ cs, c < s.count) → Plan s x (fun y => P y ∧ y ∉ cs) items →
      Plan s x P (stopAndDelete cs ++ items) := by
  induction cs with
  | nil =>
      intro P _ h
      exact h.mono le_rfl (fun _ => id) fun y hy => .inl ⟨hy, List.not_mem_nil⟩
  | cons c cs ih =>
      intro P hcs h
      obtain ⟨hc, hcs⟩ := List.forall_mem_cons.mp hcs
      refine ⟨hc, ih hcs (h.mono le_rfl (fun _ => id) fun y hy => .inl ⟨hy.1.1, ?_⟩)⟩
      rw [List.mem_cons]
      rintro (heq | hmem)
      · exact hy.1.2 heq
      · exact hy.2 hmem

/-! ### The objects -/

/-- The teardown of the object has succeeded. -/
def Node.Over (n : Node) : Prop := n.close.status = .closed ∨ n.closed = true

theorem Node.over_of_isClosed {n : Node} (h : n.isClosed = true) : n.Over := by
  unfold Node.isClosed at h
  split at h
  · exact .inr h
  · exact .inl (of_decide_eq_true h)

/-- **What holds of the objects.** -/
structure TreeOk (s : Tree) : Prop where
  fresh : ∀ y, s.count ≤ y → s.node y = {}
  parent : ∀ x y, s.ChildOf x y → x < s.count ∧ (s.node y).kind ∈ (s.node x).kind.childKinds
  /-- A child that is not destroyed is in the sets of its parent. -/
  tracked : ∀ x y, s.ChildOf x y → s.Done y ∨ y ∈ (s.node x).children
  members : ∀ x y, y ∈ (s.node x).children → y < s.count
  closed : ∀ x, (s.node x).Over → s.Done x
  outcome : ∀ x g, (s.node x).close.outcome? g = some none → s.Done x
  order : ∀ x y, s.ChildOf x y → s.Done x → s.Done y
  /-- A destroyed object does not create any more. -/
  ended : ∀ x, s.Done x → (s.node x).close.status = .open → (s.node x).kind.childKinds = []

/-- **What a step leaves**: what is destroyed and what has begun to close stays so, and children are
made of open parents alone. -/
structure Grows (s t : Tree) : Prop where
  count : s.count ≤ t.count
  done : ∀ y, s.Done y → t.Done y
  begun : ∀ x, x < s.count → (s.node x).close.status ≠ .open → (t.node x).close.status ≠ .open
  born : ∀ x y, t.ChildOf x y → s.ChildOf x y ∨ (s.node x).close.status = .open
  kind : ∀ x, x < s.count → (t.node x).kind = (s.node x).kind

theorem Grows.refl (s : Tree) : Grows s s :=
  ⟨le_rfl, fun _ => id, fun _ _ => id, fun _ _ => .inl, fun _ _ => rfl⟩

/-- The native destroy of `x` comes after those of its children, and it does not create any more. -/
def Tree.MayDestroy (s : Tree) (x : ℕ) : Prop :=
  (∀ y, s.ChildOf x y → s.Done y) ∧
    ((s.node x).close.status = .open → (s.node x).kind.childKinds = [])

/-- What a write to object `x` has to show, where `n` is the object and `n'` what is written. -/
structure NodeWrite (s : Tree) (x : ℕ) (n n' : Node) : Prop where
  kind : n'.kind = n.kind
  parent : n'.parent = n.parent
  members : ∀ y ∈ n'.children, y ∈ n.children
  kept : ∀ y ∈ n.children, y ∈ n'.children ∨ s.Done y
  done : n.destroyed = true → n'.destroyed = true
  closed : n'.Over → n.Over ∨ n'.destroyed = true
  outcome : ∀ g, n'.close.outcome? g = some none →
    n.close.outcome? g = some none ∨ n'.destroyed = true
  begun : n.close.status ≠ .open → n'.close.status ≠ .open
  order : n'.destroyed = true → n.destroyed = true ∨ s.MayDestroy x

/-- **A write to an object.** -/
theorem TreeOk.modify {s : Tree} (hs : TreeOk s) {x : ℕ} (hx : x < s.count) {f : Node → Node}
    (h : NodeWrite s x (s.node x) (f (s.node x))) :
    TreeOk (s.modify x f) ∧ Grows s (s.modify x f) := by
  have hdone (y : ℕ) (hy : s.Done y) : (s.modify x f).Done y := by
    unfold Tree.Done
    rw [Tree.modify_node]
    split
    · next heq => exact h.done (heq ▸ hy)
    · exact hy
  have hparent (y : ℕ) : ((s.modify x f).node y).parent = (s.node y).parent := by
    rw [Tree.modify_node]
    split
    · next heq => rw [heq, h.parent]
    · rfl
  have hkind (y : ℕ) : ((s.modify x f).node y).kind = (s.node y).kind := by
    rw [Tree.modify_node]
    split
    · next heq => rw [heq, h.kind]
    · rfl
  have hbegun (y : ℕ) (hy : (s.node y).close.status ≠ .open) :
      ((s.modify x f).node y).close.status ≠ .open := by
    rw [Tree.modify_node]
    split
    · next heq => exact h.begun (heq ▸ hy)
    · exact hy
  have hnew (y : ℕ) (hy : (s.modify x f).Done y) : s.Done y ∨ (y = x ∧ s.MayDestroy x) := by
    unfold Tree.Done at hy
    rw [Tree.modify_node] at hy
    split at hy
    · next heq =>
        subst heq
        exact (h.order hy).imp_right fun hmay => ⟨rfl, hmay⟩
    · exact .inl hy
  refine ⟨⟨?_, ?_, ?_, ?_, ?_,
    ?_, ?_, ?_⟩, le_rfl, hdone,
    fun y _ hy => hbegun y hy, fun z y hy => .inl ?_, fun y _ => hkind y⟩
  · intro y hy
    rw [Tree.modify_node, if_neg (Nat.ne_of_gt (hx.trans_le hy))]
    exact hs.fresh y hy
  · intro z y hy
    unfold Tree.ChildOf at hy
    rw [hparent] at hy
    rw [hkind, hkind]
    exact hs.parent z y hy
  · intro z y hy
    unfold Tree.ChildOf at hy
    rw [hparent] at hy
    rcases hs.tracked z y hy with hd | hmem
    · exact .inl (hdone y hd)
    · rw [Tree.modify_node]
      split
      · next heq => exact (h.kept y (heq ▸ hmem)).symm.imp_left (hdone y)
      · exact .inr hmem
  · intro z y hy
    rw [Tree.modify_node] at hy
    split at hy
    · exact hs.members x y (h.members y hy)
    · exact hs.members z y hy
  · intro y hy
    unfold Tree.Done
    rw [Tree.modify_node] at hy ⊢
    split at hy
    · next heq =>
        rw [if_pos heq]
        rcases h.closed hy with hold | hnew
        · exact h.done (hs.closed x hold)
        · exact hnew
    · next hne =>
        rw [if_neg hne]
        exact hs.closed y hy
  · intro y g hy
    unfold Tree.Done
    rw [Tree.modify_node] at hy ⊢
    split at hy
    · next heq =>
        rw [if_pos heq]
        rcases h.outcome g hy with hold | hnew
        · exact h.done (hs.outcome x g hold)
        · exact hnew
    · next hne =>
        rw [if_neg hne]
        exact hs.outcome y g hy
  · intro z y hy hz
    unfold Tree.ChildOf at hy
    rw [hparent] at hy
    rcases hnew z hz with hd | ⟨rfl, hmay⟩
    · exact hdone y (hs.order z y hy hd)
    · exact hdone y (hmay.1 y hy)
  · intro z hz hopen
    have hopen' : (s.node z).close.status = .open := not_not.mp fun hne => hbegun z hne hopen
    rw [hkind]
    rcases hnew z hz with hd | ⟨rfl, hmay⟩
    · exact hs.ended z hd hopen'
    · exact hmay.2 hopen'
  · exact (hparent y).symm.trans hy

/-- The coordinator of an object moves on. -/
theorem TreeOk.setClose {s : Tree} (hs : TreeOk s) {x : ℕ} (hx : x < s.count)
    {close : CloseCoordinator}
    (hclosed : close.status = .closed → (s.node x).close.status = .closed ∨ s.Done x)
    (houtcome : ∀ g, close.outcome? g = some none →
      (s.node x).close.outcome? g = some none ∨ s.Done x)
    (hbegun : (s.node x).close.status ≠ .open → close.status ≠ .open) :
    TreeOk (s.setClose x close) ∧ Grows s (s.setClose x close) := by
  refine hs.modify hx ⟨rfl, rfl, fun _ => id, fun _ => .inl, id, fun h => ?_, houtcome, hbegun,
    .inl⟩
  rcases h with h | h
  · exact (hclosed h).imp_left .inl
  · exact .inl (.inr h)

/-- A write that leaves the coordinator and the sets, and sets `closed` only on a destroyed
object. -/
theorem TreeOk.setFlags {s : Tree} (hs : TreeOk s) {x : ℕ} (hx : x < s.count) {f : Node → Node}
    {stopped done file closed locked destroyed : Bool} {error : Option PyError}
    (hf : f (s.node x) = { s.node x with
      stopped := stopped, done := done, file := file, error := error, closed := closed
      locked := locked, destroyed := destroyed })
    (hdone : (s.node x).destroyed = true → destroyed = true)
    (hclosed : closed = (s.node x).closed ∨ destroyed = true)
    (horder : destroyed = true → (s.node x).destroyed = true ∨ s.MayDestroy x) :
    TreeOk (s.modify x f) ∧ Grows s (s.modify x f) := by
  refine hs.modify hx ?_
  rw [hf]
  refine ⟨rfl, rfl, fun _ => id, fun _ => .inl, hdone, fun h => ?_, fun g => .inl, id,
    horder⟩
  rcases hclosed with rfl | hnew
  · exact .inl h
  · exact .inr hnew

/-- A task or an export comes to its end. -/
theorem TreeOk.ends (errorName : ℤ → String) {s : Tree} (hs : TreeOk s) {x : ℕ} (hx : x < s.count)
    (code durationMs : ℤ) :
    TreeOk (s.modify x fun n => (n.ends errorName code durationMs).1) ∧
      Grows s (s.modify x fun n => (n.ends errorName code durationMs).1) := by
  obtain ⟨stopped, done, file, error, hends⟩ := (s.node x).ends_eq errorName code durationMs
  exact hs.setFlags hx (f := fun n => (n.ends errorName code durationMs).1) hends id (.inl rfl) .inl

/-- A destroyed object is taken out of the set of its parent. -/
theorem TreeOk.finish {s : Tree} (hs : TreeOk s) {x : ℕ} (hdone : s.Done x) :
    TreeOk (s.finish x) ∧ Grows s (s.finish x) := by
  unfold Tree.finish
  split
  · next p hp =>
      refine hs.modify (hs.parent p x hp).1 ⟨rfl, rfl, fun y h => List.mem_of_mem_filter h,
        fun y h => ?_, id, .inl, fun _ => .inl, id, .inl⟩
      by_cases hyx : y = x
      · exact .inr (hyx ▸ hdone)
      · exact .inl (List.mem_filter.mpr ⟨h, by simpa using hyx⟩)
  · exact ⟨hs, .refl s⟩

/-- **An object is added** below an open one. -/
theorem TreeOk.add {s : Tree} (hs : TreeOk s) {kind : Kind} {x : ℕ} (hx : x < s.count)
    (hkind : kind ∈ (s.node x).kind.childKinds) (hopen : (s.node x).close.status = .open) :
    TreeOk (s.add kind x) ∧ Grows s (s.add kind x) := by
  have hnew : (s.add kind x).node s.count = { kind := kind, parent := some x } := by
    simp [Tree.add]
  have hold (y : ℕ) (hy : y ≠ s.count) : (s.add kind x).node y = { s.node y with
      children := if y = x then s.count :: (s.node y).children else (s.node y).children } := by
    by_cases hyx : y = x
    · subst hyx
      simp [Tree.add, hy]
    · simp [Tree.add, hy, hyx]
  have hfresh := hs.fresh s.count le_rfl
  have hcount {y : ℕ} (hy : y < s.count) : y < (s.add kind x).count := Nat.lt_succ_of_lt hy
  have hdone (y : ℕ) (hy : s.Done y) : (s.add kind x).Done y := by
    have hne : y ≠ s.count := by
      rintro rfl
      unfold Tree.Done at hy
      rw [hfresh] at hy
      cases hy
    unfold Tree.Done
    rw [hold y hne]
    exact hy
  refine ⟨⟨?_, ?_, ?_, ?_, ?_, ?_, ?_, ?_⟩, Nat.le_succ _, hdone, ?_, ?_, ?_⟩
  · intro y hy
    have hlt : s.count < y := hy
    rw [hold y hlt.ne', if_neg (hx.trans hlt).ne']
    exact hs.fresh y hlt.le
  · intro z y hy
    unfold Tree.ChildOf at hy
    by_cases hyc : y = s.count
    · subst hyc
      rw [hnew] at hy ⊢
      cases hy
      rw [hold x hx.ne]
      exact ⟨hcount hx, hkind⟩
    · rw [hold y hyc] at hy ⊢
      obtain ⟨hz, hk⟩ := hs.parent z y hy
      rw [hold z hz.ne]
      exact ⟨hcount hz, hk⟩
  · intro z y hy
    unfold Tree.ChildOf at hy
    by_cases hyc : y = s.count
    · subst hyc
      rw [hnew] at hy
      cases hy
      right
      rw [hold x hx.ne]
      simp
    · rw [hold y hyc] at hy
      refine (hs.tracked z y hy).imp (hdone y) ?_
      intro hmem
      rw [hold z (hs.parent z y hy).1.ne]
      show y ∈ if z = x then _ else _
      split
      · exact List.mem_cons_of_mem _ hmem
      · exact hmem
  · intro z y hy
    by_cases hzc : z = s.count
    · subst hzc
      rw [hnew] at hy
      cases hy
    · rw [hold z hzc] at hy
      have hy : y ∈ if z = x then s.count :: (s.node z).children else (s.node z).children := hy
      split at hy
      · rcases List.mem_cons.mp hy with rfl | hmem
        · exact Nat.lt_succ_self _
        · exact hcount (hs.members z y hmem)
      · exact hcount (hs.members z y hy)
  · intro y hy
    by_cases hyc : y = s.count
    · subst hyc
      rw [hnew] at hy
      rcases hy with hy | hy <;> cases hy
    · rw [hold y hyc] at hy
      exact hdone y (hs.closed y hy)
  · intro y g hy
    by_cases hyc : y = s.count
    · subst hyc
      rw [hnew] at hy
      cases hy
    · rw [hold y hyc] at hy
      exact hdone y (hs.outcome y g hy)
  · intro z y hy hz
    have hzc : z ≠ s.count := by
      rintro rfl
      unfold Tree.Done at hz
      rw [hnew] at hz
      cases hz
    unfold Tree.Done at hz
    rw [hold z hzc] at hz
    unfold Tree.ChildOf at hy
    by_cases hyc : y = s.count
    · -- the parent is open, so it is not destroyed
      subst hyc
      rw [hnew] at hy
      cases hy
      rw [hs.ended x hz hopen] at hkind
      cases hkind
    · rw [hold y hyc] at hy
      exact hdone y (hs.order z y hy hz)
  · intro z hz hz'
    have hzc : z ≠ s.count := by
      rintro rfl
      unfold Tree.Done at hz
      rw [hnew] at hz
      cases hz
    unfold Tree.Done at hz
    rw [hold z hzc] at hz hz' ⊢
    exact hs.ended z hz hz'
  · intro y hlt hy
    rw [hold y hlt.ne]
    exact hy
  · intro z y hy
    unfold Tree.ChildOf at hy
    by_cases hyc : y = s.count
    · subst hyc
      rw [hnew] at hy
      cases hy
      exact .inr hopen
    · rw [hold y hyc] at hy
      exact .inl hy
  · intro y hlt
    rw [hold y hlt.ne]

/-- **An object is created.** -/
theorem TreeOk.create {s : Tree} (hs : TreeOk s) {kind : Kind} {x : ℕ} (hx : x < s.count)
    (hkind : kind ∈ (s.node x).kind.childKinds) (r : NativeResult) :
    TreeOk (s.create errorName kind x r).1 ∧ Grows s (s.create errorName kind x r).1 := by
  unfold Tree.create CloseCoordinator.requireOpen
  by_cases hopen : (s.node x).close.status = .open
  · rw [if_pos hopen]
    cases r.check errorName with
    | some e => exact ⟨hs, .refl s⟩
    | none => exact hs.add hx hkind hopen
  · rw [if_neg hopen]
    exact ⟨hs, .refl s⟩

/-! ### The teardowns cover the children -/

section Plans

variable {s : Tree} {x : ℕ} {P : ℕ → Prop}

/-- The end of every teardown. -/
theorem plan_destroy {items : List Item} (h : ∀ y, P y → s.Done y)
    (hitems : ∀ item ∈ items, item = .succeed ∨ item = .finish) :
    Plan s x P (.destroy :: items) :=
  ⟨h, hitems⟩

theorem Client.plan {children : List ℕ} (hlt : ∀ c ∈ children, c < s.count)
    (h : ∀ y, P y → s.Done y ∨ y ∈ children) : Plan s x P (Client.closeItems children) :=
  plan_children .keep hlt (plan_destroy (fun y hy => (h y hy.1).resolve_right hy.2) (by simp))

/-- Two kinds of children, closed one after the other. -/
theorem covered {first second : List ℕ} (h : ∀ y, P y → s.Done y ∨ y ∈ first ∨ y ∈ second) (y : ℕ)
    (hy : (P y ∧ y ∉ first) ∧ y ∉ second) : s.Done y := by
  rcases h y hy.1.1 with hd | hfirst | hsecond
  · exact hd
  · exact absurd hfirst hy.1.2
  · exact absurd hsecond hy.2

theorem Connection.plan {dumps tasks : List ℕ} (hdumps : ∀ c ∈ dumps, c < s.count)
    (htasks : ∀ c ∈ tasks, c < s.count) (h : ∀ y, P y → s.Done y ∨ y ∈ dumps ∨ y ∈ tasks) :
    Plan s x P (Connection.closeItems dumps tasks) :=
  plan_children .keep hdumps (plan_tasks htasks (plan_destroy (x := x) (covered h) (by simp)))

theorem Replay.plan {dumps tasks : List ℕ} (hdumps : ∀ c ∈ dumps, c < s.count)
    (htasks : ∀ c ∈ tasks, c < s.count) (h : ∀ y, P y → s.Done y ∨ y ∈ dumps ∨ y ∈ tasks) :
    Plan s x P (Replay.closeItems dumps tasks) :=
  plan_children .keep hdumps (plan_tasks htasks (plan_destroy (x := x) (covered h) (by simp)))

theorem CloudStorage.plan {replays exports : List ℕ} (hreplays : ∀ c ∈ replays, c < s.count)
    (hexports : ∀ c ∈ exports, c < s.count)
    (h : ∀ y, P y → s.Done y ∨ y ∈ replays ∨ y ∈ exports) :
    Plan s x P (CloudStorage.closeItems replays exports) :=
  plan_children .keep hreplays
    (plan_children .raise hexports (plan_destroy (x := x) (covered h) (by simp)))

theorem RecordingTask.plan (stopped : Bool) (h : ∀ y, P y → s.Done y) :
    Plan s x P (RecordingTask.stopItems stopped) := by
  cases stopped
  · exact plan_destroy (x := x) h (by simp)
  · exact plan_destroy (x := x) h (by simp)

theorem ExportTask.plan (h : ∀ y, P y → s.Done y) : Plan s x P ExportTask.finishItems :=
  plan_destroy (x := x) h (by simp)

end Plans

/-- **The snapshot that `begin` takes covers the children.** -/
theorem TreeOk.plan {s : Tree} (hs : TreeOk s) {x : ℕ} {stops : Bool} {order : List ℕ}
    {items : List Item} (horder : order.Perm (s.node x).children)
    (hitems : s.items x stops order = some items) : Plan s x (s.ChildOf x) items := by
  have hlt (c : ℕ) (hc : c ∈ order) : c < s.count := hs.members x c (horder.mem_iff.mp hc)
  have hltKind {kind : Kind} (c : ℕ) (hc : c ∈ s.ofKind order kind) : c < s.count :=
    hlt c (List.mem_of_mem_filter hc)
  have hcovers (y : ℕ) (hy : s.ChildOf x y) : s.Done y ∨ y ∈ order :=
    (hs.tracked x y hy).imp_right horder.mem_iff.mpr
  have hkinds {first second : Kind} (hx : (s.node x).kind.childKinds = [first, second]) (y : ℕ)
      (hy : s.ChildOf x y) :
      s.Done y ∨ y ∈ s.ofKind order first ∨ y ∈ s.ofKind order second := by
    refine (hcovers y hy).imp_right ?_
    intro hmem
    have hkind := (hs.parent x y hy).2
    rw [hx] at hkind
    unfold Tree.ofKind
    simpa [hmem] using hkind
  have hnone (hx : (s.node x).kind.childKinds = []) (y : ℕ) (hy : s.ChildOf x y) : s.Done y := by
    have hkind := (hs.parent x y hy).2
    rw [hx] at hkind
    cases hkind
  unfold Tree.items at hitems
  cases hkind : (s.node x).kind <;> simp only [hkind] at hitems <;> cases hitems
  case client => exact Client.plan hlt hcovers
  case cloudClient => exact Client.plan hlt hcovers
  case connection => exact Connection.plan hltKind hltKind (hkinds (by rw [hkind]; rfl))
  case cloudStorage => exact CloudStorage.plan hltKind hltKind (hkinds (by rw [hkind]; rfl))
  case replay => exact Replay.plan hltKind hltKind (hkinds (by rw [hkind]; rfl))
  case recordingTask => exact RecordingTask.plan _ (hnone (by rw [hkind]; rfl))
  case exportTask =>
    have hfinish := ExportTask.plan (x := x) (hnone (by rw [hkind]; rfl))
    cases stops
    · exact hfinish
    · cases (s.node x).stopped
      · exact hfinish
      · exact hfinish

/-! ### What a thread knows -/

/-- What a thread knows in a call. -/
def Knows (s : Tree) : Frame → Prop
  | .perform x _ items _ => (s.node x).close.status ≠ .open ∧ Plan s x (s.ChildOf x) items
  | .check x _ c _ items _ => (s.node x).close.status ≠ .open ∧
      Plan s x (fun y => s.ChildOf x y ∧ y ≠ c) items
  | .dumpClose x | .dumpStopping x | .dumpDestroy x _ | .dumpStop x | .dumpStopNative x =>
      (s.node x).kind = .rawDump
  | .dumpFinish x _ | .exportDelete x => s.Done x
  | _ => True

/-- What holds of a call on the stack of a thread. -/
structure FrameOk (s : Tree) (f : Frame) : Prop where
  object : f.object < s.count
  knows : Knows s f

/-- The object that is destroyed when the call returns without an exception. -/
def Frame.promises : Frame → Option ℕ
  | .dumpStop _ | .dumpStopNative _ => none
  | f => some f.object

/-- The object whose close or wait the call waits for. -/
def Frame.awaits : Frame → Option ℕ
  | .perform _ _ (.child c _ :: _) _ => some c
  | .exportWaited x => some x
  | _ => none

/-- The call at the top waits for a call with this promise. -/
def Waits (promise : Option ℕ) : List Frame → Prop
  | [] => True
  | f :: _ => promise ≠ none ∧ f.awaits = promise

/-- What holds of the calls that a thread is in. -/
def StackOk (s : Tree) : List Frame → Prop
  | [] => True
  | f :: stack => FrameOk s f ∧ Waits f.promises stack ∧ StackOk s stack

/-- What a thread knows stays true while others step. -/
theorem FrameOk.mono {s t : Tree} (hG : Grows s t) {f : Frame} (h : FrameOk s f) : FrameOk t f := by
  obtain ⟨hobject, hknows⟩ := h
  have hborn {x y : ℕ} (hopen : (s.node x).close.status ≠ .open) (hy : t.ChildOf x y) :
      s.ChildOf x y := (hG.born x y hy).resolve_right hopen
  refine ⟨hobject.trans_le hG.count, ?_⟩
  cases f with
  | perform x g items kept =>
      exact ⟨hG.begun x hobject hknows.1,
        hknows.2.mono hG.count hG.done fun y hy => .inl (hborn hknows.1 hy)⟩
  | check x g c e items kept =>
      exact ⟨hG.begun x hobject hknows.1, hknows.2.mono hG.count hG.done
        fun y hy => .inl ⟨hborn hknows.1 hy.1, hy.2⟩⟩
  | dumpClose x | dumpStopping x | dumpDestroy x stopError | dumpStop x | dumpStopNative x =>
      exact (hG.kind x hobject).trans hknows
  | dumpFinish x stopError => exact hG.done x hknows
  | exportDelete x => exact hG.done x hknows
  | _ => trivial

theorem StackOk.mono {s t : Tree} (hG : Grows s t) :
    ∀ {stack : List Frame}, StackOk s stack → StackOk t stack
  | [], _ => trivial
  | _ :: _, ⟨hf, hwaits, hstack⟩ => ⟨hf.mono hG, hwaits, hstack.mono hG⟩

/-- What a step of a call has to show. -/
def StepOk (t : Tree) (f : Frame) : Next → Prop
  | .goes f' => FrameOk t f' ∧ f'.promises = f.promises
  | .calls f' callee => FrameOk t f' ∧ f'.promises = f.promises ∧ FrameOk t callee ∧
      callee.promises ≠ none ∧ f'.awaits = callee.promises
  | .returns raised => ∀ x, f.promises = some x → raised = none → t.Done x

/-- **A call returns or raises** to the one that waits for it. -/
theorem resume_ok {s : Tree} {stack : List Frame} {promise : Option ℕ} {raised : Option PyError}
    (hstack : StackOk s stack) (hwaits : Waits promise stack)
    (hdone : ∀ x, promise = some x → raised = none → s.Done x) :
    StackOk s (resume stack raised).stack := by
  cases stack with
  | nil => trivial
  | cons f stack =>
      obtain ⟨⟨hobject, hknows⟩, hbelow, hrest⟩ := hstack
      obtain ⟨hne, hawaits⟩ := hwaits
      unfold resume
      split
      · next heq => cases heq
      · -- the child is closed
        next x g c onError items kept _ heq =>
          cases heq
          refine ⟨⟨hobject, hknows.1, ?_⟩, hbelow, hrest⟩
          refine hknows.2.2.mono le_rfl (fun _ => id) ?_
          intro y hy
          by_cases hyc : y = c
          · exact .inr (hyc ▸ hdone _ hawaits.symm rfl)
          · exact .inl ⟨hy, hyc⟩
      · next heq =>
          cases heq
          exact ⟨⟨hobject, hknows.1, hknows.2.2⟩, hbelow, hrest⟩
      · next heq =>
          cases heq
          exact ⟨⟨hobject, trivial⟩, hbelow, hrest⟩
      · next heq =>
          cases heq
          exact ⟨⟨hobject, hdone _ hawaits.symm rfl⟩, hbelow, hrest⟩
      · next heq =>
          cases heq
          exact ⟨⟨hobject, trivial⟩, hbelow, hrest⟩
      · exact ⟨⟨hobject, hknows⟩, hbelow, hrest⟩

/-! ### The steps of a call -/

/-- What a step of call `f` has to show. -/
structure StepSpec (s t : Tree) (f : Frame) (next : Next) : Prop where
  tree : TreeOk t ∧ Grows s t
  next : StepOk t f next

/-- A call goes on without a write, to a place where nothing more is known. -/
theorem StepSpec.reads {s : Tree} {f : Frame} {next : Next} (hs : TreeOk s) (h : StepOk s f next) :
    StepSpec s s f next :=
  ⟨⟨hs, .refl s⟩, h⟩

/-- A call raises. -/
theorem StepOk.raises {t : Tree} {f : Frame} (e : PyError) : StepOk t f (.returns (some e)) :=
  fun _ _ h => by cases h

/-- A call of a destroyed object returns. -/
theorem StepOk.returns {t : Tree} {f : Frame} {raised : Option PyError} (h : t.Done f.object) :
    StepOk t f (.returns raised) := by
  intro x hx _
  have hobject : f.object = x := by
    unfold Frame.promises at hx
    split at hx
    · cases hx
    · cases hx
    · exact Option.some.inj hx
  exact hobject ▸ h

/-- The children of an object are the same when a coordinator has moved on. -/
theorem childOf_setClose (s : Tree) (z : ℕ) (close : CloseCoordinator) (x : ℕ) :
    (s.setClose z close).ChildOf x = s.ChildOf x := by
  funext y
  unfold Tree.ChildOf Tree.setClose
  rw [Tree.modify_node]
  split
  · next heq => rw [heq]
  · rfl

/-- `begin`, with the snapshot. -/
theorem enterStep_spec {s t : Tree} {x : ℕ} {stops : Bool} {act : Action} {next : Next}
    (hs : TreeOk s) (hx : x < s.count) (hstep : enterStep s x stops act = some (t, next)) :
    StepSpec s t (.enter x stops) next := by
  unfold enterStep at hstep
  split at hstep
  · split at hstep
    · cases hstep
    · cases hstep
      exact .reads hs (.raises _)
  · next order =>
      obtain ⟨horder, hstep⟩ := Option.ite_none_right_eq_some.mp hstep
      rcases (s.node x).close.begin_cases false with ⟨hst, heq⟩ | ⟨hst, heq⟩ | ⟨hst, heq⟩ |
        ⟨hst, heq⟩ <;> rw [heq] at hstep
      · cases hstep
        exact ⟨hs.setClose hx (fun h => .inl h) (fun g h => .inl h) id, ⟨hx, trivial⟩, rfl⟩
      · cases hstep
        have hwrite : TreeOk _ ∧ Grows s (s.setClose x (s.node x).close) :=
          hs.setClose hx .inl (fun g => .inl) id
        exact ⟨hwrite, .returns (hwrite.2.done x (hs.closed x (.inl hst)))⟩
      · cases hstep
        exact ⟨hs.setClose hx .inl (fun g => .inl) id, .raises _⟩
      · obtain ⟨items, hitems, hnext⟩ := Option.map_eq_some_iff.mp hstep
        cases hnext
        have hwrite : TreeOk _ ∧ Grows s (s.setClose x { (s.node x).close with
            generation := (s.node x).close.generation + 1, status := .closing }) :=
          hs.setClose hx nofun (fun g => .inl) nofun
        refine ⟨hwrite, ⟨hx, ?_, ?_⟩, rfl⟩
        · simp [Tree.setClose]
        · rw [childOf_setClose]
          exact (hs.plan horder hitems).mono hwrite.2.count hwrite.2.done fun _ => .inl
  · cases hstep

/-- The wait of `begin` ends. -/
theorem joinStep_spec {s t : Tree} {x g : ℕ} {act : Action} {next : Next} (hs : TreeOk s)
    (hx : x < s.count) (hstep : joinStep s x g act = some (t, next)) :
    StepSpec s t (.join x g) next := by
  unfold joinStep at hstep
  split at hstep
  · obtain ⟨error, hout, hstep⟩ := Option.bind_eq_some_iff.mp hstep
    obtain ⟨close, hleave, hnext⟩ := Option.map_eq_some_iff.mp hstep
    have hstatus := ((s.node x).close.leave_spec hleave).1
    cases hnext
    have hwrite : TreeOk _ ∧ Grows s (s.setClose x close) :=
      hs.setClose hx (fun h => .inl (hstatus.symm.trans h))
        (fun k hk => .inl ((s.node x).close.leave_outcome hleave hk)) fun h => by rwa [hstatus]
    refine ⟨hwrite, ?_⟩
    cases error with
    | some e => exact .raises _
    | none => exact .returns (hwrite.2.done x (hs.outcome x g hout))
  · cases hstep

/-- A teardown goes on with the items that are left. -/
theorem StepSpec.performs {s t : Tree} {x g : ℕ} {done items : List Item}
    {kept kept' : Option PyError} (hwrite : TreeOk t ∧ Grows s t)
    (hf : FrameOk s (.perform x g done kept)) (hplan : Plan t x (t.ChildOf x) items) :
    StepSpec s t (.perform x g done kept) (.goes (.perform x g items kept')) :=
  ⟨hwrite, ⟨hf.object.trans_le hwrite.2.count, hwrite.2.begun x hf.object hf.knows.1, hplan⟩, rfl⟩

/-- **A part of a teardown.** -/
theorem performStep_spec {s t : Tree} {x g : ℕ} {items : List Item} {kept : Option PyError}
    {act : Action} {next : Next} (hs : TreeOk s) (hf : FrameOk s (.perform x g items kept))
    (hstep : performStep errorName s x g kept items act = some (t, next)) :
    StepSpec s t (.perform x g items kept) next := by
  obtain ⟨hx, hopen, hplan⟩ := hf
  have hx : x < s.count := hx
  have hf : FrameOk s (.perform x g items kept) := ⟨hx, hopen, hplan⟩
  -- the plan is the same after a write
  have hplan' (hwrite : TreeOk t ∧ Grows s t) {rest : List Item}
      (h : Plan s x (s.ChildOf x) rest) : Plan t x (t.ChildOf x) rest :=
    h.mono hwrite.2.count hwrite.2.done fun y hy =>
      .inl ((hwrite.2.born x y hy).resolve_right hopen)
  unfold performStep at hstep
  split at hstep
  · cases hstep
    exact .reads hs (.returns hplan)
  · cases hstep
    exact .performs ⟨hs, .refl s⟩ hf hplan
  · cases hstep
    exact .reads hs ⟨⟨hx, trivial⟩, rfl⟩
  · next rest r durationMs =>
    split at hstep
    · next code _ =>
        cases hstep
        have hwrite := hs.ends errorName hx code durationMs
        split
        · exact .performs hwrite hf (hplan' hwrite hplan)
        · exact ⟨hwrite, ⟨hx.trans_le hwrite.2.count, trivial⟩, rfl⟩
    · cases hstep
      exact .reads hs ⟨⟨hx, trivial⟩, rfl⟩
  · next c onError rest =>
      cases hstep
      have hframe : (s.closeFrame c).promises = some c ∧ (s.closeFrame c).object = c ∧
          Knows s (s.closeFrame c) := by
        unfold Tree.closeFrame
        split
        · next hkind => exact ⟨rfl, rfl, hkind⟩
        · exact ⟨rfl, rfl, trivial⟩
        · exact ⟨rfl, rfl, trivial⟩
        · exact ⟨rfl, rfl, trivial⟩
      refine .reads hs ⟨hf, rfl, ⟨?_, hframe.2.2⟩, ?_, hframe.1.symm⟩
      · rw [hframe.2.1]
        exact hplan.1
      · rw [hframe.1]
        exact Option.some_ne_none c
  · split at hstep
    · cases hstep
      have hwrite := hs.setFlags hx (f := fun n => { n with destroyed := true }) rfl
        (fun _ => rfl) (.inl rfl) fun _ => .inr ⟨hplan.1, fun h => absurd h hopen⟩
      refine .performs hwrite hf (plan_of_done ?_ hplan.2)
      simp [Tree.Done]
    · cases hstep
      exact .reads hs ⟨⟨hx, trivial⟩, rfl⟩
  · cases hstep
    have hwrite : TreeOk _ ∧
        Grows s (s.setClose x ((s.node x).close.succeed g ((s.node x).outcome kept))) :=
      hs.setClose hx (fun _ => .inr hplan.1) (fun _ _ => .inr hplan.1) nofun
    exact .performs hwrite hf (hplan' hwrite hplan.2)
  · cases hstep
    have hwrite := hs.finish hplan.1
    exact .performs hwrite hf (hplan' hwrite hplan.2)
  · cases hstep

/-- A RawDump has no children. -/
theorem TreeOk.mayDestroy_dump {s : Tree} (hs : TreeOk s) {x : ℕ}
    (hkind : (s.node x).kind = .rawDump) : s.MayDestroy x := by
  have hnone : (s.node x).kind.childKinds = [] := by rw [hkind]; rfl
  refine ⟨fun y hy => ?_, fun _ => hnone⟩
  have hmem := (hs.parent x y hy).2
  rw [hnone] at hmem
  cases hmem

/-- A step of `RawDump.close` or `RawDump.stop`. -/
theorem dumpStep_spec {s t : Tree} {f : Frame} {act : Action} {next : Next} (hs : TreeOk s)
    (hf : FrameOk s f) (hstep : dumpStep errorName s f act = some (t, next)) :
    StepSpec s t f next := by
  obtain ⟨hx, hknows⟩ := hf
  have hlock {x : ℕ} (hx : x < s.count) (stopped locked : Bool) :=
    hs.setFlags hx (f := fun n => { n with stopped := stopped, locked := locked }) rfl id (.inl rfl)
      .inl
  unfold dumpStep at hstep
  split at hstep
  · cases hstep
    exact .reads hs (.raises _)
  · next x =>
      split at hstep
      · cases hstep
      · split at hstep
        · next hclosed =>
            cases hstep
            exact .reads hs (.returns (hs.closed x (.inr hclosed)))
        · cases hstep
          have hwrite := hlock hx (s.node x).stopped true
          exact ⟨hwrite, ⟨hx, (hwrite.2.kind x hx).trans hknows⟩, rfl⟩
  · cases hstep
    exact .reads hs ⟨⟨hx, hknows⟩, rfl⟩
  · split at hstep
    · cases hstep
      exact .reads hs ⟨⟨hx, hknows⟩, rfl⟩
    · cases hstep
  · next x r =>
      split at hstep
      · cases hstep
      · split at hstep
        · cases hstep
          have hwrite := hlock hx true (s.node x).locked
          exact ⟨hwrite, ⟨hx, (hwrite.2.kind x hx).trans hknows⟩, rfl⟩
        · cases hstep
          exact .reads hs ⟨⟨hx, hknows⟩, rfl⟩
  · next x stopError r =>
      split at hstep
      · cases hstep
        have hwrite := hs.setFlags hx
          (f := fun n => { n with destroyed := true, closed := true, locked := false }) rfl
          (fun _ => rfl) (.inr rfl) fun _ => .inr (hs.mayDestroy_dump hknows)
        refine ⟨hwrite, ⟨hx, ?_⟩, rfl⟩
        show Tree.Done _ x
        simp [Tree.Done]
      · cases hstep
        exact ⟨hlock hx _ false, .raises _⟩
  · next x stopError =>
      cases hstep
      have hwrite := hs.finish hknows
      exact ⟨hwrite, .returns (hwrite.2.done x hknows)⟩
  · cases hstep
    exact .reads hs (.raises _)
  next x =>
    split at hstep
    · cases hstep
    · split at hstep
      · cases hstep
        exact .reads hs (.raises _)
      · split at hstep
        · cases hstep
          exact .reads hs nofun
        · cases hstep
          have hwrite := hlock hx (s.node x).stopped true
          exact ⟨hwrite, ⟨hx, (hwrite.2.kind x hx).trans hknows⟩, rfl⟩
  · split at hstep
    · cases hstep
      exact ⟨hlock hx true false, nofun⟩
    · cases hstep
      exact ⟨hlock hx _ false, .raises _⟩
  · cases hstep

/-- A step of `ExportTask._close_from_parent` or `ExportTask.wait`. -/
theorem exportStep_spec {s t : Tree} {f : Frame} {act : Action} {next : Next} (hs : TreeOk s)
    (hf : FrameOk s f) (hstep : exportStep errorName s f act = some (t, next)) :
    StepSpec s t f next := by
  obtain ⟨hx, hknows⟩ := hf
  have hwait {x : ℕ} (hx : x < s.count) {f : Frame} (h : f.promises = some x) :
      StepOk s f (.calls (.exportWaited x) (.exportWait x)) :=
    ⟨⟨hx, trivial⟩, h.symm, ⟨hx, trivial⟩, nofun, rfl⟩
  unfold exportStep at hstep
  split at hstep
  · split at hstep
    · cases hstep
      exact .reads hs (hwait hx rfl)
    · cases hstep
      exact .reads hs ⟨⟨hx, trivial⟩, rfl⟩
  · cases hstep
    exact .reads hs (.raises _)
  · split at hstep
    · cases hstep
      exact .reads hs (hwait hx rfl)
    · split at hstep
      · cases hstep
        exact .reads hs (.raises _)
      · cases hstep
        exact .reads hs ⟨⟨hx, trivial⟩, rfl⟩
  · split at hstep
    · cases hstep
      exact .reads hs (hwait hx rfl)
    · cases hstep
      exact .reads hs (.raises _)
  · next x e =>
      split at hstep
      · next hclosed =>
          cases hstep
          exact .reads hs (.returns (hs.closed x (.inl hclosed)))
      · cases hstep
        exact .reads hs (.raises _)
  · cases hstep
    exact .reads hs (.raises _)
  · cases hstep
    exact .reads hs (.returns hknows)
  · cases hstep
    exact .reads hs (.raises _)
  · cases hstep
    exact .reads hs (.raises _)
  · split at hstep
    · cases hstep
      exact .reads hs ⟨⟨hx, trivial⟩, rfl⟩
    · cases hstep
  · cases hstep

/-- **A step of a call.** -/
theorem frameStep_spec {s t : Tree} {f : Frame} {act : Action} {next : Next} (hs : TreeOk s)
    (hf : FrameOk s f) (hstep : frameStep errorName s f act = some (t, next)) :
    StepSpec s t f next := by
  unfold frameStep at hstep
  split at hstep
  · exact enterStep_spec hs hf.object hstep
  · exact joinStep_spec hs hf.object hstep
  · exact performStep_spec hs hf hstep
  · next x g c e items kept =>
      obtain ⟨hx, hopen, hplan⟩ := hf
      split at hstep
      · next hclosed =>
          cases hstep
          have hdone : s.Done c := hs.closed c (Node.over_of_isClosed hclosed)
          refine .reads hs ⟨⟨hx, hopen, hplan.mono le_rfl (fun _ => id) fun y hy => ?_⟩, rfl⟩
          by_cases hyc : y = c
          · exact .inr (hyc ▸ hdone)
          · exact .inl ⟨hy, hyc⟩
      · cases hstep
        exact .reads hs ⟨⟨hx, trivial⟩, rfl⟩
  · next x g e =>
      cases hstep
      refine ⟨hs.setClose hf.object nofun (fun k hk => ?_) nofun, .raises _⟩
      exact .inl ((s.node x).close.fail_outcome hk)
  · cases hstep
  · cases hstep
  · exact exportStep_spec hs hf hstep
  · exact exportStep_spec hs hf hstep
  · exact exportStep_spec hs hf hstep
  · exact exportStep_spec hs hf hstep
  · exact exportStep_spec hs hf hstep
  · exact exportStep_spec hs hf hstep
  · exact exportStep_spec hs hf hstep
  · exact dumpStep_spec hs hf hstep

/-! ### Threads -/

/-- A call that a user makes. -/
theorem callFrame_ok {s : Tree} {act : Action} {f : Frame} (h : s.callFrame act = some f) :
    Knows s f := by
  unfold Tree.callFrame at h
  split at h
  · split at h
    · next hkind =>
        cases h
        exact hkind
    all_goals cases h
    all_goals trivial
  · split at h
    · next hkind =>
        cases h
        exact hkind
    all_goals cases h
    all_goals trivial
  · split at h
    · cases h
      trivial
    · cases h
  · cases h

/-- **A step of a thread.** -/
theorem threadStep_spec {s t : Tree} {thread thread' : Thread} {act : Action} (hs : TreeOk s)
    (hstack : StackOk s thread.stack)
    (hstep : threadStep errorName s thread act = some (t, thread')) :
    (TreeOk t ∧ Grows s t) ∧ StackOk t thread'.stack := by
  unfold threadStep at hstep
  split at hstep
  · split at hstep
    · next kind x r =>
        obtain ⟨⟨hx, hkind⟩, hnext⟩ := Option.ite_none_right_eq_some.mp hstep
        cases hnext
        exact ⟨hs.create hx hkind r, trivial⟩
    · obtain ⟨f, hf, hnext⟩ := Option.map_eq_some_iff.mp hstep
      obtain ⟨hcall, hlt⟩ := Option.filter_eq_some_iff.mp hf
      cases hnext
      exact ⟨⟨hs, .refl s⟩, ⟨of_decide_eq_true hlt, callFrame_ok hcall⟩, trivial, trivial⟩
  · next f stack heq =>
      rw [heq] at hstack
      obtain ⟨hf, hwaits, hrest⟩ := hstack
      obtain ⟨⟨t', next⟩, hframe, hnext⟩ := Option.map_eq_some_iff.mp hstep
      obtain ⟨htree, hnext'⟩ := frameStep_spec hs hf hframe
      cases hnext
      have hrest' := hrest.mono htree.2
      refine ⟨htree, ?_⟩
      cases next with
      | goes f' => exact ⟨hnext'.1, hnext'.2 ▸ hwaits, hrest'⟩
      | calls f' callee =>
          obtain ⟨hf', hpromises, hcallee, hne, hawaits⟩ := hnext'
          exact ⟨hcallee, ⟨hne, hawaits⟩, hf', hpromises ▸ hwaits, hrest'⟩
      | returns raised => exact resume_ok hrest' hwaits hnext'

/-- **Any number of threads** keep the order of the teardown. -/
theorem teardown_rely_guarantee : Threads.RelyGuarantee (teardown ι cloud errorName)
    (fun _ _ _ _ => True) (fun _ _ => True) TreeOk (fun _ s thread => StackOk s thread.stack)
    (fun _ => Grows) where
  start := by
    rintro s rfl
    have hnode (y : ℕ) : ((Tree.root cloud).node y).parent = none ∧
        ((Tree.root cloud).node y).children = [] ∧ ((Tree.root cloud).node y).close = {} ∧
        ((Tree.root cloud).node y).closed = false ∧
        ((Tree.root cloud).node y).destroyed = false := by
      unfold Tree.root
      by_cases hy : y = 0
      · simp [hy]
      · simp [hy]
    refine ⟨⟨?_, ?_, ?_, ?_, ?_, ?_, ?_, ?_⟩, fun _ => trivial⟩
    · intro y hy
      exact if_neg (Nat.ne_of_gt hy)
    · intro x y hy
      cases (hnode y).1.symm.trans hy
    · intro x y hy
      cases (hnode y).1.symm.trans hy
    · intro x y hy
      rw [(hnode x).2.1] at hy
      cases hy
    · intro x h
      unfold Node.Over at h
      rw [(hnode x).2.2.1, (hnode x).2.2.2.1] at h
      rcases h with h | h <;> cases h
    · intro x g h
      rw [(hnode x).2.2.1] at h
      cases h
    · intro x y hy
      cases (hnode y).1.symm.trans hy
    · intro x h
      cases (hnode x).2.2.2.2.symm.trans h
  thread _ _ _ _ _ _ hs hstack _ hstep :=
    let h := threadStep_spec hs hstack hstep
    ⟨h.1.1, h.2, h.1.2⟩
  env := by
    rintro s ⟨x, code, durationMs⟩ t hs - hstep
    obtain ⟨hkind, hnext⟩ := Option.ite_none_right_eq_some.mp hstep
    have hx : x < s.count := by
      by_contra hge
      rw [hs.fresh x (Nat.le_of_not_lt hge)] at hkind
      cases hkind
    cases hnext
    exact hs.ends errorName hx code durationMs
  stable _ _ _ _ _ _ _ _ hG h := h.mono hG

/-! ### The result -/

/-- The next step of the thread attempts the native destroy of `x`. -/
def Thread.Destroys (thread : Thread) (x : ℕ) : Prop :=
  (∃ g items kept stack, thread.stack = .perform x g (.destroy :: items) kept :: stack) ∨
    ∃ stopError stack, thread.stack = .dumpDestroy x stopError :: stack

section Runs

variable [DecidableEq ι] {c : Config ι Tree Thread}

/-- In every reachable state the objects are as they should be, and so are the calls. -/
theorem reach_tree (hc : (teardown ι cloud errorName).machine.Reach c) :
    TreeOk c.shared ∧ ∀ i, StackOk c.shared (c.pc i).stack :=
  teardown_rely_guarantee.reach (hc.mono fun _ l _ => by cases l <;> trivial)

/-- **Children before parents**: whenever a thread is about to attempt the native destroy of an
object, those of all objects created from it have succeeded. -/
theorem children_before_parents (hc : (teardown ι cloud errorName).machine.Reach c) {i : ι}
    {x y : ℕ} (hdestroys : (c.pc i).Destroys x) (hy : c.shared.ChildOf x y) : c.shared.Done y := by
  obtain ⟨hs, hA⟩ := reach_tree hc
  have hstack := hA i
  rcases hdestroys with ⟨g, items, kept, stack, heq⟩ | ⟨stopError, stack, heq⟩
  · rw [heq] at hstack
    exact hstack.1.knows.2.1 y hy
  · rw [heq] at hstack
    exact (hs.mayDestroy_dump hstack.1.knows).1 y hy

/-- Everything below a destroyed object is destroyed. -/
theorem destroyed_below (hc : (teardown ι cloud errorName).machine.Reach c) {x y : ℕ}
    (hdone : c.shared.Done x) (hy : Relation.TransGen c.shared.ChildOf x y) : c.shared.Done y := by
  have horder := (reach_tree hc).1.order
  induction hy with
  | single h => exact horder x _ h hdone
  | tail _ h ih => exact horder _ _ h ih

/-- A Client with a Connection, a RawDump and a RecordingTask is closed; the native destroy of the
dump is in use until the time is over, and the second `close` comes to the release of the lease. -/
def retriedCalls : List Action :=
  [.create .connection 0 (.code 0), .create .rawDump 1 (.code 0),
    .create .recordingTask 1 (.code 0),
    -- the dump is not closed, so the Connection and the Client raise
    .close 0, .begin [1], .go, .begin [2, 3], .go, .go, .go,
    .native (.code 0), .native (.code 6026), .go, .go, .go, .go,
    .close 0, .begin [1], .go, .begin [2, 3], .go, .go, .go, .go, .native (.code 0), .go,
    -- the task, its file and the rest of the Connection
    .go, .begin [], .stopped (.code 0) 0, .native (.code 0), .go, .go, .go,
    .go, .go, .native (.code 0), .go, .go, .go]

/-- In that run the Connection is destroyed ahead of the Client. -/
theorem children_before_parents_retried : ∃ c : Config Unit Tree Thread,
    (teardown Unit false fun _ => "").machine.Reach c ∧
      (c.pc ()).Destroys 0 ∧ c.shared.ChildOf 0 1 ∧ c.shared.Done 1 := by
  have hrun : ((teardown Unit false fun _ => "").machine.exec ⟨.root false, fun _ => {}⟩
      (retriedCalls.map (.thread ()))).any (fun c => decide ((c.shared.node 1).parent = some 0 ∧
        (c.pc ()).stack = [.perform 0 2 [.destroy, .succeed] none])) = true := by decide +kernel
  have hstart : (teardown Unit false fun _ => "").machine.start
      ⟨.root false, fun _ => {}⟩ := ⟨rfl, rfl⟩
  obtain ⟨c, hc, hend⟩ := Machine.exists_reach hstart hrun
  obtain ⟨hchild, hstack⟩ := of_decide_eq_true hend
  have hdestroys : (c.pc ()).Destroys 0 := .inl ⟨2, _, _, _, hstack⟩
  exact ⟨c, hc, hdestroys, hchild, children_before_parents hc hdestroys hchild⟩

end Runs

end Tirtc.Teardown
