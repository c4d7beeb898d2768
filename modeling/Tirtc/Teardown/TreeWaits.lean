import Tirtc.Following
import Tirtc.Lib.Waiting
import Tirtc.Teardown.LeftBehind

/-!
# Whom the calls on a tree of objects wait for

A `close` or `stop` waits for the one in progress of the same object, a RawDump waits for its lock,
and `ExportTask.wait` for the Runtime. The thread that is waited for may itself be in the call of a
child, which waits for that child, and so on down the tree.

* `Kind.height`: a child is lower than its parent.
* `Frame.place`, `stackPlace`: the place of a thread at the coordinator of an object.
* `Frame.Fits`, `StackFits`: what holds of the calls of a thread; the callers are above.
* `Moved`: what a step of a call does to coordinators, sets and locks; `frameStep_moved`.
* `WaitsOk`: every coordinator keeps its protocol, and every lock has a holder; `reach_waits`.
* `tree_waits_lead_on`: nobody waits in a circle; who waits for ever waits for an export that is
  left behind.
-/

set_option autoImplicit false

namespace Tirtc.Teardown

open Transition Closing

variable {ι : Type} {errorName : ℤ → String} {cloud : Bool} {s t : Tree} {x g : ℕ}
  {f f' : Frame} {items : List Item}

/-! ### Heights -/

/-- How far an object of the class is above those that have no children. -/
def Kind.height : Kind → ℕ
  | .rawDump | .recordingTask | .exportTask => 0
  | .connection | .replay => 1
  | .client | .cloudStorage => 2
  | .cloudClient => 3

/-- A child is lower than its parent. -/
theorem Kind.height_lt {child kind : Kind} (h : child ∈ kind.childKinds) :
    child.height < kind.height := by
  cases kind with
  | client | cloudClient =>
      obtain rfl : child = _ := List.mem_singleton.mp h
      decide
  | connection | cloudStorage | replay =>
      rcases List.mem_pair.mp h with rfl | rfl
      · decide
      · decide
  | recordingTask | rawDump | exportTask => cases h

def Tree.height (s : Tree) (x : ℕ) : ℕ := (s.node x).kind.height

/-- Object `c` is of a class that `x` creates. -/
def Tree.Under (s : Tree) (x c : ℕ) : Prop :=
  c < s.count ∧ (s.node c).kind ∈ (s.node x).kind.childKinds

/-- What is in the sets of an object is of the classes that it creates. -/
def Tree.Members (s : Tree) : Prop := ∀ x, ∀ c ∈ (s.node x).children, s.Under x c

theorem Tree.Under.mono (hG : Grows s t) {c : ℕ} (hx : x < s.count) (h : s.Under x c) :
    t.Under x c := by
  refine ⟨h.1.trans_le hG.count, ?_⟩
  rw [hG.kind c h.1, hG.kind x hx]
  exact h.2

/-! ### The items of a teardown -/

/-- The items report to the coordinator once; behind that only `finish` is left. -/
def Reporting : List Item → Prop
  | [] => True
  | .succeed :: items => ∀ item ∈ items, item = .finish
  | .finish :: items => Reporting items
  | _ :: items => .succeed ∈ items ∧ Reporting items

/-- What is only left to finish does not report. -/
theorem reporting_of_finish (h : ∀ item ∈ items, item = .finish) : Reporting items := by
  induction items with
  | nil => trivial
  | cons item items ih =>
      obtain ⟨rfl, hrest⟩ := List.forall_mem_cons.mp h
      exact ih hrest

/-- The children that the items close are below `x`. -/
def ClosesUnder (s : Tree) (x : ℕ) (items : List Item) : Prop :=
  ∀ c onError, .child c onError ∈ items → s.Under x c

/-- Parts ahead of the report. -/
theorem reporting_append {first : List Item} (hfirst : ∀ item ∈ first, item ≠ .succeed)
    (hsucceed : .succeed ∈ items) (h : Reporting items) : Reporting (first ++ items) := by
  induction first with
  | nil => exact h
  | cons item first ih =>
      obtain ⟨hitem, hrest⟩ := List.forall_mem_cons.mp hfirst
      have hmem : Item.succeed ∈ first ++ items := List.mem_append_right _ hsucceed
      cases item with
      | succeed => exact absurd rfl hitem
      | finish => exact ih hrest
      | work | stop | child | destroy => exact ⟨hmem, ih hrest⟩

/-- Behind its report a teardown does not report again. -/
theorem not_mem_of_finish (h : ∀ item ∈ items, item = .finish) : .succeed ∉ items := by
  intro hmem
  cases h _ hmem

/-- Stopping the tasks is ahead of the report. -/
theorem stopAndDelete_ne {tasks : List ℕ} : ∀ item ∈ stopAndDelete tasks, item ≠ .succeed := by
  rintro item hmem rfl
  simp [stopAndDelete] at hmem

/-- **Every teardown reports once**, at its end. -/
theorem items_reporting {stops : Bool} {order : List ℕ} (h : s.items x stops order = some items) :
    .succeed ∈ items ∧ Reporting items := by
  have hend : Reporting [.destroy, .succeed] := by simp [Reporting]
  have hfinish : Reporting [.destroy, .succeed, .finish] := by simp [Reporting]
  have htask : Reporting [.destroy, .finish, .succeed] := by simp [Reporting]
  unfold Tree.items at h
  cases hkind : (s.node x).kind with
  | client | cloudClient =>
      simp only [hkind, Option.some.injEq] at h
      subst h
      refine ⟨by simp [Client.closeItems], reporting_append ?_ (by simp) hend⟩
      simp [closeKeeping]
  | connection =>
      simp only [hkind, Option.some.injEq] at h
      subst h
      refine ⟨by simp [Connection.closeItems], by simp, ?_⟩
      refine reporting_append (by simp [closeKeeping]) (by simp) ?_
      exact reporting_append stopAndDelete_ne (by simp) ⟨by simp, hfinish⟩
  | cloudStorage =>
      simp only [hkind, Option.some.injEq] at h
      subst h
      refine ⟨by simp [CloudStorage.closeItems], by simp, ?_⟩
      refine reporting_append (by simp [closeKeeping]) (by simp) ?_
      exact reporting_append (by simp) (by simp) hfinish
  | replay =>
      simp only [hkind, Option.some.injEq] at h
      subst h
      refine ⟨by simp [Replay.closeItems], ?_⟩
      refine reporting_append (by simp [closeKeeping]) (by simp) ?_
      exact reporting_append stopAndDelete_ne (by simp) ⟨by simp, htask⟩
  | recordingTask =>
      simp only [hkind, Option.some.injEq, RecordingTask.stopItems] at h
      split at h
      · subst h
        exact ⟨by simp, htask⟩
      · subst h
        exact ⟨by simp, by simp, htask⟩
  | exportTask =>
      simp only [hkind, Option.some.injEq, ExportTask.stopItems, ExportTask.finishItems] at h
      split at h
      · split at h
        · subst h
          exact ⟨by simp, by simp, htask⟩
        · subst h
          exact ⟨by simp, by simp, by simp, htask⟩
      · subst h
        exact ⟨by simp, by simp, htask⟩
  | rawDump =>
      simp only [hkind] at h
      cases h

theorem mem_of_closeKeeping {children : List ℕ} {c : ℕ} {onError : OnError}
    (h : .child c onError ∈ closeKeeping children) : c ∈ children := by
  obtain ⟨c', hmem, heq⟩ := List.mem_map.mp h
  cases heq
  exact hmem

theorem mem_of_stopAndDelete {tasks : List ℕ} {c : ℕ} {onError : OnError}
    (h : .child c onError ∈ stopAndDelete tasks) : c ∈ tasks := by
  obtain ⟨task, hmem, hitem⟩ := List.mem_flatMap.mp h
  rcases List.mem_pair.mp hitem with heq | heq
  · cases heq
    exact hmem
  · cases heq

/-- A teardown closes what its snapshot has. -/
theorem mem_of_items {stops : Bool} {order : List ℕ} {c : ℕ} {onError : OnError}
    (h : s.items x stops order = some items) (hc : .child c onError ∈ items) : c ∈ order := by
  unfold Tree.items at h
  cases hkind : (s.node x).kind with
  | client | cloudClient =>
      simp only [hkind, Option.some.injEq] at h
      subst h
      rcases List.mem_append.mp hc with hc | hc
      · exact mem_of_closeKeeping hc
      · simp at hc
  | connection =>
      simp only [hkind, Option.some.injEq] at h
      subst h
      simp only [Connection.closeItems, List.mem_cons, List.mem_append, reduceCtorEq,
        List.not_mem_nil, or_false, false_or] at hc
      rcases hc with hc | hc
      · exact List.mem_of_mem_filter (mem_of_closeKeeping hc)
      · exact List.mem_of_mem_filter (mem_of_stopAndDelete hc)
  | cloudStorage =>
      simp only [hkind, Option.some.injEq] at h
      subst h
      simp only [CloudStorage.closeItems, List.mem_cons, List.mem_append, reduceCtorEq,
        List.not_mem_nil, or_false, false_or] at hc
      rcases hc with hc | hc
      · exact List.mem_of_mem_filter (mem_of_closeKeeping hc)
      · obtain ⟨c', hmem, heq⟩ := List.mem_map.mp hc
        cases heq
        exact List.mem_of_mem_filter hmem
  | replay =>
      simp only [hkind, Option.some.injEq] at h
      subst h
      simp only [Replay.closeItems, List.mem_cons, List.mem_append, reduceCtorEq,
        List.not_mem_nil, or_false] at hc
      rcases hc with hc | hc
      · exact List.mem_of_mem_filter (mem_of_closeKeeping hc)
      · exact List.mem_of_mem_filter (mem_of_stopAndDelete hc)
  | recordingTask =>
      simp only [hkind, Option.some.injEq, RecordingTask.stopItems] at h
      subst h
      split at hc <;> simp at hc
  | exportTask =>
      simp only [hkind, Option.some.injEq, ExportTask.stopItems, ExportTask.finishItems] at h
      subst h
      split at hc
      · split at hc <;> simp at hc
      · simp at hc
  | rawDump =>
      simp only [hkind] at h
      cases h

/-! ### The calls of a thread -/

/-- Where a call stands with the coordinator of its object. -/
def Frame.place : Frame → Caller
  | .join _ g => .waiting g
  | .perform _ g items _ => if .succeed ∈ items then .performing g else .idle
  | .check _ g _ _ _ _ | .fail _ g _ => .performing g
  | _ => .idle

/-- Where a thread stands with the coordinator of `x`. -/
def stackPlace (x : ℕ) : List Frame → Caller
  | [] => .idle
  | f :: stack => if f.object = x ∧ f.place ≠ .idle then f.place else stackPlace x stack

/-- The call has the lock of RawDump `x`. -/
def Frame.Locks (f : Frame) (x : ℕ) : Prop :=
  f = .dumpStopping x ∨ (∃ stopError, f = .dumpDestroy x stopError) ∨ f = .dumpStopNative x

/-- What holds of a call. -/
def Frame.Fits (s : Tree) : Frame → Prop
  | .enter x _ => (s.node x).kind ≠ .rawDump
  | .perform x _ items _ => Reporting items ∧ ClosesUnder s x items
  | .check x _ _ _ items _ => .succeed ∈ items ∧ Reporting items ∧ ClosesUnder s x items
  | .exportClose x | .exportCancel x | .exportCancelNative x | .exportWaited x
  | .exportCheck x _ | .exportDelete x | .exportWait x => (s.node x).kind = .exportTask
  | _ => True

/-- Call `f` is somewhere above call `below` on a stack: it is about a lower object, or about the
export that `below` closes for its parent. -/
def Above (s : Tree) (f below : Frame) : Prop :=
  s.height f.object < s.height below.object ∨ below = .exportWaited f.object

/-- The call is not one that waits for the call above it in `ExportTask._close_from_parent`. -/
def Frame.Active (f : Frame) : Prop := ∀ x, f ≠ .exportWaited x

/-- What holds of the calls of a thread. -/
structure StackFits (s : Tree) (stack : List Frame) : Prop where
  fits : ∀ f ∈ stack, f.Fits s
  above : stack.Pairwise (Above s)
  active : ∀ f ∈ stack.head?, f.Active

theorem ClosesUnder.mono (hG : Grows s t) (hx : x < s.count) (h : ClosesUnder s x items) :
    ClosesUnder t x items :=
  fun c onError hc => (h c onError hc).mono hG hx

/-- What holds of a call stays true while others step. -/
theorem Frame.Fits.mono (hG : Grows s t) (hf : f.object < s.count) (h : f.Fits s) : f.Fits t := by
  cases f with
  | enter x stops => exact fun hkind => h ((hG.kind x hf).symm.trans hkind)
  | perform x g items kept => exact ⟨h.1, h.2.mono hG hf⟩
  | check x g c e items kept => exact ⟨h.1, h.2.1, h.2.2.mono hG hf⟩
  | exportClose x | exportCancel x | exportCancelNative x | exportWaited x | exportCheck x e
  | exportDelete x | exportWait x => exact (hG.kind x hf).trans h
  | _ => trivial

theorem Above.mono (hG : Grows s t) (hf : f.object < s.count) {below : Frame}
    (hbelow : below.object < s.count) (h : Above s f below) : Above t f below := by
  refine h.imp_left fun hlt => ?_
  unfold Tree.height
  rw [hG.kind _ hf, hG.kind _ hbelow]
  exact hlt

theorem StackOk.object {stack : List Frame} (h : StackOk s stack) :
    ∀ f ∈ stack, f.object < s.count := by
  induction stack with
  | nil => simp
  | cons f stack ih =>
      obtain ⟨hf, -, hstack⟩ := h
      exact List.forall_mem_cons.mpr ⟨hf.object, ih hstack⟩

theorem StackFits.mono (hG : Grows s t) {stack : List Frame}
    (hobject : ∀ f ∈ stack, f.object < s.count) (h : StackFits s stack) : StackFits t stack := by
  refine ⟨fun f hf => (h.fits f hf).mono hG (hobject f hf), ?_, h.active⟩
  refine h.above.imp_of_mem ?_
  intro f below hf hbelow habove
  exact habove.mono hG (hobject f hf) (hobject below hbelow)

/-- A call below another has no place at the coordinator of that one's object. -/
theorem Above.place {below : Frame} (h : Above s f below) (hobject : below.object = f.object) :
    below.place = .idle := by
  rcases h with hlt | rfl
  · rw [hobject] at hlt
    exact absurd hlt (lt_irrefl _)
  · rfl

theorem stackPlace_of_above {stack : List Frame} (h : ∀ below ∈ stack, Above s f below) :
    stackPlace f.object stack = .idle := by
  induction stack with
  | nil => rfl
  | cons below stack ih =>
      obtain ⟨hbelow, hrest⟩ := List.forall_mem_cons.mp h
      unfold stackPlace
      rw [if_neg fun hboth => hboth.2 (hbelow.place hboth.1)]
      exact ih hrest

/-- A callee is above what its caller is above. -/
theorem Above.trans {callee below : Frame} (hcallee : Above s callee f')
    (hobject : f'.object = f.object) (h : Above s f below) : Above s callee below := by
  have hsame : callee.object = f'.object ∨ s.height callee.object < s.height f.object := by
    rcases hcallee with hlt | rfl
    · exact .inr (hobject ▸ hlt)
    · exact .inl rfl
  rcases hsame with hsame | hlower
  · unfold Above at h ⊢
    rw [hsame, hobject]
    exact h
  · rcases h with hlt | rfl
    · exact .inl (hlower.trans hlt)
    · exact .inl hlower

/-! ### What a step of a call does -/

/-- Where a step leaves the call with the coordinator of its object. -/
def Next.place : Next → Caller
  | .goes f | .calls f _ => f.place
  | .returns _ => .idle

/-- A step leaves the call with the lock of `x`. -/
def Next.Locks : Next → ℕ → Prop
  | .goes f, x => f.Locks x
  | _, _ => False

/-- What holds of the call behind the step, and of the one that it makes. -/
def NextFits (s : Tree) (f : Frame) : Next → Prop
  | .goes f' => f'.Fits s ∧ f'.object = f.object ∧ f'.Active
  | .calls f' callee => f'.Fits s ∧ f'.object = f.object ∧ callee.Fits s ∧
      callee.object < s.count ∧ callee.place = .idle ∧ callee.Active ∧ Above s callee f'
  | .returns _ => True

/-- **What a step of call `f` does** to the coordinators, the sets and the locks. -/
structure Moved (s t : Tree) (f : Frame) (next : Next) : Prop where
  turn : Turn (s.node f.object).close f.place (t.node f.object).close next.place
  others : ∀ x, x ≠ f.object → (t.node x).close = (s.node x).close
  members : ∀ x, ∀ c ∈ (t.node x).children, c ∈ (s.node x).children
  locked : ∀ x, (t.node x).locked = true →
    next.Locks x ∨ ((s.node x).locked = true ∧ ¬ f.Locks x)
  next : NextFits s f next

theorem Frame.Locks.object (h : f.Locks x) : f.object = x := by
  rcases h with rfl | ⟨stopError, rfl⟩ | rfl
  · rfl
  · rfl
  · rfl

/-- A step that writes nothing. -/
theorem Moved.reads {next : Next} (hplace : f.place = next.place)
    (hlocks : ∀ x, f.Locks x → next.Locks x) (hnext : NextFits s f next) : Moved s s f next := by
  refine ⟨?_, fun _ _ => rfl, fun _ _ => id, fun x hx => ?_, hnext⟩
  · rw [hplace]
    exact .stays _
  · by_cases hf : f.Locks x
    · exact .inl (hlocks x hf)
    · exact .inr ⟨hx, hf⟩

/-- A step that writes to the object of the call. -/
theorem Moved.writes {next : Next} (write : Node → Node)
    (hturn : Turn (s.node f.object).close f.place (write (s.node f.object)).close next.place)
    (hmembers : (write (s.node f.object)).children = (s.node f.object).children)
    (hlocked : (write (s.node f.object)).locked = true →
      next.Locks f.object ∨ ((s.node f.object).locked = true ∧ ¬ f.Locks f.object))
    (hnext : NextFits s f next) : Moved s (s.modify f.object write) f next := by
  refine ⟨?_, ?_, ?_, ?_, hnext⟩
  · rw [Tree.modify_node, if_pos rfl]
    exact hturn
  · intro x hx
    rw [Tree.modify_node, if_neg hx]
  · intro x c hc
    rw [Tree.modify_node] at hc
    split at hc
    · next heq =>
        rw [heq, ← hmembers]
        exact hc
    · exact hc
  · intro x hx
    rw [Tree.modify_node] at hx
    split at hx
    · next heq =>
        subst heq
        exact hlocked hx
    · next hne => exact .inr ⟨hx, fun hlocks => hne hlocks.object.symm⟩

/-- The coordinator of the object moves. -/
theorem Moved.closes {next : Next} {close : CloseCoordinator}
    (hturn : Turn (s.node f.object).close f.place close next.place) (hf : ∀ x, ¬ f.Locks x)
    (hnext : NextFits s f next) : Moved s (s.setClose f.object close) f next :=
  .writes _ hturn rfl (fun hlocked => .inr ⟨hlocked, hf _⟩) hnext

/-- The object is taken out of the set of its parent. -/
theorem Moved.finishes {next : Next} (hplace : f.place = next.place) (hnext : NextFits s f next)
    (hf : ∀ x, ¬ f.Locks x) : Moved s (s.finish x) f next := by
  have hsame (y : ℕ) : ((s.finish x).node y).close = (s.node y).close ∧
      ((s.finish x).node y).locked = (s.node y).locked ∧
      ∀ c ∈ ((s.finish x).node y).children, c ∈ (s.node y).children := by
    unfold Tree.finish
    split
    · rw [Tree.modify_node]
      split
      · next heq =>
          subst heq
          exact ⟨rfl, rfl, fun c hc => List.mem_of_mem_filter hc⟩
      · exact ⟨rfl, rfl, fun _ => id⟩
    · exact ⟨rfl, rfl, fun _ => id⟩
  refine ⟨?_, fun y _ => (hsame y).1, fun y => (hsame y).2.2, fun y hy => ?_, hnext⟩
  · rw [(hsame f.object).1, hplace]
    exact .stays _
  · rw [(hsame y).2.1] at hy
    exact .inr ⟨hy, hf y⟩

/-- `begin`, with the snapshot. -/
theorem enterStep_moved {stops : Bool} {act : Action} {next : Next} (hm : s.Members)
    (hstep : enterStep s x stops act = some (t, next)) :
    Moved s t (.enter x stops) next := by
  have hlocks (y : ℕ) : ¬ (Frame.enter x stops).Locks y := by
    simp [Frame.Locks]
  have hturn := Turn.begins (c := (s.node x).close) false
  unfold enterStep at hstep
  split at hstep
  · split at hstep
    · cases hstep
    · cases hstep
      exact .reads rfl (fun y hy => absurd hy (hlocks y)) trivial
  · next order =>
      obtain ⟨horder, hstep⟩ := Option.ite_none_right_eq_some.mp hstep
      cases hbegin : (s.node x).close.begin with
      | mk result close =>
          rw [hbegin] at hturn hstep
          cases result with
          | join g =>
              cases hstep
              exact .closes hturn hlocks ⟨trivial, rfl, by rintro _ ⟨⟩⟩
          | none | inUse =>
              cases hstep
              exact .closes hturn hlocks trivial
          | perform g =>
              obtain ⟨items, hitems, hnext⟩ := Option.map_eq_some_iff.mp hstep
              cases hnext
              obtain ⟨hsucceed, hreporting⟩ := items_reporting hitems
              have hplace : (Frame.perform x g items none).place = .performing g :=
                if_pos hsucceed
              show Moved s (s.setClose x close) (.enter x stops) (.goes (.perform x g items none))
              refine .closes ?_ hlocks ?_
              · show Turn _ _ _ (Frame.perform x g items none).place
                rw [hplace]
                exact hturn
              · refine ⟨⟨hreporting, fun c onError hc => hm x c ?_⟩, rfl, by rintro _ ⟨⟩⟩
                exact horder.mem_iff.mp (mem_of_items hitems hc)
  · cases hstep

/-- The wait of `begin` ends. -/
theorem joinStep_moved {act : Action} {next : Next} (hstep : joinStep s x g act = some (t, next)) :
    Moved s t (.join x g) next := by
  unfold joinStep at hstep
  split at hstep
  · obtain ⟨error, hout, hstep⟩ := Option.bind_eq_some_iff.mp hstep
    obtain ⟨close, hleave, hnext⟩ := Option.map_eq_some_iff.mp hstep
    cases hnext
    have hlocks (y : ℕ) : ¬ (Frame.join x g).Locks y := by
      simp [Frame.Locks]
    have hturn : Turn (s.node x).close (.waiting g) close .idle :=
      .wakes g error close hout hleave
    exact .closes (f := .join x g) hturn hlocks trivial
  · cases hstep

/-- The call by which a parent closes child `c`. -/
theorem closeFrame_fits {c : ℕ} : (s.closeFrame c).Fits s ∧ (s.closeFrame c).object = c ∧
    (s.closeFrame c).place = .idle ∧ (s.closeFrame c).Active := by
  unfold Tree.closeFrame
  cases hkind : (s.node c).kind with
  | rawDump => exact ⟨trivial, rfl, rfl, by rintro _ ⟨⟩⟩
  | exportTask => exact ⟨hkind, rfl, rfl, by rintro _ ⟨⟩⟩
  | _ =>
      refine ⟨?_, rfl, rfl, by rintro _ ⟨⟩⟩
      rintro (hdump : (s.node c).kind = .rawDump)
      cases hkind.symm.trans hdump

/-- A teardown has no lock of a RawDump. -/
theorem perform_not_locks {kept : Option PyError} (y : ℕ) :
    ¬ (Frame.perform x g items kept).Locks y := by
  simp [Frame.Locks]

theorem place_perform (hsucceed : .succeed ∈ items) (kept : Option PyError) :
    (Frame.perform x g items kept).place = .performing g :=
  if_pos hsucceed

/-- The next part of a teardown, behind one that does not report. -/
theorem Frame.Fits.next {item : Item} {kept : Option PyError} (kept' : Option PyError)
    (h : (Frame.perform x g (item :: items) kept).Fits s) (hitem : item ≠ .succeed) :
    (Frame.perform x g items kept').Fits s ∧
      (Frame.perform x g (item :: items) kept).place = (Frame.perform x g items kept').place := by
  obtain ⟨hreporting, hunder⟩ := h
  refine ⟨⟨?_, fun c onError hc => hunder c onError (List.mem_cons_of_mem _ hc)⟩, ?_⟩
  · cases item with
    | succeed => exact absurd rfl hitem
    | finish => exact hreporting
    | work | stop | child | destroy => exact hreporting.2
  · simp [Frame.place, hitem.symm]

/-- A part that can fail is ahead of the report. -/
theorem Frame.Fits.performing {item : Item} {kept : Option PyError}
    (h : (Frame.perform x g (item :: items) kept).Fits s) (hsucceed : item ≠ .succeed)
    (hfinish : item ≠ .finish) : .succeed ∈ items := by
  cases item with
  | succeed => exact absurd rfl hsucceed
  | finish => exact absurd rfl hfinish
  | work | stop | child | destroy => exact h.1.1

/-- A part of a teardown fails. -/
theorem Moved.gives {item : Item} {kept : Option PyError} (e : PyError)
    (hfits : (Frame.perform x g (item :: items) kept).Fits s) (hsucceed : item ≠ .succeed)
    (hfinish : item ≠ .finish) :
    Moved s s (.perform x g (item :: items) kept) (.goes (.fail x g e)) := by
  refine .reads ?_ (fun y hy => absurd hy (perform_not_locks y)) ⟨trivial, rfl, by rintro _ ⟨⟩⟩
  exact place_perform (List.mem_cons_of_mem _ (hfits.performing hsucceed hfinish)) kept

/-- The native stop of a task, which goes on or fails. -/
theorem stopStep_moved {kept : Option PyError} {code durationMs : ℤ}
    (hfits : (Frame.perform x g (.stop :: items) kept).Fits s) :
    Moved s (s.modify x fun n => (n.ends errorName code durationMs).1)
      (.perform x g (.stop :: items) kept)
      (.goes (match ((s.node x).ends errorName code durationMs).2 with
        | none => .perform x g items kept
        | some e => .fail x g e)) := by
  obtain ⟨stopped, done, file, error, hends⟩ := (s.node x).ends_eq errorName code durationMs
  obtain ⟨hnext, hplace⟩ := hfits.next kept (by rintro ⟨⟩)
  have hmem := hfits.performing (by rintro ⟨⟩) (by rintro ⟨⟩)
  have hperforming : (Frame.perform x g (.stop :: items) kept).place = .performing g :=
    place_perform (List.mem_cons_of_mem .stop hmem) kept
  -- the write leaves the coordinator, the set and the lock
  have hwrites {f' : Frame}
      (hf' : f'.Fits s ∧ f'.object = x ∧ f'.Active ∧ f'.place = .performing g) :
      Moved s (s.modify x fun n => (n.ends errorName code durationMs).1)
        (.perform x g (.stop :: items) kept) (.goes f') := by
    refine .writes (f := .perform x g _ kept) (fun n => (n.ends errorName code durationMs).1)
      ?_ ?_ ?_ ⟨hf'.1, hf'.2.1, hf'.2.2.1⟩
    · show Turn (s.node x).close _ ((s.node x).ends errorName code durationMs).1.close f'.place
      rw [hends, hperforming, hf'.2.2.2]
      exact .stays _
    · show ((s.node x).ends errorName code durationMs).1.children = _
      rw [hends]
      rfl
    · rintro (hlocked : ((s.node x).ends errorName code durationMs).1.locked = true)
      rw [hends] at hlocked
      exact .inr ⟨hlocked, perform_not_locks x⟩
  cases ((s.node x).ends errorName code durationMs).2 with
  | none => exact hwrites ⟨hnext, rfl, by rintro _ ⟨⟩, hplace.symm.trans hperforming⟩
  | some e => exact hwrites ⟨trivial, rfl, by rintro _ ⟨⟩, rfl⟩

/-- **A part of a teardown.** -/
theorem performStep_moved {kept : Option PyError} {act : Action} {next : Next}
    (hfits : (Frame.perform x g items kept).Fits s)
    (hstep : performStep errorName s x g kept items act = some (t, next)) :
    Moved s t (.perform x g items kept) next := by
  unfold performStep at hstep
  split at hstep
  · cases hstep
    exact .reads (by simp [Frame.place, Next.place])
      (fun y hy => absurd hy (perform_not_locks y)) trivial
  · cases hstep
    obtain ⟨hnext, hplace⟩ := hfits.next kept (by rintro ⟨⟩)
    exact .reads hplace (fun y hy => absurd hy (perform_not_locks y))
      ⟨hnext, rfl, by rintro _ ⟨⟩⟩
  · cases hstep
    exact .gives _ hfits (by rintro ⟨⟩) (by rintro ⟨⟩)
  · split at hstep
    · next code _ =>
        cases hstep
        exact stopStep_moved hfits
    · cases hstep
      exact .gives _ hfits (by rintro ⟨⟩) (by rintro ⟨⟩)
  · next c onError rest =>
      cases hstep
      obtain ⟨hcallee, hobject, hplace, hactive⟩ := closeFrame_fits (s := s) (c := c)
      have hunder := hfits.2 c onError List.mem_cons_self
      refine .reads rfl (fun y hy => absurd hy (perform_not_locks y)) ?_
      refine ⟨hfits, rfl, hcallee, ?_, hplace, hactive, .inl ?_⟩
      · rw [hobject]
        exact hunder.1
      · rw [hobject]
        exact Kind.height_lt hunder.2
  · split at hstep
    · cases hstep
      obtain ⟨hnext, hplace⟩ := hfits.next kept (by rintro ⟨⟩)
      refine .writes (f := .perform x g _ kept) (fun n => { n with destroyed := true })
        ?_ rfl (fun hlocked => .inr ⟨hlocked, perform_not_locks x⟩) ⟨hnext, rfl, by rintro _ ⟨⟩⟩
      rw [hplace]
      exact .stays _
    · cases hstep
      exact .gives _ hfits (by rintro ⟨⟩) (by rintro ⟨⟩)
  · next rest =>
      cases hstep
      have hfinish : ∀ item ∈ rest, item = .finish := hfits.1
      have hplace : (Frame.perform x g (.succeed :: rest) kept).place = .performing g :=
        place_perform List.mem_cons_self kept
      have hover : (Frame.perform x g rest kept).place = .idle :=
        if_neg (not_mem_of_finish hfinish)
      refine .closes (f := .perform x g (.succeed :: rest) kept) ?_ perform_not_locks
        ⟨⟨reporting_of_finish hfinish, fun c onError hc => ?_⟩, rfl, by rintro _ ⟨⟩⟩
      · show Turn _ _ _ (Frame.perform x g rest kept).place
        rw [hplace, hover]
        exact .succeeds g _
      · cases hfinish _ hc
  · cases hstep
    obtain ⟨hnext, hplace⟩ := hfits.next kept (by rintro ⟨⟩)
    exact .finishes hplace ⟨hnext, rfl, by rintro _ ⟨⟩⟩ perform_not_locks
  · cases hstep

/-- A step of `RawDump.close` or `RawDump.stop`. -/
theorem dumpStep_moved {act : Action} {next : Next}
    (hstep : dumpStep errorName s f act = some (t, next)) : Moved s t f next := by
  have hclose (x y : ℕ) : ¬ (Frame.dumpClose x).Locks y := by
    simp [Frame.Locks]
  have hstop (x y : ℕ) : ¬ (Frame.dumpStop x).Locks y := by
    simp [Frame.Locks]
  have hfinish (x y : ℕ) (e : Option PyError) : ¬ (Frame.dumpFinish x e).Locks y := by
    simp [Frame.Locks]
  -- a call that takes the lock, keeps it or gives it back
  have hgoes {f' : Frame} (h : f'.Fits s ∧ f'.object = f.object ∧ f'.Active) :
      NextFits s f (.goes f') := h
  unfold dumpStep at hstep
  split at hstep
  · cases hstep
    exact .reads rfl (fun y hy => absurd hy (hclose _ y)) trivial
  · next x =>
      split at hstep
      · cases hstep
      · split at hstep
        · cases hstep
          exact .reads rfl (fun y hy => absurd hy (hclose x y)) trivial
        · cases hstep
          exact .writes (f := .dumpClose x) (fun n => { n with locked := true })
            (.stays _) rfl (fun _ => .inl (.inl rfl)) (hgoes ⟨trivial, rfl, by rintro _ ⟨⟩⟩)
  · next x e =>
      cases hstep
      refine .reads rfl (fun y hy => ?_) (hgoes ⟨trivial, rfl, by rintro _ ⟨⟩⟩)
      obtain rfl : x = y := hy.object
      exact .inr (.inl ⟨_, rfl⟩)
  · next x =>
      split at hstep
      · cases hstep
        refine .reads rfl (fun y hy => ?_) (hgoes ⟨trivial, rfl, by rintro _ ⟨⟩⟩)
        obtain rfl : x = y := hy.object
        exact .inr (.inl ⟨_, rfl⟩)
      · cases hstep
  · next x r =>
      split at hstep
      · cases hstep
      · split at hstep
        · cases hstep
          exact .writes (f := .dumpStopping x) (fun n => { n with stopped := true })
            (.stays _) rfl (fun _ => .inl (.inr (.inl ⟨_, rfl⟩)))
            (hgoes ⟨trivial, rfl, by rintro _ ⟨⟩⟩)
        · cases hstep
          refine .reads rfl (fun y hy => ?_) (hgoes ⟨trivial, rfl, by rintro _ ⟨⟩⟩)
          obtain rfl : x = y := hy.object
          exact .inr (.inl ⟨_, rfl⟩)
  · next x stopError r =>
      split at hstep
      · cases hstep
        exact .writes (f := .dumpDestroy x stopError)
          (fun n => { n with destroyed := true, closed := true, locked := false })
          (.stays _) rfl (by rintro ⟨⟩) (hgoes ⟨trivial, rfl, by rintro _ ⟨⟩⟩)
      · cases hstep
        exact .writes (f := .dumpDestroy x stopError)
          (fun n => { n with locked := false }) (.stays _) rfl (by rintro ⟨⟩) trivial
  · next x stopError =>
      cases hstep
      exact .finishes (f := .dumpFinish x stopError) rfl trivial fun y => hfinish x y stopError
  · cases hstep
    exact .reads rfl (fun y hy => absurd hy (hstop _ y)) trivial
  · next x =>
      split at hstep
      · cases hstep
      · split at hstep
        · cases hstep
          exact .reads rfl (fun y hy => absurd hy (hstop x y)) trivial
        · split at hstep
          · cases hstep
            exact .reads rfl (fun y hy => absurd hy (hstop x y)) trivial
          · cases hstep
            exact .writes (f := .dumpStop x) (fun n => { n with locked := true })
              (.stays _) rfl (fun _ => .inl (.inr (.inr rfl)))
              (hgoes ⟨trivial, rfl, by rintro _ ⟨⟩⟩)
  · next x r =>
      split at hstep
      · cases hstep
        exact .writes (f := .dumpStopNative x)
          (fun n => { n with stopped := true, locked := false }) (.stays _) rfl
          (by rintro ⟨⟩) trivial
      · cases hstep
        exact .writes (f := .dumpStopNative x) (fun n => { n with locked := false })
          (.stays _) rfl (by rintro ⟨⟩) trivial
  · cases hstep

/-- A step of `ExportTask._close_from_parent` or `ExportTask.wait`. -/
theorem exportStep_moved {act : Action} {next : Next} (hf : f.object < s.count) (hfits : f.Fits s)
    (hlocks : ∀ y, ¬ f.Locks y) (hstep : exportStep errorName s f act = some (t, next)) :
    Moved s t f next := by
  have hreads {next : Next} (hplace : f.place = next.place) (hnext : NextFits s f next) :
      Moved s s f next :=
    .reads hplace (fun y hy => absurd hy (hlocks y)) hnext
  -- the call of `wait` for the parent
  have hwaits {x : ℕ} (hx : x = f.object) (hkind : (s.node x).kind = .exportTask) :
      NextFits s f (.calls (.exportWaited x) (.exportWait x)) := by
    subst hx
    exact ⟨hkind, rfl, hkind, hf, rfl, by rintro _ ⟨⟩, .inr rfl⟩
  unfold exportStep at hstep
  split at hstep
  · split at hstep
    · cases hstep
      exact hreads rfl (hwaits rfl hfits)
    · cases hstep
      exact hreads rfl ⟨hfits, rfl, by rintro _ ⟨⟩⟩
  · cases hstep
    exact hreads rfl trivial
  · split at hstep
    · cases hstep
      exact hreads rfl (hwaits rfl hfits)
    · split at hstep
      · cases hstep
        exact hreads rfl trivial
      · cases hstep
        exact hreads rfl ⟨hfits, rfl, by rintro _ ⟨⟩⟩
  · split at hstep
    · cases hstep
      exact hreads rfl (hwaits rfl hfits)
    · cases hstep
      exact hreads rfl trivial
  · split at hstep
    · cases hstep
      exact hreads rfl trivial
    · cases hstep
      exact hreads rfl trivial
  · cases hstep
    exact hreads rfl trivial
  · cases hstep
    exact hreads rfl trivial
  · cases hstep
    exact hreads rfl trivial
  · cases hstep
    exact hreads rfl trivial
  · next x =>
      split at hstep
      · cases hstep
        refine hreads rfl ⟨?_, rfl, by rintro _ ⟨⟩⟩
        rintro (hdump : (s.node x).kind = .rawDump)
        cases hdump.symm.trans hfits
      · cases hstep
  · cases hstep

/-- **A step of a call.** -/
theorem frameStep_moved {act : Action} {next : Next} (hm : s.Members) (hf : f.object < s.count)
    (hfits : f.Fits s) (hstep : frameStep errorName s f act = some (t, next)) :
    Moved s t f next := by
  unfold frameStep at hstep
  split at hstep
  · exact enterStep_moved hm hstep
  · exact joinStep_moved hstep
  · exact performStep_moved hfits hstep
  · next x g c e items kept =>
      have hlocks (y : ℕ) : ¬ (Frame.check x g c e items kept).Locks y := by
        simp [Frame.Locks]
      split at hstep
      · cases hstep
        exact .reads (place_perform (x := x) hfits.1 (kept <|> some e)).symm
          (fun y hy => absurd hy (hlocks y)) ⟨hfits.2, rfl, by rintro _ ⟨⟩⟩
      · cases hstep
        exact .reads rfl (fun y hy => absurd hy (hlocks y)) ⟨trivial, rfl, by rintro _ ⟨⟩⟩
  · next x g e =>
      cases hstep
      have hlocks (y : ℕ) : ¬ (Frame.fail x g e).Locks y := by
        simp [Frame.Locks]
      exact .closes (f := .fail x g e) (.fails g e) hlocks trivial
  · cases hstep
  · cases hstep
  · exact exportStep_moved hf hfits (by simp [Frame.Locks]) hstep
  · exact exportStep_moved hf hfits (by simp [Frame.Locks]) hstep
  · exact exportStep_moved hf hfits (by simp [Frame.Locks]) hstep
  · exact exportStep_moved hf hfits (by simp [Frame.Locks]) hstep
  · exact exportStep_moved hf hfits (by simp [Frame.Locks]) hstep
  · exact exportStep_moved hf hfits (by simp [Frame.Locks]) hstep
  · exact exportStep_moved hf hfits (by simp [Frame.Locks]) hstep
  · exact dumpStep_moved hstep

/-! ### Threads -/

variable {stack : List Frame} {next : Next}

theorem Above.congr {below : Frame} (hobject : f'.object = f.object) (h : Above s f below) :
    Above s f' below := by
  unfold Above at h ⊢
  rw [hobject]
  exact h

theorem stackPlace_cons (habove : ∀ below ∈ stack, Above s f below) :
    stackPlace f.object (f :: stack) = f.place := by
  unfold stackPlace
  split
  · rfl
  · next h =>
      rw [stackPlace_of_above habove]
      by_contra hne
      exact h ⟨rfl, fun hidle => hne hidle.symm⟩

theorem stackPlace_cons_of_ne (hx : x ≠ f.object) :
    stackPlace x (f :: stack) = stackPlace x stack :=
  if_neg fun h => hx h.1.symm

theorem stackPlace_cons_of_idle (hidle : f.place = .idle) :
    stackPlace x (f :: stack) = stackPlace x stack :=
  if_neg fun h => h.2 hidle

/-- **A call returns or raises** to the one below it, which stays where it is with its
coordinator. -/
theorem resume_cons (hfits : f.Fits s) (stack : List Frame) (raised : Option PyError) :
    ∃ f', (resume (f :: stack) raised).stack = f' :: stack ∧ f'.object = f.object ∧
      f'.place = f.place ∧ f'.Fits s ∧ f'.Active := by
  have hsame (hactive : f.Active) (hresume : resume (f :: stack) raised = ⟨none, f :: stack⟩) :
      ∃ f', (resume (f :: stack) raised).stack = f' :: stack ∧ f'.object = f.object ∧
        f'.place = f.place ∧ f'.Fits s ∧ f'.Active :=
    ⟨f, by rw [hresume], rfl, rfl, hfits, hactive⟩
  cases f with
  | perform x g items kept =>
      cases items with
      | nil => exact hsame (by rintro _ ⟨⟩) rfl
      | cons item items =>
          cases item with
          | child c onError =>
              have hmem := hfits.performing (by rintro ⟨⟩) (by rintro ⟨⟩)
              have hplace := place_perform (x := x) (g := g)
                (List.mem_cons_of_mem (.child c onError) hmem) kept
              rw [hplace]
              have hnext := (hfits.next kept (by rintro ⟨⟩)).1
              cases raised with
              | none =>
                  exact ⟨.perform x g items kept, rfl, rfl, place_perform hmem kept, hnext,
                    by rintro _ ⟨⟩⟩
              | some e =>
                  cases onError with
                  | keep =>
                      exact ⟨.check x g c e items kept, rfl, rfl, rfl, ⟨hmem, hnext⟩,
                        by rintro _ ⟨⟩⟩
                  | raise => exact ⟨.fail x g e, rfl, rfl, rfl, trivial, by rintro _ ⟨⟩⟩
          | _ => exact hsame (by rintro _ ⟨⟩) rfl
  | exportWaited x =>
      cases raised with
      | none => exact ⟨.exportDelete x, rfl, rfl, rfl, hfits, by rintro _ ⟨⟩⟩
      | some e => exact ⟨.exportCheck x e, rfl, rfl, rfl, hfits, by rintro _ ⟨⟩⟩
  | _ => exact hsame (by rintro _ ⟨⟩) rfl

/-- Where the thread is behind a step of its innermost call. -/
theorem after_fits (hfits : StackFits s (f :: stack))
    (hobject : ∀ f' ∈ f :: stack, f'.object < s.count) (hnext : NextFits s f next) :
    StackFits s (next.after stack).stack ∧
      ∀ f' ∈ (next.after stack).stack, f'.object < s.count := by
  obtain ⟨hf, hstack⟩ := List.forall_mem_cons.mp hobject
  obtain ⟨-, hrest⟩ := List.forall_mem_cons.mp hfits.fits
  obtain ⟨habove, hpairs⟩ := List.pairwise_cons.mp hfits.above
  cases next with
  | goes f' =>
      obtain ⟨hfits', hobject', hactive⟩ := hnext
      refine ⟨⟨List.forall_mem_cons.mpr ⟨hfits', hrest⟩, ?_, ?_⟩,
        List.forall_mem_cons.mpr ⟨hobject' ▸ hf, hstack⟩⟩
      · exact List.pairwise_cons.mpr
          ⟨fun below hbelow => (habove below hbelow).congr hobject', hpairs⟩
      · rintro f'' ⟨⟩
        exact hactive
  | calls f' callee =>
      obtain ⟨hfits', hobject', hcallee, hlt, -, hactive, hover⟩ := hnext
      refine ⟨⟨?_, ?_, ?_⟩, ?_⟩
      · exact List.forall_mem_cons.mpr ⟨hcallee, List.forall_mem_cons.mpr ⟨hfits', hrest⟩⟩
      · refine List.pairwise_cons.mpr ⟨?_, List.pairwise_cons.mpr ⟨?_, hpairs⟩⟩
        · refine List.forall_mem_cons.mpr ⟨hover, fun below hbelow => ?_⟩
          exact hover.trans hobject' (habove below hbelow)
        · exact fun below hbelow => (habove below hbelow).congr hobject'
      · rintro f'' ⟨⟩
        exact hactive
      · exact List.forall_mem_cons.mpr
          ⟨hlt, List.forall_mem_cons.mpr ⟨hobject' ▸ hf, hstack⟩⟩
  | returns raised =>
      cases stack with
      | nil => exact ⟨⟨by rintro _ ⟨⟩, .nil, by rintro _ ⟨⟩⟩, by rintro _ ⟨⟩⟩
      | cons below stack =>
          obtain ⟨hbelow, hrest⟩ := List.forall_mem_cons.mp hrest
          obtain ⟨hlt, hstack⟩ := List.forall_mem_cons.mp hstack
          obtain ⟨habove, hpairs⟩ := List.pairwise_cons.mp hpairs
          obtain ⟨f', heq, hobject', -, hfits', hactive⟩ := resume_cons hbelow stack raised
          have hafter : (Next.after (below :: stack) (.returns raised)).stack = f' :: stack := heq
          rw [hafter]
          refine ⟨⟨List.forall_mem_cons.mpr ⟨hfits', hrest⟩, ?_, ?_⟩,
            List.forall_mem_cons.mpr ⟨hobject' ▸ hlt, hstack⟩⟩
          · exact List.pairwise_cons.mpr
              ⟨fun g hg => (habove g hg).congr hobject', hpairs⟩
          · rintro f'' ⟨⟩
            exact hactive

/-- Where that is with the coordinators. -/
theorem after_place (hfits : StackFits s (f :: stack)) (hnext : NextFits s f next) (x : ℕ) :
    stackPlace x (next.after stack).stack =
      if x = f.object then next.place else stackPlace x stack := by
  obtain ⟨-, hrest⟩ := List.forall_mem_cons.mp hfits.fits
  obtain ⟨habove, -⟩ := List.pairwise_cons.mp hfits.above
  have hgoes {f' : Frame} (hobject : f'.object = f.object) :
      stackPlace x (f' :: stack) = if x = f.object then f'.place else stackPlace x stack := by
    split
    · next heq =>
        rw [heq, ← hobject]
        exact stackPlace_cons fun below hbelow => (habove below hbelow).congr hobject
    · next hne => exact stackPlace_cons_of_ne (hobject ▸ hne)
  cases next with
  | goes f' => exact hgoes hnext.2.1
  | calls f' callee =>
      obtain ⟨-, hobject, -, -, hidle, -⟩ := hnext
      exact (stackPlace_cons_of_idle hidle).trans (hgoes hobject)
  | returns raised =>
      have hresume : stackPlace x (resume stack raised).stack = stackPlace x stack := by
        cases stack with
        | nil => rfl
        | cons below stack =>
            obtain ⟨f', heq, hobject, hplace, -⟩ := resume_cons (hrest below (by simp)) stack raised
            rw [heq]
            unfold stackPlace
            rw [hobject, hplace]
      split
      · next heq =>
          subst heq
          exact hresume.trans (stackPlace_of_above habove)
      · exact hresume

/-- The sets stay as they are while others step. -/
theorem Tree.Members.mono (hs : TreeOk s) (hG : Grows s t)
    (hmembers : ∀ x, ∀ c ∈ (t.node x).children, c ∈ (s.node x).children) (h : s.Members) :
    t.Members := by
  intro x c hc
  have hx : x < s.count := by
    by_contra hge
    have hold := hmembers x c hc
    rw [hs.fresh x (Nat.le_of_not_lt hge)] at hold
    cases hold
  exact (h x c (hmembers x c hc)).mono hG hx

/-- **What a step of a thread does** to the coordinators, the sets and the locks. -/
structure ThreadMoved (s t : Tree) (thread thread' : Thread) : Prop where
  turn : ∀ x, Turn (s.node x).close (stackPlace x thread.stack) (t.node x).close
    (stackPlace x thread'.stack)
  members : t.Members
  fits : StackFits t thread'.stack
  locked : ∀ x, (t.node x).locked = true → (∃ f ∈ thread'.stack.head?, f.Locks x) ∨
    ((s.node x).locked = true ∧ ∀ f ∈ thread.stack.head?, ¬ f.Locks x)

/-- An object is added to the sets of `x`. -/
theorem add_moved (hs : TreeOk s) (hm : s.Members) {kind : Kind} (hx : x < s.count)
    (hkind : kind ∈ (s.node x).kind.childKinds) (hopen : (s.node x).close.status = .open)
    {thread thread' : Thread} (hstack : thread.stack = []) (hstack' : thread'.stack = []) :
    ThreadMoved s (s.add kind x) thread thread' := by
  have hG := (hs.add hx hkind hopen).2
  have hfresh := hs.fresh s.count le_rfl
  have hsame (y : ℕ) : ((s.add kind x).node y).close = (s.node y).close ∧
      ((s.add kind x).node y).locked = (s.node y).locked := by
    unfold Tree.add
    by_cases hy : y = s.count
    · simp [hy, hfresh]
    · by_cases hyx : y = x
      · simp [hyx, hx.ne]
      · simp [hy, hyx]
  refine ⟨fun y => ?_, ?_, ?_, fun y hy => .inr ⟨?_, ?_⟩⟩
  · rw [(hsame y).1, hstack, hstack']
    exact .stays _
  · intro y c hc
    by_cases hy : y = s.count
    · simp [Tree.add, hy] at hc
    · by_cases hyx : y = x
      · subst hyx
        rcases List.mem_cons.mp (by simpa [Tree.add, hy] using hc) with rfl | hold
        · exact ⟨Nat.lt_succ_self _, by simpa [Tree.add, hy] using hkind⟩
        · exact (hm y c hold).mono hG hx
      · have hold : c ∈ (s.node y).children := by simpa [Tree.add, hy, hyx] using hc
        have hlt : y < s.count := by
          by_contra hge
          rw [hs.fresh y (Nat.le_of_not_lt hge)] at hold
          cases hold
        exact (hm y c hold).mono hG hlt
  · rw [hstack']
    exact ⟨by rintro _ ⟨⟩, .nil, by rintro _ ⟨⟩⟩
  · rw [← (hsame y).2]
    exact hy
  · rw [hstack]
    rintro _ ⟨⟩

/-- A call that a user makes. -/
theorem callFrame_fits {act : Action} (h : s.callFrame act = some f) :
    f.Fits s ∧ f.place = .idle ∧ f.Active := by
  have henter {x : ℕ} {stops : Bool} (hkind : (s.node x).kind ≠ .rawDump) :
      (Frame.enter x stops).Fits s ∧ (Frame.enter x stops).place = .idle ∧
        (Frame.enter x stops).Active :=
    ⟨hkind, rfl, by rintro _ ⟨⟩⟩
  cases act with
  | close x =>
      simp only [Tree.callFrame] at h
      split at h
      · cases h
        exact ⟨trivial, rfl, by rintro _ ⟨⟩⟩
      · cases h
      · cases h
      · next hdump _ _ =>
          cases h
          exact henter hdump
  | stop x =>
      simp only [Tree.callFrame] at h
      split at h
      · cases h
        exact ⟨trivial, rfl, by rintro _ ⟨⟩⟩
      · next hkind =>
          cases h
          exact henter (by simp [hkind])
      · next hkind =>
          cases h
          exact henter (by simp [hkind])
      · cases h
  | wait x =>
      obtain ⟨hkind, hf⟩ := Option.ite_none_right_eq_some.mp h
      cases hf
      exact ⟨hkind, rfl, by rintro _ ⟨⟩⟩
  | _ => cases h

/-- **A step of a thread.** -/
theorem threadStep_moved {thread thread' : Thread} {act : Action} (hs : TreeOk s)
    (hstack : StackOk s thread.stack) (hm : s.Members) (hfits : StackFits s thread.stack)
    (hstep : threadStep errorName s thread act = some (t, thread')) :
    ThreadMoved s t thread thread' := by
  unfold threadStep at hstep
  split at hstep
  · next hempty =>
      have hnothing : ThreadMoved s s thread ⟨thread'.raised, []⟩ := by
        refine ⟨fun x => ?_, hm, ⟨by rintro _ ⟨⟩, .nil, by rintro _ ⟨⟩⟩, fun x hx => .inr ⟨hx, ?_⟩⟩
        · rw [hempty]
          exact .stays _
        · rw [hempty]
          rintro _ ⟨⟩
      split at hstep
      · next kind x r =>
          obtain ⟨⟨hx, hkind⟩, hnext⟩ := Option.ite_none_right_eq_some.mp hstep
          unfold Tree.create CloseCoordinator.requireOpen at hnext
          by_cases hopen : (s.node x).close.status = .open
          · rw [if_pos hopen] at hnext
            cases hcheck : r.check errorName with
            | some e =>
                rw [hcheck] at hnext
                cases hnext
                exact hnothing
            | none =>
                rw [hcheck] at hnext
                cases hnext
                exact add_moved hs hm hx hkind hopen hempty rfl
          · rw [if_neg hopen] at hnext
            cases hnext
            exact hnothing
      · obtain ⟨f, hf, hnext⟩ := Option.map_eq_some_iff.mp hstep
        obtain ⟨hcall, -⟩ := Option.filter_eq_some_iff.mp hf
        cases hnext
        obtain ⟨hfits', hidle, hactive⟩ := callFrame_fits hcall
        refine ⟨fun x => ?_, hm, ⟨?_, List.pairwise_singleton _ _, ?_⟩, fun x hx => .inr ⟨hx, ?_⟩⟩
        · rw [hempty, stackPlace_cons_of_idle hidle]
          exact .stays _
        · exact List.forall_mem_singleton.mpr hfits'
        · rintro f' ⟨⟩
          exact hactive
        · rw [hempty]
          rintro _ ⟨⟩
  · next f stack heq =>
      obtain ⟨⟨t', next⟩, hframe, hnext⟩ := Option.map_eq_some_iff.mp hstep
      cases hnext
      rw [heq] at hstack hfits
      have hobject := hstack.object
      have hG := (frameStep_spec hs hstack.1 hframe).1.2
      have hmoved := frameStep_moved hm (hobject f (by simp)) (hfits.fits f (by simp)) hframe
      obtain ⟨hafter, hobjects⟩ := after_fits hfits hobject hmoved.next
      obtain ⟨habove, -⟩ := List.pairwise_cons.mp hfits.above
      refine ⟨fun x => ?_, hm.mono hs hG hmoved.members, hafter.mono hG hobjects, fun x hx => ?_⟩
      · rw [after_place hfits hmoved.next x, heq]
        split
        · next hx =>
            rw [hx, stackPlace_cons habove]
            exact hmoved.turn
        · next hx =>
            rw [hmoved.others x hx, stackPlace_cons_of_ne hx]
            exact .stays _
      · rw [heq]
        rcases hmoved.locked x hx with hlocks | ⟨hold, hnot⟩
        · refine .inl ?_
          cases next with
          | goes f' => exact ⟨f', rfl, hlocks⟩
          | calls f' callee => exact hlocks.elim
          | returns raised => exact hlocks.elim
        · refine .inr ⟨hold, ?_⟩
          rintro f' ⟨⟩
          exact hnot

/-! ### All runs -/

section Runs

variable [DecidableEq ι] {c : Config ι Tree Thread} {i j : ι}

/-- **What holds in every reachable state**: every coordinator keeps its protocol with the threads,
and a RawDump that is locked has a thread with its lock. -/
structure WaitsOk (c : Config ι Tree Thread) : Prop where
  follows : ∀ x, Follows (c.shared.node x).close fun j => stackPlace x (c.pc j).stack
  members : c.shared.Members
  fits : ∀ i, StackFits c.shared (c.pc i).stack
  locked : ∀ x, (c.shared.node x).locked = true → ∃ j, ∃ f ∈ (c.pc j).stack.head?, f.Locks x

theorem reach_waits (hc : (teardown ι cloud errorName).machine.Reach c) : WaitsOk c := by
  have htree : ∀ c, (teardown ι cloud errorName).machine.Reach c →
      TreeOk c.shared ∧ ∀ i, StackOk c.shared (c.pc i).stack := fun c hc => reach_tree hc
  refine hc.invariant_of (I := WaitsOk) htree ?_ ?_
  · rintro ⟨shared, pc⟩ ⟨hshared, hpc⟩ -
    obtain rfl : shared = .root cloud := hshared
    obtain rfl : pc = fun _ => {} := hpc
    have hnode (x : ℕ) : ((Tree.root cloud).node x).close = {} ∧
        ((Tree.root cloud).node x).children = [] ∧ ((Tree.root cloud).node x).locked = false := by
      unfold Tree.root
      by_cases hx : x = 0
      · simp [hx]
      · simp [hx]
    refine ⟨fun x => ?_, fun x y hy => ?_, fun i => ⟨by rintro _ ⟨⟩, .nil, by rintro _ ⟨⟩⟩, ?_⟩
    · show Follows ((Tree.root cloud).node x).close fun _ => .idle
      rw [(hnode x).1]
      exact follows_start
    · rw [(hnode x).2.1] at hy
      cases hy
    · intro x hx
      cases (hnode x).2.2.symm.trans hx
  · rintro c (⟨i, act⟩ | e) c' ⟨hs, hstack⟩ ⟨-, hstack'⟩ h - hstep
    · obtain ⟨⟨t, thread'⟩, hnext, rfl⟩ := Option.map_eq_some_iff.mp hstep
      have hmoved := threadStep_moved hs (hstack i) h.members (h.fits i) hnext
      have hG := (threadStep_spec hs (hstack i) hnext).1.2
      refine ⟨fun x => ?_, hmoved.members, fun j => ?_, fun x hx => ?_⟩
      · have hupdate : (fun j => stackPlace x (Function.update c.pc i thread' j).stack) =
            Function.update (fun j => stackPlace x (c.pc j).stack) i
              (stackPlace x thread'.stack) := by
          funext j
          by_cases hj : j = i
          · subst hj
            simp
          · simp [hj]
        show Follows (t.node x).close fun j => stackPlace x (Function.update c.pc i thread' j).stack
        rw [hupdate]
        exact (h.follows x).turn (hmoved.turn x)
      · by_cases hj : j = i
        · subst hj
          simpa using hmoved.fits
        · simpa [hj] using (h.fits j).mono hG (hstack j).object
      · rcases hmoved.locked x hx with hlocks | ⟨hold, hnot⟩
        · exact ⟨i, by simpa using hlocks⟩
        · obtain ⟨j, f, hf, hlocks⟩ := h.locked x hold
          have hj : j ≠ i := by
            rintro rfl
            exact hnot f hf hlocks
          exact ⟨j, f, by simpa [hj] using hf, hlocks⟩
    · obtain ⟨t, hnext, rfl⟩ := Option.map_eq_some_iff.mp hstep
      have hrely : Threads.RelyGuarantee (teardown ι cloud errorName) (fun _ _ _ _ => True)
          (fun _ _ => True) TreeOk (fun _ s thread => StackOk s thread.stack) fun _ => Grows :=
        teardown_rely_guarantee
      have hG := hrely.env _ _ _ hs trivial hnext
      obtain ⟨-, hwrite⟩ := Option.ite_none_right_eq_some.mp hnext
      have hsame (y : ℕ) : (t.node y).close = (c.shared.node y).close ∧
          (t.node y).children = (c.shared.node y).children ∧
          (t.node y).locked = (c.shared.node y).locked := by
        obtain ⟨stopped, done, file, error, hends⟩ :=
          (c.shared.node e.x).ends_eq errorName e.code e.durationMs
        cases hwrite
        rw [Tree.modify_node]
        split
        · next heq =>
            rw [hends, heq]
            exact ⟨rfl, rfl, rfl⟩
        · exact ⟨rfl, rfl, rfl⟩
      refine ⟨fun x => ?_, h.members.mono hs hG.2 fun x y hy => ?_,
        fun j => (h.fits j).mono hG.2 (hstack j).object, fun x hx => ?_⟩
      · show Follows (t.node x).close fun j => stackPlace x (c.pc j).stack
        rw [(hsame x).1]
        exact h.follows x
      · rw [← (hsame x).2.1]
        exact hy
      · exact h.locked x ((hsame x).2.2.symm.trans hx)

/-! ### Waiting -/

/-- What a call can be answered, and what it can raise. -/
def Frame.Answers (s : Tree) : Frame → Action → Prop
  | .enter x stops, act => (∃ order, order.Perm (s.node x).children ∧ act = .begin order) ∨
      ((∃ e, act = .raises e) ∧ ((s.node x).kind = .exportTask → stops = true))
  | .perform _ _ (.work :: _) _, act | .dumpClose _, act | .dumpStop _, act
  | .exportCancel _, act | .exportDelete _, act | .exportWait _, act =>
      act = .go ∨ ∃ e, act = .raises e
  | .perform _ _ (.stop :: _) _, act => ∃ r durationMs, act = .stopped r durationMs
  | .perform _ _ (.destroy :: _) _, act | .dumpDestroy _ _, act
  | .dumpStopNative _, act | .exportCancelNative _, act => ∃ r, act = .native r
  | .dumpStopping x, act => (∃ e, act = .raises e) ∨
      if (s.node x).stopped then act = .go else ∃ r, act = .native r
  | _, act => act = .go

/-- A wait of the call is over. -/
def Frame.Open (s : Tree) : Frame → Prop
  | .join x g => ∃ o close, (s.node x).close.outcome? g = some o ∧
      (s.node x).close.leave g = some close
  | .dumpClose x | .dumpStop x => (s.node x).locked = false
  | .exportWait x => (s.node x).done = true
  | .exportWaited _ => False
  | _ => True

/-- What a thread can be answered. -/
def Thread.Answers (s : Tree) (thread : Thread) (act : Action) : Prop :=
  ∃ f ∈ thread.stack.head?, f.Answers s act

/-- Thread `i` goes on, whatever it is answered. -/
abbrev Goes (errorName : ℤ → String) (cloud : Bool) (c : Config ι Tree Thread) (i : ι) : Prop :=
  (teardown ι cloud errorName).Goes (Thread.Answers c.shared) c i

/-- **Whom a thread waits for**: the thread that closes or stops the object, or the one that has the
lock of the RawDump. -/
inductive WaitsFor (c : Config ι Tree Thread) (i j : ι) : Prop
  | closed (x g : ℕ) : (c.pc i).stack.head? = some (.join x g) →
      stackPlace x (c.pc j).stack = .performing g → WaitsFor c i j
  | locked (x : ℕ) (f : Frame) : (c.pc i).stack.head? = some f →
      f = .dumpClose x ∨ f = .dumpStop x → (∃ g ∈ (c.pc j).stack.head?, g.Locks x) →
      WaitsFor c i j

/-- **Where the waiting ends**: at a thread that goes on; that waits for the Runtime to complete an
export and goes on when it does, with a code or with a file that has a duration; or that waits for
ever, for an export that a duration has left behind. -/
inductive Ends (errorName : ℤ → String) (cloud : Bool) (c : Config ι Tree Thread) (j : ι) : Prop
  | goes : Goes errorName cloud c j → Ends errorName cloud c j
  | completes (x : ℕ) : (c.pc j).stack.head? = some (.exportWait x) →
      (∀ code durationMs, overflows code durationMs = false →
        ∃ s, completedStep errorName c.shared ⟨x, code, durationMs⟩ = some s ∧
          Goes errorName cloud ⟨s, c.pc⟩ j) → Ends errorName cloud c j
  | leftBehind (x : ℕ) : (c.pc j).stack.head? = some (.exportWait x) →
      ¬ (teardown ι cloud errorName).machine.ReachWith (fun _ label => InRange label) c →
      (∀ c', ((teardown ι cloud errorName).machine.after c).Reach c' →
        (c'.shared.node x).LeftBehind) → Ends errorName cloud c j

/-- How many waits there can be from this call: two for every step down the tree. -/
def Frame.rank (s : Tree) (f : Frame) : ℕ :=
  match f with
  | .join x _ | .dumpClose x | .dumpStop x => 2 * s.height x + 1
  | f => 2 * s.height f.object

/-- How many waits there can be from a thread. -/
def Thread.rank (s : Tree) (thread : Thread) : ℕ :=
  match thread.stack with
  | [] => 0
  | f :: _ => f.rank s

/-- A class with a coordinator has its teardown. -/
theorem items_isSome (stops : Bool) (order : List ℕ) (hkind : (s.node x).kind ≠ .rawDump) :
    ∃ items, s.items x stops order = some items := by
  unfold Tree.items
  cases hk : (s.node x).kind with
  | rawDump => exact absurd hk hkind
  | _ => exact ⟨_, rfl⟩

/-- **A call that does not wait goes on.** -/
theorem frameStep_isSome {act : Action} (hfits : f.Fits s) (hopen : f.Open s)
    (hact : f.Answers s act) : (frameStep errorName s f act).isSome = true := by
  cases f with
  | enter x stops =>
      show (enterStep s x stops act).isSome = true
      rcases hact with ⟨order, horder, rfl⟩ | ⟨⟨e, rfl⟩, hexport⟩
      · simp only [enterStep, if_pos horder]
        cases hbegin : (s.node x).close.begin.1 with
        | perform g =>
            obtain ⟨items, hitems⟩ := items_isSome stops order hfits
            simp [hitems]
        | _ => rfl
      · have hnot : ¬ ((s.node x).kind = .exportTask ∧ stops = false) := by
          rintro ⟨hkind, hstops⟩
          cases (hexport hkind).symm.trans hstops
        simp [enterStep, hnot]
  | join x g =>
      obtain rfl : act = .go := hact
      obtain ⟨o, close, houtcome, hleave⟩ := hopen
      show (joinStep s x g .go).isSome = true
      simp [joinStep, houtcome, hleave]
  | perform x g items kept =>
      show (performStep errorName s x g kept items act).isSome = true
      cases items with
      | nil =>
          obtain rfl : act = .go := hact
          rfl
      | cons item items =>
          cases item with
          | work =>
              rcases hact with rfl | ⟨e, rfl⟩
              · rfl
              · rfl
          | stop =>
              obtain ⟨r, durationMs, rfl⟩ := hact
              simp only [performStep]
              split
              all_goals rfl
          | destroy =>
              obtain ⟨r, rfl⟩ := hact
              simp only [performStep]
              split
              all_goals rfl
          | child | succeed | finish =>
              obtain rfl : act = .go := hact
              rfl
  | check x g c e items kept =>
      obtain rfl : act = .go := hact
      simp only [frameStep]
      split
      all_goals rfl
  | fail x g e =>
      obtain rfl : act = .go := hact
      rfl
  | dumpClose x =>
      have hlocked : (s.node x).locked = false := hopen
      rcases hact with rfl | ⟨e, rfl⟩
      · simp only [frameStep, dumpStep, hlocked, Bool.false_eq_true, if_false]
        split
        all_goals rfl
      · rfl
  | dumpStop x =>
      have hlocked : (s.node x).locked = false := hopen
      rcases hact with rfl | ⟨e, rfl⟩
      · simp only [frameStep, dumpStep, hlocked, Bool.false_eq_true, if_false]
        split
        · rfl
        · split
          all_goals rfl
      · rfl
  | dumpStopping x =>
      rcases hact with ⟨e, rfl⟩ | hact
      · rfl
      · split at hact
        · next hstopped =>
            subst hact
            simp [frameStep, dumpStep, hstopped]
        · next hstopped =>
            obtain ⟨r, rfl⟩ := hact
            simp only [frameStep, dumpStep, if_neg hstopped]
            split
            all_goals rfl
  | dumpDestroy x stopError | dumpStopNative x | exportCancelNative x =>
      obtain ⟨r, rfl⟩ := hact
      simp only [frameStep, dumpStep, exportStep]
      split
      all_goals rfl
  | dumpFinish x stopError =>
      obtain rfl : act = .go := hact
      rfl
  | exportClose x =>
      obtain rfl : act = .go := hact
      simp only [frameStep, exportStep]
      split
      all_goals rfl
  | exportCancel x =>
      rcases hact with rfl | ⟨e, rfl⟩
      · simp only [frameStep, exportStep]
        split
        · rfl
        · split
          all_goals rfl
      · rfl
  | exportWaited x => exact hopen.elim
  | exportCheck x e =>
      obtain rfl : act = .go := hact
      cases e with
      | tirtc e =>
          simp only [frameStep, exportStep]
          split
          all_goals rfl
      | other ref => rfl
  | exportDelete x =>
      rcases hact with rfl | ⟨e, rfl⟩
      · rfl
      · rfl
  | exportWait x =>
      have hdone : (s.node x).done = true := hopen
      rcases hact with rfl | ⟨e, rfl⟩
      · simp [frameStep, exportStep, hdone]
      · rfl

/-- There is something to be answered. -/
theorem Frame.exists_answer (s : Tree) (f : Frame) : ∃ act, f.Answers s act := by
  cases f with
  | enter x stops => exact ⟨.begin (s.node x).children, .inl ⟨_, .refl _, rfl⟩⟩
  | perform x g items kept =>
      cases items with
      | nil => exact ⟨.go, rfl⟩
      | cons item items =>
          cases item with
          | work => exact ⟨.go, .inl rfl⟩
          | stop => exact ⟨.stopped (.code 0) 0, _, _, rfl⟩
          | destroy => exact ⟨.native (.code 0), _, rfl⟩
          | child | succeed | finish => exact ⟨.go, rfl⟩
  | dumpStopping x => exact ⟨.raises timeoutError, .inl ⟨_, rfl⟩⟩
  | dumpClose x | dumpStop x | exportCancel x | exportDelete x | exportWait x =>
      exact ⟨.go, .inl rfl⟩
  | dumpDestroy x stopError | dumpStopNative x | exportCancelNative x =>
      exact ⟨.native (.code 0), _, rfl⟩
  | _ => exact ⟨.go, rfl⟩

omit [DecidableEq ι] in
/-- A thread whose innermost call does not wait goes on. -/
theorem goes_of_open {cloud : Bool} (hhead : (c.pc i).stack = f :: stack)
    (hfits : f.Fits c.shared) (hopen : f.Open c.shared) : Goes errorName cloud c i := by
  constructor
  · obtain ⟨act, hact⟩ := f.exists_answer c.shared
    exact ⟨act, f, by simp [hhead], hact⟩
  · rintro act ⟨f', hf', hact⟩
    obtain rfl : f = f' := by simpa [hhead] using hf'
    show (threadStep errorName c.shared (c.pc i) act).isSome = true
    simp only [threadStep, hhead, Option.isSome_map]
    exact frameStep_isSome hfits hopen hact

/-! ### No circle -/

theorem Frame.rank_le (s : Tree) (f : Frame) : f.rank s ≤ 2 * s.height f.object + 1 := by
  cases f with
  | join x g | dumpClose x | dumpStop x => exact le_rfl
  | _ => exact Nat.le_succ _

/-- A place at the coordinator is that of a call on the stack. -/
theorem stackPlace_mem (h : stackPlace x stack = .performing g) :
    ∃ f ∈ stack, f.object = x ∧ f.place = .performing g := by
  induction stack with
  | nil => cases h
  | cons f stack ih =>
      unfold stackPlace at h
      split at h
      · next hf => exact ⟨f, List.mem_cons_self, hf.1, h⟩
      · obtain ⟨f', hmem, hf'⟩ := ih h
        exact ⟨f', List.mem_cons_of_mem _ hmem, hf'⟩

/-- The thread that performs the teardown of `x` is there or below. -/
theorem rank_of_performing {thread : Thread} (hfits : StackFits s thread.stack)
    (h : stackPlace x thread.stack = .performing g) :
    thread.stack ≠ [] ∧ thread.rank s ≤ 2 * s.height x := by
  obtain ⟨f', hmem, hobject, hplace⟩ := stackPlace_mem h
  cases hstack : thread.stack with
  | nil =>
      rw [hstack] at hmem
      cases hmem
  | cons f stack =>
      rw [hstack] at hmem hfits
      refine ⟨List.cons_ne_nil _ _, ?_⟩
      have hrank : thread.rank s = f.rank s := by simp only [Thread.rank, hstack]
      rw [hrank]
      rcases List.mem_cons.mp hmem with rfl | hbelow
      · -- the call that performs is the innermost one
        rw [← hobject]
        cases f' with
        | join x g => cases hplace
        | dumpClose x | dumpStop x => cases hplace
        | _ => exact le_rfl
      · obtain ⟨habove, -⟩ := List.pairwise_cons.mp hfits.above
        have hle := f.rank_le s
        rcases habove f' hbelow with hlt | rfl
        · rw [hobject] at hlt
          omega
        · cases hplace

/-- The thread with the lock of a RawDump does not wait. -/
theorem rank_of_locks {thread : Thread} (hf : f ∈ thread.stack.head?) (hlocks : f.Locks x) :
    thread.stack ≠ [] ∧ thread.rank s = 2 * s.height x := by
  cases hstack : thread.stack with
  | nil =>
      rw [hstack] at hf
      cases hf
  | cons f' stack =>
      rw [hstack] at hf
      obtain rfl : f' = f := Option.some.inj hf
      refine ⟨List.cons_ne_nil _ _, ?_⟩
      simp only [Thread.rank, hstack]
      rcases hlocks with rfl | ⟨stopError, rfl⟩ | rfl
      · rfl
      · rfl
      · rfl

/-- Whoever waits for a RawDump waits for the thread with its lock. -/
theorem waits_for_lock (hc : (teardown ι cloud errorName).machine.Reach c)
    (hhead : (c.pc i).stack = f :: stack) (hf : f = .dumpClose x ∨ f = .dumpStop x)
    (hlocked : (c.shared.node x).locked = true) : ∃ j, WaitsFor c i j ∧ (c.pc j).stack ≠ [] ∧
      (c.pc j).rank c.shared < (c.pc i).rank c.shared := by
  obtain ⟨j, f', hf', hlocks⟩ := (reach_waits hc).locked x hlocked
  obtain ⟨hne, hlow⟩ := rank_of_locks (s := c.shared) hf' hlocks
  have hrank : (c.pc i).rank c.shared = 2 * c.shared.height x + 1 := by
    simp only [Thread.rank, hhead]
    rcases hf with rfl | rfl
    · rfl
    · rfl
  refine ⟨j, .locked x f ?_ hf ⟨f', hf', hlocks⟩, hne, by omega⟩
  rw [hhead]
  rfl

/-- Whoever waits for an export goes on when the Runtime completes it, or waits for ever. -/
theorem ends_of_completion (hc : (teardown ι cloud errorName).machine.Reach c)
    (hhead : (c.pc i).stack = .exportWait x :: stack)
    (hkind : (c.shared.node x).kind = .exportTask) (hdone : (c.shared.node x).done = false) :
    Ends errorName cloud c i := by
  have hfirst : (c.pc i).stack.head? = some (.exportWait x) := by rw [hhead]; rfl
  by_cases hstopped : (c.shared.node x).stopped = true
  · have hleft : (c.shared.node x).LeftBehind := ⟨hkind, hstopped, hdone⟩
    exact .leftBehind x hfirst (fun hrange => not_leftBehind hrange hleft)
      fun c' hc' => leftBehind_for_ever hc hleft hc'
  · refine .completes x hfirst fun code durationMs hover => ⟨_, if_pos hkind, ?_⟩
    refine goes_of_open (c := ⟨_, c.pc⟩) hhead ?_ ?_
    · obtain ⟨stopped, done, file, error, hends⟩ :=
        (c.shared.node x).ends_eq errorName code durationMs
      show ((c.shared.modify x fun n => (n.ends errorName code durationMs).1).node x).kind =
        .exportTask
      rw [Tree.modify_node, if_pos rfl, hends]
      exact hkind
    · show ((c.shared.modify x fun n => (n.ends errorName code durationMs).1).node x).done = true
      rw [Tree.modify_node, if_pos rfl]
      simp [Node.ends, hstopped, hover]

/-- **A thread in a call goes on or waits for one of a lower rank**, or its waiting ends. -/
theorem thread_leads_on (hc : (teardown ι cloud errorName).machine.Reach c)
    (hcalls : (c.pc i).stack ≠ []) : Ends errorName cloud c i ∨
      ∃ j, WaitsFor c i j ∧ (c.pc j).stack ≠ [] ∧
        (c.pc j).rank c.shared < (c.pc i).rank c.shared := by
  obtain ⟨f, stack, hhead⟩ := List.exists_cons_of_ne_nil hcalls
  have hok := reach_waits hc
  have hfits := hok.fits i
  rw [hhead] at hfits
  have hf := hfits.fits f List.mem_cons_self
  by_cases hopen : f.Open c.shared
  · exact .inl (.goes (goes_of_open hhead hf hopen))
  cases f with
  | join x g =>
      have hplace : stackPlace x (c.pc i).stack = .waiting g := by
        rw [hhead]
        unfold stackPlace
        rw [if_pos ⟨rfl, by rintro ⟨⟩⟩]
        rfl
      rcases (hok.follows x).waiting hplace with ⟨o, houtcome⟩ | ⟨k, hk⟩
      · obtain ⟨close, hleave⟩ := (hok.follows x).wakes hplace
        exact absurd ⟨o, close, houtcome, hleave⟩ hopen
      · obtain ⟨hne, hlow⟩ := rank_of_performing (hok.fits k) hk
        have hrank : (c.pc i).rank c.shared = 2 * c.shared.height x + 1 := by
          simp only [Thread.rank, hhead, Frame.rank]
        refine .inr ⟨k, .closed x g ?_ hk, hne, by omega⟩
        rw [hhead]
        rfl
  | dumpClose x => exact .inr (waits_for_lock hc hhead (.inl rfl) (Bool.not_eq_false _ ▸ hopen))
  | dumpStop x => exact .inr (waits_for_lock hc hhead (.inr rfl) (Bool.not_eq_false _ ▸ hopen))
  | exportWait x => exact .inl (ends_of_completion hc hhead hf (Bool.eq_false_iff.mpr hopen))
  | exportWaited x => exact absurd rfl (hfits.active (.exportWaited x) rfl x)
  | _ => exact absurd trivial hopen

end Runs

end Tirtc.Teardown
