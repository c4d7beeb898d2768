import Mathlib.Data.Multiset.Bind
import Tirtc.Lib.Machine
import Tirtc.Lib.RefCounts
import Tirtc.Native.Handles

/-!
# Native objects that nobody closes

What an application drops without a close is destroyed by the destructors of the capsules. A record
keeps the capsule of its parent alive, so the destructor of a parent comes after those of its
children, whatever drops the references, in whatever order, and on whatever threads. A native
destroy runs without the GIL and may fail, and then its record stays for ever.

* `PyObject`, `Reason`, `Loose`, `History`, `Memory`: the capsules and the callbacks with their
  reference counts, the records without a capsule, and what has become of the native objects.
* `increfAll`, `dropRecord`, `capsuleDestructor`, `decref`, `create`, `nativeCreated`, `pyClose`,
  `closed`, `died`: as in the source, from one point where the GIL is let go of to the next.
* `TreeAction`, `tree`: every call that touches a record, in any order.
* `Tracked`, `Links`: the records that are there, and how they are linked.
* `Links.new`, `Links.set`, `Links.drop`, `Links.fork`: what happens to the links.
-/

set_option autoImplicit false

namespace Tirtc.HandleTree

open Transition RefCounts
open Tirtc.Handles (HandleKind NativeHandle)

/-! ## The memory -/

/-- The Python objects that matter: a capsule, with the record that it points to, and a callback. -/
inductive PyObject (P : Type)
  | capsule (handle : NativeHandle P ℕ)
  | callable
  deriving DecidableEq

/-- Why there is still a record: the native destroy is running, or it has failed, or the interpreter
was ending, or the thread in the native destroy did not come along into a fork. -/
inductive Reason
  | dying | failed | finalized | forked
  deriving DecidableEq

/-- A record whose capsule is gone. -/
structure Loose (P : Type) where
  address : ℕ
  handle : NativeHandle P ℕ
  reason : Reason
  deriving DecidableEq

/-- In a fork no native destroy comes back. -/
def Loose.fork {P : Type} (r : Loose P) : Loose P :=
  if r.reason = .dying then { r with reason := .forked } else r

/-- History: the parent and the process that the record of an address was made with, and whether its
native object exists. -/
structure History where
  origin : ℕ → Option (Option ℕ × ℕ) := fun _ => none
  object : ℕ → Bool := fun _ => false

namespace History

variable (history : History) (a b : ℕ) (parent : Option ℕ) (creator : ℕ) (alive : Bool)

/-- A record is made. -/
def make : History :=
  { history with origin := Function.update history.origin a (some (parent, creator)) }

/-- Its object exists from now on, or does not. -/
def note : History := { history with object := Function.update history.object a alive }

@[simp] theorem make_object : (history.make a parent creator).object = history.object := rfl

@[simp] theorem note_origin : (history.note a alive).origin = history.origin := rfl

@[simp] theorem make_origin_self :
    (history.make a parent creator).origin a = some (parent, creator) := Function.update_self ..

@[simp] theorem note_object_self : (history.note a alive).object a = alive :=
  Function.update_self ..

variable {a b}

theorem make_origin_of_ne (hb : b ≠ a) :
    (history.make a parent creator).origin b = history.origin b := Function.update_of_ne hb ..

theorem note_object_of_ne (hb : b ≠ a) :
    (history.note a alive).object b = history.object b := Function.update_of_ne hb ..

end History

/-- The references: `held` by Python objects and by functions that have not called the Runtime,
`creating` and `closing` by those that are in a native call for the capsule. -/
structure Memory (P : Type) where
  heap : Heap (PyObject P) := {}
  held : Multiset ℕ := 0
  creating : Multiset ℕ := 0
  closing : Multiset ℕ := 0
  loose : Multiset (Loose P) := 0
  history : History := {}
  pid : ℕ
  finalizing : Bool := false

/-- The references of a record. -/
def handleRefs {P : Type} (handle : NativeHandle P ℕ) : List ℕ :=
  handle.callback.toList ++ handle.parent.toList

/-- The references of an object. -/
def objectRefs {P : Type} : PyObject P → Multiset ℕ
  | .capsule handle => handleRefs handle
  | .callable => 0

/-- The kinds that a parent may have.
Source: `extension.c`, `get_handle` in front of each `handle_new` with a parent -/
def parentKinds : HandleKind → List HandleKind
  | .connection => [.rtcClient]
  | .connectAttempt => [.connection]
  | .rawDump => [.connection, .replay]
  | .storage => [.storageClient]
  | _ => []

/-- Where `handle_new` and `handle_result` get no memory. -/
inductive Allocation
  | noRecord | noCapsule | noTuple | made
  deriving DecidableEq

/-! ## The functions -/

namespace Memory

variable {P : Type} (m : Memory P)

/-- The record of a capsule. Source: `PyCapsule_GetPointer` -/
def record (a : ℕ) : Option (NativeHandle P ℕ) :=
  match m.heap.cell a with
  | some (_, .capsule handle) => some handle
  | _ => none

/-- Source: `extension.c`, `get_handle` -/
def getHandle (a : ℕ) (kinds : List HandleKind) : Option (NativeHandle P ℕ) :=
  (m.record a).filter fun handle => decide (handle.kind ∈ kinds) && handle.pointer.isSome

/-- Source: `PyCallable_Check` -/
def callable (a : ℕ) : Bool :=
  match m.heap.cell a with
  | some (_, .callable) => true
  | _ => false

/-- `Py_INCREF` of each. -/
def increfAll : Memory P → List ℕ → Memory P
  | m, [] => m
  | m, a :: rest => increfAll { m with heap := m.heap.incref a } rest

/-- The record is freed, and whoever frees it gives its references up: the end of `abandon_handle`,
and all of `discard_inherited_handle`. -/
def dropRecord (handle : NativeHandle P ℕ) : Memory P :=
  { m with held := m.held + handleRefs handle }

/-- Source: `extension.c`, `capsule_destructor`, `abandon_handle`, `discard_inherited_handle` -/
def capsuleDestructor (a : ℕ) (handle : NativeHandle P ℕ) : Memory P :=
  if m.finalizing then { m with loose := ⟨a, handle, .finalized⟩ ::ₘ m.loose }
  else if handle.creatorPid ≠ m.pid then m.dropRecord handle
  else if handle.pointer.isSome then { m with loose := ⟨a, handle, .dying⟩ ::ₘ m.loose }
  else m.dropRecord handle

/-- `Py_DECREF` -/
def decref (a : ℕ) : Memory P :=
  match m.heap.decref a with
  | (some (.capsule handle), heap) => { m with heap := heap }.capsuleDestructor a handle
  | (some .callable, heap) => { m with heap := heap }
  | (none, heap) => { m with heap := heap }

/-- A capsule for a new record. -/
def capsuleNew (handle : NativeHandle P ℕ) : Memory P :=
  { m with
    heap := m.heap.new (.capsule handle)
    history := m.history.make m.heap.made handle.parent handle.creatorPid }

/-- Up to the native call. Source: `extension.c`, `handle_new`, `handle_capsule`, `handle_result` -/
def create (kind : HandleKind) (callback parent : Option ℕ) (allocation : Allocation) : Memory P :=
  if callback.any fun a => !m.callable a then m
  else if allocation = .noRecord then m
  else
    let handle : NativeHandle P ℕ := ⟨kind, none, callback, parent, m.pid⟩
    let m := m.increfAll (handleRefs handle)
    let a := m.heap.made
    match allocation with
    | .noCapsule => m.dropRecord handle
    | .noTuple => (m.capsuleNew handle).decref a
    | _ => { m.capsuleNew handle with creating := a ::ₘ m.creating }

/-- The record of a capsule becomes `handle`; `alive` says whether its native object exists then. -/
def setRecord (a : ℕ) (handle : NativeHandle P ℕ) (alive : Bool) : Memory P :=
  { m with
    heap := m.heap.set a (.capsule handle)
    history := m.history.note a alive }

/-- The native call has returned an object, or `NULL`. An error destroys the object again, in
`discard_handle_result`. Source: `extension.c`, every function that calls `handle_new` -/
def nativeCreated (a : ℕ) (handle : NativeHandle P ℕ) (pointer : Option P) (error : ℤ) :
    Memory P :=
  let m := { m with creating := m.creating.erase a }
  match pointer with
  | none => { m with held := a ::ₘ m.held }
  | some p =>
      let m := m.setRecord a { handle with pointer := some p } true
      if error ≠ 0 then { m with closing := a ::ₘ m.closing } else { m with held := a ::ₘ m.held }

/-- Up to the native destroy. Source: `extension.c`, `py_close` -/
def pyClose (a : ℕ) (handle : NativeHandle P ℕ) : Memory P :=
  if handle.pointer.isSome then
    { m with held := m.held.erase a, closing := a ::ₘ m.closing }
  else m

/-- Behind the native destroy. Source: `extension.c`, `py_close`, `discard_handle_result` and
`mark_closed` -/
def closed (a : ℕ) (handle : NativeHandle P ℕ) (answer : ℤ) : Memory P :=
  let m := { m with closing := m.closing.erase a, held := a ::ₘ m.held }
  if answer = 0 then
    (m.setRecord a { handle with
      pointer := none, callback := none, parent := none } false).dropRecord handle
  else m

/-- Behind the native destroy of a destructor. Source: `extension.c`, `abandon_handle` -/
def died [DecidableEq P] (r : Loose P) (answer : ℤ) : Memory P :=
  let m := { m with loose := m.loose.erase r }
  if answer = 0 then
    { m with history := m.history.note r.address false }.dropRecord r.handle
  else { m with loose := { r with reason := .failed } ::ₘ m.loose }

/-- The threads in a native call are not those of a fork. -/
def forked (pid : ℕ) : Memory P :=
  { m with
    held := m.held + m.creating + m.closing
    creating := 0
    closing := 0
    loose := m.loose.map Loose.fork
    pid := pid }

end Memory

/-! ## The machine -/

/-- What happens: a callback is made, a reference is copied or dropped, a creation begins and comes
back from the Runtime, a close begins and comes back, the native destroy of a destructor comes back,
the process goes on as a fork with its own process id, or the interpreter ends. -/
inductive TreeAction (P : Type)
  | callable
  | copy (a : ℕ)
  | drop (a : ℕ)
  | create (kind : HandleKind) (callback parent : Option ℕ) (allocation : Allocation)
  | created (a : ℕ) (pointer : Option P) (error : ℤ)
  | close (a : ℕ)
  | closed (a : ℕ) (answer : ℤ)
  | died (r : Loose P) (answer : ℤ)
  | fork (pid : ℕ)
  | finalize

/-- The process forks. -/
def TreeAction.forks {P : Type} : TreeAction P → Bool
  | .fork _ => true
  | _ => false

section Machine

variable {P : Type} [DecidableEq P]

/-- A caller has the arguments of a creation, and the parent is open and of the right kind. -/
def Arguments (m : Memory P) (kind : HandleKind) (callback parent : Option ℕ) : Prop :=
  (∀ a ∈ callback, a ∈ m.held) ∧
    ∀ a ∈ parent, a ∈ m.held ∧ (m.getHandle a (parentKinds kind)).isSome = true

instance (m : Memory P) (kind : HandleKind) (callback parent : Option ℕ) :
    Decidable (Arguments m kind callback parent) :=
  inferInstanceAs (Decidable (_ ∧ _))

/-- One step. -/
def treeStep (m : Memory P) : TreeAction P → Option (Memory P)
  | .callable => some { m with heap := m.heap.new .callable, held := m.heap.made ::ₘ m.held }
  | .copy a =>
      if a ∈ m.held then some { m with heap := m.heap.incref a, held := a ::ₘ m.held } else none
  | .drop a => if a ∈ m.held then some ({ m with held := m.held.erase a }.decref a) else none
  | .create kind callback parent allocation =>
      if Arguments m kind callback parent then some (m.create kind callback parent allocation)
      else none
  | .created a pointer error =>
      if a ∈ m.creating then
        (m.record a).map fun handle => m.nativeCreated a handle pointer error
      else none
  | .close a => if a ∈ m.held then (m.record a).map fun handle => m.pyClose a handle else none
  | .closed a answer =>
      if a ∈ m.closing then (m.record a).map fun handle => m.closed a handle answer else none
  | .died r answer => if r ∈ m.loose ∧ r.reason = .dying then some (m.died r answer) else none
  | .fork pid => some (m.forked pid)
  | .finalize => some { m with finalizing := true }

/-- **The records of one process**, and of its forks. -/
def tree (P : Type) [DecidableEq P] : Machine (Memory P) (TreeAction P) where
  start m := ∃ pid, m = { pid := pid }
  step := treeStep

/-- A fork has a process id of its own, other than that of any process whose records it has. -/
def OwnPid (m : Memory P) : TreeAction P → Prop
  | .fork pid => ∀ a parent creator, m.history.origin a = some (parent, creator) → creator ≠ pid
  | _ => True

end Machine

/-! ## The records and their links -/

section Records

variable {P : Type}

/-- There is a record of the address, behind a capsule or without one. -/
def Tracked (m : Memory P) (a : ℕ) (handle : NativeHandle P ℕ) : Prop :=
  m.heap.Has a (.capsule handle) ∨ ∃ r ∈ m.loose, r.address = a ∧ r.handle = handle

/-- The references of the records without a capsule. -/
def looseRefs (loose : Multiset (Loose P)) : Multiset ℕ := loose.bind fun r => handleRefs r.handle

/-- All references, but for those in the hand of the running function. -/
def Memory.owners (m : Memory P) : Multiset ℕ :=
  m.held + m.creating + m.closing + (looseRefs m.loose + m.heap.inner objectRefs)

/-- **How the records `T` are linked**, and what history knows of them: a record refers to older
objects; one with an object has its first parent; a parent of this process has no children of
another. -/
structure Links (T : ℕ → NativeHandle P ℕ → Prop) (history : History) (made pid : ℕ) : Prop where
  older : ∀ a x, T a x → ∀ b ∈ handleRefs x, b < a
  known : ∀ a x, T a x → ∃ parent, history.origin a = some (parent, x.creatorPid) ∧
    (x.pointer ≠ none → x.parent = parent) ∧ ∀ p, x.parent = some p → parent = some p
  callbacks : ∀ a x c, T a x → x.callback = some c → history.origin c = none
  alive : ∀ a x, T a x → (history.object a = true ↔ x.pointer ≠ none)
  tracked : ∀ a parent, history.origin a = some (parent, pid) → history.object a = true → ∃ x, T a x
  unmade : ∀ a, made ≤ a → history.origin a = none ∧ history.object a = false
  lineage : ∀ b a creator, history.origin b = some (some a, creator) →
    ∃ parent creator', history.origin a = some (parent, creator') ∧ (creator' = pid → creator = pid)

end Records

/-! ### What happens to the links -/

section Links

variable {P : Type} {T T' : ℕ → NativeHandle P ℕ → Prop} {history : History} {made pid a : ℕ}
  {x y : NativeHandle P ℕ}

/-- The links depend on the records alone. -/
theorem Links.congr (h : Links T history made pid) (hT : ∀ a x, T' a x ↔ T a x) :
    Links T' history made pid := by
  have heq : T' = T := by
    funext a x
    exact propext (hT a x)
  rw [heq]
  exact h

/-- A record has been made. -/
theorem Links.lt_made (h : Links T history made pid) (hT : T a x) : a < made := by
  obtain ⟨parent, horigin, -⟩ := h.known a x hT
  by_contra hmade
  cases (h.unmade a (not_lt.mp hmade)).1.symm.trans horigin

/-- A new record. -/
theorem Links.new (h : Links T history made pid) (hpointer : x.pointer = none)
    (hpid : x.creatorPid = pid) (holder : ∀ b ∈ handleRefs x, b < made)
    (hcallback : ∀ c, x.callback = some c → history.origin c = none)
    (hparent : ∀ p, x.parent = some p → history.origin p ≠ none) :
    Links (fun b y => (b = made ∧ y = x) ∨ (b ≠ made ∧ T b y))
      (history.make made x.parent x.creatorPid) (made + 1) pid where
  older b y hy := by
    rcases hy with ⟨rfl, rfl⟩ | ⟨-, hy⟩
    · exact holder
    · exact h.older b y hy
  known b y hy := by
    rcases hy with ⟨rfl, rfl⟩ | ⟨hb, hy⟩
    · refine ⟨y.parent, history.make_origin_self .., ?_, ?_⟩
      · intro hne
        exact absurd hpointer hne
      · intro p hp
        exact hp
    · obtain ⟨parent, horigin, hlinks⟩ := h.known b y hy
      exact ⟨parent, (history.make_origin_of_ne _ _ hb).trans horigin, hlinks⟩
  callbacks b y c hy hc := by
    have hlt : c < made := by
      have hmem : c ∈ handleRefs y := by simp [handleRefs, hc]
      rcases hy with ⟨rfl, rfl⟩ | ⟨-, hy⟩
      · exact holder c hmem
      · exact (h.older b y hy c hmem).trans (h.lt_made hy)
    rw [history.make_origin_of_ne _ _ hlt.ne]
    rcases hy with ⟨rfl, rfl⟩ | ⟨-, hy⟩
    · exact hcallback c hc
    · exact h.callbacks b y c hy hc
  alive b y hy := by
    rcases hy with ⟨rfl, rfl⟩ | ⟨-, hy⟩
    · simp [(h.unmade b (le_refl b)).2, hpointer]
    · exact h.alive b y hy
  tracked b parent horigin hobject := by
    by_cases hb : b = made
    · subst hb
      cases (h.unmade b (le_refl b)).2.symm.trans hobject
    · rw [history.make_origin_of_ne _ _ hb] at horigin
      obtain ⟨y, hy⟩ := h.tracked b parent horigin hobject
      exact ⟨y, .inr ⟨hb, hy⟩⟩
  unmade b hb := by
    have hne : b ≠ made := by omega
    have hold := h.unmade b (by omega)
    exact ⟨(history.make_origin_of_ne _ _ hne).trans hold.1, hold.2⟩
  lineage b a creator horigin := by
    by_cases hb : b = made
    · subst hb
      rw [history.make_origin_self, Option.some.injEq, Prod.mk.injEq] at horigin
      have hmem : a ∈ handleRefs x := by simp [handleRefs, horigin.1]
      obtain ⟨⟨parent, creator'⟩, ha⟩ := Option.ne_none_iff_exists'.mp (hparent a horigin.1)
      refine ⟨parent, creator', (history.make_origin_of_ne _ _ (holder a hmem).ne).trans ha, ?_⟩
      intro _
      rw [← horigin.2, hpid]
    · rw [history.make_origin_of_ne _ _ hb] at horigin
      obtain ⟨parent, creator', ha, hown⟩ := h.lineage b a creator horigin
      have hne : a ≠ made := by
        rintro rfl
        cases (h.unmade a (le_refl a)).1.symm.trans ha
      exact ⟨parent, creator', (history.make_origin_of_ne _ _ hne).trans ha, hown⟩

/-- A record changes: it gets its object, or it is marked as closed. -/
theorem Links.set (h : Links T history made pid) (hx : T a x) {alive : Bool}
    (hpid : y.creatorPid = x.creatorPid)
    (hcallback : ∀ c, y.callback = some c → x.callback = some c)
    (hparent : ∀ p, y.parent = some p → x.parent = some p)
    (hown : y.pointer ≠ none → history.origin a = some (y.parent, y.creatorPid))
    (halive : alive = true ↔ y.pointer ≠ none) :
    Links (fun b z => (b = a ∧ z = y) ∨ (b ≠ a ∧ T b z)) (history.note a alive) made pid where
  older b z hz c hc := by
    rcases hz with ⟨rfl, rfl⟩ | ⟨-, hz⟩
    · apply h.older b x hx
      simp only [handleRefs, List.mem_append, Option.mem_toList] at hc ⊢
      exact hc.imp (hcallback c) (hparent c)
    · exact h.older b z hz c hc
  known b z hz := by
    rcases hz with ⟨rfl, rfl⟩ | ⟨-, hz⟩
    · obtain ⟨parent, horigin, -, hsame⟩ := h.known b x hx
      refine ⟨parent, hpid ▸ horigin, ?_, ?_⟩
      · intro hne
        have heq := (hown hne).symm.trans horigin
        rw [Option.some.injEq, Prod.mk.injEq] at heq
        exact heq.1
      · intro p hp
        exact hsame p (hparent p hp)
    · exact h.known b z hz
  callbacks b z c hz hc := by
    rcases hz with ⟨rfl, rfl⟩ | ⟨-, hz⟩
    · exact h.callbacks b x c hx (hcallback c hc)
    · exact h.callbacks b z c hz hc
  alive b z hz := by
    rcases hz with ⟨rfl, rfl⟩ | ⟨hb, hz⟩
    · rw [history.note_object_self]
      exact halive
    · rw [history.note_object_of_ne _ hb]
      exact h.alive b z hz
  tracked b parent horigin hobject := by
    by_cases hb : b = a
    · exact ⟨y, .inl ⟨hb, rfl⟩⟩
    · rw [history.note_object_of_ne _ hb] at hobject
      obtain ⟨z, hz⟩ := h.tracked b parent horigin hobject
      exact ⟨z, .inr ⟨hb, hz⟩⟩
  unmade b hb := by
    have hne : b ≠ a := by
      rintro rfl
      exact absurd (h.lt_made hx) (not_lt.mpr hb)
    rw [history.note_origin, history.note_object_of_ne _ hne]
    exact h.unmade b hb
  lineage := h.lineage

/-- A record is freed: its object is gone, or it belongs to another process. -/
theorem Links.drop (h : Links T history made pid) (hx : T a x) {history' : History}
    (horigin : history'.origin = history.origin)
    (hothers : ∀ b, b ≠ a → history'.object b = history.object b)
    (hgone : history'.object a = true → x.creatorPid ≠ pid) :
    Links (fun b z => b ≠ a ∧ T b z) history' made pid where
  older b z hz := h.older b z hz.2
  known b z hz := by
    rw [horigin]
    exact h.known b z hz.2
  callbacks b z c hz hc := by
    rw [horigin]
    exact h.callbacks b z c hz.2 hc
  alive b z hz := by
    rw [hothers b hz.1]
    exact h.alive b z hz.2
  tracked b parent hb hobject := by
    rw [horigin] at hb
    by_cases hne : b = a
    · subst hne
      obtain ⟨parent', horigin', -⟩ := h.known b x hx
      have heq := hb.symm.trans horigin'
      rw [Option.some.injEq, Prod.mk.injEq] at heq
      exact absurd heq.2.symm (hgone hobject)
    · obtain ⟨z, hz⟩ := h.tracked b parent hb ((hothers b hne).symm.trans hobject)
      exact ⟨z, hne, hz⟩
  unmade b hb := by
    have hne : b ≠ a := by
      rintro rfl
      exact absurd (h.lt_made hx) (not_lt.mpr hb)
    rw [horigin, hothers b hne]
    exact h.unmade b hb
  lineage := by
    rw [horigin]
    exact h.lineage

/-- An address is given out to something that has no record. -/
theorem Links.skip (h : Links T history made pid) : Links T history (made + 1) pid where
  older := h.older
  known := h.known
  callbacks := h.callbacks
  alive := h.alive
  tracked := h.tracked
  unmade a ha := h.unmade a (Nat.le_of_succ_le ha)
  lineage := h.lineage

/-- In a fork no record is of this process. -/
theorem Links.fork (h : Links T history made pid) {child : ℕ}
    (hpid : ∀ a parent creator, history.origin a = some (parent, creator) → creator ≠ child) :
    Links T history made child where
  older := h.older
  known := h.known
  callbacks := h.callbacks
  alive := h.alive
  tracked a parent horigin _ := absurd rfl (hpid a parent child horigin)
  unmade := h.unmade
  lineage b a creator horigin := by
    obtain ⟨parent, creator', ha, -⟩ := h.lineage b a creator horigin
    exact ⟨parent, creator', ha, fun heq => absurd heq (hpid a parent creator' ha)⟩

end Links

end Tirtc.HandleTree
