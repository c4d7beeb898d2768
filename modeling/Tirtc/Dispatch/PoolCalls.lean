import Tirtc.Dispatch.Executor
import Tirtc.Lifecycle

/-!
# The calls that wait for the callback pool

Callbacks that the two pool threads run, and any number of threads outside of the pool, call
`detach` and `close`. Such a call waits in `_Dispatcher.barrier`, in `_Dispatcher.close`, or in
`_CloseCoordinator.begin` for a close that another thread performs. Other waits (for a native call,
a connect attempt, the end of an export) are left out: a callback comes back from them.

* `Closable`, `PoolWait`, `CloseFrame`, `PoolCall`: what is closed, where a thread waits, and which
  closes it is in the middle of.
* `PoolCalls`: the pool, the bindings, the coordinators and the threads.
* `detachRefusal` to `closeSourceRefusal`: the guards of the calls, as in the source.
* `step`, `machine`: a lock-held section with the native call in it, a wait, or a step of the pool.
* `Moves`, `step_moves`: the steps, inverted.
-/

set_option autoImplicit false
set_option linter.unusedSectionVars false

namespace Tirtc

open Transition

/-! ## The records -/

/-- An object with a `_CloseCoordinator`: an Output; a Connection, a Replay or an ExportTask, which
has a dispatcher too; or a Client or CloudStorage, which closes others and has none. -/
inductive Closable (O P K : Type)
  | output (o : O)
  | source (p : P)
  | root (k : K)
  deriving DecidableEq

/-- A wait: `_dispatcher.barrier()` of a detach, the wait of `_dispatcher.close()`, or the wait of
`begin` for the close of a generation that another thread performs. -/
inductive PoolWait (O P K : Type)
  | barrier (o : O)
  | closing (d : O ⊕ P)
  | join (x : Closable O P K) (generation : ℕ)
  deriving DecidableEq

/-- A close that a thread performs: its generation, the Outputs of the snapshot that are still to be
detached, and whether `_dispatcher.close()` has been called. -/
inductive CloseFrame (O P K : Type)
  | output (o : O) (generation : ℕ) (drained : Bool)
  | source (p : P) (generation : ℕ) (rest : List O) (drained : Bool)
  | root (k : K) (generation : ℕ)
  deriving DecidableEq

namespace CloseFrame

variable {O P K : Type}

/-- The object that is closed, and the generation. -/
def job : CloseFrame O P K → Closable O P K × ℕ
  | output o g _ => (.output o, g)
  | source p g _ _ => (.source p, g)
  | root k g => (.root k, g)

/-- The dispatcher of the object that is closed. -/
def dispatcher : CloseFrame O P K → Option (O ⊕ P)
  | output o _ _ => some (.inl o)
  | source p _ _ _ => some (.inr p)
  | root _ _ => none

/-- The `_dispatcher.close()` that comes next, and the frame behind it. The Outputs of the snapshot
are detached before.
Source: `_core.py`, `_OutputBase._close_output` and `Connection._close_connection`;
`storage/__init__.py`, `Replay._close_replay` and `ExportTask.stop` -/
def toClose : CloseFrame O P K → Option ((O ⊕ P) × CloseFrame O P K)
  | output o g false => some (.inl o, output o g true)
  | source p g [] false => some (.inr p, source p g [] true)
  | _ => none

/-- The close can fail here: an Output only behind its dispatcher. -/
def fallible : CloseFrame O P K → Bool
  | output _ _ drained => drained
  | _ => true

/-- Everything that the close waits for is over. -/
def complete : CloseFrame O P K → Bool
  | output _ _ drained => drained
  | source _ _ rest drained => rest.isEmpty && drained
  | root _ _ => true

/-- `_dispatcher.close()` leaves the job and the dispatcher of the frame. -/
theorem toClose_spec {f f' : CloseFrame O P K} {d : O ⊕ P} (h : f.toClose = some (d, f')) :
    f.dispatcher = some d ∧ f'.job = f.job ∧ f'.dispatcher = f.dispatcher := by
  unfold toClose at h
  split at h
  · cases h
    exact ⟨rfl, rfl, rfl⟩
  · cases h
    exact ⟨rfl, rfl, rfl⟩
  · cases h

end CloseFrame

/-- The calls a thread is in: the closes it performs, the innermost first, and its wait. -/
structure PoolCall (O P K : Type) where
  frames : List (CloseFrame O P K) := []
  wait : Option (PoolWait O P K) := none

/-- No call is in progress. -/
def PoolCall.free {O P K : Type} (c : PoolCall O P K) : Bool := c.frames.isEmpty && c.wait.isNone

/-- The closes that the thread performs. -/
def PoolCall.jobs {O P K : Type} (c : PoolCall O P K) : List (Closable O P K × ℕ) :=
  c.frames.map CloseFrame.job

/-- The pool with the dispatchers of the Outputs `O` and of the sources `P`, the fields of the
Outputs that the guards read, the coordinators, and the two pool threads and the threads `ι`.
Source: `_core.py`, `_OutputBase._initialize_output` -/
structure PoolCalls (O P K ι V : Type) where
  pool : Executor (O ⊕ P) V
  bound : O → Option P := fun _ => none
  detaching : O → Bool := fun _ => false
  close : Closable O P K → CloseCoordinator := fun _ => {}
  call : Fin 2 ⊕ ι → PoolCall O P K := fun _ => {}

/-- What can happen: a step of the pool, of a posting thread or of a finalizer; an `attach`; a call
of `detach` or `close`; the next Output, the `_dispatcher.close()` or the end of a close; and the
end of a wait. `raised` is what the native call of a detach makes `_retry_in_use` raise, `order`
the snapshot of a close, and `related` what the walk of a root's guard over the objects finds. -/
inductive PoolCallAction (O P K ι V : Type)
  | pool (a : ExecutorAction (O ⊕ P) V)
  | attach (o : O) (p : P)
  | detach (t : Fin 2 ⊕ ι) (o : O) (raised : Option PyError)
  | close (t : Fin 2 ⊕ ι) (x : Closable O P K) (order : List O) (related : Bool)
  | detachNext (t : Fin 2 ⊕ ι) (raised : Option PyError)
  | closeDispatcher (t : Fin 2 ⊕ ι)
  | succeed (t : Fin 2 ⊕ ι) (error : Option PyError)
  | fail (t : Fin 2 ⊕ ι) (error : PyError)
  | wake (t : Fin 2 ⊕ ι)

/-- The thread that takes the step. Posting threads and finalizers are none of these. -/
def PoolCallAction.thread {O P K ι V : Type} : PoolCallAction O P K ι V → Option (Fin 2 ⊕ ι)
  | .pool (.get w) | .pool (.drainBegin w) | .pool (.drainEnd w) | .pool (.reschedule w) =>
      some (.inl w)
  | .pool _ | .attach _ _ => none
  | .detach t _ _ | .close t _ _ _ | .detachNext t _ | .closeDispatcher t | .succeed t _
  | .fail t _ | .wake t => some t

namespace PoolCalls

variable {O P K ι V : Type} [DecidableEq O] [DecidableEq P] [DecidableEq K] [DecidableEq ι]

/-! ## The guards -/

section Guards

variable (errorName : ℤ → String) (s : PoolCalls O P K ι V) (t : Fin 2 ⊕ ι)

/-- The object whose callback the thread runs.
Source: `_dispatch.py`, `_callback_owner` -/
def owner : Fin 2 ⊕ ι → Option (O ⊕ P)
  | .inl w => (s.pool.worker w).handling
  | .inr _ => none

/-- The guard that `detach` and `_detach_from_parent` share.
Source: `_core.py`, `_OutputBase.detach` and `_OutputBase._detach_from_parent` -/
def detachInUse (o : O) (p : P) : Bool :=
  s.detaching o || s.owner t = some (.inl o) || s.owner t = some (.inr p)

/-- What `detach` raises before its native call.
Source: `_core.py`, `_OutputBase.detach`; `storage/__init__.py`, `_StorageOutputBase.detach` -/
def detachRefusal (o : O) : Option PyError :=
  match (s.close (.output o)).requireOpen with
  | some e => some e
  | none =>
      match s.bound o with
      | none => some (errorFromCode 6029 (errorName 6029))
      | some p => if s.detachInUse t o p then some inUseError else none

/-- What `_close_output` raises before `begin`.
Source: `_core.py`, `_OutputBase._close_output` -/
def closeOutputRefusal (o : O) : Option PyError :=
  if s.detaching o || s.owner t = some (.inl o) ||
      (s.bound o).any (fun p => s.owner t = some (.inr p)) then some inUseError
  else none

/-- What the close of a source raises before `begin`. No Output is bound to an ExportTask, whose
guard reads only the first part.
Source: `_core.py`, `Connection._close_connection`; `storage/__init__.py`,
`Replay._reject_blocking_callback` and `ExportTask.stop` -/
def closeSourceRefusal (p : P) : Option PyError :=
  match s.owner t with
  | some (.inr q) => if q = p then some inUseError else none
  | some (.inl o) => if s.bound o = some p then some inUseError else none
  | none => none

/-- What a call of `close` raises before `begin`. A root asks whether the owner of the callback
belongs to it, and the label has the answer.
Source: `_core.py`, `Client.close`; `storage/__init__.py`, `Client.close` and
`CloudStorage._close_cloud` -/
def closeRefusal (related : Bool) : Closable O P K → Option PyError
  | .output o => s.closeOutputRefusal t o
  | .source p => s.closeSourceRefusal t p
  | .root _ => if related then some inUseError else none

end Guards

/-! ## The steps -/

section Steps

variable (errorName : ℤ → String) (s : PoolCalls O P K ι V) (t : Fin 2 ⊕ ι)

/-- The call of thread `t` becomes `c`. -/
def goto (c : PoolCall O P K) : PoolCalls O P K ι V :=
  { s with call := Function.update s.call t c }

/-- The coordinator of `x` becomes `c`. -/
def setClose (x : Closable O P K) (c : CloseCoordinator) : PoolCalls O P K ι V :=
  { s with close := Function.update s.close x c }

/-- The thread runs code that can make a call: it does not wait, and a pool thread is in a
callback. -/
def canCall : Bool :=
  (s.call t).wait.isNone && match t with
    | .inl w => (s.pool.worker w).handling.isSome
    | .inr _ => true

/-- The caller of `close` is a callback or a thread, or a root that closes another object. -/
def canClose (x : Closable O P K) : Bool :=
  s.canCall t && match (s.call t).frames with
    | [] => true
    | .root k g :: frames => (.root k g :: frames).all fun f => f.job.1 ≠ x
    | _ => false

/-- The section of a detach behind its native call, with `frames` left, and the call of `barrier`.
Source: `_core.py`, `_OutputBase.detach` and `_OutputBase._detach_from_parent` -/
def toBarrier (o : O) (frames : List (CloseFrame O P K)) : PoolCalls O P K ι V :=
  { s with detaching := Function.update s.detaching o true }.goto t ⟨frames, some (.barrier o)⟩

/-- Source: `_core.py`, `_OutputBase.detach` -/
def detachStep (o : O) (raised : Option PyError) : Option (PoolCalls O P K ι V) :=
  if s.canCall t && (s.call t).frames.isEmpty then
    if (s.detachRefusal errorName t o).isNone && raised.isNone then some (s.toBarrier t o [])
    else some s
  else none

/-- The frame of a close that `begin` lets its caller perform. -/
def newFrame (order : List O) (g : ℕ) : Closable O P K → CloseFrame O P K
  | .output o => .output o g false
  | .source p => .source p g order false
  | .root k => .root k g

/-- A call of `close` up to the end of its first section.
Source: `_core.py`, `_OutputBase._close_output`, `Connection._close_connection` and `Client.close`;
`storage/__init__.py`, `Replay._close_replay`, `ExportTask.stop` and
`CloudStorage._close_cloud` -/
def closeStep (x : Closable O P K) (order : List O) (related : Bool) :
    Option (PoolCalls O P K ι V) :=
  if s.canClose t x then
    if (s.closeRefusal t related x).isNone then
      let (result, close) := (s.close x).begin
      let c := s.call t
      match result with
      | .join g => some ((s.setClose x close).goto t { c with wait := some (.join x g) })
      | .perform g =>
          some ((s.setClose x close).goto t { c with frames := newFrame order g x :: c.frames })
      | _ => some s
    else some s
  else none

/-- The performer of a close leaves it with the report `close`.
Source: `_lifecycle.py`, `fail` and `succeed` -/
def report (f : CloseFrame O P K) (frames : List (CloseFrame O P K))
    (close : CloseCoordinator → ℕ → CloseCoordinator) : PoolCalls O P K ι V :=
  (s.setClose f.job.1 (close (s.close f.job.1) f.job.2)).goto t ⟨frames, none⟩

/-- `_detach_from_parent` on the next Output of the snapshot.
Source: `_core.py`, `_OutputBase._detach_from_parent`; `storage/__init__.py`,
`_StorageOutputBase._detach_from_parent` -/
def detachNextStep (raised : Option PyError) : Option (PoolCalls O P K ι V) :=
  if s.canCall t then
    match (s.call t).frames with
    | .source p g (o :: rest) false :: frames =>
        if s.bound o ≠ some p then some (s.goto t ⟨.source p g rest false :: frames, none⟩)
        else if s.detachInUse t o p then
          some (s.report t (.source p g rest false) frames fun c g => c.fail g inUseError)
        else match raised with
          | some e => some (s.report t (.source p g rest false) frames fun c g => c.fail g e)
          | none => some (s.toBarrier t o (.source p g rest false :: frames))
    | _ => none
  else none

/-- The first section of `_dispatcher.close()`, with `frames` left behind it.
Source: `_dispatch.py`, `_Dispatcher.close` -/
def toDrain (d : O ⊕ P) (frames : List (CloseFrame O P K)) : PoolCalls O P K ι V :=
  { s with pool := s.pool.afterPost d ⟨(s.pool.dispatchers d).close, true, false⟩ }.goto t
    ⟨frames, some (.closing d)⟩

/-- `self._dispatcher.close()` up to its wait. -/
def closeDispatcherStep : Option (PoolCalls O P K ι V) :=
  if s.canCall t then
    match (s.call t).frames with
    | f :: frames =>
        f.toClose.map fun (d, f') => s.toDrain t d (f' :: frames)
    | [] => none
  else none

/-- The fields of an Output that its close resets.
Source: `_core.py`, `_OutputBase._close_output` -/
def unbound : CloseFrame O P K → O → Option P
  | .output o _ _ => Function.update s.bound o none
  | _ => s.bound

/-- The close returns, or raises what a child has raised. -/
def succeedStep (error : Option PyError) : Option (PoolCalls O P K ι V) :=
  if s.canCall t then
    match (s.call t).frames with
    | f :: frames =>
        if f.complete then
          some ({ s with bound := s.unbound f }.report t f frames fun c g => c.succeed g error)
        else none
    | [] => none
  else none

/-- The close raises. -/
def failStep (error : PyError) : Option (PoolCalls O P K ι V) :=
  if s.canCall t then
    match (s.call t).frames with
    | f :: frames =>
        if f.fallible then some (s.report t f frames fun c g => c.fail g error) else none
    | [] => none
  else none

/-- A wait ends. Behind a barrier the detach clears the binding; behind `begin` a joiner has the
outcome of its generation.
Source: `_core.py`, `_OutputBase.detach` and `_OutputBase._detach_from_parent`; `_lifecycle.py`,
`begin` -/
def wakeStep : Option (PoolCalls O P K ι V) :=
  match (s.call t).wait with
  | some (.barrier o) =>
      if (s.pool.dispatchers (.inl o)).barrierDone then
        some ({ s with
          bound := Function.update s.bound o none
          detaching := Function.update s.detaching o false }.goto t ⟨(s.call t).frames, none⟩)
      else none
  | some (.closing d) =>
      if (s.pool.dispatchers d).closeDone then some (s.goto t ⟨(s.call t).frames, none⟩) else none
  | some (.join x g) =>
      ((s.close x).outcome? g).map fun _ =>
        (s.setClose x (((s.close x).leave g).getD (s.close x))).goto t ⟨(s.call t).frames, none⟩
  | none => none

/-- The pool steps that are taken on their own: `close` is called by a close, and a handler ends
when its callback is in no call. -/
def allows : ExecutorAction (O ⊕ P) V → Bool
  | .close _ => false
  | .drainEnd w => (s.call (.inl w)).free
  | _ => true

/-- One step. -/
def step [FrameValues V] : PoolCallAction O P K ι V → Option (PoolCalls O P K ι V)
  | .pool a =>
      if s.allows a then (s.pool.step a).map fun pool => { s with pool := pool } else none
  | .attach o p =>
      if s.bound o = none ∧ (s.close (.output o)).status = .open ∧
          (s.close (.source p)).status = .open then
        some { s with bound := Function.update s.bound o (some p) }
      else none
  | .detach t o raised => s.detachStep errorName t o raised
  | .close t x order related => s.closeStep t x order related
  | .detachNext t raised => s.detachNextStep t raised
  | .closeDispatcher t => s.closeDispatcherStep t
  | .succeed t error => s.succeedStep t error
  | .fail t error => s.failStep t error
  | .wake t => s.wakeStep t

end Steps

/-- The runs on fresh objects, with dispatchers of any capacities. -/
def machine (O P K ι V : Type) [DecidableEq O] [DecidableEq P] [DecidableEq K] [DecidableEq ι]
    [FrameValues V] (errorName : ℤ → String) :
    Machine (PoolCalls O P K ι V) (PoolCallAction O P K ι V) where
  start s := ∃ (capacity : O ⊕ P → ℕ) (frameCapacity : O ⊕ P → Option ℕ),
    s = { pool := { dispatchers := fun d => .init (capacity d) (frameCapacity d) } }
  step s a := s.step errorName a

/-! ## The steps, inverted -/

section Inversion

variable {errorName : ℤ → String} {s s' : PoolCalls O P K ι V}

/-- **What a step can do.** -/
inductive Moves [FrameValues V] (errorName : ℤ → String) (s : PoolCalls O P K ι V) :
    PoolCallAction O P K ι V → PoolCalls O P K ι V → Prop
  | pool (a : ExecutorAction (O ⊕ P) V) (pool : Executor (O ⊕ P) V) : s.allows a = true →
      s.pool.step a = some pool → Moves errorName s (.pool a) { s with pool := pool }
  | attach (o : O) (p : P) : s.bound o = none →
      Moves errorName s (.attach o p) { s with bound := Function.update s.bound o (some p) }
  | refused (a : PoolCallAction O P K ι V) : Moves errorName s a s
  | detach (t : Fin 2 ⊕ ι) (o : O) : s.canCall t = true → (s.call t).frames = [] →
      s.detachRefusal errorName t o = none →
      Moves errorName s (.detach t o none) (s.toBarrier t o [])
  | join (t : Fin 2 ⊕ ι) (x : Closable O P K) (order : List O) (related : Bool) :
      s.canCall t = true → (∀ f ∈ (s.call t).frames, f.job.1 ≠ x) →
      s.closeRefusal t related x = none → (s.close x).status = .closing →
      Moves errorName s (.close t x order related)
        ((s.setClose x { s.close x with
            waiters := Function.update (s.close x).waiters (s.close x).generation
              (some ((s.close x).waiting (s.close x).generation + 1)) }).goto t
          ⟨(s.call t).frames, some (.join x (s.close x).generation)⟩)
  | perform (t : Fin 2 ⊕ ι) (x : Closable O P K) (order : List O) (related : Bool) :
      s.canCall t = true → (∀ f ∈ (s.call t).frames, f.job.1 ≠ x) →
      s.closeRefusal t related x = none →
      ((s.close x).status = .open ∨ (s.close x).status = .closeFailed) →
      Moves errorName s (.close t x order related)
        ((s.setClose x { s.close x with
            generation := (s.close x).generation + 1, status := .closing }).goto t
          ⟨newFrame order ((s.close x).generation + 1) x :: (s.call t).frames, none⟩)
  | skip (t : Fin 2 ⊕ ι) (raised : Option PyError) (p : P) (g : ℕ) (o : O) (rest : List O)
      (frames : List (CloseFrame O P K)) : s.canCall t = true →
      (s.call t).frames = .source p g (o :: rest) false :: frames → s.bound o ≠ some p →
      Moves errorName s (.detachNext t raised) (s.goto t ⟨.source p g rest false :: frames, none⟩)
  | detachNext (t : Fin 2 ⊕ ι) (p : P) (g : ℕ) (o : O) (rest : List O)
      (frames : List (CloseFrame O P K)) : s.canCall t = true →
      (s.call t).frames = .source p g (o :: rest) false :: frames → s.bound o = some p →
      s.detachInUse t o p = false →
      Moves errorName s (.detachNext t none) (s.toBarrier t o (.source p g rest false :: frames))
  | notDetached (t : Fin 2 ⊕ ι) (raised : Option PyError) (p : P) (g : ℕ) (o : O)
      (rest : List O) (frames : List (CloseFrame O P K)) (e : PyError) : s.canCall t = true →
      (s.call t).frames = .source p g (o :: rest) false :: frames →
      (s.detachInUse t o p = true ∨ raised ≠ none) →
      Moves errorName s (.detachNext t raised)
        (s.report t (.source p g rest false) frames fun c g => c.fail g e)
  | closeDispatcher (t : Fin 2 ⊕ ι) (d : O ⊕ P) (f f' : CloseFrame O P K)
      (frames : List (CloseFrame O P K)) : s.canCall t = true → (s.call t).frames = f :: frames →
      f.toClose = some (d, f') →
      Moves errorName s (.closeDispatcher t) (s.toDrain t d (f' :: frames))
  | succeed (t : Fin 2 ⊕ ι) (error : Option PyError) (f : CloseFrame O P K)
      (frames : List (CloseFrame O P K)) : s.canCall t = true → (s.call t).frames = f :: frames →
      Moves errorName s (.succeed t error)
        ({ s with bound := s.unbound f }.report t f frames fun c g => c.succeed g error)
  | fail (t : Fin 2 ⊕ ι) (error : PyError) (f : CloseFrame O P K)
      (frames : List (CloseFrame O P K)) : s.canCall t = true → (s.call t).frames = f :: frames →
      Moves errorName s (.fail t error) (s.report t f frames fun c g => c.fail g error)
  | unbind (t : Fin 2 ⊕ ι) (o : O) : (s.call t).wait = some (.barrier o) →
      (s.pool.dispatchers (.inl o)).barrierDone = true →
      Moves errorName s (.wake t)
        ({ s with
          bound := Function.update s.bound o none
          detaching := Function.update s.detaching o false }.goto t ⟨(s.call t).frames, none⟩)
  | drained (t : Fin 2 ⊕ ι) (d : O ⊕ P) : (s.call t).wait = some (.closing d) →
      (s.pool.dispatchers d).closeDone = true →
      Moves errorName s (.wake t) (s.goto t ⟨(s.call t).frames, none⟩)
  | joined (t : Fin 2 ⊕ ι) (x : Closable O P K) (g : ℕ) (c : CloseCoordinator) :
      (s.call t).wait = some (.join x g) → (s.close x).outcome? g ≠ none →
      c = ((s.close x).leave g).getD (s.close x) →
      Moves errorName s (.wake t) ((s.setClose x c).goto t ⟨(s.call t).frames, none⟩)

/-- A thread that can make a call does not wait. -/
theorem wait_of_canCall {t : Fin 2 ⊕ ι} (h : s.canCall t = true) : (s.call t).wait = none := by
  simp only [canCall, Bool.and_eq_true, Option.isNone_iff_eq_none] at h
  exact h.1

/-- A thread that can close `x` performs no close of `x`. -/
theorem canClose_eq_true {t : Fin 2 ⊕ ι} {x : Closable O P K} (h : s.canClose t x = true) :
    s.canCall t = true ∧ ∀ f ∈ (s.call t).frames, f.job.1 ≠ x := by
  simp only [canClose, Bool.and_eq_true] at h
  refine ⟨h.1, ?_⟩
  have hframes := h.2
  split at hframes
  next hnil => simp [hnil]
  next k g frames hcons =>
    rw [hcons]
    intro f hf
    simpa using List.all_eq_true.mp hframes f hf
  next => cases hframes

variable [FrameValues V]

theorem closeStep_moves {t : Fin 2 ⊕ ι} {x : Closable O P K} {order : List O} {related : Bool}
    (h : s.closeStep t x order related = some s') :
    Moves errorName s (.close t x order related) s' := by
  unfold closeStep at h
  split at h
  next hcan =>
    obtain ⟨hcan, hother⟩ := canClose_eq_true hcan
    have hwait := wait_of_canCall hcan
    split at h
    next hpass =>
      rw [Option.isNone_iff_eq_none] at hpass
      rcases (s.close x).begin_cases false with ⟨hst, hbegin⟩ | ⟨hst, hbegin⟩ | ⟨hst, hbegin⟩ |
        ⟨hst, hbegin⟩
      · rw [hbegin] at h
        cases h
        exact .join t x order related hcan hother hpass hst
      · rw [hbegin] at h
        cases h
        exact .refused _
      · rw [hbegin] at h
        cases h
        exact .refused _
      · have hmove : Moves errorName s (.close t x order related) _ :=
          .perform t x order related hcan hother hpass hst
        rw [hbegin] at h
        cases h
        rw [← hwait] at hmove
        exact hmove
    next =>
      cases h
      exact .refused _
  next => cases h

theorem detachNextStep_moves {t : Fin 2 ⊕ ι} {raised : Option PyError}
    (h : s.detachNextStep t raised = some s') : Moves errorName s (.detachNext t raised) s' := by
  unfold detachNextStep at h
  split at h
  next hcan =>
    split at h
    next p g o rest frames hframes =>
      split at h
      next hbound =>
        cases h
        exact .skip t raised p g o rest frames hcan hframes hbound
      next hbound =>
        split at h
        next huse =>
          cases h
          exact .notDetached t raised p g o rest frames _ hcan hframes (.inl huse)
        next huse =>
          split at h
          next e =>
            cases h
            exact .notDetached t (some e) p g o rest frames e hcan hframes (.inr (by simp))
          next =>
            cases h
            exact .detachNext t p g o rest frames hcan hframes (not_not.mp hbound)
              (by simpa using huse)
    next => cases h
  next => cases h

theorem wakeStep_moves {t : Fin 2 ⊕ ι} (h : s.wakeStep t = some s') :
    Moves errorName s (.wake t) s' := by
  unfold wakeStep at h
  split at h
  next o hwait =>
    split at h
    next hdone =>
      cases h
      exact .unbind t o hwait hdone
    next => cases h
  next d hwait =>
    split at h
    next hdone =>
      cases h
      exact .drained t d hwait hdone
    next => cases h
  next x g hwait =>
    obtain ⟨error, herror, rfl⟩ := Option.map_eq_some_iff.mp h
    exact .joined t x g _ hwait (by simp [herror]) rfl
  next => cases h

/-- **The steps, inverted.** -/
theorem step_moves {a : PoolCallAction O P K ι V} (h : s.step errorName a = some s') :
    Moves errorName s a s' := by
  cases a with
  | pool a =>
      simp only [step] at h
      split at h
      next hallows =>
        obtain ⟨pool, hpool, rfl⟩ := Option.map_eq_some_iff.mp h
        exact .pool a pool hallows hpool
      next => cases h
  | attach o p =>
      simp only [step] at h
      split at h
      next hopen =>
        cases h
        exact .attach o p hopen.1
      next => cases h
  | detach t o raised =>
      simp only [step, detachStep] at h
      split at h
      next hcan =>
        simp only [Bool.and_eq_true, List.isEmpty_iff] at hcan
        split at h
        next hpass =>
          simp only [Bool.and_eq_true, Option.isNone_iff_eq_none] at hpass
          cases h
          obtain ⟨hpass, rfl⟩ := hpass
          exact .detach t o hcan.1 hcan.2 hpass
        next =>
          cases h
          exact .refused _
      next => cases h
  | close t x order related => exact closeStep_moves h
  | detachNext t raised => exact detachNextStep_moves h
  | closeDispatcher t =>
      simp only [step, closeDispatcherStep] at h
      split at h
      next hcan =>
        split at h
        next f frames hframes =>
          obtain ⟨⟨d, f'⟩, hclose, rfl⟩ := Option.map_eq_some_iff.mp h
          exact .closeDispatcher t d f f' frames hcan hframes hclose
        next => cases h
      next => cases h
  | succeed t error =>
      simp only [step, succeedStep] at h
      split at h
      next hcan =>
        split at h
        next f frames hframes =>
          split at h
          next =>
            cases h
            exact .succeed t error f frames hcan hframes
          next => cases h
        next => cases h
      next => cases h
  | fail t error =>
      simp only [step, failStep] at h
      split at h
      next hcan =>
        split at h
        next f frames hframes =>
          split at h
          next =>
            cases h
            exact .fail t error f frames hcan hframes
          next => cases h
        next => cases h
      next => cases h
  | wake t => exact wakeStep_moves h

end Inversion

end PoolCalls

end Tirtc
