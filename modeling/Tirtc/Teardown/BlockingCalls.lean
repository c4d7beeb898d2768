import Tirtc.Lib.Programs
import Tirtc.Teardown.Owners

/-!
# The blocking calls, from their guards to their waits

One callback at most runs, of the object `owner`, and makes a call; or the call is made outside of
any callback. Nothing else moves meanwhile: what the Runtime and other threads answer is given by an
`Environment`.

* `Environment`, `effect`, `wait`: the answers; a native call, or the wait for another thread; the
  wait of `barrier` or of `_dispatcher.close()`.
* `begin`, `teardown`, `closeKeeping`: what the teardowns share.
* `detach` to `closeCloudClient`: the calls, as in the source. The RecordingTasks and the list
  requests of a parent are stopped by one effect that may raise.
* `BlockingCall`, `BlockingCall.run`: the calls that the contract is about.
-/

set_option autoImplicit false

namespace Tirtc.Callbacks

open Programs

/-- What the outside answers, by the number of the effect: what it makes the code raise, whether a
cancelled attempt has to be disconnected, and the error that a completed export has. -/
structure Environment where
  errorName : ℤ → String
  raises : ℕ → Option PyError
  again : ℕ → Bool
  completed : ℕ → Option PyError

variable {I : Type} [DecidableEq I] {T : Ownership I}

/-- The code of a method. -/
abbrev Code (T : Ownership I) (α : Type) : Type := Program (World T) PyError α

section Shared

variable (ω : Environment)

/-- A native call, or the wait for another thread. -/
def effect (e : Effect) (x : SdkObject I) : Code T Unit := do
  let s ← get
  modify fun s => { s with trace := s.trace ++ [(e, x)] }
  match ω.raises s.trace.length with
  | some error => throw error
  | none => pure ()

/-- `x._dispatcher.barrier()` or `x._dispatcher.close()` -/
def wait (x : SdkObject I) : Code T Unit :=
  modify fun s => { s with trace := s.trace ++ [(.wait, x)] }

/-- `if busy: raise _in_use_error()` -/
def refuseIf (busy : Bool) : Code T Unit :=
  if busy then throw inUseError else pure ()

/-- `if error is not None: raise error` -/
def raiseKept : Option PyError → Code T Unit
  | some error => throw error
  | none => pure ()

/-- The coordinator of `x` becomes `c`. -/
def World.setClose (s : World T) (x : SdkObject I) (c : CloseCoordinator) : World T :=
  { s with close := Function.update s.close x c }

/-- `self._close.begin()`: a close that another thread performs is waited for, and raises what it
has raised.
Source: `_lifecycle.py`, `begin` -/
def begin (x : SdkObject I) : Code T (Option ℕ) := do
  let s ← get
  match (s.close x).begin with
  | (.join _, _) => do
      effect ω .joined x
      pure none
  | (.none, _) => pure none
  | (.inUse, _) => throw inUseError
  | (.perform g, c) => do
      modify fun s => s.setClose x c
      pure (some g)

/-- `try: ... except BaseException as error: self._close.fail(generation, error); raise` -/
def teardown {α : Type} (x : SdkObject I) (g : ℕ) (body : Code T α) : Code T α :=
  tryCatch body fun error => do
    modify fun s => s.setClose x ((s.close x).fail g error)
    throw error

/-- `self._close.succeed(generation, error)` -/
def succeed (x : SdkObject I) (g : ℕ) (error : Option PyError) : Code T Unit :=
  modify fun s => s.setClose x ((s.close x).succeed g error)

/-- The error that a statement raises, if it does. -/
def caught (m : Code T Unit) : Code T (Option PyError) :=
  tryCatch (do m; pure none) fun error => pure (some error)

/-- The loop over the children of a teardown: an error of a child that is closed by then is kept,
the first one of all; any other goes on.
Source: `_core.py`, `Client.close` and `Connection._close_connection`; `storage/__init__.py`,
`Client.close`, `CloudStorage._close_cloud` and `Replay._close_replay` -/
def closeKeeping {β : Type} (close : β → Code T Unit) (closed : World T → β → Bool) :
    List β → Option PyError → Code T (Option PyError)
  | [], kept => pure kept
  | x :: xs, kept => do
      let raised ← caught (close x)
      match raised with
      | none => closeKeeping close closed xs kept
      | some error => do
          let s ← get
          if closed s x then closeKeeping close closed xs (kept.or (some error))
          else throw error

end Shared

section Calls

variable (ω : Environment) (owner : Option (SdkObject I))

/-! ## Outputs -/

/-- `bound._detach(self)`
Source: `_core.py`, `Connection._detach`; `storage/__init__.py`, `Replay._detach` -/
def World.discard (s : World T) (p : MediaSource I) (o : I) : World T :=
  { s with outputs := Function.update s.outputs p ((s.outputs p).erase o) }

/-- What `detach` and `_detach_from_parent` do behind their checks.
Source: `_core.py`, `_OutputBase.detach` and `_OutputBase._detach_from_parent` -/
def detachFrom (p : MediaSource I) (o : I) : Code T Unit := do
  effect ω .detach (.output o)
  modify fun s => { s with detaching := Function.update s.detaching o true }
  wait (.output o)
  modify fun s => { s with
    bound := Function.update s.bound o none
    detaching := Function.update s.detaching o false }
  modify fun s => s.discard p o

/-- `self._detaching`, or the callback is the Output's or its parent's. -/
def World.detachInUse (s : World T) (p : MediaSource I) (o : I) : Bool :=
  s.detaching o || owner = some (.output o) || owner = some p.object

/-- Source: `_core.py`, `_OutputBase.detach`; `storage/__init__.py`,
`_StorageOutputBase.detach` -/
def detach (o : I) : Code T Unit := do
  let s ← get
  match (s.close (.output o)).requireOpen, s.bound o with
  | some error, _ => throw error
  | none, none => throw (errorFromCode 6029 (ω.errorName 6029))
  | none, some p => do
      refuseIf (s.detachInUse owner p o)
      detachFrom ω p o

/-- Source: `_core.py`, `_OutputBase._detach_from_parent`; `storage/__init__.py`,
`_StorageOutputBase._detach_from_parent` -/
def detachFromParent (p : MediaSource I) (o : I) : Code T Unit := do
  let s ← get
  if s.bound o = some p then do
    refuseIf (s.detachInUse owner p o)
    detachFrom ω p o
  else pure ()

/-- Source: `_core.py`, `_OutputBase._close_output` -/
def closeOutput (o : I) : Code T Unit := do
  let s ← get
  refuseIf (s.detaching o || owner = some (.output o) ||
    (s.bound o).any fun p => owner = some p.object)
  let generation ← begin ω (.output o)
  match generation with
  | none => pure ()
  | some g => do
      teardown (.output o) g do
        wait (.output o)
        let s' ← get
        if (s.bound o).isSome && !s'.nativeDetached o then do
          effect ω .detach (.output o)
          modify fun s => { s with nativeDetached := Function.update s.nativeDetached o true }
        effect ω .close (.output o)
      modify fun s => { s with bound := Function.update s.bound o none }
      match s.bound o with
      | some p => modify fun s => s.discard p o
      | none => pure ()
      succeed (.output o) g none

/-! ## RawDumps -/

/-- The guard of a RawDump. A closed one has no parent, and refuses every callback whose owner has
no binding.
Source: `_raw_dump.py`, `RawDump._reject_blocking_callback` -/
def World.dumpInUse (s : World T) (d : I) : Bool :=
  match owner with
  | none => false
  | some x => (s.dumpParent d).map MediaSource.object = some x || s.boundOf x = s.dumpParent d

/-- Source: `_raw_dump.py`, `RawDump.stop` -/
def stopDump (d : I) : Code T Unit := do
  let s ← get
  refuseIf (s.dumpInUse owner d)
  if s.dumpClosed d then throw closedError
  else if s.archived d then pure ()
  else do
    effect ω .dumpStop (.rawDump d)
    modify fun s => { s with archived := Function.update s.archived d true }

/-- Source: `_raw_dump.py`, `RawDump.close` -/
def closeDump (d : I) : Code T Unit := do
  let s ← get
  refuseIf (s.dumpInUse owner d)
  if s.dumpClosed d then pure ()
  else do
    let stopError ← caught (stopDump ω owner d)
    effect ω .close (.rawDump d)
    modify fun s => { s with
      dumpClosed := Function.update s.dumpClosed d true
      dumpParent := Function.update s.dumpParent d none }
    match s.dumpParent d with
    | some p =>
        modify fun s => { s with dumps := Function.update s.dumps p ((s.dumps p).erase d) }
    | none => pure ()
    raiseKept stopError

/-! ## Connections and the RTC Client -/

/-- The callback is the object's own, or one of an Output that is bound to it.
Source: `_core.py`, `Connection.disconnect` and `Connection._close_connection`;
`storage/__init__.py`, `Replay._in_related_callback` -/
def World.inRelatedCallback (s : World T) (p : MediaSource I) : Bool :=
  owner = some p.object || (owner.bind s.boundOf) = some p

/-- `_cancel_connect(attempt, ...)` and `attempt.finished.wait()`. The thread that connects passes
the barrier of the Connection before it sets `finished`.
Source: `_core.py`, `Connection._cancel_connect` and `Connection._finish_connect` -/
def cancelConnect (c : I) : Code T Unit := do
  let s ← get
  if s.connecting c then do
    effect ω .cancelConnect (.connection c)
    if ω.again s.trace.length then do
      effect ω .disconnect (.connection c)
      wait (.connection c)
    modify fun s => { s with disconnectFinished := Function.update s.disconnectFinished c true }
    wait (.connection c)
    modify fun s => { s with connecting := Function.update s.connecting c false }
  else pure ()

/-- Source: `_core.py`, `Connection.disconnect` -/
def disconnect (c : I) : Code T Unit := do
  let s ← get
  refuseIf (s.inRelatedCallback owner (.connection c))
  match (s.close (.connection c)).requireOpen with
  | some error => throw error
  | none => do
      cancelConnect ω c
      if !s.connecting c || ω.again s.trace.length then do
        effect ω .disconnect (.connection c)
        wait (.connection c)
      modify fun s => { s with
        live := Function.update s.live c false
        disconnectFinished := Function.update s.disconnectFinished c true }

/-- Source: `_core.py`, `Connection._close_connection` -/
def closeConnection (c : I) : Code T Unit := do
  let s ← get
  refuseIf (s.inRelatedCallback owner (.connection c))
  let generation ← begin ω (.connection c)
  match generation with
  | none => pure ()
  | some g => do
      let dumpError ← teardown (.connection c) g do
        cancelConnect ω c
        forEach (detachFromParent ω owner (.connection c)) (s.outputs (.connection c))
        let dumpError ← closeKeeping (closeDump ω owner) (fun s d => s.dumpClosed d)
          (s.dumps (.connection c)) none
        effect ω .stopRecordings (.connection c)
        wait (.connection c)
        let s' ← get
        if !s'.disconnectFinished c && s'.live c then do
          effect ω .disconnect (.connection c)
          modify fun s => { s with
            disconnectFinished := Function.update s.disconnectFinished c true }
        effect ω .close (.connection c)
        pure dumpError
      modify fun s => { s with live := Function.update s.live c false }
      succeed (.connection c) g dumpError
      modify fun s => { s with
        connections := Function.update s.connections (T.client c)
          ((s.connections (T.client c)).erase ⟨c, rfl⟩) }
      raiseKept dumpError

/-- Source: `_core.py`, `Client.close` -/
def closeClient (k : I) : Code T Unit := do
  let s ← get
  refuseIf (s.rtcCallbackClient owner = some k)
  let generation ← begin ω (.client k)
  match generation with
  | none => pure ()
  | some g => do
      let childError ← teardown (.client k) g do
        let childError ← closeKeeping (fun c => closeConnection ω owner c.1)
          (fun s c => (s.close (.connection c.1)).status = .closed) (s.connections k) none
        effect ω .leaseClose (.client k)
        pure childError
      succeed (.client k) g childError
      raiseKept childError

/-! ## Replays and ExportTasks -/

/-- Source: `storage/__init__.py`, `Replay.stop` -/
def stopReplay (r : I) : Code T Unit := do
  let s ← get
  refuseIf (s.inRelatedCallback owner (.replay r))
  match (s.close (.replay r)).requireOpen with
  | some error => throw error
  | none => do
      effect ω .replayStop (.replay r)
      modify fun s => { s with nativeStopped := Function.update s.nativeStopped r true }

/-- Source: `storage/__init__.py`, `Replay._close_replay` -/
def closeReplay (r : I) : Code T Unit := do
  let s ← get
  refuseIf (s.inRelatedCallback owner (.replay r))
  let generation ← begin ω (.replay r)
  match generation with
  | none => pure ()
  | some g => do
      let dumpError ← teardown (.replay r) g do
        let dumpError ← closeKeeping (closeDump ω owner) (fun s d => s.dumpClosed d)
          (s.dumps (.replay r)) none
        effect ω .stopRecordings (.replay r)
        forEach (detachFromParent ω owner (.replay r)) (s.outputs (.replay r))
        let s' ← get
        if !s'.nativeStopped r then do
          effect ω .replayStop (.replay r)
          modify fun s => { s with nativeStopped := Function.update s.nativeStopped r true }
        wait (.replay r)
        effect ω .close (.replay r)
        modify fun s => { s with
          replays := Function.update s.replays (T.replayParent r)
            ((s.replays (T.replayParent r)).erase ⟨r, rfl⟩) }
        pure dumpError
      succeed (.replay r) g dumpError
      raiseKept dumpError

/-- Source: `storage/__init__.py`, `ExportTask._result_or_error` -/
def resultOrError (e : I) : Code T Unit := do
  let s ← get
  raiseKept (s.error e)

/-- Source: `storage/__init__.py`, `ExportTask._load_report` -/
def loadReport (e : I) : Code T Unit := do
  let s ← get
  if s.reported e then pure ()
  else do
    effect ω .exportReport (.exportTask e)
    modify fun s => { s with reported := Function.update s.reported e true }

/-- The export is over: its `_error` is what its last event has said. -/
def World.endExport (s : World T) (e : I) (error : Option PyError) : World T :=
  { s with
    terminal := Function.update s.terminal e true
    error := Function.update s.error e error }

/-- The end of `_finish` and `stop`: from the report to the result.
Source: `storage/__init__.py`, `ExportTask._finish` and `ExportTask.stop` -/
def releaseExport (e : I) : Code T Unit := do
  loadReport ω e
  wait (.exportTask e)
  effect ω .close (.exportTask e)
  modify fun s => { s with
    exports := Function.update s.exports (T.exportParent e)
      ((s.exports (T.exportParent e)).erase ⟨e, rfl⟩) }

/-- Source: `storage/__init__.py`, `ExportTask._finish` -/
def finishExport (e : I) : Code T Unit := do
  let generation ← begin ω (.exportTask e)
  match generation with
  | none => resultOrError e
  | some g => do
      teardown (.exportTask e) g (releaseExport ω e)
      let s ← get
      succeed (.exportTask e) g (s.error e)
      resultOrError e

/-- `_done` is set by the callback of the last event.
Source: `storage/__init__.py`, `ExportTask.wait` -/
def waitExport (e : I) : Code T Unit := do
  refuseIf (owner = some (.exportTask e))
  let s ← get
  if s.terminal e then finishExport ω e
  else do
    wait (.exportTask e)
    effect ω .exportEnd (.exportTask e)
    modify fun t => t.endExport e (ω.completed s.trace.length)
    finishExport ω e

/-- Source: `storage/__init__.py`, `ExportTask.stop` -/
def stopExport (e : I) : Code T Unit := do
  refuseIf (owner = some (.exportTask e))
  let generation ← begin ω (.exportTask e)
  match generation with
  | none => resultOrError e
  | some g => do
      teardown (.exportTask e) g do
        let s ← get
        if !s.terminal e then do
          effect ω .exportStop (.exportTask e)
          modify fun t => t.endExport e (ω.completed s.trace.length)
        releaseExport ω e
      let s ← get
      succeed (.exportTask e) g (s.error e)
      resultOrError e

/-- Source: `storage/__init__.py`, `ExportTask.cancel` -/
def cancelExport (e : I) : Code T Unit := do
  let s ← get
  if s.terminal e then pure ()
  else match (s.close (.exportTask e)).requireOpen with
    | some error => throw error
    | none => effect ω .exportCancel (.exportTask e)

/-- Source: `storage/__init__.py`, `ExportTask._close_from_parent` -/
def closeExportFromParent (e : I) : Code T Unit := do
  cancelExport ω e
  let raised ← caught (waitExport ω owner e)
  match raised with
  | none => effect ω .deleteFile (.exportTask e)
  | some (.tirtc error) => do
      let s ← get
      if (s.close (.exportTask e)).status = .closed then pure () else throw (.tirtc error)
  | some (.other ref) => throw (.other ref)

/-! ## CloudStorages and the Cloud Client -/

/-- Source: `storage/__init__.py`, `CloudStorage._close_cloud` -/
def closeCloudStorage (m : I) : Code T Unit := do
  let s ← get
  refuseIf (s.callbackDescendsFrom owner (.cloudStorage m))
  let generation ← begin ω (.cloudStorage m)
  match generation with
  | none => pure ()
  | some g => do
      let childError ← teardown (.cloudStorage m) g do
        effect ω .cancelRequests (.cloudStorage m)
        let childError ← closeKeeping (fun r => closeReplay ω owner r.1)
          (fun s r => (s.close (.replay r.1)).status = .closed) (s.replays m) none
        forEach (fun e => closeExportFromParent ω owner e.1) (s.exports m)
        effect ω .close (.cloudStorage m)
        pure childError
      succeed (.cloudStorage m) g childError
      modify fun s => { s with
        clouds := Function.update s.clouds (T.cloudClient m)
          ((s.clouds (T.cloudClient m)).erase ⟨m, rfl⟩) }
      raiseKept childError

/-- Source: `storage/__init__.py`, `Client.close` -/
def closeCloudClient (k : I) : Code T Unit := do
  let s ← get
  refuseIf (s.callbackDescendsFrom owner (.cloudClient k))
  let generation ← begin ω (.cloudClient k)
  match generation with
  | none => pure ()
  | some g => do
      let childError ← teardown (.cloudClient k) g do
        let childError ← closeKeeping (fun m => closeCloudStorage ω owner m.1)
          (fun s m => (s.close (.cloudStorage m.1)).status = .closed) (s.clouds k) none
        effect ω .leaseClose (.cloudClient k)
        pure childError
      succeed (.cloudClient k) g childError
      raiseKept childError

end Calls

/-! ## The calls of the contract -/

/-- A blocking call. -/
inductive BlockingCall (I : Type)
  | closeClient (k : I)
  | closeConnection (c : I)
  | disconnect (c : I)
  | closeOutput (o : I)
  | detach (o : I)
  | closeCloudClient (k : I)
  | closeCloudStorage (m : I)
  | closeReplay (r : I)
  | stopReplay (r : I)
  | stopDump (d : I)
  | closeDump (d : I)
  | waitExport (e : I)
  | stopExport (e : I)

/-- The code of the call. -/
def BlockingCall.run (ω : Environment) (owner : Option (SdkObject I)) :
    BlockingCall I → Code T Unit
  | .closeClient k => Callbacks.closeClient ω owner k
  | .closeConnection c => Callbacks.closeConnection ω owner c
  | .disconnect c => Callbacks.disconnect ω owner c
  | .closeOutput o => Callbacks.closeOutput ω owner o
  | .detach o => Callbacks.detach ω owner o
  | .closeCloudClient k => Callbacks.closeCloudClient ω owner k
  | .closeCloudStorage m => Callbacks.closeCloudStorage ω owner m
  | .closeReplay r => Callbacks.closeReplay ω owner r
  | .stopReplay r => Callbacks.stopReplay ω owner r
  | .stopDump d => Callbacks.stopDump ω owner d
  | .closeDump d => Callbacks.closeDump ω owner d
  | .waitExport e => Callbacks.waitExport ω owner e
  | .stopExport e => Callbacks.stopExport ω owner e

end Tirtc.Callbacks
