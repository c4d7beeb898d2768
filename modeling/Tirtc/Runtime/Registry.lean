import Mathlib.Data.Finset.Card
import Tirtc.Lib.Machine
import Tirtc.Runtime.Options

/-!
# The process-wide lease registry

`_runtime._acquire_rtc`, `_acquire_storage` and `_release` keep the leases of one process in five
module globals. Each of them is cut here as the source is: the checks and the native call under the
lock (`acquireRtcSection`, `acquireStorageSection`, `releaseSection`), and the statements behind the
native call, one by one (`Statement`), so that `Fork` can interrupt them.

* `Globals`, `RuntimeLease`: the module globals and the lease objects.
* `Resource`, `Native`: what the Runtime holds, and the successful calls that took it up and down.
* `Statement`, `rtcBookkeeping`, `storageBookkeeping`, `releaseBookkeeping`.
* `acquireRtc`, `acquireStorage`, `release`: the whole calls.
* `RegistryCall`, `machine`: any sequence of calls.
-/

set_option autoImplicit false

namespace Tirtc

/-! ## The globals -/

/-- A lease object. Its handle is known by the number of the lease.
Source: `_runtime.py`, `_RuntimeLease` -/
structure RuntimeLease where
  product : Product
  mode : AuthMode
  configuration : Configuration
  handle : Option ℕ
  closed : Bool := false
  deriving DecidableEq, Repr

/-- `(app_id, endpoint)`, which all external-token storage leases share. -/
def Configuration.legacy (configuration : Configuration) : String × Option String :=
  (configuration.appId, configuration.endpoint)

/-- `(cache_dir, console_log_enabled)`, which all leases share. -/
def Configuration.shared (configuration : Configuration) : String × Bool :=
  (configuration.cacheDir, configuration.consoleLogEnabled)

/-- The module globals. The lease objects made so far are those below `made`.
Source: `_runtime.py`, the globals behind `_lock` -/
structure Globals where
  made : ℕ := 0
  lease : ℕ → Option RuntimeLease := fun _ => none
  activeLeases : Finset ℕ := ∅
  rtcLease : Option ℕ := none
  externalStorageConfiguration : Option (String × Option String) := none
  externalStorageCount : ℤ := 0
  sharedConfiguration : Option (String × Bool) := none

/-- What the Runtime holds for the SDK. -/
inductive Resource
  | runtime (product : Product)
  | client (handle : ℕ)
  deriving DecidableEq, Repr

/-- The calls that initialise and shut down a Runtime. -/
inductive Switch
  | up (product : Product)
  | down (product : Product)
  deriving DecidableEq, Repr

/-- The Runtime: what it holds, and its successful switches, the last one first. -/
structure Native where
  live : Finset Resource := ∅
  switches : List Switch := []

namespace Native

/-- A successful `rtc_initialize` or `storage_initialize`. -/
def switchUp (native : Native) (product : Product) : Native :=
  ⟨insert (.runtime product) native.live, .up product :: native.switches⟩

/-- A successful `rtc_shutdown` or `storage_shutdown`. -/
def switchDown (native : Native) (product : Product) : Native :=
  ⟨native.live.erase (.runtime product), .down product :: native.switches⟩

/-- A successful `rtc_client_create` or `storage_client_create`. -/
def create (native : Native) (handle : ℕ) : Native :=
  { native with live := insert (.client handle) native.live }

/-- A successful `close` of a client handle. -/
def close (native : Native) (handle : ℕ) : Native :=
  { native with live := native.live.erase (.client handle) }

end Native

/-! ## The statements behind the native call -/

/-- The assignments of the bookkeeping. -/
inductive Statement
  | make (n : ℕ) (lease : RuntimeLease)
  | setRtcLease (n : Option ℕ)
  | addLease (n : ℕ)
  | setExternalConfiguration (configuration : String × Option String)
  | countUp
  | shareConfiguration (configuration : String × Bool)
  | removeLease (n : ℕ)
  | countDown
  | clearExternalConfiguration
  | markClosed (n : ℕ)
  | clearHandle (n : ℕ)
  | clearSharedConfiguration
  deriving DecidableEq

namespace Globals

variable (g : Globals)

/-- Lease `n` becomes `f` of itself. -/
def modifyLease (n : ℕ) (f : RuntimeLease → RuntimeLease) : Globals :=
  { g with lease := Function.update g.lease n ((g.lease n).map f) }

/-- One statement. The conditional ones read the globals when they run.
Source: `_runtime.py`, `_acquire_rtc`, `_acquire_storage` and `_release` -/
def run : Statement → Globals
  | .make n lease => { g with made := n + 1, lease := Function.update g.lease n (some lease) }
  | .setRtcLease n => { g with rtcLease := n }
  | .addLease n => { g with activeLeases := insert n g.activeLeases }
  | .setExternalConfiguration configuration =>
      { g with externalStorageConfiguration := some configuration }
  | .countUp => { g with externalStorageCount := g.externalStorageCount + 1 }
  | .shareConfiguration configuration =>
      { g with sharedConfiguration :=
          if g.sharedConfiguration = none then some configuration else g.sharedConfiguration }
  | .removeLease n => { g with activeLeases := g.activeLeases.erase n }
  | .countDown => { g with externalStorageCount := g.externalStorageCount - 1 }
  | .clearExternalConfiguration =>
      { g with externalStorageConfiguration :=
          if g.externalStorageCount = 0 then none else g.externalStorageConfiguration }
  | .markClosed n => g.modifyLease n fun lease => { lease with closed := true }
  | .clearHandle n => g.modifyLease n fun lease => { lease with handle := none }
  | .clearSharedConfiguration =>
      { g with sharedConfiguration := if g.activeLeases = ∅ then none else g.sharedConfiguration }

/-- The statements in their order. -/
def runAll (statements : List Statement) : Globals := statements.foldl run g

end Globals

/-- Source: `_runtime.py`, `_acquire_rtc` behind its native call -/
def rtcBookkeeping (n : ℕ) (lease : RuntimeLease) : List Statement :=
  [.make n lease, .setRtcLease (some n), .addLease n,
    .shareConfiguration lease.configuration.shared]

/-- Source: `_runtime.py`, `_acquire_storage` behind its native call -/
def storageBookkeeping (n : ℕ) (lease : RuntimeLease) : List Statement :=
  [.make n lease, .addLease n] ++
    (if lease.mode = .externalToken then
      [.setExternalConfiguration lease.configuration.legacy, .countUp]
    else []) ++
    [.shareConfiguration lease.configuration.shared]

/-- Source: `_runtime.py`, `_release` behind its native call -/
def releaseBookkeeping (n : ℕ) (lease : RuntimeLease) : List Statement :=
  [.removeLease n] ++
    (if lease.product = .rtc then [.setRtcLease none]
    else if lease.mode = .externalToken then [.countDown, .clearExternalConfiguration]
    else []) ++
    [.markClosed n, .clearHandle n, .clearSharedConfiguration]

/-! ## The sections up to the native call -/

/-- What the lock-held part before the bookkeeping leaves: an exception, or the Runtime after the
native call and the statements to run. -/
abbrev LockedPart := Except Raised (Native × List Statement)

section Sections

variable (errorName : ℤ → String) (g : Globals) (native : Native)

/-- Source: `_runtime.py`, `_preflight_shared` -/
def preflightShared (configuration : Configuration) : Option Raised :=
  if g.sharedConfiguration ≠ none ∧ g.sharedConfiguration ≠ some configuration.shared then
    some (.sdk (newError .alreadyInitialized (some 6022) "already_initialized"
      (some "all TiRTC Clients must share cache_dir and console logging")))
  else none

/-- The cache directory is created and written to; the flag says that the system lets it.
Source: `_runtime.py`, `_prepare_cache` -/
def prepareCache (configuration : Configuration) (writable : Bool) : Option Raised :=
  if writable then none
  else some (.sdk (ioError ("cache_dir is not writable: " ++ configuration.cacheDir)))

/-- `_check_code` on the result of a native call. -/
def checkNative (result : NativeResult) : Except Raised Unit :=
  match result.check errorName with
  | some error => .error (.sdk error)
  | none => .ok ()

/-- `raise` when there is an error. -/
def raising : Option Raised → Except Raised Unit
  | some error => .error error
  | none => .ok ()

/-- The lock-held part of `_acquire_rtc`, up to its native call with the given result.
Source: `_runtime.py`, `_acquire_rtc` -/
def acquireRtcSection (mode : AuthMode) (configuration : Configuration) (writable : Bool)
    (result : NativeResult) : LockedPart := do
  if g.rtcLease ≠ none then throw (.sdk inUseError)
  raising (preflightShared g configuration)
  raising (prepareCache configuration writable)
  checkNative errorName result
  match mode with
  | .accessKey =>
      return (native.create g.made,
        rtcBookkeeping g.made ⟨.rtc, mode, configuration, some g.made, false⟩)
  | .externalToken =>
      return (native.switchUp .rtc,
        rtcBookkeeping g.made ⟨.rtc, mode, configuration, none, false⟩)

/-- The lock-held part of `_acquire_storage`, up to its native call, if it makes one.
Source: `_runtime.py`, `_acquire_storage` -/
def acquireStorageSection (mode : AuthMode) (configuration : Configuration) (writable : Bool)
    (result : NativeResult) : LockedPart := do
  raising (preflightShared g configuration)
  if mode = .externalToken ∧ g.externalStorageConfiguration ≠ none ∧
      g.externalStorageConfiguration ≠ some configuration.legacy then
    throw (.sdk (newError .alreadyInitialized (some 6022) "already_initialized"
      (some "external-token Cloud Clients must share app_id and endpoint")))
  raising (prepareCache configuration writable)
  match mode with
  | .accessKey =>
      checkNative errorName result
      return (native.create g.made,
        storageBookkeeping g.made ⟨.storage, mode, configuration, some g.made, false⟩)
  | .externalToken =>
      let bookkeeping :=
        storageBookkeeping g.made ⟨.storage, mode, configuration, none, false⟩
      if g.externalStorageCount = 0 then
        checkNative errorName result
        return (native.switchUp .storage, bookkeeping)
      else return (native, bookkeeping)

/-- The lock-held part of `_release` for lease `n`, up to its native call, if it makes one. The
result is that of the last try of `_close_handle`. A lease that is closed is left alone.
Source: `_runtime.py`, `_release` and `_close_handle` -/
def releaseSection (n : ℕ) (lease : RuntimeLease) (result : NativeResult) : LockedPart :=
  if lease.closed then return (native, [])
  else do
    if n ∉ g.activeLeases then throw (.sdk inUseError)
    match lease.mode, lease.product with
    | .accessKey, _ =>
        match lease.handle with
        | none => throw (.builtin .assertionError "")
        | some handle =>
            checkNative errorName result
            return (native.close handle, releaseBookkeeping n lease)
    | .externalToken, .rtc =>
        checkNative errorName result
        return (native.switchDown .rtc, releaseBookkeeping n lease)
    | .externalToken, .storage =>
        if g.externalStorageCount ≤ 0 then
          throw (.builtin .runtimeError "invalid external-token Cloud Client lease count")
        if g.externalStorageCount = 1 then
          checkNative errorName result
          return (native.switchDown .storage, releaseBookkeeping n lease)
        else return (native, releaseBookkeeping n lease)

end Sections

/-! ## The calls -/

/-- The arguments of an acquire call, and what the system answers to it. -/
structure AcquireCall where
  options : Option ClientOptions
  mode : AuthMode
  accessKeyId : Argument := .none
  accessKeySecret : Argument := .none
  writable : Bool := true
  result : NativeResult := .code 0

/-- The calls of one process. `finalize` is the end of the interpreter. -/
inductive RegistryCall
  | acquireRtc (call : AcquireCall)
  | acquireStorage (call : AcquireCall)
  | release (n : ℕ) (result : NativeResult)
  | finalize

/-- One process: its number, its flags and globals, and the Runtime. -/
structure Registry where
  pid : ℕ
  flags : ProcessFlags
  globals : Globals := {}
  native : Native := {}

namespace Registry

variable (errorName : ℤ → String) (pathlib : PathLibrary) (r : Registry)

/-- The checks of an acquire call before the lock.
Source: `_runtime.py`, `_acquire_rtc` and `_acquire_storage` -/
def acquireBegin (call : AcquireCall) : Except Raised Configuration := do
  raising (r.flags.checkProcess r.pid)
  let configuration ← normalizeOptions pathlib call.options
  match call.mode with
  | .accessKey =>
      let _ ← validateAccessKeys call.accessKeyId call.accessKeySecret
      return configuration
  | .externalToken => return configuration

/-- A locked part, and the statements behind it: what the call raises, and what it leaves. -/
def finish (part : LockedPart) : Option Raised × Registry :=
  match part with
  | .error raised => (some raised, r)
  | .ok (native, statements) =>
      (none, { r with native := native, globals := r.globals.runAll statements })

/-- Source: `_runtime.py`, `_acquire_rtc` -/
def acquireRtc (call : AcquireCall) : Option Raised × Registry :=
  r.finish do
    let configuration ← r.acquireBegin pathlib call
    acquireRtcSection errorName r.globals r.native call.mode configuration call.writable call.result

/-- Source: `_runtime.py`, `_acquire_storage` -/
def acquireStorage (call : AcquireCall) : Option Raised × Registry :=
  r.finish do
    let configuration ← r.acquireBegin pathlib call
    acquireStorageSection errorName r.globals r.native call.mode configuration call.writable
      call.result

/-- Source: `_runtime.py`, `_release` -/
def release (n : ℕ) (lease : RuntimeLease) (result : NativeResult) : Option Raised × Registry :=
  r.finish do
    raising (r.flags.checkProcess r.pid)
    releaseSection errorName r.globals r.native n lease result

/-- One call: what it raises and what it leaves. Only a lease object that exists can be released. -/
def call : RegistryCall → Option (Option Raised × Registry)
  | .acquireRtc call => some (r.acquireRtc errorName pathlib call)
  | .acquireStorage call => some (r.acquireStorage errorName pathlib call)
  | .release n result => (r.globals.lease n).map fun lease => r.release errorName n lease result
  | .finalize => some (none, { r with flags := r.flags.markFinalizing })

/-- The sequences of calls in one process, from the import on. -/
def machine : Transition.Machine Registry RegistryCall where
  start r := ∃ pid, r = { pid := pid, flags := { processId := pid } }
  step r c := (r.call errorName pathlib c).map Prod.snd

end Registry

end Tirtc
