import Tirtc.Errors

/-!
# The options of a Client, and the process checks

What `_runtime.py` checks before it takes the process-wide lock: the arguments of a Client, and
whether this process may use the Runtime at all.

* `Argument`, `ClientOptions`: what a caller may pass.
* `validatedString`, `normalizeOptions`, `validateAccessKeys`: the argument checks, with their
  texts. `pathlib` is a parameter (`PathLibrary`): what it does to a path depends on the platform.
* `ProcessFlags`, `processIsCurrent`, `checkProcess`, `afterForkChild`: the process checks.
-/

set_option autoImplicit false

namespace Tirtc

/-- `_RuntimeLease.mode`. Source: `_runtime.py`, `_AuthMode` -/
inductive AuthMode
  | externalToken | accessKey
  deriving DecidableEq, Repr

/-- Source: `_runtime.py`, `_Product` -/
inductive Product
  | rtc | storage
  deriving DecidableEq, Repr

/-! ## Exceptions -/

/-- The exception classes of Python itself that the checks raise. -/
inductive BuiltinError
  | typeError | valueError | runtimeError | assertionError
  deriving DecidableEq, Repr

/-- What a call raises: an exception of the SDK or of a native wrapper, or one of Python's own. -/
inductive Raised
  | sdk (error : PyError)
  | builtin (type : BuiltinError) (message : String)
  deriving DecidableEq, Repr

/-- Source: `_errors.py`, `_io_error` -/
def ioError (message : String) : PyError := newError .io none "io_failed" (some message)

/-! ## The arguments -/

/-- A Python object as the checks see it. `pathLike` is an `os.PathLike`; its text is `none` when
`__fspath__` gives bytes. -/
inductive Argument
  | none
  | bool (value : Bool)
  | str (text : String)
  | bytes
  | pathLike (text : Option String)
  | other
  deriving DecidableEq, Repr

/-- Source: `_runtime.py`, `ClientOptions` -/
structure ClientOptions where
  appId : Argument
  cacheDir : Argument
  endpoint : Argument := .none
  consoleLogEnabled : Argument := .bool false
  deriving DecidableEq, Repr

/-- Source: `_runtime.py`, `_Configuration` -/
structure Configuration where
  appId : String
  cacheDir : String
  endpoint : Option String
  consoleLogEnabled : Bool
  deriving DecidableEq, Repr

/-- `str(Path(text))` and `Path(text).is_absolute()` on the platform at hand. -/
structure PathLibrary where
  normal : String → String
  isAbsolute : String → Bool

/-- `"\x00" in text` -/
def hasNul (text : String) : Bool := text.toList.contains (Char.ofNat 0)

/-- Source: `_runtime.py`, `_validated_string` -/
def validatedString (value : Argument) (name : String) (optional : Bool := false) :
    Except Raised (Option String) :=
  if optional && value = .none then .ok none
  else
    match value with
    | .str text =>
        if text = "" then .error (.builtin .valueError (name ++ " must not be empty"))
        else if hasNul text then .error (.builtin .valueError (name ++ " must not contain NUL"))
        else .ok (some text)
    | _ =>
        .error (.builtin .typeError
          (name ++ " must be str" ++ if optional then " or None" else ""))

/-- `os.fspath(options.cache_dir)`, which must be text.
Source: `_runtime.py`, `_normalize_options` -/
def rawPath : Argument → Except Raised String
  | .str text => .ok text
  | .pathLike (some text) => .ok text
  | .bytes | .pathLike .none =>
      .error (.builtin .typeError "options.cache_dir must resolve to str")
  | _ => .error (.builtin .typeError "options.cache_dir must be str or os.PathLike[str]")

/-- The options as the Runtime gets them; `none` is an object of another class.
Source: `_runtime.py`, `_normalize_options` -/
def normalizeOptions (pathlib : PathLibrary) :
    Option ClientOptions → Except Raised Configuration
  | none => .error (.builtin .typeError "options must be ClientOptions")
  | some options => do
      let appId ← validatedString options.appId "options.app_id"
      let path ← rawPath options.cacheDir
      if hasNul path then
        throw (.builtin .valueError "options.cache_dir must not contain NUL")
      if !pathlib.isAbsolute path then
        throw (.builtin .valueError "options.cache_dir must be absolute")
      let endpoint ← validatedString options.endpoint "options.endpoint" true
      match options.consoleLogEnabled, appId with
      | .bool console, some appId =>
          return ⟨appId, pathlib.normal path, endpoint, console⟩
      | .bool _, none => throw (.builtin .assertionError "")
      | _, _ => throw (.builtin .typeError "options.console_log_enabled must be bool")

/-- Source: `_runtime.py`, `_validate_access_keys` -/
def validateAccessKeys (accessKeyId accessKeySecret : Argument) :
    Except Raised (String × String) := do
  let keyId ← validatedString accessKeyId "access_key_id"
  let secret ← validatedString accessKeySecret "access_key_secret"
  match keyId, secret with
  | some keyId, some secret => return (keyId, secret)
  | _, _ => throw (.builtin .assertionError "")

/-! ## The process -/

/-- The module globals the process checks read. `processId` is the process that wrote them last.
Source: `_runtime.py`, `_process_id`, `_forked_with_runtime` and `_interpreter_finalizing` -/
structure ProcessFlags where
  processId : ℕ
  forkedWithRuntime : Bool := false
  interpreterFinalizing : Bool := false
  deriving DecidableEq, Repr

namespace ProcessFlags

variable (flags : ProcessFlags) (getpid : ℕ)

/-- Source: `_runtime.py`, `_process_is_current` -/
def processIsCurrent : Bool :=
  getpid = flags.processId && !flags.forkedWithRuntime && !flags.interpreterFinalizing

/-- Source: `_runtime.py`, `_check_process` -/
def checkProcess : Option Raised :=
  if flags.processIsCurrent getpid then none
  else if flags.interpreterFinalizing then
    some (.sdk (newError .unsupported none "interpreter_finalizing"
      (some "TiRTC cannot be used while the Python interpreter is finalizing")))
  else
    some (.sdk (newError .unsupported none "forked_process"
      (some "create the TiRTC Client inside the worker process after fork")))

/-- What the hook does to the flags in a child whose parent had active leases, or not.
Source: `_runtime.py`, `_after_fork_child` -/
def afterForkChild (activeLeases : Bool) : ProcessFlags :=
  { flags with forkedWithRuntime := activeLeases, processId := getpid }

/-- Source: `_runtime.py`, `_mark_finalizing` -/
def markFinalizing : ProcessFlags := { flags with interpreterFinalizing := true }

/-- The check passes exactly in a current process. -/
theorem checkProcess_eq_none : flags.checkProcess getpid = none ↔
    flags.processIsCurrent getpid = true := by
  unfold checkProcess
  split
  · next h => simp [h]
  · next h => split <;> simp [h]

end ProcessFlags

end Tirtc
