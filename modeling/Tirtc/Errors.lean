import Mathlib.Data.Int.Notation
import Mathlib.Data.Nat.Notation

/-!
# The error values of the SDK

The exception classes of `_errors.py`, the table from native codes to classes, and the
constructors the other modules raise with. The text of a native code comes from the Runtime
(`_native.error_name`), which is not part of the repository: `errorName` is a parameter.

An exception that is not a `TiRTCError` (a `ValueError`, a `MemoryError`) is known by its
identity only: `_copy_error` passes it on as the same object.
-/

namespace Tirtc

/-- The exception classes.
Source: `_errors.py`, the classes under `TiRTCError` -/
inductive ErrorType
  | tirtcError | invalidArgument | notInitialized | alreadyInitialized | inUse | notStarted
  | notConnected | notBound | notConfigured | closed | authentication | operationTimeout
  | remoteClosed | tokenExpired | permissionDenied | resourceExhausted | unsupported
  | unsupportedFormat | io | noFrame | noRecordableMedia | recordingOverrun | logExport
  | logUpload | cancelled | rangeTooLarge | recordingUnreadable | recordingNotFound
  | recordingDownloadFailed | unavailable | stopped | networkUnavailable
  | endpointDNSResolutionFailed
  deriving DecidableEq, Repr

/-- The class of a native code; a code that is not listed has the base class.
Source: `_errors.py`, `_ERROR_TYPES` -/
def errorTypes : ℤ → ErrorType
  | 6000 => .invalidArgument
  | 6001 => .notInitialized
  | 6008 => .authentication
  | 6009 => .operationTimeout
  | 6012 => .remoteClosed
  | 6014 => .tokenExpired
  | 6022 => .alreadyInitialized
  | 6024 => .permissionDenied
  | 6026 => .inUse
  | 6027 => .notStarted
  | 6028 => .notConnected
  | 6029 => .notBound
  | 6030 => .notConfigured
  | 6032 => .invalidArgument
  | 6043 => .resourceExhausted
  | 6044 => .io
  | 6045 => .io
  | 6046 => .io
  | 6048 => .logExport
  | 6049 => .logUpload
  | 6073 => .logExport
  | 6107 => .unsupported
  | 6111 => .permissionDenied
  | 6112 => .resourceExhausted
  | 6113 => .unsupportedFormat
  | 6114 => .io
  | 6115 => .cancelled
  | 6117 => .rangeTooLarge
  | 6118 => .noFrame
  | 6119 => .noRecordableMedia
  | 6120 => .recordingOverrun
  | 6121 => .io
  | 6122 => .recordingUnreadable
  | 6123 => .unavailable
  | 6124 => .stopped
  | 6125 => .logExport
  | 6127 => .logUpload
  | 6128 => .logUpload
  | 6129 => .logUpload
  | 6130 => .operationTimeout
  | 6131 => .logUpload
  | 6132 => .logUpload
  | 6133 => .logUpload
  | 6134 => .recordingNotFound
  | 6135 => .recordingDownloadFailed
  | 6136 => .networkUnavailable
  | 6137 => .endpointDNSResolutionFailed
  | _ => .tirtcError

/-- A `TiRTCError`: its class, `str(error)`, `error.code` and `error.name`.
Source: `_errors.py`, `TiRTCError` -/
structure TiRTCError where
  type : ErrorType
  message : String
  code : Option ℤ
  name : String
  deriving DecidableEq, Repr

/-- A Python exception: a `TiRTCError`, or any other exception object. -/
inductive PyError
  | tirtc (error : TiRTCError)
  | other (ref : ℕ)
  deriving DecidableEq, Repr

/-- Source: `_errors.py`, `_new_error` -/
def newError (type : ErrorType) (code : Option ℤ) (name : String)
    (message : Option String := none) : PyError :=
  let detail := match message with
    | some text => if text.isEmpty then name else text
    | none => name
  let detail := match code with
    | some c => detail ++ " (" ++ toString c ++ ")"
    | none => detail
  .tirtc ⟨type, detail, code, name⟩

/-- Source: `_errors.py`, `_error_from_code` -/
def errorFromCode (code : ℤ) (name : String) : PyError :=
  newError (errorTypes code) (some code) name

/-- Source: `_errors.py`, `_closed_error` -/
def closedError : PyError := newError .closed none "closed"

/-- Source: `_errors.py`, `_in_use_error` -/
def inUseError : PyError := newError .inUse (some 6026) "in_use"

/-- Source: `_errors.py`, `_timeout_error` -/
def timeoutError : PyError := newError .operationTimeout none "operation_timeout"

/-- The `AssertionError` of `assert result is not None`. -/
def assertionError : PyError := .other 0

/-- The `OverflowError` of `timedelta` for a duration that it does not have. -/
def overflowError : PyError := .other 1

/-- The exception of a value of the Runtime that has no meaning. -/
def decodingError : PyError := .other 2

/-- A `TiRTCError` is rebuilt from its class, text, code and name; another exception is
returned as it is.
Source: `_lifecycle.py`, `_copy_error` -/
def copyError : PyError → PyError
  | .tirtc error => .tirtc ⟨error.type, error.message, error.code, error.name⟩
  | .other ref => .other ref

/-- A copied error carries the class, the text, the code and the name of the original. -/
@[simp] theorem copyError_eq (error : PyError) : copyError error = error := by
  cases error <;> rfl

/-- What a native call gives back: its result code, or the exception the wrapper raised. -/
inductive NativeResult
  | code (code : ℤ)
  | raised (error : PyError)
  deriving DecidableEq, Repr

/-- The exception, if any, of `_check_code(function(...))`.
Source: `_util.py`, `_check_code` -/
def NativeResult.check (errorName : ℤ → String) : NativeResult → Option PyError
  | .code c => if c = 0 then none else some (errorFromCode c (errorName c))
  | .raised error => some error

/-- The exception, if any, of `_retry_in_use(function, ...)`, from the result of the last try:
the loop leaves with code 6026 only when its time is over.
Source: `_util.py`, `_retry_in_use` and `_retry_in_use_result` -/
def NativeResult.retryInUse (errorName : ℤ → String) : NativeResult → Option PyError
  | .code c => if c = 6026 then some timeoutError else NativeResult.check errorName (.code c)
  | .raised error => some error

/-- A call without exception returned code 0. -/
theorem NativeResult.check_eq_none {errorName : ℤ → String} {r : NativeResult} :
    r.check errorName = none ↔ r = .code 0 := by
  cases r with
  | code c => by_cases h : c = 0 <;> simp [NativeResult.check, h]
  | raised e => simp [NativeResult.check]

/-- A retried call without exception returned code 0 in the end. -/
theorem NativeResult.retryInUse_eq_none {errorName : ℤ → String} {r : NativeResult} :
    r.retryInUse errorName = none ↔ r = .code 0 := by
  cases r with
  | code c =>
      by_cases h : c = 6026
      · simp [NativeResult.retryInUse, h]
      · simp [NativeResult.retryInUse, h, NativeResult.check_eq_none]
  | raised e => simp [NativeResult.retryInUse]

end Tirtc
