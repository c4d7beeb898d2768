import Mathlib.Data.List.Basic
import Mathlib.Logic.Function.Basic
import Tirtc.Lib.Search
import Tirtc.Lifecycle

/-!
# The object trees, and whose callback runs

An RTC Client has Connections; a Cloud Client has CloudStorages, which have Replays and ExportTasks.
Outputs are bound to a Connection or a Replay, and RawDumps belong to one. A child keeps its parent
in an attribute, and the guards of the blocking calls follow these attributes up from the owner of
the running callback.

* `SdkObject`, `MediaSource`: the objects.
* `Ownership`, `World`: the attributes that never change, and everything that the calls change. A
  set of children holds objects of that parent only.
* `clientOf`, `parentOf`, `boundOf`: the attributes, as `getattr` reads them.
* `rtcCallbackClient`, `callbackDescendsFrom`: the two walks, as in the source.
* `callbackDescendsFrom_eq_true`: the second walk decides whether a path of attributes leads up to
  the target.
-/

set_option autoImplicit false

namespace Tirtc.Callbacks

/-! ## The objects -/

/-- The SDK objects of both families; `I` names them. An `output` is one of any of the four Output
classes. -/
inductive SdkObject (I : Type)
  | client (k : I)
  | connection (c : I)
  | cloudClient (k : I)
  | cloudStorage (m : I)
  | replay (r : I)
  | exportTask (e : I)
  | output (o : I)
  | rawDump (d : I)
  deriving DecidableEq

/-- What an Output is bound to and a RawDump is started on. -/
inductive MediaSource (I : Type)
  | connection (c : I)
  | replay (r : I)
  deriving DecidableEq

/-- The object itself. -/
def MediaSource.object {I : Type} : MediaSource I → SdkObject I
  | .connection c => .connection c
  | .replay r => .replay r

/-- The attributes that an object gets when it is made.
Source: `_core.py`, `Connection._create`; `storage/__init__.py`, `CloudStorage._prepare`,
`Replay._prepare` and `ExportTask._prepare` -/
structure Ownership (I : Type) where
  client : I → I
  cloudClient : I → I
  replayParent : I → I
  exportParent : I → I

/-- What the calls do to the outside: the wait of `barrier` or of `_dispatcher.close()`, the wait
for a close that another thread performs, and the native calls. -/
inductive Effect
  | wait | joined | detach | close | disconnect | cancelConnect | stopRecordings | dumpStop
  | replayStop | cancelRequests | exportEnd | exportReport | exportStop | exportCancel
  | deleteFile | leaseClose
  deriving DecidableEq

/-- The fields of the objects that the blocking calls read or write, and what they have done to the
outside so far. The sets are lists in the order of iteration; `live` says that the state of a
Connection is CONNECTING or CONNECTED, and `connecting` that it has an active attempt. -/
structure World {I : Type} (T : Ownership I) where
  close : SdkObject I → CloseCoordinator := fun _ => {}
  connections : (k : I) → List {c : I // T.client c = k} := fun _ => []
  clouds : (k : I) → List {m : I // T.cloudClient m = k} := fun _ => []
  replays : (m : I) → List {r : I // T.replayParent r = m} := fun _ => []
  exports : (m : I) → List {e : I // T.exportParent e = m} := fun _ => []
  outputs : MediaSource I → List I := fun _ => []
  dumps : MediaSource I → List I := fun _ => []
  bound : I → Option (MediaSource I) := fun _ => none
  detaching : I → Bool := fun _ => false
  nativeDetached : I → Bool := fun _ => false
  dumpParent : I → Option (MediaSource I) := fun _ => none
  dumpClosed : I → Bool := fun _ => false
  archived : I → Bool := fun _ => false
  connecting : I → Bool := fun _ => false
  live : I → Bool := fun _ => false
  disconnectFinished : I → Bool := fun _ => false
  nativeStopped : I → Bool := fun _ => false
  terminal : I → Bool := fun _ => false
  reported : I → Bool := fun _ => false
  error : I → Option PyError := fun _ => none
  trace : List (Effect × SdkObject I) := []

/-! ## The attributes -/

section Attributes

variable {I : Type} {T : Ownership I} (s : World T)

/-- `getattr(x, "_client", None)` -/
def clientOf (T : Ownership I) : SdkObject I → Option (SdkObject I)
  | .connection c => some (.client (T.client c))
  | .cloudStorage m => some (.cloudClient (T.cloudClient m))
  | _ => none

/-- `getattr(x, "_parent", None)` -/
def World.parentOf : SdkObject I → Option (SdkObject I)
  | .replay r => some (.cloudStorage (T.replayParent r))
  | .exportTask e => some (.cloudStorage (T.exportParent e))
  | .rawDump d => (s.dumpParent d).map MediaSource.object
  | _ => none

/-- `getattr(x, "_bound", None)` -/
def World.boundOf : SdkObject I → Option (MediaSource I)
  | .output o => s.bound o
  | _ => none

/-- `isinstance(x, Client)`, for the RTC Client. -/
def asClient : SdkObject I → Option I
  | .client k => some k
  | _ => none

/-- A bound on what the walks find behind an object. -/
def SdkObject.height : SdkObject I → ℕ
  | .client _ | .cloudClient _ => 4
  | .connection _ | .cloudStorage _ => 8
  | .replay _ | .exportTask _ => 12
  | .output _ | .rawDump _ => 16

theorem height_object_lt (p : MediaSource I) : p.object.height < 16 := by
  cases p <;> simp [MediaSource.object, SdkObject.height]

/-- `getattr(x, "_parent", None) or getattr(x, "_bound", None)` goes up. -/
theorem height_parentOf {x y : SdkObject I}
    (h : (s.parentOf x).or ((s.boundOf x).map MediaSource.object) = some y) :
    y.height < x.height := by
  cases x with
  | replay r =>
      cases h
      simp [SdkObject.height]
  | exportTask e =>
      cases h
      simp [SdkObject.height]
  | rawDump d =>
      simp only [World.parentOf, World.boundOf, Option.map_none, Option.or_none] at h
      obtain ⟨p, -, rfl⟩ := Option.map_eq_some_iff.mp h
      exact height_object_lt p
  | output o =>
      simp only [World.parentOf, World.boundOf, Option.none_or] at h
      obtain ⟨p, -, rfl⟩ := Option.map_eq_some_iff.mp h
      exact height_object_lt p
  | _ => cases h

end Attributes

/-! ## The two walks -/

section Walks

variable {I : Type} [DecidableEq I] {T : Ownership I} (s : World T)

/-- The loop of `_rtc_callback_client`, with the objects that it has seen.
Source: `_core.py`, `_rtc_callback_client` -/
def World.rtcWalk (seen : List (SdkObject I)) : Option (SdkObject I) → Option I
  | none => none
  | some x =>
      if x ∈ seen then none
      else match asClient x, (clientOf T x).bind asClient with
        | some k, _ => some k
        | none, some k => some k
        | none, none =>
            match h : (s.parentOf x).or ((s.boundOf x).map MediaSource.object) with
            | none => none
            | some y =>
                have := height_parentOf s h
                World.rtcWalk (x :: seen) (some y)
termination_by owner => (owner.map SdkObject.height).getD 0

/-- Source: `_core.py`, `_rtc_callback_client` -/
def World.rtcCallbackClient (owner : Option (SdkObject I)) : Option I := s.rtcWalk [] owner

/-- The attributes that `_callback_descends_from` pushes, the last one first: none of these objects
has a `_replay`.
Source: `storage/__init__.py`, `_callback_descends_from` -/
def World.attributes : Search.Graph (SdkObject I) where
  next x := [(s.boundOf x).map MediaSource.object, none, s.parentOf x, clientOf T x]
  weight := SdkObject.height
  next_le x := by
    have hsource : ∀ p : Option (MediaSource I),
        Search.cost SdkObject.height (p.map MediaSource.object) ≤ 13 := by
      rintro (_ | ⟨c⟩ | ⟨r⟩) <;> simp [Search.cost, MediaSource.object, SdkObject.height]
    cases x with
    | output o =>
        have h := hsource (s.bound o)
        simp only [Search.total_cons, Search.total_nil, World.boundOf, World.parentOf, clientOf,
          Search.cost, SdkObject.height] at h ⊢
        omega
    | rawDump d =>
        have h := hsource (s.dumpParent d)
        simp only [Search.total_cons, Search.total_nil, World.boundOf, World.parentOf, clientOf,
          Search.cost, SdkObject.height, Option.map_none] at h ⊢
        omega
    | _ =>
        simp [World.boundOf, World.parentOf, clientOf, Search.cost, SdkObject.height]

/-- Source: `storage/__init__.py`, `_callback_descends_from` -/
def World.callbackDescendsFrom (owner : Option (SdkObject I)) (target : SdkObject I) : Bool :=
  Search.search s.attributes target [owner] []

variable {s}

/-- **The walk decides whether the attributes lead from the owner up to the target.** -/
theorem callbackDescendsFrom_eq_true {x target : SdkObject I} :
    s.callbackDescendsFrom (some x) target = true ↔
      Relation.ReflTransGen s.attributes.Edge x target :=
  Search.search_eq_true

end Walks

end Tirtc.Callbacks
