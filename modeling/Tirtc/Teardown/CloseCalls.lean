import Mathlib.Logic.Relation
import Tirtc.Teardown.Frames

/-!
# The close of a Connection or a Replay, from beginning to end

What one call of `close()` does when the other threads wait: the calls as functions of the objects
and of what the Runtime answers.

* `Answers`: what the Runtime answers during one call.
* `stopTask` to `closeReplay`: the calls, as in the source.
* `Touches`, `TouchesAll`: what a call leaves alone.
* `close_runs`: the calls are runs of a thread of `teardown`, by a lemma for each of them.
-/

set_option autoImplicit false

namespace Tirtc.Teardown

/-! ### The calls -/

/-- What the Runtime answers during one call: the last try of each native stop, with the duration of
the file, and of each native destroy, what the deletion of the file of a task raises, what the parts
of a teardown raise before and behind the children, and what a thread that already tears a child
down reports to the call. -/
structure Answers where
  stop : ℕ → NativeResult
  durationMs : ℕ → ℤ
  destroy : ℕ → NativeResult
  delete : ℕ → Option PyError
  before : ℕ → Option PyError
  after : ℕ → Option PyError
  joined : ℕ → Option PyError

variable (errorName : ℤ → String) (a : Answers)

/-- The part of `stop()` up to the native destroy; on the right what it raises.
Source: `_core.py`, `RecordingTask.stop`; `storage/__init__.py`, `RecordingTask.stop` -/
def stopNative (s : Tree) (x : ℕ) : Tree × Option PyError :=
  if (s.node x).stopped then (s, none)
  else
    match retryInUseResult (a.stop x) with
    | .error e => (s, some e)
    | .ok code =>
        (s.modify x fun n => (n.ends errorName code (a.durationMs x)).1,
          ((s.node x).ends errorName code (a.durationMs x)).2)

/-- The teardown of a RecordingTask by the thread that performs it.
Source: `_core.py`, `RecordingTask.stop`; `storage/__init__.py`, `RecordingTask.stop` -/
def performTask (s : Tree) (x g : ℕ) : Tree × Option PyError :=
  match stopNative errorName a s x with
  | (s, some e) => (s.setClose x ((s.node x).close.fail g e), some e)
  | (s, none) =>
      match (a.destroy x).retryInUse errorName with
      | some e => (s.setClose x ((s.node x).close.fail g e), some e)
      | none =>
          let s := (s.modify x fun n => { n with destroyed := true }).finish x
          let n := s.node x
          (s.setClose x (n.close.succeed g n.error), n.result)

/-- Source: `_core.py`, `RecordingTask.stop`; `storage/__init__.py`, `RecordingTask.stop` -/
def stopTask (s : Tree) (x : ℕ) : Tree × Option PyError :=
  let n := s.node x
  match n.close.begin.1 with
  | .join _ => (s, (a.joined x).map copyError)
  | .none => (s, n.result)
  | .inUse => (s, some inUseError)
  | .perform g => performTask errorName a (s.setClose x n.close.begin.2) x g

/-- `result = task.stop()` and `result.delete()`, one task after the other.
Source: `_core.py`, `Connection._close_connection`; `storage/__init__.py`, `Replay._close_replay` -/
def stopTasks : List ℕ → Tree → Tree × Option PyError
  | [], s => (s, none)
  | t :: tasks, s =>
      match stopTask errorName a s t with
      | (s, some e) => (s, some e)
      | (s, none) =>
          match a.delete t with
          | some e => (s, some e)
          | none => stopTasks tasks s

/-- Source: `_raw_dump.py`, `RawDump.close` -/
def closeDump (s : Tree) (x : ℕ) : Tree × Option PyError :=
  if (s.node x).closed then (s, none)
  else
    let stopError := if (s.node x).stopped then none else (a.stop x).check errorName
    let s := if stopError = none then s.modify x fun n => { n with stopped := true } else s
    match (a.destroy x).retryInUse errorName with
    | some e => (s, some e)
    | none =>
        ((s.modify x fun n => { n with destroyed := true, closed := true }).finish x, stopError)

/-- The RawDumps are closed one after the other; what one raises that is closed is kept.
Source: `_core.py`, `Connection._close_connection`; `storage/__init__.py`, `Replay._close_replay` -/
def closeDumps : List ℕ → Option PyError → Tree → Tree × Except PyError (Option PyError)
  | [], kept, s => (s, .ok kept)
  | d :: dumps, kept, s =>
      match closeDump errorName a s d with
      | (s, none) => closeDumps dumps kept s
      | (s, some e) =>
          if (s.node d).closed then closeDumps dumps (kept <|> some e) s else (s, .error e)

/-- The `try` block of the close of a Connection or a Replay up to its native destroy, with the part
`before` that only a Connection has.
Source: `_core.py`, `Connection._close_connection`; `storage/__init__.py`, `Replay._close_replay` -/
def closeBody (before : Option PyError) (dumps tasks : List ℕ) (s : Tree) (x : ℕ) :
    Tree × Except PyError (Option PyError) :=
  match before with
  | some e => (s, .error e)
  | none =>
      match closeDumps errorName a dumps none s with
      | (s, .error e) => (s, .error e)
      | (s, .ok kept) =>
          match stopTasks errorName a tasks s with
          | (s, some e) => (s, .error e)
          | (s, none) =>
              match a.after x with
              | some e => (s, .error e)
              | none =>
                  match (a.destroy x).retryInUse errorName with
                  | some e => (s, .error e)
                  | none => (s.modify x fun n => { n with destroyed := true }, .ok kept)

/-- A call that performs generation `g` of the close of a Connection.
Source: `_core.py`, `Connection._close_connection` -/
def performConnection (dumps tasks : List ℕ) (s : Tree) (x g : ℕ) : Tree × Option PyError :=
  match closeBody errorName a (a.before x) dumps tasks s x with
  | (s, .error e) => (s.setClose x ((s.node x).close.fail g e), some e)
  | (s, .ok kept) => ((s.setClose x ((s.node x).close.succeed g kept)).finish x, kept)

/-- A call that performs generation `g` of the close of a Replay.
Source: `storage/__init__.py`, `Replay._close_replay` -/
def performReplay (dumps tasks : List ℕ) (s : Tree) (x g : ℕ) : Tree × Option PyError :=
  match closeBody errorName a none dumps tasks s x with
  | (s, .error e) => (s.setClose x ((s.node x).close.fail g e), some e)
  | (s, .ok kept) =>
      let s := s.finish x
      (s.setClose x ((s.node x).close.succeed g kept), kept)

/-- The first section of a close, with the snapshot `order` of the children.
Source: `_core.py`, `Connection._close_connection`; `storage/__init__.py`, `Replay._close_replay` -/
def closeWith (perform : List ℕ → List ℕ → Tree → ℕ → ℕ → Tree × Option PyError)
    (order : List ℕ) (s : Tree) (x : ℕ) : Tree × Option PyError :=
  let n := s.node x
  match n.close.begin.1 with
  | .join _ => (s, (a.joined x).map copyError)
  | .none => (s, none)
  | .inUse => (s, some inUseError)
  | .perform g =>
      perform (s.ofKind order .rawDump) (s.ofKind order .recordingTask)
        (s.setClose x n.close.begin.2) x g

/-- Source: `_core.py`, `Connection._close_connection` -/
def closeConnection : List ℕ → Tree → ℕ → Tree × Option PyError :=
  closeWith a (performConnection errorName a)

/-- Source: `storage/__init__.py`, `Replay._close_replay` -/
def closeReplay : List ℕ → Tree → ℕ → Tree × Option PyError :=
  closeWith a (performReplay errorName a)

/-! ### What a call leaves alone -/

variable {s s' r : Tree} {x t u g : ℕ}

/-- Of the objects but `t`, only sets of children change. -/
def Touches (t : ℕ) (s s' : Tree) : Prop :=
  ∀ u, u ≠ t → ∃ children, s'.node u = { s.node u with children := children }

theorem Touches.refl (t : ℕ) (s : Tree) : Touches t s s := fun u _ => ⟨(s.node u).children, rfl⟩

theorem Touches.trans (h : Touches t s r) (h' : Touches t r s') : Touches t s s' := by
  intro u hu
  obtain ⟨children, hr⟩ := h u hu
  obtain ⟨children', hs'⟩ := h' u hu
  exact ⟨children', by rw [hs', hr]⟩

theorem touches_modify (s : Tree) (t : ℕ) (f : Node → Node) : Touches t s (s.modify t f) := by
  intro u hu
  exact ⟨(s.node u).children, by simp [hu]⟩

theorem touches_setClose (s : Tree) (t : ℕ) (close : CloseCoordinator) :
    Touches t s (s.setClose t close) := touches_modify s t _

/-- Leaving the set of its parent is no matter of the object itself. -/
theorem finish_node (s : Tree) (x u : ℕ) :
    ∃ children, (s.finish x).node u = { s.node u with children := children } := by
  unfold Tree.finish
  split
  next p hp =>
    by_cases hu : u = p
    · subst hu
      exact ⟨_, by simp; rfl⟩
    · exact ⟨(s.node u).children, by simp [hu]⟩
  next => exact ⟨_, rfl⟩

theorem touches_finish (s : Tree) (x t : ℕ) : Touches t s (s.finish x) := fun u _ =>
  finish_node s x u

/-- The same for all objects but those of `l`. -/
def TouchesAll (l : List ℕ) (s s' : Tree) : Prop :=
  ∀ u, u ∉ l → ∃ children, s'.node u = { s.node u with children := children }

theorem TouchesAll.refl (l : List ℕ) (s : Tree) : TouchesAll l s s := fun u _ =>
  ⟨(s.node u).children, rfl⟩

theorem Touches.cons {l : List ℕ} (h : Touches t s r) (h' : TouchesAll l r s') :
    TouchesAll (t :: l) s s' := by
  intro u hu
  rw [List.mem_cons, not_or] at hu
  obtain ⟨children, hr⟩ := h u hu.1
  obtain ⟨children', hs'⟩ := h' u hu.2
  exact ⟨children', by rw [hs', hr]⟩

theorem stopNative_touches (s : Tree) (x : ℕ) : Touches x s (stopNative errorName a s x).1 := by
  unfold stopNative
  split
  · exact .refl x s
  · split
    · exact .refl x s
    next code _ => exact touches_modify s x fun n => (n.ends errorName code (a.durationMs x)).1

theorem performTask_touches (s : Tree) (x g : ℕ) :
    Touches x s (performTask errorName a s x g).1 := by
  have hstopped := stopNative_touches errorName a s x
  unfold performTask
  generalize stopNative errorName a s x = result at hstopped
  obtain ⟨r, _ | e⟩ := result
  · have hstopped : Touches x s r := hstopped
    simp only
    split
    · exact hstopped.trans (touches_setClose r x _)
    · exact ((hstopped.trans (touches_modify r x _)).trans (touches_finish _ x x)).trans
        (touches_setClose _ x _)
  · exact hstopped.trans (touches_setClose r x _)

/-- `stop()` touches its task. -/
theorem stopTask_touches (s : Tree) (x : ℕ) : Touches x s (stopTask errorName a s x).1 := by
  unfold stopTask
  simp only
  split
  · exact .refl x s
  · exact .refl x s
  · exact .refl x s
  · exact (touches_setClose s x _).trans (performTask_touches errorName a _ x _)

/-- `RawDump.close()` touches its RawDump. -/
theorem closeDump_touches (s : Tree) (x : ℕ) : Touches x s (closeDump errorName a s x).1 := by
  unfold closeDump
  split
  · exact .refl x s
  · have hstopped : ∀ p : Prop, [Decidable p] →
        Touches x s (if p then s.modify x fun n => { n with stopped := true } else s) := by
      intro p _
      split
      · exact touches_modify s x _
      · exact .refl x s
    simp only
    split
    · exact hstopped _
    · exact ((hstopped _).trans (touches_modify _ x _)).trans (touches_finish _ x x)

/-- The tasks are no matter of the others. -/
theorem stopTasks_touches (tasks : List ℕ) :
    ∀ s : Tree, TouchesAll tasks s (stopTasks errorName a tasks s).1 := by
  induction tasks with
  | nil => exact fun s => .refl [] s
  | cons t tasks ih =>
      intro s
      have htouches := stopTask_touches errorName a s t
      generalize hresult : stopTask errorName a s t = result at htouches
      obtain ⟨r, raised⟩ := result
      cases raised with
      | some e =>
          simp only [stopTasks, hresult]
          exact htouches.cons (.refl tasks r)
      | none =>
          cases hdelete : a.delete t with
          | some e =>
              simp only [stopTasks, hresult, hdelete]
              exact htouches.cons (.refl tasks r)
          | none =>
              simp only [stopTasks, hresult, hdelete]
              exact htouches.cons (ih r)

/-- Nor are the RawDumps. -/
theorem closeDumps_touches (dumps : List ℕ) : ∀ (kept : Option PyError) (s : Tree),
    TouchesAll dumps s (closeDumps errorName a dumps kept s).1 := by
  induction dumps with
  | nil => exact fun _ s => .refl [] s
  | cons d dumps ih =>
      intro kept s
      have htouches := closeDump_touches errorName a s d
      generalize hresult : closeDump errorName a s d = result at htouches
      obtain ⟨r, raised⟩ := result
      cases raised with
      | none =>
          simp only [closeDumps, hresult]
          exact htouches.cons (ih kept r)
      | some e =>
          simp only [closeDumps, hresult]
          split
          · exact htouches.cons (ih (kept <|> some e) r)
          · exact htouches.cons (.refl dumps r)

@[simp] theorem finish_kind (s : Tree) (x u : ℕ) :
    ((s.finish x).node u).kind = (s.node u).kind := by
  obtain ⟨children, h⟩ := finish_node s x u
  rw [h]

@[simp] theorem finish_close (s : Tree) (x u : ℕ) :
    ((s.finish x).node u).close = (s.node u).close := by
  obtain ⟨children, h⟩ := finish_node s x u
  rw [h]

@[simp] theorem finish_error (s : Tree) (x u : ℕ) :
    ((s.finish x).node u).error = (s.node u).error := by
  obtain ⟨children, h⟩ := finish_node s x u
  rw [h]

@[simp] theorem finish_file (s : Tree) (x u : ℕ) :
    ((s.finish x).node u).file = (s.node u).file := by
  obtain ⟨children, h⟩ := finish_node s x u
  rw [h]

@[simp] theorem finish_closed (s : Tree) (x u : ℕ) :
    ((s.finish x).node u).closed = (s.node u).closed := by
  obtain ⟨children, h⟩ := finish_node s x u
  rw [h]

@[simp] theorem finish_destroyed (s : Tree) (x u : ℕ) :
    ((s.finish x).node u).destroyed = (s.node u).destroyed := by
  obtain ⟨children, h⟩ := finish_node s x u
  rw [h]

@[simp] theorem setClose_node (s : Tree) (x : ℕ) (close : CloseCoordinator) (u : ℕ) :
    (s.setClose x close).node u =
      if u = x then { s.node x with close := close } else s.node u :=
  s.modify_node x _ u

/-! ### The calls are runs -/

/-- The runs of one thread of `teardown`, while the others wait. -/
def Runs : Tree × Thread → Tree × Thread → Prop :=
  Relation.ReflTransGen fun p q => ∃ act, threadStep errorName p.1 p.2 act = some q

/-- A step of the innermost call. -/
theorem runs_step {raised : Option PyError} {f : Frame} {stack : List Frame} {next : Next}
    (act : Action) (h : frameStep errorName s f act = some (s', next)) :
    Runs errorName (s, ⟨raised, f :: stack⟩) (s', next.after stack) :=
  .single ⟨act, by simp [threadStep, h]⟩

variable {errorName a}

theorem Runs.trans {p q r : Tree × Thread} (h : Runs errorName p q) (h' : Runs errorName q r) :
    Runs errorName p r :=
  Relation.ReflTransGen.trans h h'

variable (errorName a)

/-- The call goes on. -/
theorem Runs.goes {raised : Option PyError} {f f' : Frame} {stack : List Frame} {q : Tree × Thread}
    (act : Action) (h : frameStep errorName s f act = some (s', .goes f'))
    (hrest : Runs errorName (s', ⟨none, f' :: stack⟩) q) :
    Runs errorName (s, ⟨raised, f :: stack⟩) q :=
  (runs_step errorName act h).trans hrest

/-- The call returns or raises. -/
theorem Runs.returns {raised result : Option PyError} {f : Frame} {stack : List Frame}
    (act : Action) (h : frameStep errorName s f act = some (s', .returns result)) :
    Runs errorName (s, ⟨raised, f :: stack⟩) (s', resume stack result) :=
  runs_step errorName act h

/-- A call that fails ends its generation. -/
theorem fail_runs (s : Tree) (x g : ℕ) (e : PyError) (raised : Option PyError)
    (stack : List Frame) :
    Runs errorName (s, ⟨raised, .fail x g e :: stack⟩)
      (s.setClose x ((s.node x).close.fail g e), resume stack (some e)) :=
  Runs.returns errorName .go rfl

/-- The teardown of a task, behind its native stop. -/
theorem destroyTask_runs (hkind : (s.node x).kind = .recordingTask) (g : ℕ)
    (raised : Option PyError) (stack : List Frame) {result : Tree × Option PyError}
    (hresult : result = match (a.destroy x).retryInUse errorName with
      | some e => (s.setClose x ((s.node x).close.fail g e), some e)
      | none =>
          let r := (s.modify x fun n => { n with destroyed := true }).finish x
          (r.setClose x ((r.node x).close.succeed g (r.node x).error), (r.node x).result)) :
    Runs errorName (s, ⟨raised, .perform x g [.destroy, .finish, .succeed] none :: stack⟩)
      (result.1, resume stack result.2) := by
  subst hresult
  cases hdestroy : (a.destroy x).retryInUse errorName with
  | some e =>
      refine Runs.goes errorName (.native (a.destroy x)) ?_ (fail_runs errorName s x g e none stack)
      simp [frameStep, performStep, destroyError, hkind, hdestroy]
  | none =>
      have hstep : frameStep errorName s (.perform x g [.destroy, .finish, .succeed] none)
          (.native (a.destroy x)) = some (s.modify x fun n => { n with destroyed := true },
            .goes (.perform x g [.finish, .succeed] none)) := by
        simp [frameStep, performStep, destroyError, hkind, hdestroy]
      refine Runs.goes errorName _ hstep (Runs.goes errorName .go rfl
        (Runs.goes errorName .go rfl (Runs.returns errorName .go ?_)))
      simp [frameStep, performStep, Node.outcome, Node.raises, Node.result, hkind]

/-- The teardown of a task. -/
theorem performTask_runs (hkind : (s.node x).kind = .recordingTask) (g : ℕ)
    (raised : Option PyError) (stack : List Frame) :
    Runs errorName
      (s, ⟨raised, .perform x g (RecordingTask.stopItems (s.node x).stopped) none :: stack⟩)
      ((performTask errorName a s x g).1, resume stack (performTask errorName a s x g).2) := by
  unfold performTask stopNative RecordingTask.stopItems
  by_cases hstopped : (s.node x).stopped = true
  · simp only [hstopped, if_true]
    exact destroyTask_runs errorName a hkind g raised stack rfl
  · simp only [hstopped, if_false, Bool.false_eq_true]
    cases hresult : retryInUseResult (a.stop x) with
    | error e =>
        refine Runs.goes errorName (.stopped (a.stop x) (a.durationMs x)) ?_
          (fail_runs errorName s x g e none stack)
        simp [frameStep, performStep, hresult]
    | ok code =>
        have hkind' : ((s.modify x fun n =>
            (n.ends errorName code (a.durationMs x)).1).node x).kind = .recordingTask := by
          obtain ⟨stopped, done, file, error, hends⟩ :=
            (s.node x).ends_eq errorName code (a.durationMs x)
          simp [hends, hkind]
        cases hraises : ((s.node x).ends errorName code (a.durationMs x)).2 with
        | none =>
            simp only [hraises]
            refine Runs.goes errorName (.stopped (a.stop x) (a.durationMs x)) ?_
              (destroyTask_runs errorName a hkind' g none stack rfl)
            simp [frameStep, performStep, hresult, hraises]
        | some e =>
            simp only [hraises]
            refine Runs.goes errorName (.stopped (a.stop x) (a.durationMs x)) ?_
              (fail_runs errorName _ x g e none stack)
            simp [frameStep, performStep, hresult, hraises]

/-- `stop()` of a task that no other thread is stopping. -/
theorem stopTask_runs (hkind : (s.node x).kind = .recordingTask)
    (hfree : (s.node x).close.status ≠ .closing) (raised : Option PyError) (stack : List Frame) :
    Runs errorName (s, ⟨raised, .enter x true :: stack⟩)
      ((stopTask errorName a s x).1, resume stack (stopTask errorName a s x).2) := by
  rcases (s.node x).close.begin_cases false with ⟨hst, hbegin⟩ | ⟨hst, hbegin⟩ | ⟨hst, hbegin⟩ |
    ⟨hst, hbegin⟩
  · exact absurd hst hfree
  · refine Runs.returns errorName (.begin (s.node x).children) ?_
    have hsame : s.setClose x (s.node x).close = s := by
      simp [Tree.setClose, Tree.modify]
    simp [frameStep, enterStep, stopTask, hbegin, hsame]
  · simp [CloseCoordinator.begin, hst] at hbegin
  · have hsame : stopTask errorName a s x = performTask errorName a
        (s.setClose x (s.node x).close.begin.2) x ((s.node x).close.generation + 1) := by
      simp [stopTask, hbegin]
    have hstep : frameStep errorName s (.enter x true) (.begin (s.node x).children) =
        some (s.setClose x (s.node x).close.begin.2, .goes (.perform x
          ((s.node x).close.generation + 1)
          (RecordingTask.stopItems ((s.setClose x (s.node x).close.begin.2).node x).stopped)
          none)) := by
      simp [frameStep, enterStep, hbegin, Tree.items, hkind]
    rw [hsame]
    exact Runs.goes errorName _ hstep (performTask_runs errorName a (by simp [hkind]) _ none stack)

/-- The call on a child. -/
theorem Runs.calls {x g c : ℕ} {onError : OnError} {items : List Item} {kept : Option PyError}
    {stack : List Frame} {q : Tree × Thread}
    (hrest : Runs errorName (s, ⟨none, s.closeFrame c ::
      .perform x g (.child c onError :: items) kept :: stack⟩) q) :
    Runs errorName (s, ⟨none, .perform x g (.child c onError :: items) kept :: stack⟩) q :=
  (runs_step errorName .go rfl).trans hrest

/-- The tasks are stopped, and their files deleted. -/
theorem stopTasks_runs (x g : ℕ) (items : List Item) (kept : Option PyError) (stack : List Frame)
    (tasks : List ℕ) : ∀ (s : Tree), tasks.Nodup →
      (∀ t ∈ tasks, (s.node t).kind = .recordingTask ∧ (s.node t).close.status ≠ .closing) →
      Runs errorName (s, ⟨none, .perform x g (stopAndDelete tasks ++ items) kept :: stack⟩)
        ((stopTasks errorName a tasks s).1,
          ⟨none, (match (stopTasks errorName a tasks s).2 with
            | some e => .fail x g e
            | none => .perform x g items kept) :: stack⟩) := by
  induction tasks with
  | nil => exact fun s _ _ => .refl
  | cons t tasks ih =>
      intro s hnodup hfree
      obtain ⟨hnew, hnodup⟩ := List.nodup_cons.mp hnodup
      obtain ⟨⟨hkind, hfreet⟩, hfree⟩ := List.forall_mem_cons.mp hfree
      have htouches := stopTask_touches errorName a s t
      have hstop := stopTask_runs errorName a hkind hfreet none
        (.perform x g (.child t .raise :: .work :: (stopAndDelete tasks ++ items)) kept :: stack)
      have hframe : s.closeFrame t = .enter t true := by simp [Tree.closeFrame, hkind]
      refine Runs.calls errorName ?_
      rw [hframe]
      apply hstop.trans
      generalize hresult : stopTask errorName a s t = result at htouches
      obtain ⟨r, raised⟩ := result
      cases raised with
      | some e =>
          simp only [stopTasks, hresult]
          exact .refl
      | none =>
          cases hdelete : a.delete t with
          | some e =>
              have hstep : frameStep errorName r
                  (.perform x g (.work :: (stopAndDelete tasks ++ items)) kept) (.raises e) =
                  some (r, .goes (.fail x g e)) := rfl
              simp only [stopTasks, hresult, hdelete]
              exact runs_step errorName _ hstep
          | none =>
              simp only [stopTasks, hresult, hdelete]
              refine Runs.goes errorName .go rfl (ih r hnodup fun u hu => ?_)
              have hne : u ≠ t := by
                rintro rfl
                exact hnew hu
              obtain ⟨children, hnode⟩ := htouches u hne
              rw [hnode]
              exact hfree u hu

/-- Two writes of one object are one. -/
theorem modify_modify (s : Tree) (x : ℕ) (f f' : Node → Node) :
    (s.modify x f).modify x f' = s.modify x fun n => f' (f n) := by
  simp [Tree.modify]

theorem modify_congr {f f' : Node → Node} (h : f (s.node x) = f' (s.node x)) :
    s.modify x f = s.modify x f' := by
  simp [Tree.modify, h]

theorem modify_self {f : Node → Node} (h : f (s.node x) = s.node x) : s.modify x f = s := by
  simp [Tree.modify, h]

/-- A RawDump is destroyed under its lock. -/
theorem destroyDump_runs (s : Tree) (x : ℕ) (stopError : Option PyError) (stack : List Frame)
    {result : Tree × Option PyError}
    (hresult : result = match (a.destroy x).retryInUse errorName with
      | some e => (s.modify x fun n => { n with locked := false }, some e)
      | none =>
          ((s.modify x fun n =>
            { n with destroyed := true, closed := true, locked := false }).finish x, stopError)) :
    Runs errorName (s, ⟨none, .dumpDestroy x stopError :: stack⟩)
      (result.1, resume stack result.2) := by
  subst hresult
  cases hdestroy : (a.destroy x).retryInUse errorName with
  | some e =>
      refine Runs.returns errorName (.native (a.destroy x)) ?_
      simp [frameStep, dumpStep, hdestroy]
  | none =>
      have hstep : frameStep errorName s (.dumpDestroy x stopError) (.native (a.destroy x)) =
          some (s.modify x fun n => { n with destroyed := true, closed := true, locked := false },
            .goes (.dumpFinish x stopError)) := by
        simp [frameStep, dumpStep, hdestroy]
      exact Runs.goes errorName _ hstep (Runs.returns errorName .go rfl)

/-- `RawDump.close()` of a RawDump that no other thread has locked. -/
theorem closeDump_runs (hfree : (s.node x).locked = false) (stack : List Frame) :
    Runs errorName (s, ⟨none, .dumpClose x :: stack⟩)
      ((closeDump errorName a s x).1, resume stack (closeDump errorName a s x).2) := by
  by_cases hclosed : (s.node x).closed = true
  · refine Runs.returns errorName .go ?_
    simp [frameStep, dumpStep, closeDump, hfree, hclosed]
  · have hlock : frameStep errorName s (.dumpClose x) .go =
        some (s.modify x fun n => { n with locked := true }, .goes (.dumpStopping x)) := by
      simp [frameStep, dumpStep, hfree, hclosed]
    refine Runs.goes errorName _ hlock ?_
    by_cases hstopped : (s.node x).stopped = true
    · have hstep : frameStep errorName (s.modify x fun n => { n with locked := true })
          (.dumpStopping x) .go =
          some (s.modify x fun n => { n with locked := true }, .goes (.dumpDestroy x none)) := by
        simp [frameStep, dumpStep, hstopped]
      refine Runs.goes errorName _ hstep (destroyDump_runs errorName a _ x none stack ?_)
      simp only [closeDump, hclosed, hstopped, if_true, if_false, Bool.false_eq_true, modify_modify]
      cases (a.destroy x).retryInUse errorName with
      | some e => exact congrArg (·, some e) (modify_congr (by simp [← hstopped, ← hfree]))
      | none =>
          refine congrArg (fun r => (Tree.finish r x, none)) (modify_congr ?_)
          simp [← hstopped, ← hfree]
    · cases hcheck : (a.stop x).check errorName with
      | none =>
          have hstep : frameStep errorName (s.modify x fun n => { n with locked := true })
              (.dumpStopping x) (.native (a.stop x)) =
              some ((s.modify x fun n => { n with locked := true }).modify x fun n =>
                { n with stopped := true }, .goes (.dumpDestroy x none)) := by
            simp [frameStep, dumpStep, hstopped, hcheck]
          refine Runs.goes errorName _ hstep (destroyDump_runs errorName a _ x none stack ?_)
          simp only [closeDump, hclosed, hstopped, hcheck, if_true, if_false, Bool.false_eq_true,
            modify_modify]
          cases (a.destroy x).retryInUse errorName with
          | some e => exact congrArg (·, some e) (modify_congr (by simp [← hfree]))
          | none =>
              refine congrArg (fun r => (Tree.finish r x, none)) (modify_congr ?_)
              simp [← hfree]
      | some e' =>
          have hstep : frameStep errorName (s.modify x fun n => { n with locked := true })
              (.dumpStopping x) (.native (a.stop x)) =
              some (s.modify x fun n => { n with locked := true },
                .goes (.dumpDestroy x (some e'))) := by
            simp [frameStep, dumpStep, hstopped, hcheck]
          refine Runs.goes errorName _ hstep (destroyDump_runs errorName a _ x (some e') stack ?_)
          simp only [closeDump, hclosed, hstopped, hcheck, if_false, Bool.false_eq_true,
            modify_modify, reduceCtorEq]
          cases (a.destroy x).retryInUse errorName with
          | some e => exact congrArg (·, some e) (modify_self (by simp [← hfree])).symm
          | none =>
              refine congrArg (fun r => (Tree.finish r x, some e')) (modify_congr ?_)
              simp [← hfree]

/-- A RawDump stays one. -/
theorem closeDump_kind (s : Tree) (x : ℕ) :
    ((closeDump errorName a s x).1.node x).kind = (s.node x).kind := by
  have hstopped : ∀ p : Prop, [Decidable p] →
      ((if p then s.modify x fun n => { n with stopped := true } else s).node x).kind =
        (s.node x).kind := by
    intro p _
    split
    · simp
    · rfl
  unfold closeDump
  split
  · rfl
  · simp only
    split
    · exact hstopped _
    · simp [hstopped]

/-- The RawDumps are closed one after the other. -/
theorem closeDumps_runs (x g : ℕ) (items : List Item) (stack : List Frame) (dumps : List ℕ) :
    ∀ (s : Tree) (kept : Option PyError), dumps.Nodup →
      (∀ d ∈ dumps, (s.node d).kind = .rawDump ∧ (s.node d).locked = false) →
      Runs errorName (s, ⟨none, .perform x g (closeKeeping dumps ++ items) kept :: stack⟩)
        ((closeDumps errorName a dumps kept s).1,
          ⟨none, (match (closeDumps errorName a dumps kept s).2 with
            | .error e => .fail x g e
            | .ok kept => .perform x g items kept) :: stack⟩) := by
  induction dumps with
  | nil => exact fun s kept _ _ => .refl
  | cons d dumps ih =>
      intro s kept hnodup hfree
      obtain ⟨hnew, hnodup⟩ := List.nodup_cons.mp hnodup
      obtain ⟨⟨hkind, hfreed⟩, hfree⟩ := List.forall_mem_cons.mp hfree
      have htouches := closeDump_touches errorName a s d
      have hkind' := (closeDump_kind errorName a s d).trans hkind
      have hclose := closeDump_runs errorName a hfreed
        (.perform x g (.child d .keep :: (closeKeeping dumps ++ items)) kept :: stack)
      have hframe : s.closeFrame d = .dumpClose d := by simp [Tree.closeFrame, hkind]
      refine Runs.calls errorName ?_
      rw [hframe]
      apply hclose.trans
      generalize hresult : closeDump errorName a s d = result at htouches hkind'
      obtain ⟨r, raised⟩ := result
      have hrest : ∀ kept', Runs errorName
          (r, ⟨none, .perform x g (closeKeeping dumps ++ items) kept' :: stack⟩) _ := fun kept' =>
        ih r kept' hnodup fun u hu => by
          have hne : u ≠ d := by
            rintro rfl
            exact hnew hu
          obtain ⟨children, hnode⟩ := htouches u hne
          rw [hnode]
          exact hfree u hu
      cases raised with
      | none =>
          simp only [closeDumps, hresult]
          exact hrest kept
      | some e =>
          have hkind' : (r.node d).kind = .rawDump := hkind'
          by_cases hclosed : (r.node d).closed = true
          · simp only [closeDumps, hresult, hclosed, if_true]
            refine Runs.goes errorName .go ?_ (hrest (kept <|> some e))
            simp [frameStep, Node.isClosed, hkind', hclosed]
          · simp only [closeDumps, hresult, hclosed, if_false, Bool.false_eq_true]
            have hstep : frameStep errorName r
                (.check x g d e (closeKeeping dumps ++ items) kept) .go =
                some (r, .goes (.fail x g e)) := by
              simp [frameStep, Node.isClosed, hkind', hclosed]
            exact runs_step errorName _ hstep

/-- A Connection or a Replay stays one. -/
theorem closeBody_kind {dumps tasks : List ℕ} (hxdumps : x ∉ dumps) (hxtasks : x ∉ tasks) :
    ((closeBody errorName a none dumps tasks s x).1.node x).kind = (s.node x).kind := by
  have hothers := closeDumps_touches errorName a dumps none s
  generalize hclose : closeDumps errorName a dumps none s = result at hothers
  obtain ⟨r, e | kept⟩ := result
  · obtain ⟨children, hnode⟩ := hothers x hxdumps
    simp only [closeBody, hclose]
    rw [hnode]
  · obtain ⟨children, hnode⟩ := hothers x hxdumps
    have hothers' := stopTasks_touches errorName a tasks r
    generalize hstop : stopTasks errorName a tasks r = result at hothers'
    obtain ⟨r', _ | e⟩ := result
    · obtain ⟨children', hnode'⟩ := hothers' x hxtasks
      have hkind : (r'.node x).kind = (s.node x).kind := by
        have hnode' : r'.node x = { r.node x with children := children' } := hnode'
        rw [hnode', hnode]
      cases hafter : a.after x with
      | some e => simpa only [closeBody, hclose, hstop, hafter] using hkind
      | none =>
          cases hdestroy : (a.destroy x).retryInUse errorName with
          | some e => simpa only [closeBody, hclose, hstop, hafter, hdestroy] using hkind
          | none => simpa [closeBody, hclose, hstop, hafter, hdestroy] using hkind
    · obtain ⟨children', hnode'⟩ := hothers' x hxtasks
      have hnode' : r'.node x = { r.node x with children := children' } := hnode'
      simp only [closeBody, hclose, hstop]
      rw [hnode', hnode]

/-- What the `try` block of the close of `x` needs. -/
structure Members (s : Tree) (x : ℕ) (dumps tasks : List ℕ) : Prop where
  parent : (s.node x).kind = .connection ∨ (s.node x).kind = .replay
  dumps : dumps.Nodup ∧ ∀ d ∈ dumps, (s.node d).kind = .rawDump ∧ (s.node d).locked = false
  tasks : tasks.Nodup ∧ ∀ t ∈ tasks, (s.node t).kind = .recordingTask ∧
    (s.node t).close.status ≠ .closing

/-- The parent is none of them. -/
theorem Members.notMember {dumps tasks : List ℕ} (h : Members s x dumps tasks) :
    x ∉ dumps ∧ x ∉ tasks := by
  have hx := h.parent
  constructor
  · intro hmem
    rw [(h.dumps.2 x hmem).1] at hx
    simp at hx
  · intro hmem
    rw [(h.tasks.2 x hmem).1] at hx
    simp at hx

/-- The `try` block of the close of a Connection or a Replay, behind its first part. -/
theorem closeBody_runs {dumps tasks : List ℕ} (h : Members s x dumps tasks) (g : ℕ)
    (items : List Item) (stack : List Frame) :
    Runs errorName (s, ⟨none, .perform x g (closeKeeping dumps ++ (stopAndDelete tasks ++
        (.work :: .destroy :: items))) none :: stack⟩)
      ((closeBody errorName a none dumps tasks s x).1,
        ⟨none, (match (closeBody errorName a none dumps tasks s x).2 with
          | .error e => .fail x g e
          | .ok kept => .perform x g items kept) :: stack⟩) := by
  obtain ⟨hxdumps, hxtasks⟩ := h.notMember
  obtain ⟨hx, hdumps, htasks⟩ := h
  have hrun := closeDumps_runs errorName a x g (stopAndDelete tasks ++ (.work :: .destroy :: items))
    stack dumps s none hdumps.1 hdumps.2
  have hothers := closeDumps_touches errorName a dumps none s
  apply hrun.trans
  generalize hclose : closeDumps errorName a dumps none s = result at hothers
  obtain ⟨r, e | kept⟩ := result
  · simp only [closeBody, hclose]
    exact .refl
  · have hothers : TouchesAll dumps s r := hothers
    have hrun := stopTasks_runs errorName a x g (.work :: .destroy :: items) kept stack tasks r
      htasks.1 fun t ht => by
        have htd : t ∉ dumps := by
          intro hd
          have hkind := (htasks.2 t ht).1
          rw [(hdumps.2 t hd).1] at hkind
          cases hkind
        obtain ⟨children, hnode⟩ := hothers t htd
        rw [hnode]
        exact htasks.2 t ht
    have hothers' := stopTasks_touches errorName a tasks r
    apply hrun.trans
    generalize hstop : stopTasks errorName a tasks r = result at hothers'
    obtain ⟨r', _ | e⟩ := result
    · cases hafter : a.after x with
      | some e =>
          have hstep : frameStep errorName r' (.perform x g (.work :: .destroy :: items) kept)
              (.raises e) = some (r', .goes (.fail x g e)) := rfl
          simp only [closeBody, hclose, hstop, hafter]
          exact runs_step errorName _ hstep
      | none =>
          refine Runs.goes errorName .go rfl ?_
          have hkind : (r'.node x).kind = (s.node x).kind := by
            obtain ⟨children, hnode⟩ := hothers x hxdumps
            obtain ⟨children', hnode'⟩ := hothers' x hxtasks
            have hnode' : r'.node x = { r.node x with children := children' } := hnode'
            rw [hnode', hnode]
          have hdestroyError : destroyError errorName (r'.node x).kind (a.destroy x) =
              (a.destroy x).retryInUse errorName := by
            rcases hx with hx | hx
            · simp [destroyError, hkind, hx]
            · simp [destroyError, hkind, hx]
          cases hdestroy : (a.destroy x).retryInUse errorName with
          | some e =>
              have hstep : frameStep errorName r' (.perform x g (.destroy :: items) kept)
                  (.native (a.destroy x)) = some (r', .goes (.fail x g e)) := by
                simp [frameStep, performStep, hdestroyError, hdestroy]
              simp only [closeBody, hclose, hstop, hafter, hdestroy]
              exact runs_step errorName _ hstep
          | none =>
              have hstep : frameStep errorName r' (.perform x g (.destroy :: items) kept)
                  (.native (a.destroy x)) = some (r'.modify x fun n => { n with destroyed := true },
                    .goes (.perform x g items kept)) := by
                simp [frameStep, performStep, hdestroyError, hdestroy]
              simp only [closeBody, hclose, hstop, hafter, hdestroy]
              exact runs_step errorName _ hstep
    · simp only [closeBody, hclose, hstop]
      exact .refl

/-- No other thread is in a call on a child of the snapshot. -/
structure Alone (s : Tree) (order : List ℕ) : Prop where
  nodup : order.Nodup
  dumps : ∀ d ∈ order, (s.node d).kind = .rawDump → (s.node d).locked = false
  tasks : ∀ t ∈ order, (s.node t).kind = .recordingTask → (s.node t).close.status ≠ .closing

/-- The members of a snapshot. -/
theorem Alone.members {order : List ℕ} (h : Alone s order)
    (hx : (s.node x).kind = .connection ∨ (s.node x).kind = .replay) (close : CloseCoordinator) :
    Members (s.setClose x close) x (s.ofKind order .rawDump) (s.ofKind order .recordingTask) := by
  refine ⟨by simpa using hx, ⟨h.nodup.filter _, ?_⟩, h.nodup.filter _, ?_⟩
  · intro d hd
    obtain ⟨hmem, hkind⟩ := List.mem_filter.mp hd
    have hkind : (s.node d).kind = .rawDump := by simpa using hkind
    have hne : d ≠ x := by
      rintro rfl
      simp [hkind] at hx
    simpa [hne, hkind] using h.dumps d hmem hkind
  · intro t ht
    obtain ⟨hmem, hkind⟩ := List.mem_filter.mp ht
    have hkind : (s.node t).kind = .recordingTask := by simpa using hkind
    have hne : t ≠ x := by
      rintro rfl
      simp [hkind] at hx
    simpa [hne, hkind] using h.tasks t hmem hkind

/-- Who closes a Connection or a Replay reports and raises what it has kept. -/
theorem outcome_kept {n : Node} (h : n.kind = .connection ∨ n.kind = .replay)
    (kept : Option PyError) : n.outcome kept = kept ∧ n.raises kept = kept := by
  rcases h with h | h
  · simp [Node.outcome, Node.raises, h]
  · simp [Node.outcome, Node.raises, h]

/-- The close of a Connection, behind its first section. -/
theorem performConnection_runs {dumps tasks : List ℕ} (h : Members s x dumps tasks) (g : ℕ)
    (stack : List Frame) :
    Runs errorName (s, ⟨none, .perform x g (Connection.closeItems dumps tasks) none :: stack⟩)
      ((performConnection errorName a dumps tasks s x g).1,
        resume stack (performConnection errorName a dumps tasks s x g).2) := by
  unfold performConnection Connection.closeItems
  cases hbefore : a.before x with
  | some e =>
      have hstep : frameStep errorName s (.perform x g (.work :: (closeKeeping dumps ++
          (stopAndDelete tasks ++ [.work, .destroy, .succeed, .finish]))) none) (.raises e) =
          some (s, .goes (.fail x g e)) := rfl
      exact Runs.goes errorName _ hstep (fail_runs errorName s x g e none stack)
  | none =>
      have hbody := closeBody_runs errorName a h g [.succeed, .finish] stack
      obtain ⟨hxdumps, hxtasks⟩ := h.notMember
      have hkind := closeBody_kind errorName a hxdumps hxtasks (s := s)
      refine Runs.goes errorName .go rfl (hbody.trans ?_)
      generalize closeBody errorName a none dumps tasks s x = result at hkind
      obtain ⟨r, e | kept⟩ := result
      · exact fail_runs errorName r x g e none stack
      · have hr : (r.node x).kind = .connection ∨ (r.node x).kind = .replay := hkind ▸ h.parent
        refine Runs.goes errorName .go rfl (Runs.goes errorName .go rfl
          (Runs.returns errorName .go ?_))
        simp [frameStep, performStep, outcome_kept, hr]

/-- The close of a Replay, behind its first section. -/
theorem performReplay_runs {dumps tasks : List ℕ} (h : Members s x dumps tasks) (g : ℕ)
    (stack : List Frame) :
    Runs errorName (s, ⟨none, .perform x g (Replay.closeItems dumps tasks) none :: stack⟩)
      ((performReplay errorName a dumps tasks s x g).1,
        resume stack (performReplay errorName a dumps tasks s x g).2) := by
  unfold performReplay Replay.closeItems
  have hbody := closeBody_runs errorName a h g [.finish, .succeed] stack
  obtain ⟨hxdumps, hxtasks⟩ := h.notMember
  have hkind := closeBody_kind errorName a hxdumps hxtasks (s := s)
  apply hbody.trans
  generalize closeBody errorName a none dumps tasks s x = result at hkind
  obtain ⟨r, e | kept⟩ := result
  · exact fail_runs errorName r x g e none stack
  · have hr : (r.node x).kind = .connection ∨ (r.node x).kind = .replay := hkind ▸ h.parent
    refine Runs.goes errorName .go rfl (Runs.goes errorName .go rfl
      (Runs.returns errorName .go ?_))
    simp [frameStep, performStep, outcome_kept, hr]

/-- **The close of a Connection or a Replay is a run** of the thread that calls it.
Source: `_core.py`, `Connection._close_connection`; `storage/__init__.py`, `Replay._close_replay` -/
theorem close_runs {order : List ℕ} (horder : order.Perm (s.node x).children)
    (halone : Alone s order)
    (hopen : (s.node x).close.status = .open ∨ (s.node x).close.status = .closeFailed)
    (stack : List Frame) :
    ((s.node x).kind = .connection → Runs errorName (s, ⟨none, .enter x false :: stack⟩)
      ((closeConnection errorName a order s x).1,
        resume stack (closeConnection errorName a order s x).2)) ∧
    ((s.node x).kind = .replay → Runs errorName (s, ⟨none, .enter x false :: stack⟩)
      ((closeReplay errorName a order s x).1,
        resume stack (closeReplay errorName a order s x).2)) := by
  have hbegin : (s.node x).close.begin.1 = .perform ((s.node x).close.generation + 1) := by
    rcases hopen with hst | hst
    · simp [CloseCoordinator.begin, hst]
    · simp [CloseCoordinator.begin, hst]
  have henter : ∀ items, s.items x false order = some items →
      frameStep errorName s (.enter x false) (.begin order) =
        some (s.setClose x (s.node x).close.begin.2,
          .goes (.perform x ((s.node x).close.generation + 1) items none)) := by
    intro items hitems
    simp only [frameStep, enterStep, horder, if_true]
    rw [hbegin]
    simp [hitems]
  constructor
  · intro hkind
    have hmembers := halone.members (.inl hkind) (s.node x).close.begin.2
    have hsame : closeConnection errorName a order s x = performConnection errorName a
        (s.ofKind order .rawDump) (s.ofKind order .recordingTask)
        (s.setClose x (s.node x).close.begin.2) x ((s.node x).close.generation + 1) := by
      simp only [closeConnection, closeWith]
      rw [hbegin]
    rw [hsame]
    exact Runs.goes errorName _ (henter _ (by simp [Tree.items, hkind]))
      (performConnection_runs errorName a hmembers _ stack)
  · intro hkind
    have hmembers := halone.members (.inr hkind) (s.node x).close.begin.2
    have hsame : closeReplay errorName a order s x = performReplay errorName a
        (s.ofKind order .rawDump) (s.ofKind order .recordingTask)
        (s.setClose x (s.node x).close.begin.2) x ((s.node x).close.generation + 1) := by
      simp only [closeReplay, closeWith]
      rw [hbegin]
    rw [hsame]
    exact Runs.goes errorName _ (henter _ (by simp [Tree.items, hkind]))
      (performReplay_runs errorName a hmembers _ stack)

end Tirtc.Teardown
