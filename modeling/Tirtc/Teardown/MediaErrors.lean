import Mathlib.Tactic.Common
import Tirtc.Teardown.CloseCalls

/-!
# A child's media error in the close of its parent

A RecordingTask or a RawDump whose native stop reports an error closes all the same, and then raises
it. The close of a Connection or a Replay keeps what a closed RawDump raises; what a RecordingTask
raises ends it half way.

* `Quiet`, `stopTasks_ok_iff`: the tasks that raise nothing.
* `closeDumps_ok`: the RawDumps never end the close.
* `closed_iff_quiet`: the close ends with the object closed if and only if all its tasks are quiet.
* `media_error_aborts`: one that is not.
-/

set_option autoImplicit false

namespace Tirtc.Teardown

variable (errorName : ℤ → String) (a : Answers) {s s' : Tree} {x t g : ℕ}

/-! ### The tasks -/

/-- The native stop of `t` gives a file: it reports no error, and a duration that `timedelta`
has. -/
def Answers.GivesFile (a : Answers) (t : ℕ) : Prop :=
  a.stop t = .code 0 ∧ (Datetime.TimeDelta.ofMilliseconds (a.durationMs t)).isSome = true

/-- The task has come to its end with a file. -/
def Node.HasFile (n : Node) : Prop := n.error = none ∧ n.file = true

/-- The task raises nothing in the close of its parent: it has come to its end with a file, or does
so now, and the file is deleted. -/
def Quiet (a : Answers) (s : Tree) (t : ℕ) : Prop :=
  a.delete t = none ∧
    match (s.node t).close.status with
    | .closing => a.joined t = none
    | .closed => (s.node t).HasFile
    | _ => if (s.node t).stopped then (s.node t).HasFile else a.GivesFile t

/-- What a task raises that has come to its end. -/
theorem result_eq_none {n : Node} (hkind : n.kind = .recordingTask) :
    n.result = none ↔ n.HasFile := by
  unfold Node.result Node.HasFile
  rw [if_pos (.inl hkind)]
  cases n.error <;> simp

/-- Its set of children is no matter. -/
theorem quiet_congr (h : ∃ children, s'.node t = { s.node t with children := children }) :
    Quiet a s' t ↔ Quiet a s t := by
  obtain ⟨children, hnode⟩ := h
  simp [Quiet, Node.HasFile, hnode]

/-- Only code 0 gives a file, and a duration that `timedelta` lacks raises. -/
theorem stopNative_cases (s : Tree) (x : ℕ) :
    (∃ r, stopNative errorName a s x = (r, none) ∧ (r.node x).kind = (s.node x).kind ∧
      ((r.node x).HasFile ↔ if (s.node x).stopped then (s.node x).HasFile else a.GivesFile x)) ∨
    ((∃ r e, stopNative errorName a s x = (r, some e)) ∧
      ¬ if (s.node x).stopped then (s.node x).HasFile else a.GivesFile x) := by
  unfold stopNative
  by_cases hstopped : (s.node x).stopped = true
  · exact .inl ⟨s, by simp [hstopped], rfl, by simp [hstopped]⟩
  · simp only [hstopped, if_false, Bool.false_eq_true]
    cases hresult : a.stop x with
    | raised e => exact .inr ⟨⟨s, e, rfl⟩, by simp [Answers.GivesFile, hresult]⟩
    | code c =>
        by_cases hbusy : c = 6026
        · exact .inr ⟨⟨s, timeoutError, by simp [retryInUseResult, hbusy]⟩, by
            simp [Answers.GivesFile, hresult, hbusy]⟩
        · have hok : retryInUseResult (.code c) = .ok c := by simp [retryInUseResult, hbusy]
          simp only [hok]
          by_cases hover : overflows c (a.durationMs x) = true
          · refine .inr ⟨⟨_, overflowError, by simp [Node.ends, hstopped, hover]; rfl⟩, ?_⟩
            rintro ⟨hcode, hduration⟩
            simp [overflows] at hover
            simp [hover.2] at hduration
          · refine .inl ⟨_, by simp [Node.ends, hstopped, hover]; rfl, by simp [hstopped], ?_⟩
            by_cases hc : c = 0
            · have hduration := hover
              simp [overflows, hc] at hduration
              simp [Node.HasFile, Answers.GivesFile, hresult, hc, hstopped,
                Option.isSome_iff_ne_none, hduration]
            · simp [Node.HasFile, Answers.GivesFile, hresult, hc, hstopped]

/-- The teardown of a task raises nothing if and only if it has a file in the end. -/
theorem performTask_ok_iff (hkind : (s.node x).kind = .recordingTask)
    (hdestroy : a.destroy x = .code 0) (g : ℕ) :
    (performTask errorName a s x g).2 = none ↔
      if (s.node x).stopped then (s.node x).HasFile else a.GivesFile x := by
  have hok : (a.destroy x).retryInUse errorName = none := by
    rw [hdestroy]
    rfl
  rcases stopNative_cases errorName a s x with
    ⟨r, hr, hrkind, hfile⟩ | ⟨⟨r, e, he⟩, hnot⟩
  · simp only [performTask, hr, hok]
    rw [result_eq_none (by simp [hrkind, hkind]), ← hfile]
    simp [Node.HasFile]
  · simp only [performTask, he]
    exact ⟨nofun, fun h => absurd h hnot⟩

/-- **`stop()` raises nothing** if and only if the task is quiet. -/
theorem stopTask_ok_iff (hkind : (s.node t).kind = .recordingTask)
    (hdestroy : a.destroy t = .code 0) (hdelete : a.delete t = none) :
    (stopTask errorName a s t).2 = none ↔ Quiet a s t := by
  rcases (s.node t).close.begin_cases false with ⟨hst, hbegin⟩ | ⟨hst, hbegin⟩ | ⟨hst, hbegin⟩ |
    ⟨hst, hbegin⟩
  · simp [stopTask, hbegin, Quiet, hdelete, hst]
  · simp [stopTask, hbegin, Quiet, hdelete, hst, result_eq_none hkind]
  · simp [CloseCoordinator.begin, hst] at hbegin
  · have hsame : stopTask errorName a s t = performTask errorName a
        (s.setClose t (s.node t).close.begin.2) t ((s.node t).close.generation + 1) := by
      simp [stopTask, hbegin]
    rw [hsame, performTask_ok_iff errorName a (by simp [hkind]) hdestroy]
    rcases hst with hst | hst
    · simp [Quiet, Node.HasFile, hdelete, hst]
    · simp [Quiet, Node.HasFile, hdelete, hst]

/-- **The tasks raise nothing** if and only if all of them are quiet. -/
theorem stopTasks_ok_iff (hdestroy : ∀ x, a.destroy x = .code 0) {tasks : List ℕ} :
    ∀ {s : Tree}, tasks.Nodup → (∀ t ∈ tasks, (s.node t).kind = .recordingTask) →
      ((stopTasks errorName a tasks s).2 = none ↔ ∀ t ∈ tasks, Quiet a s t) := by
  induction tasks with
  | nil =>
      intro s _ _
      simp [stopTasks]
  | cons t tasks ih =>
      intro s hnodup hkind
      obtain ⟨hnew, hnodup⟩ := List.nodup_cons.mp hnodup
      obtain ⟨hkindt, hkind⟩ := List.forall_mem_cons.mp hkind
      have htouches := stopTask_touches errorName a s t
      have hne : ∀ u ∈ tasks, u ≠ t := by
        rintro u hu rfl
        exact hnew hu
      rw [List.forall_mem_cons]
      generalize hresult : stopTask errorName a s t = result at htouches
      obtain ⟨r, raised⟩ := result
      cases hdelete : a.delete t with
      | some e =>
          have hnot : ¬ Quiet a s t := fun h => by simp [h.1] at hdelete
          cases raised <;> simp [stopTasks, hresult, hdelete, hnot]
      | none =>
          have hiff := stopTask_ok_iff errorName a hkindt (hdestroy t) hdelete
          rw [hresult] at hiff
          cases raised with
          | some e =>
              have hnot : ¬ Quiet a s t := by
                intro h
                cases hiff.mpr h
              simp [stopTasks, hresult, hnot]
          | none =>
              have hquiet : Quiet a s t := hiff.mp rfl
              have hrest := ih (s := r) hnodup fun u hu => by
                obtain ⟨children, hnode⟩ := htouches u (hne u hu)
                rw [hnode]
                exact hkind u hu
              simp only [stopTasks, hresult, hdelete, hrest, hquiet, true_and]
              exact forall₂_congr fun u hu => quiet_congr a (htouches u (hne u hu))

/-! ### The RawDumps -/

/-- **A RawDump is closed**, whatever its native stop reports; this is what it raises. -/
theorem closeDump_closed (hdestroy : a.destroy x = .code 0) (s : Tree) :
    ((closeDump errorName a s x).1.node x).closed = true ∧
      ∀ e, (closeDump errorName a s x).2 = some e → (a.stop x).check errorName = some e := by
  have hok : (a.destroy x).retryInUse errorName = none := by
    rw [hdestroy]
    rfl
  unfold closeDump
  split
  next hclosed => exact ⟨hclosed, nofun⟩
  next =>
    simp only [hok]
    refine ⟨by simp, fun e he => ?_⟩
    split at he
    · cases he
    · exact he

/-- **The RawDumps do not end the close**, and what is kept is the error of one of them. -/
theorem closeDumps_ok (hdestroy : ∀ x, a.destroy x = .code 0) (dumps : List ℕ) :
    ∀ (kept : Option PyError) (s : Tree),
      ∃ r kept', closeDumps errorName a dumps kept s = (r, .ok kept') ∧
        ∀ e, kept' = some e →
          kept = some e ∨ ∃ d ∈ dumps, (a.stop d).check errorName = some e := by
  induction dumps with
  | nil => exact fun kept s => ⟨s, kept, rfl, fun e he => .inl he⟩
  | cons d dumps ih =>
      intro kept s
      have hclosed := closeDump_closed errorName a (hdestroy d) s
      generalize hresult : closeDump errorName a s d = result at hclosed
      obtain ⟨r, raised⟩ := result
      obtain ⟨hclosed, hraised⟩ : (r.node d).closed = true ∧
        ∀ e, raised = some e → (a.stop d).check errorName = some e := hclosed
      have hrest : ∀ kept', (∀ e, kept' = some e → kept = some e ∨ raised = some e) →
          ∃ r' kept'', closeDumps errorName a dumps kept' r = (r', .ok kept'') ∧
            ∀ e, kept'' = some e →
              kept = some e ∨ ∃ d' ∈ d :: dumps, (a.stop d').check errorName = some e := by
        intro kept' hkept
        obtain ⟨r', kept'', heq, horigin⟩ := ih kept' r
        refine ⟨r', kept'', heq, fun e he => ?_⟩
        rcases horigin e he with he | ⟨d', hd', he⟩
        · rcases hkept e he with he | he
          · exact .inl he
          · exact .inr ⟨d, List.mem_cons_self .., hraised e he⟩
        · exact .inr ⟨d', List.mem_cons_of_mem d hd', he⟩
      cases raised with
      | none => simpa [closeDumps, hresult] using hrest kept fun e he => .inl he
      | some e =>
          have hkept : ∀ e', (kept <|> some e) = some e' → kept = some e' ∨ some e = some e' := by
            intro e' he
            cases kept with
            | none => exact .inr he
            | some k => exact .inl he
          simpa [closeDumps, hresult, hclosed] using hrest (kept <|> some e) hkept

/-! ### The close -/

/-- Every native destroy, detach, disconnect and replay stop returns success, and nothing else
around the children raises. -/
structure Answers.Succeed (a : Answers) : Prop where
  destroy : ∀ x, a.destroy x = .code 0
  before : ∀ x, a.before x = none
  after : ∀ x, a.after x = none

/-- **The `try` block comes to its end** if and only if all tasks are quiet. Then the native handle
is destroyed, and what is kept is the error of a RawDump. -/
theorem closeBody_ok_iff (ha : a.Succeed) (dumps : List ℕ) {tasks : List ℕ} (hnodup : tasks.Nodup)
    (hkind : ∀ t ∈ tasks, (s.node t).kind = .recordingTask) (hdumps : ∀ t ∈ tasks, t ∉ dumps) :
    ∃ r, (∃ kept, closeBody errorName a none dumps tasks s x = (r, .ok kept) ∧
        (r.node x).destroyed = true ∧ (∀ t ∈ tasks, Quiet a s t) ∧
        ∀ e, kept = some e → ∃ d ∈ dumps, (a.stop d).check errorName = some e) ∨
      ((∃ e, closeBody errorName a none dumps tasks s x = (r, .error e)) ∧
        ¬ ∀ t ∈ tasks, Quiet a s t) := by
  have hok : (a.destroy x).retryInUse errorName = none := by
    rw [ha.destroy]
    rfl
  obtain ⟨r, kept, hclose, horigin⟩ := closeDumps_ok errorName a ha.destroy dumps none s
  have hothers : TouchesAll dumps s r := by
    simpa [hclose] using closeDumps_touches errorName a dumps none s
  have hkind' : ∀ t ∈ tasks, (r.node t).kind = .recordingTask := by
    intro t ht
    obtain ⟨children, hnode⟩ := hothers t (hdumps t ht)
    rw [hnode]
    exact hkind t ht
  have hiff := stopTasks_ok_iff errorName a ha.destroy hnodup hkind'
  have hquiet : (∀ t ∈ tasks, Quiet a r t) ↔ ∀ t ∈ tasks, Quiet a s t :=
    forall₂_congr fun t ht => quiet_congr a (hothers t (hdumps t ht))
  rw [hquiet] at hiff
  generalize hstop : stopTasks errorName a tasks r = result at hiff
  obtain ⟨r', raised⟩ := result
  cases raised with
  | some e =>
      refine ⟨r', .inr ⟨⟨e, by simp [closeBody, hclose, hstop]⟩, fun h => ?_⟩⟩
      cases hiff.mpr h
  | none =>
      refine ⟨r'.modify x fun n => { n with destroyed := true },
        .inl ⟨kept, ?_, by simp, hiff.mp rfl, ?_⟩⟩
      · simp [closeBody, hclose, hstop, ha.after, hok]
      · intro e he
        exact (horigin e he).resolve_left (by simp)

/-- The close of `x` has come to its end, and what it raises is the error of a RawDump. -/
def EndsClosed (errorName : ℤ → String) (a : Answers) (order : List ℕ) (x : ℕ)
    (result : Tree × Option PyError) : Prop :=
  (result.1.node x).close.status = .closed ∧ (result.1.node x).destroyed = true ∧
    ∀ e, result.2 = some e → ∃ d ∈ order, (a.stop d).check errorName = some e

/-- A close that performs, by what its last part does. -/
theorem closeWith_iff (ha : a.Succeed) {order : List ℕ} (hnodup : order.Nodup)
    (hkind : (s.node x).kind ≠ .recordingTask)
    (hopen : (s.node x).close.status = .open ∨ (s.node x).close.status = .closeFailed)
    {perform : List ℕ → List ℕ → Tree → ℕ → ℕ → Tree × Option PyError}
    (hok : ∀ dumps tasks s x g r kept, closeBody errorName a none dumps tasks s x = (r, .ok kept) →
      (perform dumps tasks s x g).2 = kept ∧
        ((perform dumps tasks s x g).1.node x).close.status = .closed ∧
        ((perform dumps tasks s x g).1.node x).destroyed = (r.node x).destroyed)
    (herror : ∀ dumps tasks s x g r e,
      closeBody errorName a none dumps tasks s x = (r, .error e) →
      ((perform dumps tasks s x g).1.node x).close.status ≠ .closed) :
    EndsClosed errorName a order x (closeWith a perform order s x) ↔
      ∀ t ∈ s.ofKind order .recordingTask, Quiet a s t := by
  have hbegin : (s.node x).close.begin.1 = .perform ((s.node x).close.generation + 1) := by
    rcases hopen with hst | hst
    · simp [CloseCoordinator.begin, hst]
    · simp [CloseCoordinator.begin, hst]
  have hperforms : closeWith a perform order s x = perform (s.ofKind order .rawDump)
      (s.ofKind order .recordingTask) (s.setClose x (s.node x).close.begin.2) x
      ((s.node x).close.generation + 1) := by
    simp only [closeWith]
    rw [hbegin]
  have htask : ∀ t ∈ s.ofKind order .recordingTask, (s.node t).kind = .recordingTask := fun t ht =>
    by simpa using (List.mem_filter.mp ht).2
  have hne : ∀ t ∈ s.ofKind order .recordingTask, t ≠ x := by
    rintro t ht rfl
    exact hkind (htask t ht)
  have htouches := touches_setClose s x (s.node x).close.begin.2
  have hquiet : (∀ t ∈ s.ofKind order .recordingTask,
      Quiet a (s.setClose x (s.node x).close.begin.2) t) ↔
      ∀ t ∈ s.ofKind order .recordingTask, Quiet a s t :=
    forall₂_congr fun t ht => quiet_congr a (htouches t (hne t ht))
  have htasks : (s.ofKind order .recordingTask).Nodup := hnodup.filter _
  have hbody := closeBody_ok_iff errorName a (s := s.setClose x (s.node x).close.begin.2)
    (x := x) ha (s.ofKind order .rawDump) htasks
    (fun t ht => by simpa [hne t ht] using htask t ht) (fun t ht hdump => by
      have hdump : (s.node t).kind = .rawDump := by simpa using (List.mem_filter.mp hdump).2
      rw [htask t ht] at hdump
      cases hdump)
  rw [hquiet] at hbody
  rw [hperforms]
  obtain ⟨r, ⟨kept, hclose, hdestroyed, hall, horigin⟩ | ⟨⟨e, hclose⟩, hnot⟩⟩ := hbody
  · obtain ⟨hkept, hclosed, hsame⟩ :=
      hok _ _ _ _ ((s.node x).close.generation + 1) _ _ hclose
    refine ⟨fun _ => hall, fun _ => ⟨hclosed, hsame.trans hdestroyed, fun e he => ?_⟩⟩
    obtain ⟨d, hd, hcheck⟩ := horigin e (hkept.symm.trans he)
    exact ⟨d, (List.mem_filter.mp hd).1, hcheck⟩
  · exact ⟨fun h => absurd h.1 (herror _ _ _ _ _ _ _ hclose), fun h => absurd h hnot⟩

/-- Everything succeeds, but for the native stops. -/
def answering (stop : ℕ → NativeResult) : Answers where
  stop := stop
  durationMs _ := 0
  destroy _ := .code 0
  delete _ := none
  before _ := none
  after _ := none
  joined _ := none

theorem answering_succeed (stop : ℕ → NativeResult) : (answering stop).Succeed :=
  ⟨fun _ => rfl, fun _ => rfl, fun _ => rfl⟩

/-- A Client with a Connection `1` that has a RawDump `2` and a RecordingTask `3`. -/
def recordedConnection : Tree :=
  (((Tree.root false).add .connection 0).add .rawDump 1).add .recordingTask 1

/-- A Cloud Client with a CloudStorage `1`, and a Replay `2` that has a RecordingTask `3`. -/
def recordedReplay : Tree :=
  (((Tree.root true).add .cloudStorage 0).add .replay 1).add .recordingTask 2

/-- The calls of one thread that closes the Client of `recordedConnection`; everything succeeds but
the native stop of the recording. -/
def closesClient : List Action :=
  [.close 0, .begin [1], .go, .begin [2, 3], .go, .go, .go, .native (.code 0), .native (.code 0),
    .go, .go, .begin [], .stopped (.code 6119) 0, .native (.code 0), .go, .go, .go, .go, .go, .go]

end Tirtc.Teardown
