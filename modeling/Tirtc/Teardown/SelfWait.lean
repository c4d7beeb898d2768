import Tirtc.Teardown.BlockingCalls

/-!
# No blocking call waits for the callback that makes it

The teardown of an object waits for the dispatchers of the objects below it; the guard of a call
walks up from the owner of the callback. The two meet: what is below an object is what reaches it.

* `World.Holds`, `World.Below`: the objects directly below an object, and all of them.
* `Below.path`, `rtcCallbackClient_of_below`: the two walks find every object above the owner.
* `Within`: the state is reached with waits in a given set, and with no new binding. The lemmas
  `…_within` say it for each call, and `Preserves` carries them through the code.
* `BlockingCall.WaitsFor`: the dispatchers that a call may wait for.
* `run_within`, `refused`: a call waits for those only, and is refused when the owner is among them.
* `refused_or_apart`: a call made in a callback is refused whole, or never waits for its owner.
-/

set_option autoImplicit false

namespace Tirtc.Callbacks

open Programs

variable {I : Type} {T : Ownership I}

/-! ## What is below an object -/

/-- An object, and one that is directly below it: a child, or an Output that is bound to it. -/
inductive World.Holds (s : World T) : SdkObject I → SdkObject I → Prop
  | connection {k c : I} (h : T.client c = k) : Holds s (.client k) (.connection c)
  | cloudStorage {k m : I} (h : T.cloudClient m = k) : Holds s (.cloudClient k) (.cloudStorage m)
  | replay {m r : I} (h : T.replayParent r = m) : Holds s (.cloudStorage m) (.replay r)
  | exportTask {m e : I} (h : T.exportParent e = m) : Holds s (.cloudStorage m) (.exportTask e)
  | output {o : I} {p : MediaSource I} {x : SdkObject I} (hbound : s.bound o = some p)
      (hx : p.object = x) : Holds s x (.output o)

/-- The object itself, and everything below it. -/
def World.Below (s : World T) : SdkObject I → SdkObject I → Prop := Relation.ReflTransGen s.Holds

variable {s : World T}

theorem World.Below.refl (x : SdkObject I) : s.Below x x := Relation.ReflTransGen.refl

/-- Nothing is below an Output but itself. -/
theorem World.Below.of_output {o : I} {d : SdkObject I} (h : s.Below (.output o) d) :
    d = .output o := by
  rcases h.cases_head with rfl | ⟨y, hholds, -⟩
  · rfl
  · cases hholds with
    | output hbound hx =>
        rename_i p
        cases p <;> cases hx

/-- Nothing is below an ExportTask but itself. -/
theorem World.Below.of_exportTask {e : I} {d : SdkObject I} (h : s.Below (.exportTask e) d) :
    d = .exportTask e := by
  rcases h.cases_head with rfl | ⟨y, hholds, -⟩
  · rfl
  · cases hholds with
    | output hbound hx =>
        rename_i p
        cases p <;> cases hx

theorem object_injective : Function.Injective (MediaSource.object (I := I)) := by
  intro p q h
  cases p <;> cases q <;> cases h <;> rfl

/-- Below a Connection or a Replay are the Outputs that are bound to it. -/
theorem World.Below.of_source {p : MediaSource I} {d : SdkObject I} (h : s.Below p.object d) :
    d = p.object ∨ ∃ o, s.bound o = some p ∧ d = .output o := by
  rcases h.cases_head with rfl | ⟨y, hholds, hrest⟩
  · exact .inl rfl
  · generalize hx : p.object = x at hholds
    cases hholds with
    | output hbound hq =>
        rename_i o q
        obtain rfl : q = p := object_injective (hq.trans hx.symm)
        exact .inr ⟨o, hbound, World.Below.of_output hrest⟩
    | _ => cases p <;> cases hx

/-- Below an RTC Client are its Connections, with what is below them. -/
theorem World.Below.of_client {k : I} {d : SdkObject I} (h : s.Below (.client k) d) :
    d = .client k ∨ ∃ c, T.client c = k ∧ s.Below (.connection c) d := by
  rcases h.cases_head with rfl | ⟨y, hholds, hrest⟩
  · exact .inl rfl
  · cases hholds with
    | connection hk => exact .inr ⟨_, hk, hrest⟩
    | output hbound hx =>
        rename_i p
        cases p <;> cases hx

/-! ## What is below an object reaches it -/

/-- The attributes of what is directly below lead up. -/
theorem World.Holds.edge {x y : SdkObject I} (h : s.Holds x y) : s.attributes.Edge y x := by
  cases h with
  | connection hk => simp [Search.Graph.Edge, World.attributes, clientOf, hk]
  | cloudStorage hk => simp [Search.Graph.Edge, World.attributes, clientOf, hk]
  | replay hm => simp [Search.Graph.Edge, World.attributes, World.parentOf, hm]
  | exportTask hm => simp [Search.Graph.Edge, World.attributes, World.parentOf, hm]
  | output hbound hx => simp [Search.Graph.Edge, World.attributes, World.boundOf, hbound, hx]

/-- The attributes of what is below lead up. -/
theorem World.Below.path {x d : SdkObject I} (h : s.Below x d) :
    Relation.ReflTransGen s.attributes.Edge d x := by
  induction h with
  | refl => exact .refl
  | tail _ hholds ih => exact .head hholds.edge ih

/-- **The Cloud walk finds every object above the owner.** -/
theorem callbackDescendsFrom_of_below [DecidableEq I] {x d : SdkObject I} (h : s.Below x d) :
    s.callbackDescendsFrom (some d) x = true :=
  callbackDescendsFrom_eq_true.mpr h.path

/-- **The RTC walk finds the Client above the owner.** -/
theorem rtcCallbackClient_of_below [DecidableEq I] {k : I} {d : SdkObject I}
    (h : s.Below (.client k) d) : s.rtcCallbackClient (some d) = some k := by
  unfold World.rtcCallbackClient
  rcases h.of_client with rfl | ⟨c, rfl, hbelow⟩
  · simp [World.rtcWalk, asClient]
  · have hconnection : ∀ seen, .connection c ∉ seen →
        s.rtcWalk seen (some (.connection c)) = some (T.client c) := by
      intro seen hseen
      simp [World.rtcWalk, hseen, asClient, clientOf]
    rcases World.Below.of_source (p := .connection c) hbelow with rfl | ⟨o, hbound, rfl⟩
    · exact hconnection [] List.not_mem_nil
    · rw [World.rtcWalk]
      simp only [List.not_mem_nil, if_false, asClient, clientOf, Option.bind_none]
      split
      · rename_i hnone
        simp [World.parentOf, World.boundOf, hbound] at hnone
      · rename_i y hsome
        obtain rfl : .connection c = y := by
          simpa [World.parentOf, World.boundOf, hbound, MediaSource.object] using hsome
        exact hconnection _ (by simp)

/-! ## What a call waits for -/

/-- **The state is reached from `s₀` with waits in `W` only**, and without a new binding. -/
structure Within (s₀ : World T) (W : SdkObject I → Prop) (s : World T) : Prop where
  bound : ∀ o p, s.bound o = some p → s₀.bound o = some p
  waits : ∃ ts, s.trace = s₀.trace ++ ts ∧ ∀ d, (.wait, d) ∈ ts → W d

section Within

variable [DecidableEq I] {s₀ : World T} {W : SdkObject I → Prop} {ω : Environment}
  {owner : Option (SdkObject I)}

omit [DecidableEq I] in
theorem Within.start : Within s W s where
  bound _ _ h := h
  waits := ⟨[], by simp⟩

omit [DecidableEq I] in
/-- The bindings and the trace are all that counts. -/
theorem Within.congr {s' : World T} (h : Within s₀ W s) (hbound : s'.bound = s.bound)
    (htrace : s'.trace = s.trace) : Within s₀ W s' where
  bound := hbound ▸ h.bound
  waits := htrace ▸ h.waits

omit [DecidableEq I] in
/-- An effect is noted, which may be a wait for a dispatcher in `W`. -/
theorem Within.note {e : Effect} {x : SdkObject I} (h : Within s₀ W s)
    (he : e = .wait → W x) : Within s₀ W { s with trace := s.trace ++ [(e, x)] } where
  bound := h.bound
  waits := by
    obtain ⟨ts, htrace, hts⟩ := h.waits
    refine ⟨ts ++ [(e, x)], by simp [htrace], fun d hd => ?_⟩
    rcases List.mem_append.mp hd with hd | hd
    · exact hts d hd
    · obtain ⟨rfl, rfl⟩ : Effect.wait = e ∧ d = x := by simpa using hd
      exact he rfl

/-- A binding is given up. -/
theorem Within.unbind {s' : World T} {o : I} (h : Within s₀ W s)
    (hbound : s'.bound = Function.update s.bound o none) (htrace : s'.trace = s.trace) :
    Within s₀ W s' where
  bound o' p hp := by
    rw [hbound, Function.update_apply] at hp
    split at hp
    · cases hp
    · exact h.bound o' p hp
  waits := htrace ▸ h.waits

/-! ## The shared parts -/

omit [DecidableEq I] in
theorem effect_within {e : Effect} (he : e ≠ .wait) (x : SdkObject I) :
    Preserves (Within s₀ W) (effect ω e x) := by
  refine .get fun s _ => .bind (.modify fun s h => h.note fun heq => absurd heq he) ?_
  intro _
  cases ω.raises s.trace.length with
  | none => exact .pure ()
  | some error => exact .throw error

omit [DecidableEq I] in
theorem wait_within {x : SdkObject I} (hx : W x) : Preserves (Within s₀ W) (wait x) :=
  .modify fun _ h => h.note fun _ => hx

omit [DecidableEq I] in
theorem refuseIf_within (busy : Bool) : Preserves (Within s₀ W) (refuseIf busy) := by
  cases busy with
  | true => exact .throw _
  | false => exact .pure ()

omit [DecidableEq I] in
theorem raiseKept_within (error : Option PyError) : Preserves (Within s₀ W) (raiseKept error) := by
  cases error with
  | none => exact .pure ()
  | some error => exact .throw error

theorem begin_within (x : SdkObject I) : Preserves (Within s₀ W) (begin ω x) := by
  refine .get ?_
  intro s _
  split
  · exact .bind (effect_within (by decide) x) fun _ => .pure none
  · exact .pure none
  · exact .throw inUseError
  · exact .bind (.modify fun s h => h.congr rfl rfl) fun _ => .pure _

theorem teardown_within {α : Type} {x : SdkObject I} {g : ℕ} {body : Code T α}
    (hbody : Preserves (Within s₀ W) body) : Preserves (Within s₀ W) (teardown x g body) :=
  .tryCatch hbody fun error => .bind (.modify fun _ h => h.congr rfl rfl) fun _ => .throw error

theorem succeed_within (x : SdkObject I) (g : ℕ) (error : Option PyError) :
    Preserves (Within s₀ W) (succeed (T := T) x g error) :=
  .modify fun _ h => h.congr rfl rfl

omit [DecidableEq I] in
theorem caught_within {m : Code T Unit} (hm : Preserves (Within s₀ W) m) :
    Preserves (Within s₀ W) (caught m) :=
  .tryCatch (.bind hm fun _ => .pure none) fun error => .pure (some error)

omit [DecidableEq I] in
theorem closeKeeping_within {β : Type} {close : β → Code T Unit} {closed : World T → β → Bool}
    {xs : List β} (hclose : ∀ x ∈ xs, Preserves (Within s₀ W) (close x)) (kept : Option PyError) :
    Preserves (Within s₀ W) (closeKeeping close closed xs kept) := by
  induction xs generalizing kept with
  | nil => exact .pure kept
  | cons x xs ih =>
      have hrest := ih fun y hy => hclose y (List.mem_cons_of_mem _ hy)
      refine .bind (caught_within (hclose x List.mem_cons_self)) ?_
      intro raised
      cases raised with
      | none => exact hrest kept
      | some error =>
          refine .get ?_
          intro s _
          split
          · exact hrest _
          · exact .throw error

/-! ## The Outputs and the RawDumps -/

theorem detachFrom_within {o : I} (ho : W (.output o)) (p : MediaSource I) :
    Preserves (Within s₀ W) (detachFrom (T := T) ω p o) := by
  refine .bind (effect_within (by decide) _) ?_
  intro _
  refine .bind (.modify fun _ h => h.congr rfl rfl) ?_
  intro _
  refine .bind (wait_within ho) ?_
  intro _
  refine .bind (.modify fun _ h => h.unbind rfl rfl) ?_
  intro _
  exact .modify fun _ h => h.congr rfl rfl

theorem detach_within {o : I} (ho : W (.output o)) :
    Preserves (Within s₀ W) (detach (T := T) ω owner o) := by
  refine .get ?_
  intro s _
  split
  · exact .throw _
  · exact .throw _
  · exact .bind (refuseIf_within _) fun _ => detachFrom_within ho _

/-- An Output is waited for where it is bound to the parent. -/
theorem detachFromParent_within {p : MediaSource I} {o : I}
    (ho : s₀.bound o = some p → W (.output o)) :
    Preserves (Within s₀ W) (detachFromParent ω owner p o) := by
  refine .get ?_
  intro s hs
  split
  · rename_i hbound
    exact .bind (refuseIf_within _) fun _ => detachFrom_within (ho (hs.bound o p hbound)) p
  · exact .pure ()

theorem closeOutput_within {o : I} (ho : W (.output o)) :
    Preserves (Within s₀ W) (closeOutput (T := T) ω owner o) := by
  refine .get fun s _ => .bind (refuseIf_within _) ?_
  intro _
  refine .bind (begin_within _) ?_
  intro generation
  cases generation with
  | none => exact .pure ()
  | some g =>
      have hclose : Preserves (Within s₀ W) (effect (T := T) ω .close (.output o)) :=
        effect_within (by decide) _
      refine .bind (teardown_within (.bind (wait_within ho) fun _ => .get ?_)) ?_
      · intro s' _
        refine .ite (fun _ => ?_) fun _ => hclose
        refine .bind (effect_within (by decide) _) ?_
        intro _
        exact .bind (.modify fun _ h => h.congr rfl rfl) fun _ => hclose
      · intro _
        refine .bind (.modify fun _ h => h.unbind rfl rfl) ?_
        intro _
        cases s.bound o with
        | none => exact succeed_within _ g none
        | some p =>
            exact .bind (.modify fun _ h => h.congr rfl rfl) fun _ => succeed_within _ g none

theorem stopDump_within (d : I) : Preserves (Within s₀ W) (stopDump (T := T) ω owner d) := by
  refine .get fun s _ => .bind (refuseIf_within _) ?_
  intro _
  refine .ite (fun _ => .throw _) fun _ => .ite (fun _ => .pure ()) ?_
  intro _
  exact .bind (effect_within (by decide) _) fun _ => .modify fun _ h => h.congr rfl rfl

theorem closeDump_within (d : I) : Preserves (Within s₀ W) (closeDump (T := T) ω owner d) := by
  refine .get fun s _ => .bind (refuseIf_within _) fun _ => .ite (fun _ => .pure ()) ?_
  intro _
  refine .bind (caught_within (stopDump_within d)) ?_
  intro stopError
  refine .bind (effect_within (by decide) _) ?_
  intro _
  refine .bind (.modify fun _ h => h.congr rfl rfl) ?_
  intro _
  cases s.dumpParent d with
  | none => exact raiseKept_within stopError
  | some p =>
      exact .bind (.modify fun _ h => h.congr rfl rfl) fun _ => raiseKept_within stopError

/-! ## The Connections and the RTC Client -/

theorem cancelConnect_within {c : I} (hc : W (.connection c)) :
    Preserves (Within s₀ W) (cancelConnect (T := T) ω c) := by
  have hfinish : Preserves (Within s₀ W) (do
      modify fun s : World T =>
        { s with disconnectFinished := Function.update s.disconnectFinished c true }
      wait (.connection c)
      modify fun s => { s with connecting := Function.update s.connecting c false } :
        Code T Unit) := by
    refine .bind (.modify fun _ h => h.congr rfl rfl) ?_
    intro _
    exact .bind (wait_within hc) fun _ => .modify fun _ h => h.congr rfl rfl
  refine .get fun s _ => .ite (fun _ => ?_) fun _ => .pure ()
  refine .bind (effect_within (by decide) _) fun _ => .ite (fun _ => ?_) fun _ => hfinish
  refine .bind (effect_within (by decide) _) ?_
  intro _
  exact .bind (wait_within hc) fun _ => hfinish

theorem disconnect_within {c : I} (hc : W (.connection c)) :
    Preserves (Within s₀ W) (disconnect (T := T) ω owner c) := by
  have hend : Preserves (Within s₀ W) (modify fun s : World T => { s with
      live := Function.update s.live c false
      disconnectFinished := Function.update s.disconnectFinished c true } : Code T Unit) :=
    .modify fun _ h => h.congr rfl rfl
  refine .get fun s _ => .bind (refuseIf_within _) ?_
  intro _
  split
  · exact .throw _
  · refine .bind (cancelConnect_within hc) fun _ => .ite (fun _ => ?_) fun _ => hend
    refine .bind (effect_within (by decide) _) ?_
    intro _
    exact .bind (wait_within hc) fun _ => hend

theorem closeConnection_within {c : I} (hc : ∀ d, s₀.Below (.connection c) d → W d) :
    Preserves (Within s₀ W) (closeConnection (T := T) ω owner c) := by
  have hown : W (.connection c) := hc _ (.refl _)
  have hclose : ∀ error : Option PyError, Preserves (Within s₀ W) (do
      effect ω .close (.connection c)
      pure error : Code T (Option PyError)) := fun error =>
    .bind (effect_within (by decide) _) fun _ => .pure error
  refine .get fun s _ => .bind (refuseIf_within _) ?_
  intro _
  refine .bind (begin_within _) ?_
  intro generation
  cases generation with
  | none => exact .pure ()
  | some g =>
      refine .bind (teardown_within ?_) ?_
      · refine .bind (cancelConnect_within hown) ?_
        intro _
        refine .bind (.forEach fun o _ => detachFromParent_within fun hbound => ?_) fun _ => ?_
        · exact hc _ (.single (.output hbound rfl))
        refine .bind (closeKeeping_within (fun d _ => closeDump_within d) none) ?_
        intro dumpError
        refine .bind (effect_within (by decide) _) fun _ => .bind (wait_within hown) ?_
        intro _
        refine .get fun s' _ => .ite (fun _ => ?_) fun _ => hclose dumpError
        refine .bind (effect_within (by decide) _) ?_
        intro _
        exact .bind (.modify fun _ h => h.congr rfl rfl) fun _ => hclose dumpError
      · intro dumpError
        refine .bind (.modify fun _ h => h.congr rfl rfl) ?_
        intro _
        refine .bind (succeed_within _ g dumpError) ?_
        intro _
        exact .bind (.modify fun _ h => h.congr rfl rfl) fun _ => raiseKept_within dumpError

theorem closeClient_within {k : I} (hk : ∀ d, s₀.Below (.client k) d → W d) :
    Preserves (Within s₀ W) (closeClient (T := T) ω owner k) := by
  refine .get fun s _ => .bind (refuseIf_within _) ?_
  intro _
  refine .bind (begin_within _) ?_
  intro generation
  cases generation with
  | none => exact .pure ()
  | some g =>
      refine .bind (teardown_within ?_) ?_
      · refine .bind (closeKeeping_within (fun c _ => closeConnection_within ?_) none) ?_
        · intro d hd
          exact hk d (.head (.connection c.2) hd)
        · intro childError
          exact .bind (effect_within (by decide) _) fun _ => .pure childError
      · intro childError
        exact .bind (succeed_within _ g childError) fun _ => raiseKept_within childError

/-! ## The Replays and the ExportTasks -/

theorem stopReplay_within (r : I) : Preserves (Within s₀ W) (stopReplay (T := T) ω owner r) := by
  refine .get fun s _ => .bind (refuseIf_within _) ?_
  intro _
  split
  · exact .throw _
  · exact .bind (effect_within (by decide) _) fun _ => .modify fun _ h => h.congr rfl rfl

theorem closeReplay_within {r : I} (hr : ∀ d, s₀.Below (.replay r) d → W d) :
    Preserves (Within s₀ W) (closeReplay (T := T) ω owner r) := by
  have hown : W (.replay r) := hr _ (.refl _)
  have hclose : ∀ error : Option PyError, Preserves (Within s₀ W) (do
      wait (.replay r)
      effect ω .close (.replay r)
      modify fun s => { s with
        replays := Function.update s.replays (T.replayParent r)
          ((s.replays (T.replayParent r)).erase ⟨r, rfl⟩) }
      pure error : Code T (Option PyError)) := by
    intro error
    refine .bind (wait_within hown) fun _ => .bind (effect_within (by decide) _) ?_
    intro _
    exact .bind (.modify fun _ h => h.congr rfl rfl) fun _ => .pure error
  refine .get fun s _ => .bind (refuseIf_within _) ?_
  intro _
  refine .bind (begin_within _) ?_
  intro generation
  cases generation with
  | none => exact .pure ()
  | some g =>
      refine .bind (teardown_within ?_) ?_
      · refine .bind (closeKeeping_within (fun d _ => closeDump_within d) none) ?_
        intro dumpError
        refine .bind (effect_within (by decide) _) ?_
        intro _
        refine .bind (.forEach fun o _ => detachFromParent_within fun hbound => ?_) fun _ => ?_
        · exact hr _ (.single (.output hbound rfl))
        refine .get fun s' _ => .ite (fun _ => ?_) fun _ => hclose dumpError
        refine .bind (effect_within (by decide) _) ?_
        intro _
        exact .bind (.modify fun _ h => h.congr rfl rfl) fun _ => hclose dumpError
      · intro dumpError
        exact .bind (succeed_within _ g dumpError) fun _ => raiseKept_within dumpError

omit [DecidableEq I] in
theorem resultOrError_within (e : I) : Preserves (Within s₀ W) (resultOrError (T := T) e) :=
  .get fun s _ => raiseKept_within (s.error e)

theorem releaseExport_within {e : I} (he : W (.exportTask e)) :
    Preserves (Within s₀ W) (releaseExport (T := T) ω e) := by
  have hreport : Preserves (Within s₀ W) (loadReport (T := T) ω e) := by
    refine .get fun s _ => .ite (fun _ => .pure ()) ?_
    intro _
    exact .bind (effect_within (by decide) _) fun _ => .modify fun _ h => h.congr rfl rfl
  refine .bind hreport fun _ => .bind (wait_within he) ?_
  intro _
  exact .bind (effect_within (by decide) _) fun _ => .modify fun _ h => h.congr rfl rfl

theorem finishExport_within {e : I} (he : W (.exportTask e)) :
    Preserves (Within s₀ W) (finishExport (T := T) ω e) := by
  refine .bind (begin_within _) ?_
  intro generation
  cases generation with
  | none => exact resultOrError_within e
  | some g =>
      refine .bind (teardown_within (releaseExport_within he)) fun _ => .get ?_
      intro s _
      exact .bind (succeed_within _ g _) fun _ => resultOrError_within e

theorem waitExport_within {e : I} (he : W (.exportTask e)) :
    Preserves (Within s₀ W) (waitExport (T := T) ω owner e) := by
  refine .bind (refuseIf_within _) fun _ => .get ?_
  intro s _
  refine .ite (fun _ => finishExport_within he) fun _ => .bind (wait_within he) ?_
  intro _
  refine .bind (effect_within (by decide) _) ?_
  intro _
  exact .bind (.modify fun _ h => h.congr rfl rfl) fun _ => finishExport_within he

theorem stopExport_within {e : I} (he : W (.exportTask e)) :
    Preserves (Within s₀ W) (stopExport (T := T) ω owner e) := by
  have hrelease : Preserves (Within s₀ W) (releaseExport (T := T) ω e) := releaseExport_within he
  refine .bind (refuseIf_within _) fun _ => .bind (begin_within _) ?_
  intro generation
  cases generation with
  | none => exact resultOrError_within e
  | some g =>
      refine .bind (teardown_within (.get fun s _ => .ite ?_ fun _ => hrelease)) fun _ => .get ?_
      · intro _
        refine .bind (effect_within (by decide) _) ?_
        intro _
        exact .bind (.modify fun _ h => h.congr rfl rfl) fun _ => hrelease
      · intro s _
        exact .bind (succeed_within _ g _) fun _ => resultOrError_within e

omit [DecidableEq I] in
theorem cancelExport_within (e : I) : Preserves (Within s₀ W) (cancelExport (T := T) ω e) := by
  refine .get fun s _ => .ite (fun _ => .pure ()) ?_
  intro _
  split
  · exact .throw _
  · exact effect_within (by decide) _

theorem closeExportFromParent_within {e : I} (he : W (.exportTask e)) :
    Preserves (Within s₀ W) (closeExportFromParent (T := T) ω owner e) := by
  refine .bind (cancelExport_within e) ?_
  intro _
  refine .bind (caught_within (waitExport_within he)) ?_
  intro raised
  split
  · exact effect_within (by decide) _
  · exact .get fun s _ => .ite (fun _ => .pure ()) fun _ => .throw _
  · exact .throw _

/-! ## The CloudStorages and the Cloud Client -/

theorem closeCloudStorage_within {m : I} (hm : ∀ d, s₀.Below (.cloudStorage m) d → W d) :
    Preserves (Within s₀ W) (closeCloudStorage (T := T) ω owner m) := by
  refine .get fun s _ => .bind (refuseIf_within _) ?_
  intro _
  refine .bind (begin_within _) ?_
  intro generation
  cases generation with
  | none => exact .pure ()
  | some g =>
      refine .bind (teardown_within ?_) ?_
      · refine .bind (effect_within (by decide) _) ?_
        intro _
        refine .bind (closeKeeping_within (fun r _ => closeReplay_within fun d hd => ?_) none)
          fun childError => ?_
        · exact hm d (.head (.replay r.2) hd)
        refine .bind (.forEach fun e _ => closeExportFromParent_within ?_) ?_
        · exact hm _ (.single (.exportTask e.2))
        · intro _
          exact .bind (effect_within (by decide) _) fun _ => .pure childError
      · intro childError
        refine .bind (succeed_within _ g childError) ?_
        intro _
        exact .bind (.modify fun _ h => h.congr rfl rfl) fun _ => raiseKept_within childError

theorem closeCloudClient_within {k : I} (hk : ∀ d, s₀.Below (.cloudClient k) d → W d) :
    Preserves (Within s₀ W) (closeCloudClient (T := T) ω owner k) := by
  refine .get fun s _ => .bind (refuseIf_within _) ?_
  intro _
  refine .bind (begin_within _) ?_
  intro generation
  cases generation with
  | none => exact .pure ()
  | some g =>
      refine .bind (teardown_within ?_) ?_
      · refine .bind (closeKeeping_within (fun m _ => closeCloudStorage_within ?_) none) ?_
        · intro d hd
          exact hk d (.head (.cloudStorage m.2) hd)
        · intro childError
          exact .bind (effect_within (by decide) _) fun _ => .pure childError
      · intro childError
        exact .bind (succeed_within _ g childError) fun _ => raiseKept_within childError

end Within

/-! ## The guards meet the waits -/

/-- The dispatchers that a call may wait for: those of its object and of everything below it. A
`detach` waits where the Output is open and bound. A RawDump has no dispatcher; its calls keep away
from those of its source. -/
def BlockingCall.WaitsFor (s : World T) : BlockingCall I → SdkObject I → Prop
  | .closeClient k => s.Below (.client k)
  | .closeConnection c => s.Below (.connection c)
  | .disconnect c => s.Below (.connection c)
  | .closeOutput o => s.Below (.output o)
  | .detach o => fun d =>
      (s.close (.output o)).requireOpen = none ∧ (s.bound o).isSome ∧ d = .output o
  | .closeCloudClient k => s.Below (.cloudClient k)
  | .closeCloudStorage m => s.Below (.cloudStorage m)
  | .closeReplay r => s.Below (.replay r)
  | .stopReplay r => s.Below (.replay r)
  | .stopDump d => fun x => ∃ p, s.dumpParent d = some p ∧ s.Below p.object x
  | .closeDump d => fun x => ∃ p, s.dumpParent d = some p ∧ s.Below p.object x
  | .waitExport e => s.Below (.exportTask e)
  | .stopExport e => s.Below (.exportTask e)

variable [DecidableEq I] {O : SdkObject I}

/-- **A call waits for no other dispatchers**, whoever makes it and whatever the outside answers. -/
theorem run_within (ω : Environment) (owner : Option (SdkObject I)) (call : BlockingCall I) :
    Within s (call.WaitsFor s) (outcome (call.run ω owner) s).2 := by
  have hstart : ∀ W : SdkObject I → Prop, Within s W s := fun _ => .start
  cases call with
  | closeClient k => exact closeClient_within (fun _ h => h) s (hstart _)
  | closeConnection c => exact closeConnection_within (fun _ h => h) s (hstart _)
  | disconnect c => exact disconnect_within (.refl _) s (hstart _)
  | closeOutput o => exact closeOutput_within (.refl _) s (hstart _)
  | detach o =>
      rcases hopen : (s.close (.output o)).requireOpen with _ | error
      · rcases hbound : s.bound o with _ | p
        · simpa [BlockingCall.run, detach, outcome_bind, hopen, hbound] using hstart _
        · exact detach_within ⟨hopen, by simp [hbound], rfl⟩ s (hstart _)
      · simpa [BlockingCall.run, detach, outcome_bind, hopen] using hstart _
  | closeCloudClient k => exact closeCloudClient_within (fun _ h => h) s (hstart _)
  | closeCloudStorage m => exact closeCloudStorage_within (fun _ h => h) s (hstart _)
  | closeReplay r => exact closeReplay_within (fun _ h => h) s (hstart _)
  | stopReplay r => exact stopReplay_within r s (hstart _)
  | stopDump d => exact stopDump_within d s (hstart _)
  | closeDump d => exact closeDump_within d s (hstart _)
  | waitExport e => exact waitExport_within (.refl _) s (hstart _)
  | stopExport e => exact stopExport_within (.refl _) s (hstart _)

omit [DecidableEq I] in
/-- A guard that holds ends the call, and nothing is touched. -/
theorem outcome_refuseIf {α : Type} {busy : World T → Bool} {rest : World T → Code T α}
    (h : busy s = true) :
    outcome (do let s ← get; refuseIf (busy s); rest s) s = (.error inUseError, s) := by
  simp [outcome_bind, refuseIf, h]

/-- The owner is the object or one of the Outputs that are bound to it. -/
theorem inRelatedCallback_of_below {p : MediaSource I} (h : s.Below p.object O) :
    s.inRelatedCallback (some O) p = true := by
  rcases h.of_source with rfl | ⟨o, hbound, rfl⟩
  · simp [World.inRelatedCallback]
  · simp [World.inRelatedCallback, World.boundOf, hbound]

theorem dumpInUse_of_below {d : I} {p : MediaSource I} (hparent : s.dumpParent d = some p)
    (h : s.Below p.object O) : s.dumpInUse (some O) d = true := by
  rcases h.of_source with rfl | ⟨o, hbound, rfl⟩
  · simp [World.dumpInUse, hparent]
  · simp [World.dumpInUse, World.boundOf, hparent, hbound]

/-- **A call that would wait for the owner's dispatcher is refused**, and nothing is touched. -/
theorem refused (ω : Environment) {call : BlockingCall I} (h : call.WaitsFor s O) :
    outcome (call.run ω (some O)) s = (.error inUseError, s) := by
  cases call with
  | closeClient k => exact outcome_refuseIf (by simp [rtcCallbackClient_of_below h])
  | closeConnection c => exact outcome_refuseIf (inRelatedCallback_of_below (p := .connection c) h)
  | disconnect c => exact outcome_refuseIf (inRelatedCallback_of_below (p := .connection c) h)
  | closeOutput o =>
      obtain rfl := World.Below.of_output h
      exact outcome_refuseIf (by simp)
  | detach o =>
      obtain ⟨hopen, hbound, rfl⟩ := h
      obtain ⟨p, hp⟩ := Option.isSome_iff_exists.mp hbound
      have hbusy : s.detachInUse (some (.output o)) p o = true := by simp [World.detachInUse]
      simp [BlockingCall.run, detach, outcome_bind, hopen, hp, hbusy, refuseIf]
  | closeCloudClient k => exact outcome_refuseIf (callbackDescendsFrom_of_below h)
  | closeCloudStorage m => exact outcome_refuseIf (callbackDescendsFrom_of_below h)
  | closeReplay r => exact outcome_refuseIf (inRelatedCallback_of_below (p := .replay r) h)
  | stopReplay r => exact outcome_refuseIf (inRelatedCallback_of_below (p := .replay r) h)
  | stopDump d =>
      obtain ⟨p, hparent, hbelow⟩ := h
      exact outcome_refuseIf (dumpInUse_of_below hparent hbelow)
  | closeDump d =>
      obtain ⟨p, hparent, hbelow⟩ := h
      exact outcome_refuseIf (dumpInUse_of_below hparent hbelow)
  | waitExport e =>
      obtain rfl := World.Below.of_exportTask h
      simp [BlockingCall.run, waitExport, refuseIf]
  | stopExport e =>
      obtain rfl := World.Below.of_exportTask h
      simp [BlockingCall.run, stopExport, refuseIf]

/-- **A blocking call that is made in a callback is refused whole, or does not wait for it**: it
raises `InUseError` and leaves everything as it is, or the owner of the callback is not among the
dispatchers that the call may wait for, and it waits for no others. -/
theorem refused_or_apart (ω : Environment) (O : SdkObject I) (call : BlockingCall I) (s : World T) :
    outcome (call.run ω (some O)) s = (.error inUseError, s) ∨
      ¬ call.WaitsFor s O ∧ ∃ ts, (outcome (call.run ω (some O)) s).2.trace = s.trace ++ ts ∧
        ∀ d, (.wait, d) ∈ ts → call.WaitsFor s d := by
  by_cases h : call.WaitsFor s O
  · exact .inl (refused ω h)
  · exact .inr ⟨h, (run_within ω (some O) call).waits⟩

/-- The Connection `0` has the Output `1`: a close outside of any callback waits for both. -/
example :
    let s : World (I := ℕ) ⟨fun _ => 0, fun _ => 0, fun _ => 0, fun _ => 0⟩ :=
      { outputs := fun _ => [1], bound := fun _ => some (.connection 0) }
    let after := (outcome (closeConnection ⟨fun _ => "", fun _ => none, fun _ => false,
      fun _ => none⟩ none 0) s).2
    after.trace.filter (·.1 = .wait) = [(.wait, .output 1), (.wait, .connection 0)] := by
  decide

end Tirtc.Callbacks
