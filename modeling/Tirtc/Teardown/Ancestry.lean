import Mathlib.Data.Fintype.Sum
import Tirtc.Lib.Worklist
import Tirtc.Teardown.Owners

/-!
# Callback ancestry is reachability

The guards of the blocking calls follow the attributes of the callback's owner, in two ways:
`_callback_descends_from` pushes all of them on a stack, and `_rtc_callback_client` follows one at a
time. Here both run on any finite graph of objects, whatever cycles it has.

* `Links`, `Links.Edge`: the attributes that the walks read.
* `Links.callbackDescendsFrom`, `Links.rtcCallbackClient`: the two walks, as in the source.
* `Links.Upward`: graphs in which an object has one way up and a Client is the end of it.
* `rtcCallbackClient_eq_some`: on these, the second walk finds the Client that the attributes lead
  to.
* `RtcObject`, `RtcGraph`: the graphs that the RTC classes build.
* `callback_ancestry`: the first walk decides reachability, and the two agree on the RTC classes.
* `World.links`, `World.guards_agree`: the same for the worlds of the blocking calls, of both
  families.
-/

set_option autoImplicit false
set_option linter.unusedSectionVars false

namespace Tirtc.Callbacks

/-! ## The walks -/

/-- The attributes of the objects that the walks read; `none` is `None` or a missing attribute. -/
structure Links (α : Type) where
  client : α → Option α := fun _ => none
  parent : α → Option α := fun _ => none
  replay : α → Option α := fun _ => none
  bound : α → Option α := fun _ => none

namespace Links

variable {α : Type} (L : Links α)

/-- One of the attributes of `x` is `y`. -/
def Edge (x y : α) : Prop :=
  L.client x = some y ∨ L.parent x = some y ∨ L.replay x = some y ∨ L.bound x = some y

/-- What `pending.extend` pushes; the last one is popped first. -/
def attributes (x : α) : List (Option α) := [L.bound x, L.replay x, L.parent x, L.client x]

/-- `getattr(owner, "_parent", None) or getattr(owner, "_bound", None)` -/
def up (x : α) : Option α := (L.parent x).or (L.bound x)

variable [Fintype α] [DecidableEq α]

/-- Source: `storage/__init__.py`, `_callback_descends_from` -/
def callbackDescendsFrom (owner : Option α) (target : α) : Bool :=
  Worklist.search L.attributes target [owner] []

/-- The loop of `_rtc_callback_client`, with the objects that it has seen. `isClient` is
`isinstance(…, Client)`. Source: `_core.py`, `_rtc_callback_client` -/
def rtcWalk {α : Type} [Fintype α] [DecidableEq α] (L : Links α) (isClient : α → Bool)
    (seen : List α) : Option α → Option α
  | none => none
  | some owner =>
      if owner ∈ seen then none
      else if isClient owner then some owner
      else if (L.client owner).any isClient then L.client owner
      else rtcWalk L isClient (owner :: seen) (L.up owner)
termination_by Fintype.card α - seen.toFinset.card
decreasing_by exact Worklist.left_lt ‹_›

/-- Source: `_core.py`, `_rtc_callback_client` -/
def rtcCallbackClient (isClient : α → Bool) (owner : Option α) : Option α :=
  L.rtcWalk isClient [] owner

variable {L}

/-- The attributes that are pushed are the edges. -/
theorem edge_attributes {x y : α} : Worklist.Edge L.attributes x y ↔ L.Edge x y := by
  simp only [Worklist.Edge, attributes, Edge, List.mem_cons, List.not_mem_nil, or_false,
    eq_comm (a := some y)]
  constructor
  · rintro (h | h | h | h)
    · exact .inr (.inr (.inr h))
    · exact .inr (.inr (.inl h))
    · exact .inr (.inl h)
    · exact .inl h
  · rintro (h | h | h | h)
    · exact .inr (.inr (.inr h))
    · exact .inr (.inr (.inl h))
    · exact .inr (.inl h)
    · exact .inl h

theorem edge_attributes_eq : Worklist.Edge L.attributes = L.Edge := by
  funext x y
  exact propext edge_attributes

/-- **The first walk decides reachability**, on any finite graph. -/
theorem callbackDescendsFrom_eq_true {owner target : α} :
    L.callbackDescendsFrom (some owner) target = true ↔
      Relation.ReflTransGen L.Edge owner target := by
  rw [callbackDescendsFrom, Worklist.search_eq_true, edge_attributes_eq]

/-- From `None`, the first walk finds nothing. -/
@[simp] theorem callbackDescendsFrom_none {target : α} :
    L.callbackDescendsFrom none target = false := by
  simp [callbackDescendsFrom, Worklist.search]

/-! ## One way up -/

/-- Every object has one way up at most: no `_replay`, and a `_client` or a `_parent` or a `_bound`
alone. A Client, and whatever is a `_client`, is the end of the way. -/
structure Upward (L : Links α) (isClient : α → Bool) : Prop where
  client_last : ∀ x y, isClient x = true → ¬ L.Edge x y
  client_link : ∀ x c, L.client x = some c → L.up x = none ∧ ∀ y, ¬ L.Edge c y
  bound_link : ∀ x y, L.bound x = some y → L.parent x = none
  no_replay : ∀ x, L.replay x = none

variable {isClient : α → Bool}

/-- The edges of an object: its `_client`, or the way up. -/
theorem Upward.edge_iff (h : Upward L isClient) {x y : α} :
    L.Edge x y ↔ L.client x = some y ∨ L.up x = some y := by
  unfold Edge up
  rw [h.no_replay x]
  constructor
  · rintro (hc | hp | hr | hb)
    · exact .inl hc
    · exact .inr (by rw [hp]; rfl)
    · cases hr
    · exact .inr (by rw [h.bound_link x y hb, Option.none_or, hb])
  · rintro (hc | hup)
    · exact .inl hc
    · rcases Option.or_eq_some_iff.mp hup with hp | ⟨-, hb⟩
      · exact .inr (.inl hp)
      · exact .inr (.inr (.inr hb))

/-- From the end of the way there is no other object. -/
theorem eq_of_last {x y : α} (hlast : ∀ z, ¬ L.Edge x z)
    (hpath : Relation.ReflTransGen L.Edge x y) : x = y := by
  rcases hpath.cases_head with heq | ⟨z, hedge, -⟩
  · exact heq
  · exact absurd hedge (hlast z)

/-- The one object that the second walk goes on to: the Client, or the way up. -/
def way (L : Links α) (isClient : α → Bool) (x : α) : Option α :=
  if (L.client x).any isClient then L.client x else L.up x

/-- The second walk follows edges. -/
theorem Upward.edge_of_way (h : Upward L isClient) {x y : α} (hway : L.way isClient x = some y) :
    L.Edge x y := by
  rw [h.edge_iff]
  unfold way at hway
  split at hway
  · exact .inl hway
  · exact .inr hway

/-- An edge on a path to a Client is the way that the second walk takes: a `_client` that is not a
Client leads nowhere. -/
theorem Upward.way_of_edge (h : Upward L isClient) {x y k : α} (hk : isClient k = true)
    (hedge : L.Edge x y) (hrest : Relation.ReflTransGen L.Edge y k) :
    L.way isClient x = some y := by
  rcases h.edge_iff.mp hedge with hc | hup
  · have heq : y = k := eq_of_last (h.client_link x y hc).2 hrest
    rw [way, if_pos (by rw [hc, Option.any_some, heq, hk]), hc]
  · rw [way, if_neg, hup]
    intro hany
    obtain ⟨c, hc, -⟩ := (Option.any_eq_true _ _).mp hany
    rw [(h.client_link x c hc).1] at hup
    cases hup

/-- The ways alone lead to the same Clients as all edges. -/
theorem Upward.reach_way_iff (h : Upward L isClient) {x k : α} (hk : isClient k = true) :
    Relation.ReflTransGen (Worklist.Edge fun x => [L.way isClient x]) x k ↔
      Relation.ReflTransGen L.Edge x k := by
  have hstep : ∀ {x y}, Worklist.Edge (fun x => [L.way isClient x]) x y ↔
      L.way isClient x = some y := by
    intro x y
    rw [Worklist.Edge, List.mem_singleton, eq_comm]
  constructor
  · intro hpath
    exact Relation.ReflTransGen.mono (fun x y hway => h.edge_of_way (hstep.mp hway)) _ _ hpath
  · intro hpath
    induction hpath using Relation.ReflTransGen.head_induction_on with
    | refl => exact .refl
    | head hedge hrest ih => exact .head (hstep.mpr (h.way_of_edge hk hedge hrest)) ih

/-- What the second walk finds is a Client behind the owner. -/
theorem rtcWalk_sound (h : Upward L isClient) {seen : List α} {owner : Option α} {k : α}
    (hwalk : L.rtcWalk isClient seen owner = some k) :
    isClient k = true ∧ ∃ x, owner = some x ∧ Relation.ReflTransGen L.Edge x k := by
  fun_induction rtcWalk L isClient seen owner with
  | case1 => cases hwalk
  | case2 => cases hwalk
  | case3 seen x hseen hclient =>
      cases hwalk
      exact ⟨hclient, k, rfl, .refl⟩
  | case4 seen x hseen hclient hlink =>
      rw [hwalk] at hlink
      exact ⟨by simpa using hlink, x, rfl, .single (.inl hwalk)⟩
  | case5 seen x hseen hclient hlink ih =>
      obtain ⟨hk, y, hup, hpath⟩ := ih hwalk
      exact ⟨hk, x, rfl, .head (h.edge_iff.mpr (.inr hup)) hpath⟩

/-- A Client behind the owner is found: the walk is a search of the ways, with the owner alone on
the stack. -/
theorem rtcWalk_complete (h : Upward L isClient) {seen : List α} {owner : Option α} {k : α}
    (hk : isClient k = true)
    (hexplored : Worklist.Explored (fun x => [L.way isClient x]) k [owner] seen)
    (hpath : ∃ x, x ∉ seen ∧ owner = some x ∧
      Relation.ReflTransGen (Worklist.Edge fun x => [L.way isClient x]) x k) :
    L.rtcWalk isClient seen owner = some k := by
  fun_induction rtcWalk L isClient seen owner with
  | case1 =>
      obtain ⟨x, -, hx, -⟩ := hpath
      cases hx
  | case2 seen x hseen =>
      obtain ⟨y, hy, heq, -⟩ := hpath
      cases heq
      exact absurd hseen hy
  | case3 seen x hseen hclient =>
      obtain ⟨y, -, heq, hreach⟩ := hpath
      cases heq
      rw [eq_of_last (fun y => h.client_last x y hclient) ((h.reach_way_iff hk).mp hreach)]
  | case4 seen x hseen hclient hlink =>
      obtain ⟨y, -, heq, hreach⟩ := hpath
      cases heq
      obtain ⟨c, hc, -⟩ := (Option.any_eq_true _ _).mp hlink
      have hway : L.way isClient x = some c := by rw [way, if_pos hlink, hc]
      rcases hreach.cases_head with heq | ⟨y, hedge, hrest⟩
      · exact absurd (heq ▸ hk) hclient
      · rw [Worklist.Edge, hway, List.mem_singleton, Option.some.injEq] at hedge
        subst hedge
        rw [hc, eq_of_last (h.client_link x y hc).2 ((h.reach_way_iff hk).mp hrest)]
  | case5 seen x hseen hclient hlink ih =>
      have hne : x ≠ k := by
        rintro rfl
        exact hclient hk
      have hway : L.way isClient x = L.up x := by rw [way, if_neg hlink]
      have hexplored' := hexplored.push hne
      rw [hway, List.append_nil] at hexplored'
      obtain ⟨y, -, heq, hreach⟩ := hpath
      cases heq
      obtain ⟨y, hy, hmem, hrest⟩ := hexplored'.exit (.inl List.mem_cons_self) hreach
      exact ih hexplored' ⟨y, hy, (List.mem_singleton.mp hmem).symm, hrest⟩

/-- **The second walk finds the Client that the attributes lead to**, on graphs with one way up. -/
theorem rtcCallbackClient_eq_some (h : Upward L isClient) {owner k : α}
    (hk : isClient k = true) :
    L.rtcCallbackClient isClient (some owner) = some k ↔
      L.callbackDescendsFrom (some owner) k = true := by
  rw [callbackDescendsFrom_eq_true, rtcCallbackClient]
  constructor
  · intro hwalk
    obtain ⟨-, x, heq, hpath⟩ := rtcWalk_sound h hwalk
    cases heq
    exact hpath
  · intro hpath
    exact rtcWalk_complete h hk .nil
      ⟨owner, List.not_mem_nil, rfl, (h.reach_way_iff hk).mpr hpath⟩

end Links

/-! ## The RTC classes -/

/-- The objects of the RTC classes. An `output` is one of any of the four Output classes. -/
inductive RtcObject (I : Type)
  | client (k : I)
  | connection (c : I)
  | output (o : I)
  | recordingTask (t : I)
  | rawDump (d : I)
  deriving DecidableEq

/-- The objects of one class after the other. -/
def RtcObject.ofSum {I : Type} : I ⊕ I ⊕ I ⊕ I ⊕ I → RtcObject I
  | .inl k => .client k
  | .inr (.inl c) => .connection c
  | .inr (.inr (.inl o)) => .output o
  | .inr (.inr (.inr (.inl t))) => .recordingTask t
  | .inr (.inr (.inr (.inr d))) => .rawDump d

instance {I : Type} [Fintype I] [DecidableEq I] : Fintype (RtcObject I) :=
  Fintype.ofSurjective RtcObject.ofSum fun x =>
    match x with
    | .client k => ⟨.inl k, rfl⟩
    | .connection c => ⟨.inr (.inl c), rfl⟩
    | .output o => ⟨.inr (.inr (.inl o)), rfl⟩
    | .recordingTask t => ⟨.inr (.inr (.inr (.inl t))), rfl⟩
    | .rawDump d => ⟨.inr (.inr (.inr (.inr d))), rfl⟩

/-- The attributes of these objects: `Connection._client`, `Output._bound`, and the `_parent` of a
RecordingTask and of a RawDump, which a closed RawDump has no more.
Source: `_core.py`, `Connection._create`, `_OutputBase.attach` and `RecordingTask._prepare`;
`_raw_dump.py`, `RawDump.close` -/
structure RtcGraph (I : Type) where
  client : I → I
  bound : I → Option I
  taskParent : I → I
  dumpParent : I → Option I

namespace RtcGraph

variable {I : Type}

/-- The attributes as the walks read them. -/
def links (G : RtcGraph I) : Links (RtcObject I) where
  client
    | .connection c => some (.client (G.client c))
    | _ => none
  parent
    | .recordingTask t => some (.connection (G.taskParent t))
    | .rawDump d => (G.dumpParent d).map .connection
    | _ => none
  bound
    | .output o => (G.bound o).map .connection
    | _ => none

/-- `isinstance(x, Client)` -/
def isClient : RtcObject I → Bool
  | .client _ => true
  | _ => false

/-- In the graphs of the RTC classes every object has one way up. -/
theorem links_upward (G : RtcGraph I) : G.links.Upward isClient where
  client_last x y hx := by
    cases x with
    | client k => simp [Links.Edge, links]
    | _ => cases hx
  client_link x c hc := by
    cases x with
    | connection d =>
        cases hc
        exact ⟨rfl, fun y => by simp [Links.Edge, links]⟩
    | _ => cases hc
  bound_link x y hy := by
    cases x with
    | output o => rfl
    | _ => cases hy
  no_replay _ := rfl

end RtcGraph

/-- **Callback ancestry is reachability.** On every finite graph of objects,
`_callback_descends_from` ends, and is true exactly when the target is reached from the owner over
zero or more attributes. On every graph of the RTC classes, `_rtc_callback_client` gives a Client
exactly when `_callback_descends_from` is true for that Client. -/
theorem callback_ancestry :
    (∀ (α : Type) [Fintype α] [DecidableEq α] (L : Links α) (owner target : α),
      L.callbackDescendsFrom (some owner) target = true ↔
        Relation.ReflTransGen L.Edge owner target) ∧
    ∀ (I : Type) [Fintype I] [DecidableEq I] (G : RtcGraph I) (owner : Option (RtcObject I))
      (k : I),
      G.links.rtcCallbackClient RtcGraph.isClient owner = some (.client k) ↔
        G.links.callbackDescendsFrom owner (.client k) = true := by
  refine ⟨?_, ?_⟩
  · intro α _ _ L owner target
    exact Links.callbackDescendsFrom_eq_true
  · intro I _ _ G owner k
    cases owner with
    | none => simp [Links.rtcCallbackClient, Links.rtcWalk]
    | some owner => exact Links.rtcCallbackClient_eq_some G.links_upward rfl

/-! ## The worlds of the blocking calls -/

/-- The objects of one class after the other. -/
def SdkObject.ofSum {I : Type} : (I ⊕ I ⊕ I ⊕ I) ⊕ I ⊕ I ⊕ I ⊕ I → SdkObject I
  | .inl (.inl k) => .client k
  | .inl (.inr (.inl c)) => .connection c
  | .inl (.inr (.inr (.inl k))) => .cloudClient k
  | .inl (.inr (.inr (.inr m))) => .cloudStorage m
  | .inr (.inl r) => .replay r
  | .inr (.inr (.inl e)) => .exportTask e
  | .inr (.inr (.inr (.inl o))) => .output o
  | .inr (.inr (.inr (.inr d))) => .rawDump d

instance {I : Type} [Fintype I] [DecidableEq I] : Fintype (SdkObject I) :=
  Fintype.ofSurjective SdkObject.ofSum fun x =>
    match x with
    | .client k => ⟨.inl (.inl k), rfl⟩
    | .connection c => ⟨.inl (.inr (.inl c)), rfl⟩
    | .cloudClient k => ⟨.inl (.inr (.inr (.inl k))), rfl⟩
    | .cloudStorage m => ⟨.inl (.inr (.inr (.inr m))), rfl⟩
    | .replay r => ⟨.inr (.inl r), rfl⟩
    | .exportTask e => ⟨.inr (.inr (.inl e)), rfl⟩
    | .output o => ⟨.inr (.inr (.inr (.inl o))), rfl⟩
    | .rawDump d => ⟨.inr (.inr (.inr (.inr d))), rfl⟩

namespace World

variable {I : Type} [Fintype I] [DecidableEq I] {T : Ownership I} (s : World T)

/-- The attributes of the objects of a world, as the walks read them. -/
def links : Links (SdkObject I) where
  client := clientOf T
  parent := s.parentOf
  bound x := (s.boundOf x).map MediaSource.object

/-- `isinstance(x, Client)`, for the RTC Client. -/
def isClient (x : SdkObject I) : Bool := (asClient x).isSome

variable {s}

/-- A world has the same edges for both models of the first walk. -/
theorem links_edge {x y : SdkObject I} : s.attributes.Edge x y ↔ s.links.Edge x y := by
  rw [← Links.edge_attributes]
  rfl

/-- **The first walk over a world** is the walk over its attributes. -/
theorem callbackDescendsFrom_links {x target : SdkObject I} :
    s.callbackDescendsFrom (some x) target = s.links.callbackDescendsFrom (some x) target := by
  have hedges : s.attributes.Edge = s.links.Edge := by
    funext x y
    exact propext links_edge
  rw [Bool.eq_iff_iff, callbackDescendsFrom_eq_true, Links.callbackDescendsFrom_eq_true, hedges]

/-- An RTC Client is known by its name. -/
theorem asClient_eq_some {x : SdkObject I} {k : I} : asClient x = some k ↔ x = .client k := by
  cases x <;> simp [asClient]

/-- What the second walk reads of an object that is not a Client. -/
theorem any_client_iff {x : SdkObject I} :
    (s.links.client x).any isClient = ((clientOf T x).bind asClient).isSome := by
  have hlinks : s.links.client x = clientOf T x := rfl
  rw [hlinks]
  cases clientOf T x with
  | none => rfl
  | some c => rfl

/-- **The second walk over a world** is the walk over its attributes. -/
theorem rtcWalk_links {seen : List (SdkObject I)} {owner : Option (SdkObject I)} :
    s.links.rtcWalk isClient seen owner = (s.rtcWalk seen owner).map .client := by
  fun_induction World.rtcWalk s seen owner with
  | case1 => simp [Links.rtcWalk]
  | case2 seen x hseen => simp [Links.rtcWalk, hseen]
  | case3 seen x hseen k hclient =>
      rw [asClient_eq_some] at hclient
      subst hclient
      simp [Links.rtcWalk, hseen, isClient, asClient]
  | case4 seen x hseen k hlink hclient =>
      obtain ⟨c, hc, hk⟩ := Option.bind_eq_some_iff.mp hlink
      rw [asClient_eq_some] at hk
      subst hk
      have hlinks : s.links.client x = some (.client k) := hc
      have hx : isClient x = false := by rw [isClient, hclient]; rfl
      have hk : isClient (SdkObject.client k) = true := rfl
      simp [Links.rtcWalk, hseen, hx, hlinks, hk]
  | case5 seen x hseen hlink hclient hup =>
      have hany : (s.links.client x).any isClient = false := by rw [any_client_iff, hlink]; rfl
      have hup' : s.links.up x = none := hup
      simp [Links.rtcWalk, hseen, isClient, hclient, hany, hup']
  | case6 seen x hseen hlink hclient y hup _ ih =>
      have hany : (s.links.client x).any isClient = false := by rw [any_client_iff, hlink]; rfl
      have hup' : s.links.up x = some y := hup
      rw [← ih, Links.rtcWalk]
      simp [hseen, isClient, hclient, hany, hup']

/-- In a world of either family every object has one way up. -/
theorem links_upward : s.links.Upward isClient where
  client_last x y hx := by
    cases x with
    | client k => simp [Links.Edge, links, clientOf, World.parentOf, World.boundOf]
    | _ => cases hx
  client_link x c hc := by
    cases x with
    | connection d =>
        cases hc
        exact ⟨rfl, fun y => by simp [Links.Edge, links, clientOf, World.parentOf, World.boundOf]⟩
    | cloudStorage m =>
        cases hc
        exact ⟨rfl, fun y => by simp [Links.Edge, links, clientOf, World.parentOf, World.boundOf]⟩
    | _ => cases hc
  bound_link x y hy := by
    cases x with
    | output o => rfl
    | _ => cases hy
  no_replay _ := rfl

/-- **The guards of the two products agree** in every world: `_rtc_callback_client` gives an RTC
Client exactly when `_callback_descends_from` is true for it. -/
theorem guards_agree {x : SdkObject I} {k : I} :
    s.rtcCallbackClient (some x) = some k ↔
      s.callbackDescendsFrom (some x) (.client k) = true := by
  rw [callbackDescendsFrom_links, ← Links.rtcCallbackClient_eq_some links_upward rfl,
    Links.rtcCallbackClient, rtcWalk_links, rtcCallbackClient]
  simp

end World

end Tirtc.Callbacks
