import Tirtc.Native.HandleTree

/-!
# Children go before their parents

Whatever drops the last reference to a capsule, and wherever the native destroys wait and fail, the
reference counts keep the records in order.

* `Sound`: the invariant, with the references that the running function has in its hand.
* `Sound.moved`, `Sound.incref`, `Sound.capsuleNew`, `Sound.decref`, `Sound.setRecord`: the
  functions keep it.
* `InOrder`, `handles_in_order`: children are destroyed before their parents, nothing is used after
  it has been freed, and only what a failed destroy holds on to is left over.
-/

set_option autoImplicit false

namespace Tirtc.HandleTree

open Transition RefCounts
open Tirtc.Handles (HandleKind NativeHandle)

variable {P : Type}

/-- **The invariant**, for the references `hand` of the running function. -/
structure Sound (m : Memory P) (hand : Multiset ℕ) : Prop where
  owned : Owned m.heap (m.owners + hand)
  links : Links (Tracked m) m.history m.heap.made m.pid
  plain : ∀ a, m.heap.Has a .callable → m.history.origin a = none
  nodup : (m.loose.map Loose.address).Nodup
  gone : ∀ r ∈ m.loose, r.address < m.heap.made ∧ ∀ x, ¬ m.heap.Has r.address x
  reasons : ∀ r ∈ m.loose, (r.reason = .dying → r.handle.creatorPid = m.pid ∧
    r.handle.pointer ≠ none) ∧ (r.reason = .finalized → m.finalizing = true) ∧
      (r.reason = .forked → r.handle.creatorPid ≠ m.pid)
  alone : ∀ a ∈ m.creating, (m.owners + hand).count a = 1 ∧ ∃ handle,
    m.heap.Has a (.capsule handle) ∧ handle.pointer = none ∧
      m.history.origin a = some (handle.parent, handle.creatorPid)

/-! ## The references -/

section References

variable {m : Memory P} {hand : Multiset ℕ} {a : ℕ} {x y : NativeHandle P ℕ}

@[simp] theorem looseRefs_cons (r : Loose P) (loose : Multiset (Loose P)) :
    looseRefs (r ::ₘ loose) = handleRefs r.handle + looseRefs loose := Multiset.cons_bind ..

theorem mem_looseRefs {loose : Multiset (Loose P)} :
    a ∈ looseRefs loose ↔ ∃ r ∈ loose, a ∈ handleRefs r.handle := Multiset.mem_bind

/-- A capsule that is being created belongs to its creator alone. -/
theorem Sound.not_creating (hm : Sound m hand) (ha : a ∈ m.held + m.closing + hand) :
    a ∉ m.creating := by
  intro hcreating
  have hone := (hm.alone a hcreating).1
  have hheld := Multiset.one_le_count_iff_mem.mpr ha
  have hmade := Multiset.one_le_count_iff_mem.mpr hcreating
  unfold Memory.owners at hone
  simp only [Multiset.count_add] at hone hheld
  omega

/-- A reference goes from hand to hand. -/
theorem Sound.moved (hm : Sound m hand) {held creating closing hand' : Multiset ℕ}
    (hsum : held + creating + closing + hand' = m.held + m.creating + m.closing + hand)
    (hcreating : creating ⊆ m.creating) :
    Sound { m with held := held, creating := creating, closing := closing } hand' := by
  have howners : Memory.owners { m with held := held, creating := creating, closing := closing } +
      hand' = m.owners + hand := by
    unfold Memory.owners
    dsimp only
    rw [add_right_comm, hsum, add_right_comm]
  refine ⟨?_, hm.links, hm.plain, hm.nodup, hm.gone, hm.reasons, ?_⟩
  · rw [howners]
    exact hm.owned
  · intro b hb
    rw [howners]
    exact hm.alone b (hcreating hb)

/-- Whoever has a reference may make another one. -/
theorem Sound.incref (hm : Sound m hand) (ha : a ∈ m.held + m.closing + hand) :
    Sound { m with heap := m.heap.incref a } (a ::ₘ hand) := by
  have howners : Memory.owners { m with heap := m.heap.incref a } = m.owners := by
    unfold Memory.owners
    dsimp only
    rw [hm.owned.inner_incref]
  have hmem : a ∈ m.owners + hand := by
    unfold Memory.owners
    simp only [Multiset.mem_add] at ha ⊢
    tauto
  refine ⟨?_, ?_, ?_, hm.nodup, ?_, hm.reasons, ?_⟩
  · rw [howners, Multiset.add_cons]
    exact hm.owned.incref hmem
  · show Links _ m.history (m.heap.incref a).made m.pid
    rw [Heap.incref_made]
    apply hm.links.congr
    intro b x
    unfold Tracked
    rw [Heap.has_incref]
  · intro b hb
    exact hm.plain b (Heap.has_incref.mp hb)
  · intro r hr
    show r.address < (m.heap.incref a).made ∧ _
    rw [Heap.incref_made]
    refine ⟨(hm.gone r hr).1, ?_⟩
    intro x hx
    exact (hm.gone r hr).2 x (Heap.has_incref.mp hx)
  · intro b hb
    obtain ⟨hone, x, hx, hfresh⟩ := hm.alone b hb
    have hne : b ≠ a := fun heq => hm.not_creating ha (heq ▸ hb)
    refine ⟨?_, x, Heap.has_incref.mpr hx, hfresh⟩
    rw [howners, Multiset.add_cons, Multiset.count_cons_of_ne hne]
    exact hone

/-- Nothing but the counts changes. -/
theorem increfAll_eq (m : Memory P) (l : List ℕ) :
    ∃ heap : Heap (PyObject P), m.increfAll l = { m with heap := heap } ∧
      heap.made = m.heap.made ∧ ∀ b y, heap.Has b y ↔ m.heap.Has b y := by
  induction l generalizing m with
  | nil => exact ⟨m.heap, rfl, rfl, fun _ _ => Iff.rfl⟩
  | cons a rest ih =>
      obtain ⟨heap, heq, hmade, hhas⟩ := ih { m with heap := m.heap.incref a }
      refine ⟨heap, heq, hmade.trans Heap.incref_made, ?_⟩
      intro b y
      exact (hhas b y).trans Heap.has_incref

theorem Sound.increfAll {l : List ℕ} (hm : Sound m hand) (hl : ∀ a ∈ l, a ∈ m.held) :
    Sound (m.increfAll l) (↑l + hand) := by
  induction l generalizing m hand with
  | nil => simpa [Memory.increfAll] using hm
  | cons a rest ih =>
      have ha : a ∈ m.held + m.closing + hand := by
        simp only [Multiset.mem_add]
        exact .inl (.inl (hl a List.mem_cons_self))
      have hrest := ih (hm.incref ha) fun b hb => hl b (List.mem_cons_of_mem a hb)
      rw [Multiset.add_cons] at hrest
      rw [← Multiset.cons_coe, Multiset.cons_add]
      exact hrest

end References

/-! ## The objects -/

section Objects

variable {m : Memory P} {hand : Multiset ℕ} {a : ℕ} {x y : NativeHandle P ℕ}

/-- A callback is made. -/
theorem Sound.callable (hm : Sound m hand) :
    Sound { m with heap := m.heap.new .callable } (m.heap.made ::ₘ hand) := by
  have howners : Memory.owners { m with heap := m.heap.new .callable } = m.owners := by
    unfold Memory.owners
    dsimp only
    rw [Heap.inner_new, show objectRefs (.callable : PyObject P) = 0 from rfl, add_zero]
  have hcapsule : ∀ b x, (m.heap.new .callable).Has b (.capsule x) ↔ m.heap.Has b (.capsule x) := by
    intro b x
    rw [Heap.has_new]
    constructor
    · rintro (⟨-, h⟩ | ⟨-, h⟩)
      · cases h
      · exact h
    · intro h
      exact .inr ⟨(hm.owned.lt_made h).ne, h⟩
  refine ⟨?_, ?_, ?_, hm.nodup, ?_, hm.reasons, ?_⟩
  · rw [howners, Multiset.add_cons]
    exact hm.owned.new .callable
  · apply hm.links.skip.congr
    intro b x
    unfold Tracked
    rw [hcapsule]
  · intro b hb
    rcases Heap.has_new.mp hb with ⟨rfl, -⟩ | ⟨-, hb⟩
    · exact (hm.links.unmade _ (le_refl _)).1
    · exact hm.plain b hb
  · intro r hr
    obtain ⟨hlt, hnone⟩ := hm.gone r hr
    refine ⟨hlt.trans (Nat.lt_succ_self _), ?_⟩
    intro x hx
    rcases Heap.has_new.mp hx with ⟨heq, -⟩ | ⟨-, hx⟩
    · exact hlt.ne heq
    · exact hnone x hx
  · intro b hb
    obtain ⟨hone, x, hx, hfresh⟩ := hm.alone b hb
    refine ⟨?_, x, (hcapsule b x).mpr hx, hfresh⟩
    rw [howners, Multiset.add_cons, Multiset.count_cons_of_ne (hm.owned.lt_made hx).ne]
    exact hone

/-- A record that the running function has made gets its capsule. -/
theorem Sound.capsuleNew (hm : Sound m (handleRefs x + hand)) (hpointer : x.pointer = none)
    (hpid : x.creatorPid = m.pid) (hcallback : ∀ c, x.callback = some c → m.heap.Has c .callable)
    (hparent : ∀ p, x.parent = some p → ∃ y, m.heap.Has p (.capsule y)) :
    Sound (m.capsuleNew x) (m.heap.made ::ₘ hand) := by
  have howners : (m.capsuleNew x).owners + hand = m.owners + (handleRefs x + hand) := by
    unfold Memory.owners Memory.capsuleNew
    dsimp only
    rw [Heap.inner_new, show objectRefs (.capsule x) = handleRefs x from rfl]
    ac_rfl
  have hmade : ∀ b y, m.heap.Has b y → b ≠ m.heap.made := by
    intro b y hb
    exact (hm.owned.lt_made hb).ne
  refine ⟨?_, ?_, ?_, hm.nodup, ?_, hm.reasons, ?_⟩
  · rw [Multiset.add_cons, howners]
    exact hm.owned.new (.capsule x)
  · refine (hm.links.new (x := x) hpointer hpid ?_ ?_ ?_).congr ?_
    · intro b hb
      have hmem : b ∈ m.owners + (handleRefs x + hand) := by
        simp only [Multiset.mem_add, Multiset.mem_coe]
        exact .inr (.inl hb)
      obtain ⟨y, hy⟩ := hm.owned.has hmem
      exact hm.owned.lt_made hy
    · intro c hc
      exact hm.plain c (hcallback c hc)
    · intro p hp hnone
      obtain ⟨y, hy⟩ := hparent p hp
      obtain ⟨parent, horigin, -⟩ := hm.links.known p y (.inl hy)
      cases hnone.symm.trans horigin
    · intro b y
      unfold Tracked
      rw [show (m.capsuleNew x).heap.Has b (.capsule y) ↔ _ from Heap.has_new]
      constructor
      · rintro ((⟨rfl, heq⟩ | ⟨hb, hy⟩) | ⟨r, hr, rfl, rfl⟩)
        · exact .inl ⟨rfl, PyObject.capsule.inj heq⟩
        · exact .inr ⟨hb, .inl hy⟩
        · exact .inr ⟨(hm.gone r hr).1.ne, .inr ⟨r, hr, rfl, rfl⟩⟩
      · rintro (⟨rfl, rfl⟩ | ⟨hb, hy | hr⟩)
        · exact .inl (.inl ⟨rfl, rfl⟩)
        · exact .inl (.inr ⟨hb, hy⟩)
        · exact .inr hr
  · intro b hb
    rcases Heap.has_new.mp hb with ⟨-, heq⟩ | ⟨hne, hb⟩
    · cases heq
    · exact (m.history.make_origin_of_ne _ _ hne).trans (hm.plain b hb)
  · intro r hr
    obtain ⟨hlt, hnone⟩ := hm.gone r hr
    refine ⟨hlt.trans (Nat.lt_succ_self _), ?_⟩
    intro y hy
    rcases Heap.has_new.mp hy with ⟨heq, -⟩ | ⟨-, hy⟩
    · exact hlt.ne heq
    · exact hnone y hy
  · intro b hb
    obtain ⟨hone, y, hy, hnull, horigin⟩ := hm.alone b hb
    have hne := hmade b _ hy
    refine ⟨?_, y, Heap.has_new.mpr (.inr ⟨hne, hy⟩), hnull,
      (m.history.make_origin_of_ne _ _ hne).trans horigin⟩
    rw [Multiset.add_cons, Multiset.count_cons_of_ne hne, howners]
    exact hone

/-- What the destructor of a capsule starts from: the capsule has left the heap, and the references
of its record are in the hand of the destructor. -/
structure Leaving (m : Memory P) (hand : Multiset ℕ) (a : ℕ) (x : NativeHandle P ℕ)
    (heap : Heap (PyObject P)) : Prop where
  owned : Owned heap (Memory.owners { m with heap := heap } + (handleRefs x + hand))
  tracked : Tracked m a x
  made : heap.made = m.heap.made
  has : ∀ b y, heap.Has b y ↔ b ≠ a ∧ m.heap.Has b y
  fresh : ∀ r ∈ m.loose, r.address ≠ a
  alone : ∀ b ∈ m.creating, b ≠ a ∧
    (Memory.owners { m with heap := heap } + (handleRefs x + hand)).count b = 1

/-- The record stays without its capsule. -/
theorem Leaving.loose {heap : Heap (PyObject P)} (h : Leaving m hand a x heap) {reason : Reason}
    (hm : Sound m (a ::ₘ hand)) (hreason : (reason = .dying → x.creatorPid = m.pid ∧
      x.pointer ≠ none) ∧ (reason = .finalized → m.finalizing = true) ∧
        (reason = .forked → x.creatorPid ≠ m.pid)) :
    Sound { m with heap := heap, loose := ⟨a, x, reason⟩ ::ₘ m.loose } hand := by
  have hhas : m.heap.Has a (.capsule x) := by
    rcases h.tracked with hx | ⟨r, hr, heq, -⟩
    · exact hx
    · exact absurd heq (h.fresh r hr)
  have howners : Memory.owners { m with heap := heap, loose := ⟨a, x, reason⟩ ::ₘ m.loose } + hand =
      Memory.owners { m with heap := heap } + (handleRefs x + hand) := by
    unfold Memory.owners
    dsimp only
    rw [looseRefs_cons]
    ac_rfl
  refine ⟨?_, ?_, ?_, ?_, ?_, ?_, ?_⟩
  · rw [howners]
    exact h.owned
  · show Links _ m.history heap.made m.pid
    rw [h.made]
    apply hm.links.congr
    intro b y
    unfold Tracked
    simp only [Multiset.mem_cons, h.has]
    constructor
    · rintro (⟨-, hy⟩ | ⟨r, rfl | hr, rfl, rfl⟩)
      · exact .inl hy
      · exact .inl hhas
      · exact .inr ⟨r, hr, rfl, rfl⟩
    · rintro (hy | ⟨r, hr, heq⟩)
      · by_cases hb : b = a
        · subst hb
          exact .inr ⟨_, .inl rfl, rfl, PyObject.capsule.inj (hhas.unique hy)⟩
        · exact .inl ⟨hb, hy⟩
      · exact .inr ⟨r, .inr hr, heq⟩
  · intro b hb
    exact hm.plain b ((h.has b _).mp hb).2
  · simp only [Multiset.map_cons, Multiset.nodup_cons, Multiset.mem_map, not_exists, not_and]
    exact ⟨h.fresh, hm.nodup⟩
  · intro r hr
    show r.address < heap.made ∧ _
    rw [h.made]
    rcases Multiset.mem_cons.mp hr with rfl | hr
    · refine ⟨hm.owned.lt_made hhas, ?_⟩
      intro y hy
      exact ((h.has a y).mp hy).1 rfl
    · refine ⟨(hm.gone r hr).1, ?_⟩
      intro y hy
      exact (hm.gone r hr).2 y ((h.has _ y).mp hy).2
  · intro r hr
    rcases Multiset.mem_cons.mp hr with rfl | hr
    · exact hreason
    · exact hm.reasons r hr
  · intro b hb
    obtain ⟨hne, hone⟩ := h.alone b hb
    obtain ⟨-, y, hy, hfresh⟩ := hm.alone b hb
    refine ⟨?_, y, (h.has b _).mpr ⟨hne, hy⟩, hfresh⟩
    rw [howners]
    exact hone

/-- The record is freed. -/
theorem Leaving.drop {heap : Heap (PyObject P)} (h : Leaving m hand a x heap)
    (hm : Sound m (a ::ₘ hand)) (hgone : m.history.object a = true → x.creatorPid ≠ m.pid) :
    Sound (Memory.dropRecord { m with heap := heap } x) hand := by
  have howners : (Memory.dropRecord { m with heap := heap } x).owners + hand =
      Memory.owners { m with heap := heap } + (handleRefs x + hand) := by
    unfold Memory.owners Memory.dropRecord
    dsimp only
    ac_rfl
  refine ⟨?_, ?_, ?_, hm.nodup, ?_, hm.reasons, ?_⟩
  · rw [howners]
    exact h.owned
  · show Links _ m.history heap.made m.pid
    rw [h.made]
    refine (hm.links.drop h.tracked rfl (fun _ _ => rfl) hgone).congr ?_
    intro b y
    unfold Tracked Memory.dropRecord
    dsimp only
    rw [h.has]
    constructor
    · rintro (⟨hb, hy⟩ | ⟨r, hr, rfl, rfl⟩)
      · exact ⟨hb, .inl hy⟩
      · exact ⟨h.fresh r hr, .inr ⟨r, hr, rfl, rfl⟩⟩
    · rintro ⟨hb, hy | hr⟩
      · exact .inl ⟨hb, hy⟩
      · exact .inr hr
  · intro b hb
    exact hm.plain b ((h.has b _).mp hb).2
  · intro r hr
    show r.address < heap.made ∧ _
    rw [h.made]
    refine ⟨(hm.gone r hr).1, ?_⟩
    intro y hy
    exact (hm.gone r hr).2 y ((h.has _ y).mp hy).2
  · intro b hb
    obtain ⟨hne, hone⟩ := h.alone b hb
    obtain ⟨-, y, hy, hfresh⟩ := hm.alone b hb
    refine ⟨?_, y, (h.has b _).mpr ⟨hne, hy⟩, hfresh⟩
    rw [howners]
    exact hone

/-- **An owner gives its reference back**, and the destructor runs if it was the last one. -/
theorem Sound.decref (hm : Sound m (a ::ₘ hand)) : Sound (m.decref a) hand := by
  have hnot : a ∉ m.creating := hm.not_creating (by simp)
  have howned : Owned (m.heap.decref a).2 (m.owners + hand) :=
    Owned.decref (Multiset.add_cons .. ▸ hm.owned)
  have halone : ∀ b ∈ m.creating, b ≠ a ∧ (m.owners + hand).count b = 1 := by
    intro b hb
    have hne : b ≠ a := fun heq => hnot (heq ▸ hb)
    have hone := (hm.alone b hb).1
    rw [Multiset.add_cons, Multiset.count_cons_of_ne hne] at hone
    exact ⟨hne, hone⟩
  have hinner := hm.owned.inner_decref objectRefs (a := a)
  have hmade := Heap.decref_made (h := m.heap) (a := a)
  have hstay := fun hleft b y => Heap.has_decref_none (h := m.heap) (a := a) (b := b) (y := y) hleft
  have hleave := fun x hleft => Heap.has_decref_some (h := m.heap) (a := a) (x := x) hleft
  unfold Memory.decref
  generalize m.heap.decref a = next at howned hinner hmade hstay hleave
  obtain ⟨left, heap⟩ := next
  dsimp only at howned hinner hmade hstay hleave
  cases left with
  | none =>
      have howners : Memory.owners { m with heap := heap } = m.owners := by
        unfold Memory.owners
        dsimp only
        rw [← hinner, Option.elim_none, add_zero]
      have hhas := hstay rfl
      refine ⟨?_, ?_, ?_, hm.nodup, ?_, hm.reasons, ?_⟩
      · rw [howners]
        exact howned
      · show Links _ m.history heap.made m.pid
        rw [hmade]
        apply hm.links.congr
        intro b y
        unfold Tracked
        rw [hhas]
      · intro b hb
        exact hm.plain b ((hhas b _).mp hb)
      · intro r hr
        show r.address < heap.made ∧ _
        rw [hmade]
        refine ⟨(hm.gone r hr).1, ?_⟩
        intro y hy
        exact (hm.gone r hr).2 y ((hhas _ y).mp hy)
      · intro b hb
        obtain ⟨-, y, hy, hfresh⟩ := hm.alone b hb
        refine ⟨?_, y, (hhas b _).mpr hy, hfresh⟩
        rw [howners]
        exact (halone b hb).2
  | some object =>
      obtain ⟨hobject, hhas⟩ := hleave object rfl
      have hfresh : ∀ r ∈ m.loose, r.address ≠ a := by
        intro r hr heq
        exact (hm.gone r hr).2 object (heq ▸ hobject)
      cases object with
      | callable =>
          have howners : Memory.owners { m with heap := heap } = m.owners := by
            unfold Memory.owners
            dsimp only
            rw [← hinner, show (some (.callable : PyObject P)).elim 0 objectRefs = 0 from rfl,
              add_zero]
          refine ⟨?_, ?_, ?_, hm.nodup, ?_, hm.reasons, ?_⟩
          · rw [howners]
            exact howned
          · show Links _ m.history heap.made m.pid
            rw [hmade]
            apply hm.links.congr
            intro b y
            unfold Tracked
            rw [hhas]
            constructor
            · rintro (⟨-, hy⟩ | hr)
              · exact .inl hy
              · exact .inr hr
            · rintro (hy | hr)
              · refine .inl ⟨?_, hy⟩
                rintro rfl
                cases hobject.unique hy
              · exact .inr hr
          · intro b hb
            exact hm.plain b ((hhas b _).mp hb).2
          · intro r hr
            show r.address < heap.made ∧ _
            rw [hmade]
            refine ⟨(hm.gone r hr).1, ?_⟩
            intro y hy
            exact (hm.gone r hr).2 y ((hhas _ y).mp hy).2
          · intro b hb
            obtain ⟨-, y, hy, hfresh⟩ := hm.alone b hb
            refine ⟨?_, y, (hhas b _).mpr ⟨(halone b hb).1, hy⟩, hfresh⟩
            rw [howners]
            exact (halone b hb).2
      | capsule x =>
          have howners : Memory.owners { m with heap := heap } + (handleRefs x + hand) =
              m.owners + hand := by
            have hinner : heap.inner objectRefs + handleRefs x = m.heap.inner objectRefs := hinner
            unfold Memory.owners
            dsimp only
            rw [← hinner]
            ac_rfl
          have hleaving : Leaving m hand a x heap := by
            refine ⟨?_, .inl hobject, hmade, hhas, hfresh, ?_⟩
            · rw [howners]
              exact howned
            · rw [howners]
              exact halone
          have halive := hm.links.alive a x (.inl hobject)
          dsimp only [Memory.capsuleDestructor]
          split
          next hfinalizing =>
            exact hleaving.loose hm ⟨by simp, fun _ => hfinalizing, by simp⟩
          next hrunning =>
            split
            next hforeign => exact hleaving.drop hm fun _ => hforeign
            next hown =>
              split
              next hpointer =>
                refine hleaving.loose hm ⟨fun _ => ⟨not_not.mp hown, ?_⟩, by simp, by simp⟩
                exact Option.isSome_iff_ne_none.mp hpointer
              next hnull =>
                refine hleaving.drop hm fun hobject => ?_
                exact absurd (Option.isSome_iff_ne_none.mpr (halive.mp hobject)) hnull

/-- The record of a capsule changes, and the references that it no longer has are in the hand of
whoever changes it. -/
theorem Sound.setRecord {hand' : Multiset ℕ} (hm : Sound m hand)
    (hx : m.heap.Has a (.capsule x)) (hnot : a ∉ m.creating) {alive : Bool}
    (hrefs : handleRefs y + hand' = handleRefs x + hand) (hpid : y.creatorPid = x.creatorPid)
    (hcallback : ∀ c, y.callback = some c → x.callback = some c)
    (hparent : ∀ p, y.parent = some p → x.parent = some p)
    (hown : y.pointer ≠ none → m.history.origin a = some (y.parent, y.creatorPid))
    (halive : alive = true ↔ y.pointer ≠ none) : Sound (m.setRecord a y alive) hand' := by
  have howners : (m.setRecord a y alive).owners + hand' = m.owners + hand := by
    have hinner : (m.heap.set a (.capsule y)).inner objectRefs + handleRefs x =
        m.heap.inner objectRefs + handleRefs y := hm.owned.inner_set objectRefs hx
    have hsum : (m.heap.set a (.capsule y)).inner objectRefs + hand' =
        m.heap.inner objectRefs + hand := by
      apply add_right_cancel (b := (handleRefs x : Multiset ℕ))
      rw [add_right_comm, hinner, add_assoc, hrefs]
      ac_rfl
    unfold Memory.owners Memory.setRecord
    dsimp only
    rw [add_assoc, add_assoc (looseRefs m.loose), hsum]
    ac_rfl
  have hhas : ∀ b object, (m.heap.set a (.capsule y)).Has b object ↔
      (b = a ∧ object = .capsule y) ∨ (b ≠ a ∧ m.heap.Has b object) := fun _ _ => Heap.has_set hx
  have hgone : ∀ r ∈ m.loose, r.address ≠ a := by
    intro r hr heq
    exact (hm.gone r hr).2 _ (heq ▸ hx)
  refine ⟨?_, ?_, ?_, hm.nodup, ?_, hm.reasons, ?_⟩
  · rw [howners]
    exact hm.owned.set hx
  · show Links _ (m.history.note a alive) (m.heap.set a (.capsule y)).made m.pid
    rw [Heap.set_made]
    refine (hm.links.set (.inl hx) hpid hcallback hparent hown halive).congr ?_
    intro b z
    unfold Tracked Memory.setRecord
    dsimp only
    rw [hhas]
    constructor
    · rintro ((⟨rfl, heq⟩ | ⟨hb, hz⟩) | ⟨r, hr, rfl, rfl⟩)
      · exact .inl ⟨rfl, PyObject.capsule.inj heq⟩
      · exact .inr ⟨hb, .inl hz⟩
      · exact .inr ⟨hgone r hr, .inr ⟨r, hr, rfl, rfl⟩⟩
    · rintro (⟨rfl, rfl⟩ | ⟨hb, hz | hr⟩)
      · exact .inl (.inl ⟨rfl, rfl⟩)
      · exact .inl (.inr ⟨hb, hz⟩)
      · exact .inr hr
  · intro b hb
    rcases (hhas b _).mp hb with ⟨-, heq⟩ | ⟨-, hb⟩
    · cases heq
    · exact hm.plain b hb
  · intro r hr
    show r.address < (m.heap.set a (.capsule y)).made ∧ _
    rw [Heap.set_made]
    refine ⟨(hm.gone r hr).1, ?_⟩
    intro z hz
    rcases (hhas _ z).mp hz with ⟨heq, -⟩ | ⟨-, hz⟩
    · exact hgone r hr heq
    · exact (hm.gone r hr).2 z hz
  · intro b hb
    obtain ⟨hone, z, hz, hfresh⟩ := hm.alone b hb
    have hne : b ≠ a := fun heq => hnot (heq ▸ hb)
    refine ⟨?_, z, (hhas b _).mpr (.inr ⟨hne, hz⟩), hfresh⟩
    rw [howners]
    exact hone

end Objects

/-! ## The steps -/

section Steps

variable {m : Memory P} {a : ℕ} {x : NativeHandle P ℕ}

theorem has_of_record (hx : m.record a = some x) : m.heap.Has a (.capsule x) := by
  unfold Memory.record at hx
  split at hx
  next n handle hcell =>
    cases hx
    exact ⟨n, hcell⟩
  next => cases hx

theorem has_of_callable (ha : m.callable a = true) : m.heap.Has a .callable := by
  unfold Memory.callable at ha
  split at ha
  next n hcell => exact ⟨n, hcell⟩
  next => cases ha

/-- A reference in the hand is one that somebody holds. -/
theorem Sound.give {hand : Multiset ℕ} (hm : Sound m (a ::ₘ hand)) :
    Sound { m with held := a ::ₘ m.held } hand := by
  apply hm.moved
  · simp only [Multiset.cons_add, Multiset.add_cons]
  · exact Multiset.Subset.refl _

/-- One that somebody holds can be in the hand. -/
theorem Sound.take (hm : Sound m 0) (ha : a ∈ m.held) :
    Sound { m with held := m.held.erase a } {a} := by
  have hheld : m.held.erase a + {a} = m.held := by
    rw [add_comm, Multiset.singleton_add, Multiset.cons_erase ha]
  apply hm.moved
  · rw [add_right_comm (m.held.erase a + m.creating), add_right_comm (m.held.erase a), hheld,
      add_zero]
  · exact Multiset.Subset.refl _

/-- A new capsule is in the hands of its creator, who goes into the native call. -/
theorem Sound.start (hm : Sound m {a}) (hx : m.heap.cell a = some (1, .capsule x))
    (hnull : x.pointer = none) (horigin : m.history.origin a = some (x.parent, x.creatorPid)) :
    Sound { m with creating := a ::ₘ m.creating } 0 := by
  have howners : Memory.owners { m with creating := a ::ₘ m.creating } + 0 = m.owners + {a} := by
    unfold Memory.owners
    dsimp only
    rw [← Multiset.singleton_add, add_zero]
    ac_rfl
  refine ⟨?_, hm.links, hm.plain, hm.nodup, hm.gone, hm.reasons, ?_⟩
  · rw [howners]
    exact hm.owned
  · intro b hb
    rw [howners]
    rcases Multiset.mem_cons.mp hb with rfl | hb
    · exact ⟨(hm.owned.refs b 1 _ hx).1.symm, x, ⟨1, hx⟩, hnull, horigin⟩
    · exact hm.alone b hb

/-- A creation begins. -/
theorem Sound.create [DecidableEq P] (hm : Sound m 0) {kind : HandleKind}
    {callback parent : Option ℕ} {allocation : Allocation}
    (harguments : Arguments m kind callback parent) :
    Sound (m.create kind callback parent allocation) 0 := by
  unfold Memory.create
  split
  · exact hm
  next hcallable =>
    split
    · exact hm
    next hrecord =>
      have hheld : ∀ b ∈ handleRefs (⟨kind, none, callback, parent, m.pid⟩ : NativeHandle P ℕ),
          b ∈ m.held := by
        intro b hb
        simp only [handleRefs, List.mem_append, Option.mem_toList] at hb
        rcases hb with hb | hb
        · exact harguments.1 b hb
        · exact (harguments.2 b hb).1
      have hrefs := hm.increfAll hheld
      obtain ⟨heap, heq, hmade, hhas⟩ :=
        increfAll_eq m (handleRefs (⟨kind, none, callback, parent, m.pid⟩ : NativeHandle P ℕ))
      rw [add_zero] at hrefs
      dsimp only
      rw [heq] at hrefs ⊢
      have hnew : Sound (Memory.capsuleNew { m with heap := heap }
          ⟨kind, none, callback, parent, m.pid⟩) (heap.made ::ₘ 0) := by
        apply Sound.capsuleNew _ rfl rfl
        · rintro c rfl
          exact (hhas c _).mpr (has_of_callable (by simpa using hcallable))
        · rintro p rfl
          obtain ⟨y, hy⟩ := Option.isSome_iff_exists.mp (harguments.2 p rfl).2
          exact ⟨y, (hhas p _).mpr (has_of_record (Option.filter_eq_some_iff.mp hy).1)⟩
        · rw [add_zero]
          exact hrefs
      split
      · apply hrefs.moved
        · ac_rfl
        · exact Multiset.Subset.refl _
      · exact hnew.decref
      · apply hnew.start
        · exact Function.update_self ..
        · rfl
        · exact m.history.make_origin_self ..

/-- The native call of a creation comes back. -/
theorem Sound.nativeCreated (hm : Sound m 0) (ha : a ∈ m.creating) (hx : m.record a = some x)
    (pointer : Option P) (error : ℤ) : Sound (m.nativeCreated a x pointer error) 0 := by
  obtain ⟨-, y, hy, hnull, horigin⟩ := hm.alone a ha
  have hhas := has_of_record hx
  obtain rfl : x = y := PyObject.capsule.inj (hhas.unique hy)
  have htaken : Sound { m with creating := m.creating.erase a } {a} := by
    have hcreating : m.creating.erase a + {a} = m.creating := by
      rw [add_comm, Multiset.singleton_add, Multiset.cons_erase ha]
    apply hm.moved
    · rw [add_right_comm, add_assoc m.held, hcreating, add_zero]
    · exact Multiset.erase_subset a m.creating
  have hnot : a ∉ m.creating.erase a := htaken.not_creating (by simp)
  unfold Memory.nativeCreated
  cases pointer with
  | none => exact htaken.give
  | some p =>
      have hset : Sound (Memory.setRecord { m with creating := m.creating.erase a } a
          { x with pointer := some p } true) {a} := by
        apply htaken.setRecord hhas hnot
        · rfl
        · rfl
        · exact fun _ => id
        · exact fun _ => id
        · exact fun _ => horigin
        · simp
      dsimp only
      split
      · apply hset.moved
        · rw [add_zero, ← Multiset.singleton_add]
          ac_rfl
        · exact Multiset.Subset.refl _
      · exact hset.give

/-- A close begins. -/
theorem Sound.pyClose (hm : Sound m 0) (ha : a ∈ m.held) : Sound (m.pyClose a x) 0 := by
  unfold Memory.pyClose
  split
  · apply (hm.take ha).moved
    · rw [add_zero, ← Multiset.singleton_add]
      ac_rfl
    · exact Multiset.Subset.refl _
  · exact hm

/-- A close comes back. -/
theorem Sound.closed (hm : Sound m 0) (ha : a ∈ m.closing) (hx : m.record a = some x) (answer : ℤ) :
    Sound (m.closed a x answer) 0 := by
  have hclosing : m.closing.erase a + {a} = m.closing := by
    rw [add_comm, Multiset.singleton_add, Multiset.cons_erase ha]
  have hmoved : Sound { m with closing := m.closing.erase a, held := a ::ₘ m.held } 0 := by
    apply hm.moved
    · conv_rhs => rw [← hclosing]
      rw [← Multiset.singleton_add]
      ac_rfl
    · exact Multiset.Subset.refl _
  have hnot : a ∉ m.creating := hm.not_creating (by simp [ha])
  unfold Memory.closed
  dsimp only
  split
  · have hset : Sound (Memory.setRecord
        { m with closing := m.closing.erase a, held := a ::ₘ m.held } a
        { x with pointer := none, callback := none, parent := none } false) (handleRefs x) := by
      apply hmoved.setRecord (has_of_record hx) hnot
      all_goals simp [handleRefs]
    apply hset.moved
    · ac_rfl
    · exact Multiset.Subset.refl _
  · exact hmoved

/-- The native destroy of a destructor comes back. -/
theorem Sound.died [DecidableEq P] (hm : Sound m 0) {r : Loose P} (hr : r ∈ m.loose)
    (answer : ℤ) : Sound (m.died r answer) 0 := by
  obtain ⟨rest, hrest⟩ := Multiset.exists_cons_of_mem hr
  have herase : m.loose.erase r = rest := by rw [hrest, Multiset.erase_cons_head]
  have hnodup := hm.nodup
  rw [hrest, Multiset.map_cons, Multiset.nodup_cons] at hnodup
  have hother : ∀ q ∈ rest, q.address ≠ r.address := by
    intro q hq heq
    exact hnodup.1 (Multiset.mem_map.mpr ⟨q, hq, heq⟩)
  have hmem : ∀ q ∈ rest, q ∈ m.loose := by
    intro q hq
    rw [hrest]
    exact Multiset.mem_cons_of_mem hq
  have htracked : Tracked m r.address r.handle := .inr ⟨r, hr, rfl, rfl⟩
  unfold Memory.died
  dsimp only
  rw [herase]
  split
  · have howners : Memory.owners (Memory.dropRecord { m with
        loose := rest, history := m.history.note r.address false } r.handle) + 0 =
          m.owners + 0 := by
      unfold Memory.owners Memory.dropRecord
      dsimp only
      rw [hrest, looseRefs_cons]
      ac_rfl
    refine ⟨?_, ?_, hm.plain, hnodup.2, fun q hq => hm.gone q (hmem q hq),
      fun q hq => hm.reasons q (hmem q hq), ?_⟩
    · rw [howners]
      exact hm.owned
    · have hlinks : Links (fun b z => b ≠ r.address ∧ Tracked m b z)
          (m.history.note r.address false) m.heap.made m.pid := by
        apply hm.links.drop htracked
        · rfl
        · intro b hb
          exact m.history.note_object_of_ne _ hb
        · intro hobject
          cases (m.history.note_object_self _ _).symm.trans hobject
      apply hlinks.congr
      intro b y
      unfold Tracked Memory.dropRecord
      dsimp only
      constructor
      · rintro (hy | ⟨q, hq, rfl, rfl⟩)
        · refine ⟨?_, .inl hy⟩
          rintro rfl
          exact (hm.gone r hr).2 _ hy
        · exact ⟨hother q hq, .inr ⟨q, hmem q hq, rfl, rfl⟩⟩
      · rintro ⟨hb, hy | ⟨q, hq, rfl, rfl⟩⟩
        · exact .inl hy
        · rw [hrest] at hq
          rcases Multiset.mem_cons.mp hq with rfl | hq
          · exact absurd rfl hb
          · exact .inr ⟨q, hq, rfl, rfl⟩
    · intro b hb
      rw [howners]
      exact hm.alone b hb
  · have howners : Memory.owners { m with loose := { r with reason := .failed } ::ₘ rest } + 0 =
        m.owners + 0 := by
      unfold Memory.owners
      dsimp only
      rw [hrest, looseRefs_cons, looseRefs_cons]
    refine ⟨?_, ?_, hm.plain, ?_, ?_, ?_, ?_⟩
    · rw [howners]
      exact hm.owned
    · apply hm.links.congr
      intro b y
      unfold Tracked
      rw [hrest]
      simp only [Multiset.mem_cons, exists_eq_or_imp]
    · rw [Multiset.map_cons, Multiset.nodup_cons]
      exact hnodup
    · intro q hq
      rcases Multiset.mem_cons.mp hq with rfl | hq
      · exact hm.gone r hr
      · exact hm.gone q (hmem q hq)
    · intro q hq
      rcases Multiset.mem_cons.mp hq with rfl | hq
      · simp
      · exact hm.reasons q (hmem q hq)
    · intro b hb
      rw [howners]
      exact hm.alone b hb

@[simp] theorem fork_address (r : Loose P) : r.fork.address = r.address := by
  unfold Loose.fork
  split
  · rfl
  · rfl

@[simp] theorem fork_handle (r : Loose P) : r.fork.handle = r.handle := by
  unfold Loose.fork
  split
  · rfl
  · rfl

/-- The process forks. -/
theorem Sound.forked (hm : Sound m 0) {pid : ℕ}
    (hpid : ∀ a parent creator, m.history.origin a = some (parent, creator) → creator ≠ pid) :
    Sound (m.forked pid) 0 := by
  have howners : (m.forked pid).owners + 0 = m.owners + 0 := by
    unfold Memory.owners Memory.forked
    dsimp only
    have hloose : looseRefs (m.loose.map Loose.fork) = looseRefs m.loose := by
      simp [looseRefs, Multiset.bind_map]
    simp only [hloose, add_zero]
  have hforeign : ∀ r ∈ m.loose, r.handle.creatorPid ≠ pid := by
    intro r hr
    obtain ⟨parent, horigin, -⟩ := hm.links.known r.address r.handle (.inr ⟨r, hr, rfl, rfl⟩)
    exact hpid r.address parent _ horigin
  refine ⟨?_, ?_, hm.plain, ?_, ?_, ?_, ?_⟩
  · rw [howners]
    exact hm.owned
  · apply (hm.links.fork hpid).congr
    intro b y
    unfold Tracked Memory.forked
    simp only [Multiset.mem_map, exists_exists_and_eq_and, fork_address, fork_handle]
  · simp only [Memory.forked, Multiset.map_map, Function.comp_def, fork_address]
    exact hm.nodup
  · intro r hr
    obtain ⟨q, hq, rfl⟩ := Multiset.mem_map.mp hr
    rw [fork_address]
    exact hm.gone q hq
  · intro r hr
    obtain ⟨q, hq, rfl⟩ := Multiset.mem_map.mp hr
    rw [fork_handle]
    have hold := hm.reasons q hq
    unfold Loose.fork
    split
    · exact ⟨by simp, by simp, fun _ => hforeign q hq⟩
    next hreason =>
      exact ⟨fun h => absurd h hreason, hold.2.1, fun _ => hforeign q hq⟩
  · intro b hb
    exact absurd hb (Multiset.notMem_zero b)

/-- **One step** keeps the invariant. -/
theorem Sound.step [DecidableEq P] {m' : Memory P} {action : TreeAction P} (hm : Sound m 0)
    (hpid : OwnPid m action) (hstep : treeStep m action = some m') : Sound m' 0 := by
  cases action with
  | callable =>
      cases hstep
      exact hm.callable.give
  | copy b =>
      obtain ⟨hb, hstep⟩ := Option.ite_none_right_eq_some.mp hstep
      cases hstep
      exact (hm.incref (by simp [hb])).give
  | drop b =>
      obtain ⟨hb, hstep⟩ := Option.ite_none_right_eq_some.mp hstep
      cases hstep
      exact (hm.take hb).decref
  | create kind callback parent allocation =>
      obtain ⟨harguments, hstep⟩ := Option.ite_none_right_eq_some.mp hstep
      cases hstep
      exact hm.create harguments
  | created b pointer error =>
      obtain ⟨hb, hstep⟩ := Option.ite_none_right_eq_some.mp hstep
      obtain ⟨x, hx, rfl⟩ := Option.map_eq_some_iff.mp hstep
      exact hm.nativeCreated hb hx pointer error
  | close b =>
      obtain ⟨hb, hstep⟩ := Option.ite_none_right_eq_some.mp hstep
      obtain ⟨x, hx, rfl⟩ := Option.map_eq_some_iff.mp hstep
      exact hm.pyClose hb
  | closed b answer =>
      obtain ⟨hb, hstep⟩ := Option.ite_none_right_eq_some.mp hstep
      obtain ⟨x, hx, rfl⟩ := Option.map_eq_some_iff.mp hstep
      exact hm.closed hb hx answer
  | died r answer =>
      obtain ⟨⟨hr, -⟩, hstep⟩ := Option.ite_none_right_eq_some.mp hstep
      cases hstep
      exact hm.died hr answer
  | fork pid =>
      cases hstep
      exact hm.forked hpid
  | finalize =>
      cases hstep
      refine ⟨hm.owned, hm.links, hm.plain, hm.nodup, hm.gone, ?_, hm.alone⟩
      intro r hr
      exact ⟨(hm.reasons r hr).1, fun _ => rfl, (hm.reasons r hr).2.2⟩

/-- Nothing has been made yet. -/
theorem Sound.empty (pid : ℕ) : Sound ({ pid := pid } : Memory P) 0 where
  owned := Owned.empty
  links :=
    { older := by
        rintro a x (⟨n, hcell⟩ | ⟨r, hr, -⟩)
        · cases hcell
        · exact absurd hr (Multiset.notMem_zero r)
      known := by
        rintro a x (⟨n, hcell⟩ | ⟨r, hr, -⟩)
        · cases hcell
        · exact absurd hr (Multiset.notMem_zero r)
      callbacks := fun _ _ _ _ _ => rfl
      alive := by
        rintro a x (⟨n, hcell⟩ | ⟨r, hr, -⟩)
        · cases hcell
        · exact absurd hr (Multiset.notMem_zero r)
      tracked := by
        intro a parent horigin
        cases horigin
      unmade := fun _ _ => ⟨rfl, rfl⟩
      lineage := by
        intro b a creator horigin
        cases horigin }
  plain _ _ := rfl
  nodup := Multiset.nodup_zero
  gone r hr := absurd hr (Multiset.notMem_zero r)
  reasons r hr := absurd hr (Multiset.notMem_zero r)
  alone a ha := absurd ha (Multiset.notMem_zero a)

/-- **The run lemma.** -/
theorem reach_sound [DecidableEq P] (hm : (tree P).ReachWith OwnPid m) : Sound m 0 := by
  apply hm.invariant (I := fun m => Sound m 0)
  · rintro m ⟨pid, rfl⟩
    exact Sound.empty pid
  · intro m action m' hm hpid hstep
    exact hm.step hpid hstep

end Steps

/-! ## The order -/

section Order

variable {m : Memory P} {a b : ℕ} {x : NativeHandle P ℕ}

/-- The record of `b` holds a reference to `a`. -/
def Keeps (m : Memory P) (b a : ℕ) : Prop := ∃ x, Tracked m b x ∧ a ∈ handleRefs x

/-- **What the destructors keep to.** -/
structure InOrder (m : Memory P) : Prop where
  /-- Where the destructor of a capsule destroys the native object, those that were made with the
  capsule as their parent are gone. -/
  children_first : ∀ r ∈ m.loose, r.reason = .dying → ∀ b creator,
    m.history.origin b = some (some r.address, creator) → m.history.object b = false
  /-- It destroys an object that has not been destroyed before. -/
  once : ∀ r ∈ m.loose, r.reason = .dying → m.history.object r.address = true
  /-- Whatever is referred to has not been freed. -/
  referenced : ∀ a ∈ m.owners, ∃ object, m.heap.Has a object
  /-- When nobody has a reference and no native call is running, an object of this process that
  still exists could not be destroyed, or is kept by one that could not. -/
  left_over : m.held = 0 → m.creating = 0 → m.closing = 0 → (∀ r ∈ m.loose, r.reason ≠ .dying) →
    ∀ a parent, m.history.origin a = some (parent, m.pid) → m.history.object a = true →
      ∃ r ∈ m.loose, (r.reason = .failed ∨ m.finalizing = true) ∧
        Relation.ReflTransGen (Keeps m) r.address a

/-- Whatever keeps a capsule of this process is of this process. -/
theorem Sound.own_of_keeps (hm : Sound m 0) (hkeeps : Keeps m b a)
    (ha : ∃ parent, m.history.origin a = some (parent, m.pid)) :
    ∃ parent, m.history.origin b = some (parent, m.pid) := by
  obtain ⟨x, hx, hmem⟩ := hkeeps
  obtain ⟨parent, ha⟩ := ha
  obtain ⟨parent', hb, -, hsame⟩ := hm.links.known b x hx
  simp only [handleRefs, List.mem_append, Option.mem_toList] at hmem
  rcases hmem with hcallback | hparent
  · cases (hm.links.callbacks b x a hx hcallback).symm.trans ha
  · obtain rfl := hsame a hparent
    obtain ⟨parent'', creator, ha', hown⟩ := hm.links.lineage b a _ hb
    have heq := ha.symm.trans ha'
    rw [Option.some.injEq, Prod.mk.injEq] at heq
    exact ⟨some a, by rw [hb, hown heq.2.symm]⟩

theorem Sound.own_of_path (hm : Sound m 0) (hpath : Relation.ReflTransGen (Keeps m) b a)
    (ha : ∃ parent, m.history.origin a = some (parent, m.pid)) :
    ∃ parent, m.history.origin b = some (parent, m.pid) := by
  induction hpath using Relation.ReflTransGen.head_induction_on with
  | refl => exact ha
  | head hkeeps _ ih => exact hm.own_of_keeps hkeeps ih

/-- A record without a capsule whose native destroy is not running, in the process that made it. -/
theorem Sound.reason (hm : Sound m 0) {r : Loose P} (hr : r ∈ m.loose)
    (hdying : r.reason ≠ .dying)
    (hown : ∃ parent, m.history.origin r.address = some (parent, m.pid)) :
    r.reason = .failed ∨ m.finalizing = true := by
  obtain ⟨parent, horigin⟩ := hown
  obtain ⟨parent', horigin', -⟩ := hm.links.known r.address r.handle (.inr ⟨r, hr, rfl, rfl⟩)
  have heq := horigin.symm.trans horigin'
  rw [Option.some.injEq, Prod.mk.injEq] at heq
  obtain ⟨-, hfinalized, hforked⟩ := hm.reasons r hr
  cases hreason : r.reason with
  | dying => exact absurd hreason hdying
  | failed => exact .inl rfl
  | finalized => exact .inr (hfinalized hreason)
  | forked => exact absurd heq.2.symm (hforked hreason)

end Order

end Tirtc.HandleTree
