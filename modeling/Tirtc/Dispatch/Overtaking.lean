import Tirtc.Dispatch.Accounts

/-!
# News in front of older events

The sink writes a `state` or `time` event over an older one of its kind, in the place of that in the
queue. So the newer event is handed over in front of what was accepted in between, and in no other
case.

* `handed_before_iff`: of two events handed over the older one came first, unless the newer one has
  taken over a place in front of it.
* `state_overtakes`: the run of a state event in front of a command.
-/

set_option autoImplicit false

namespace Tirtc

open Dispatcher Delivery Transition

namespace Handing

variable {V : Type} [FrameValues V] {s : Handing V}

/-- **When news overtakes**: of two events handed over the one accepted first comes first, exactly
when the post of the other has not taken over the place of an event in front of it.
Source: `_dispatch.py`, `_Dispatcher.post`, `_Dispatcher._drain_one` -/
theorem handed_before_iff {capacity : ℕ} {frameCapacity : Option ℕ}
    (hs : (machine V capacity frameCapacity).Reach s) {i j : ℕ} {a b : Event (Tagged V)}
    (ha : s.handed.reverse[i]? = some a) (hb : s.handed.reverse[j]? = some b)
    (hposted : a.tag < b.tag) : i < j ↔ (b, a) ∉ s.overtaken := by
  have htraced := reach_traced hs
  have hsub : s.handed.reverse.Sublist s.trace := by
    unfold trace
    rw [List.append_assoc]
    exact List.sublist_append_left _ _
  have hrow := List.pairwise_iff_getElem.mp (htraced.inTurn.sublist hsub)
  obtain ⟨hi, rfl⟩ := List.getElem?_eq_some_iff.mp ha
  obtain ⟨hj, rfl⟩ := List.getElem?_eq_some_iff.mp hb
  constructor
  · intro hlt
    rcases hrow i j hi hj hlt with ⟨-, hnot⟩ | ⟨hgt, -⟩
    · exact hnot
    · omega
  · intro hnot
    by_contra hge
    have hne : i ≠ j := by
      rintro rfl
      omega
    rcases hrow j i hj hi (by omega) with ⟨hgt, -⟩ | ⟨-, hmem⟩
    · omega
    · exact hnot hmem

/-- Two events posted one after the other, and drained. -/
theorem handed_before_command :
    ∃ s, (machine (List PyValue) 64 none).Reach s ∧
      s.handed.reverse[0]? = some (nativeEvent .command ⟨0, [.int 1]⟩) ∧
      s.handed.reverse[1]? = some (nativeEvent .state ⟨1, [.int 2]⟩) ∧
      (0 < 1 ↔ (nativeEvent .state ⟨1, [.int 2]⟩, nativeEvent .command ⟨0, [.int 1]⟩) ∉
        s.overtaken) := by
  have hstart : (machine (List PyValue) 64 none).start { dispatcher := .init 64 none } := rfl
  have hrun : ((machine (List PyValue) 64 none).exec { dispatcher := .init 64 none }
      (.post .command [.int 1] :: .post .state [.int 2] :: drains ++ drains)).any
        (fun s => decide (
          s.handed.reverse[0]? = some (nativeEvent .command ⟨0, [.int 1]⟩) ∧
          s.handed.reverse[1]? = some (nativeEvent .state ⟨1, [.int 2]⟩))) = true := by
    decide +kernel
  obtain ⟨s, hs, htest⟩ := Machine.exists_reach hstart hrun
  obtain ⟨hcommand, hstate⟩ := of_decide_eq_true htest
  exact ⟨s, hs, hcommand, hstate, handed_before_iff hs hcommand hstate (by decide)⟩

/-- **A state event overtakes a command**: the command is accepted behind one state event, and the
next state event takes over the place of that. -/
theorem state_overtakes :
    ¬ ∀ s, (machine (List PyValue) 64 none).Reach s →
      ∀ (i j : ℕ) (a b : Event (Tagged (List PyValue))), s.handed.reverse[i]? = some a →
        s.handed.reverse[j]? = some b → a.kind = .command → b.kind = .state → a.tag < b.tag →
        i < j := by
  intro h
  have hstart : (machine (List PyValue) 64 none).start { dispatcher := .init 64 none } := rfl
  have hrun : ((machine (List PyValue) 64 none).exec { dispatcher := .init 64 none }
      ([.post .state [.int 1], .post .command [.int 2], .post .state [.int 3]] ++ drains ++
        drains)).any (fun s => decide (
          s.handed.reverse[1]? = some (nativeEvent .command ⟨1, [.int 2]⟩) ∧
          s.handed.reverse[0]? = some (nativeEvent .state ⟨2, [.int 3]⟩))) = true := by
    decide +kernel
  obtain ⟨s, hs, htest⟩ := Machine.exists_reach hstart hrun
  obtain ⟨hcommand, hstate⟩ := of_decide_eq_true htest
  have hlt := h s hs 1 0 _ _ hcommand hstate rfl rfl (by decide)
  omega

end Handing

end Tirtc
