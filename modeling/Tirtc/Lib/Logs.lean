import Mathlib.Data.List.Basic

/-!
# Logs: what may happen after what

A log is a list of events with the newest first. What an event needs of the older ones is a
relation; a log is legal when every event met it at its time.

* `Legal`: the legal logs.
* `Legal.allowed`: every event of a legal log was allowed after the older ones.
* `Legal.unique`: an event that excludes its like among the older ones is there at most once.
-/

set_option autoImplicit false

namespace Log

universe u

variable {ε : Type u}

/-- Every event of the log was allowed after the older ones. -/
def Legal (ok : List ε → ε → Prop) : List ε → Prop
  | [] => True
  | event :: older => ok older event ∧ Legal ok older

variable {ok : List ε → ε → Prop} {log : List ε}

/-- An event of a legal log was allowed after the older ones. -/
theorem Legal.allowed {older : List ε} {event : ε} (h : Legal ok log)
    (hsuffix : (event :: older) <:+ log) : ok older event := by
  induction log with
  | nil => exact absurd (List.suffix_nil.mp hsuffix) (List.cons_ne_nil _ _)
  | cons newest rest ih =>
      rcases List.suffix_cons_iff.mp hsuffix with heq | hrest
      · cases heq
        exact h.1
      · exact ih h.2 hrest

/-- Two events of a kind that excludes its like among the older ones are the same. -/
theorem Legal.unique (kind : ε → Prop)
    (hkind : ∀ older event, kind event → ok older event → ∀ e ∈ older, ¬ kind e)
    {a b : ε} (h : Legal ok log) (ha : kind a) (hb : kind b) (ha' : a ∈ log) (hb' : b ∈ log) :
    a = b := by
  induction log with
  | nil => cases ha'
  | cons newest rest ih =>
      rcases List.mem_cons.mp ha' with rfl | harest
      · rcases List.mem_cons.mp hb' with rfl | hbrest
        · rfl
        · exact absurd hb (hkind _ _ ha h.1 b hbrest)
      · rcases List.mem_cons.mp hb' with rfl | hbrest
        · exact absurd ha (hkind _ _ hb h.1 a harest)
        · exact ih h.2 harest hbrest

end Log
