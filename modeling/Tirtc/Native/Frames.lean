import Mathlib.Data.Nat.Notation
import Tirtc.Lib.Machine
import Tirtc.Lib.RefCounts

/-!
# Who owns the frames of the Runtime

The bytes of a frame reach the application without a copy: a `FrameBuffer` keeps the frame of the
Runtime alive, and memoryviews keep the `FrameBuffer` alive. A frame has one view, a view of its
data and one of its codec configuration, or one view for each plane; any allocation on the way may
fail.

* `FrameKind`, `FrameBuffer`, `Memory`: the buffers, who holds their views, and what the Runtime has
  been asked to retain and to release.
* `frameRelease`, `frameBufferDealloc`, `frameMemoryview`, `callCallbackLocked`: as in the source.
* `outputOnAudioFrame`, `outputOnEncodedAudioFrame`, `outputOnEncodedVideoFrame`,
  `outputOnVideoFrame`: the callbacks of the Runtime.
* `FrameAction`, `frames`: frames that arrive, views that are copied and dropped, forks and the end
  of the interpreter, in any order.
* `Sound`: the invariant; `frames_balanced`: what it says of every run.
-/

set_option autoImplicit false

namespace Tirtc.Frames

open Transition RefCounts

/-! ## The record -/

/-- Source: `extension.c`, `FrameKind` -/
inductive FrameKind
  | audio | video | encodedAudio | encodedVideo
  deriving DecidableEq, Repr

/-- What owns a frame `F`; `none` is `NULL`. Source: `extension.c`, `FrameBuffer` -/
structure FrameBuffer (F : Type) where
  kind : FrameKind
  frame : Option F
  size : ℕ
  creatorPid : ℕ

/-- The buffers and the references to their memoryviews that the queues and the application hold. A
reference to a memoryview counts as a reference to its buffer. `retained` and `released` are
history: the calls of the `ti_…_frame_retain` functions in this process that gave a frame, and those
of the `ti_…_frame_release` functions. -/
structure Memory (F : Type) where
  heap : Heap (FrameBuffer F) := {}
  held : Multiset ℕ := 0
  pid : ℕ
  finalizing : Bool := false
  retained : FrameKind × F → ℕ := fun _ => 0
  released : FrameKind × F → ℕ := fun _ => 0

/-- `PY_SSIZE_T_MAX` -/
def pySsizeMax : ℕ := 2 ^ 63 - 1

/-- One view to make: the bytes it shows, whether the `FrameBuffer` can be allocated, what the
Runtime retains, and whether the memoryview can be allocated. -/
structure ViewRequest (F : Type) where
  size : ℕ
  owner : Bool
  retained : Option F
  view : Bool

/-! ## The functions -/

namespace Memory

variable {F : Type} [DecidableEq F] (m : Memory F)

/-- Source: `extension.c`, `frame_release` -/
def frameRelease (kind : FrameKind) : Option F → Memory F
  | none => m
  | some frame =>
      { m with released :=
          Function.update m.released (kind, frame) (m.released (kind, frame) + 1) }

/-- Source: `extension.c`, `frame_retain` -/
def frameRetain (kind : FrameKind) : Option F → Memory F
  | none => m
  | some frame =>
      { m with retained :=
          Function.update m.retained (kind, frame) (m.retained (kind, frame) + 1) }

/-- Source: `extension.c`, `frame_buffer_dealloc` -/
def frameBufferDealloc (buffer : FrameBuffer F) : Memory F :=
  if !m.finalizing && buffer.creatorPid = m.pid then m.frameRelease buffer.kind buffer.frame
  else m

omit [DecidableEq F] in
/-- `Py_INCREF` -/
def incref (a : ℕ) : Memory F := { m with heap := m.heap.incref a }

/-- `Py_DECREF` -/
def decref (a : ℕ) : Memory F :=
  match m.heap.decref a with
  | (some buffer, heap) => { m with heap := heap }.frameBufferDealloc buffer
  | (none, heap) => { m with heap := heap }

/-- `Py_DECREF` of each element of a tuple. -/
def decrefAll : Memory F → List ℕ → Memory F
  | m, [] => m
  | m, a :: rest => decrefAll (m.decref a) rest

/-- The view is the buffer it shows; `none` is `NULL`.
Source: `extension.c`, `frame_memoryview` -/
def frameMemoryview (kind : FrameKind) (request : ViewRequest F) : Option ℕ × Memory F :=
  if request.size > pySsizeMax then (none, m)
  else if !request.owner then (none, m)
  else
    let owner := m.heap.made
    let m := { m.frameRetain kind request.retained with
      heap := m.heap.new ⟨kind, request.retained, request.size, m.pid⟩ }
    match request.retained with
    | none => (none, m.decref owner)
    | some _ =>
        if request.view then (some owner, (m.incref owner).decref owner)
        else (none, m.decref owner)

/-- The arguments own their views. `keeps` says whether the callback keeps them; `none` is `NULL`.
Source: `extension.c`, `call_callback_locked` -/
def callCallbackLocked (arguments : Option (List ℕ)) (keeps : Bool) : Memory F :=
  match arguments with
  | none => m
  | some views => if keeps then { m with held := ↑views + m.held } else m.decrefAll views

/-- `built` says whether the arguments can be built.
Source: `extension.c`, `output_on_audio_frame` -/
def outputOnAudioFrame (data : ViewRequest F) (built keeps : Bool) : Memory F :=
  match m.frameMemoryview .audio data with
  | (none, m) => m
  | (some data, m) =>
      if built then ((m.incref data).decref data).callCallbackLocked (some [data]) keeps
      else (m.decref data).callCallbackLocked none keeps

/-- What the two callbacks of encoded frames have in common. -/
def outputOnEncodedFrame (kind : FrameKind) (data config : ViewRequest F) (built keeps : Bool) :
    Memory F :=
  match m.frameMemoryview kind data with
  | (none, m) => m
  | (some data, m) =>
      match m.frameMemoryview kind config with
      | (none, m) => m.decref data
      | (some config, m) =>
          let m :=
            if built then
              ((m.incref data).incref config).callCallbackLocked (some [data, config]) keeps
            else m.callCallbackLocked none keeps
          (m.decref data).decref config

/-- Source: `extension.c`, `output_on_encoded_audio_frame` -/
def outputOnEncodedAudioFrame : ViewRequest F → ViewRequest F → Bool → Bool → Memory F :=
  m.outputOnEncodedFrame .encodedAudio

/-- Source: `extension.c`, `output_on_encoded_video_frame` -/
def outputOnEncodedVideoFrame : ViewRequest F → ViewRequest F → Bool → Bool → Memory F :=
  m.outputOnEncodedFrame .encodedVideo

/-- The planes from one on, each with whether its tuple can be built. `done` are the planes before;
`none` is the `NULL` of a plane that could not be made, for which the others have been let go of.
Source: `extension.c`, `output_on_video_frame` -/
def videoPlanes : Memory F → List ℕ → List (ViewRequest F × Bool) → Option (List ℕ) × Memory F
  | m, done, [] => (some done, m)
  | m, done, (plane, built) :: rest =>
      match m.frameMemoryview .video plane with
      | (none, m) => (none, m.decrefAll done)
      | (some data, m) =>
          if built then videoPlanes ((m.incref data).decref data) (done ++ [data]) rest
          else (none, (m.decref data).decrefAll done)

/-- `tuple` says whether the tuple of the planes can be allocated.
Source: `extension.c`, `output_on_video_frame` -/
def outputOnVideoFrame (planes : List (ViewRequest F × Bool)) (tuple built keeps : Bool) :
    Memory F :=
  if tuple then
    match m.videoPlanes [] planes with
    | (none, m) => m
    | (some views, m) =>
        -- the arguments take the tuple over, or it goes with its views
        if built then m.callCallbackLocked (some views) keeps
        else (m.decrefAll views).callCallbackLocked none keeps
  else m

end Memory

/-! ## The machine -/

/-- What happens: a frame arrives, somebody makes another reference to a view or gives one up, the
process goes on as a fork with its own process id, or the interpreter ends. -/
inductive FrameAction (F : Type)
  | audio (data : ViewRequest F) (built keeps : Bool)
  | encodedAudio (data config : ViewRequest F) (built keeps : Bool)
  | encodedVideo (data config : ViewRequest F) (built keeps : Bool)
  | video (planes : List (ViewRequest F × Bool)) (tuple built keeps : Bool)
  | copy (a : ℕ)
  | drop (a : ℕ)
  | fork (pid : ℕ)
  | finalize

/-- The process forks. -/
def FrameAction.forks {F : Type} : FrameAction F → Bool
  | .fork _ => true
  | _ => false

section Machine

variable {F : Type} [DecidableEq F]

/-- One step. No callback is made once the interpreter ends; the calls of the parent are not those
of a fork. Source: `extension.c`, `callback_gil_ensure` and `py_mark_finalizing` -/
def frameStep (m : Memory F) : FrameAction F → Option (Memory F)
  | .audio data built keeps =>
      if m.finalizing then none else some (m.outputOnAudioFrame data built keeps)
  | .encodedAudio data config built keeps =>
      if m.finalizing then none else some (m.outputOnEncodedAudioFrame data config built keeps)
  | .encodedVideo data config built keeps =>
      if m.finalizing then none else some (m.outputOnEncodedVideoFrame data config built keeps)
  | .video planes tuple built keeps =>
      if m.finalizing then none else some (m.outputOnVideoFrame planes tuple built keeps)
  | .copy a =>
      if a ∈ m.held then some { m.incref a with held := a ::ₘ m.held } else none
  | .drop a =>
      if a ∈ m.held then some { m.decref a with held := m.held.erase a } else none
  | .fork pid => some { m with pid := pid, retained := fun _ => 0, released := fun _ => 0 }
  | .finalize => some { m with finalizing := true }

/-- **The frames of one process**, and of its forks. -/
def frames (F : Type) [DecidableEq F] : Machine (Memory F) (FrameAction F) where
  start m := ∃ pid, m = { pid := pid }
  step := frameStep

/-- A fork has a process id of its own, other than that of any process whose buffers it has. -/
def OwnPid (m : Memory F) : FrameAction F → Prop
  | .fork pid => ∀ a n buffer, m.heap.cell a = some (n, buffer) → buffer.creatorPid ≠ pid
  | _ => True

end Machine

/-! ## The invariant -/

section Invariant

variable {F : Type} [DecidableEq F]

/-- The buffers of this process that own a frame through the functions of its kind. -/
def Own (pid : ℕ) (key : FrameKind × F) (buffer : FrameBuffer F) : Prop :=
  buffer.kind = key.1 ∧ buffer.frame = some key.2 ∧ buffer.creatorPid = pid

instance (pid : ℕ) (key : FrameKind × F) : DecidablePred (Own (F := F) pid key) :=
  fun buffer => inferInstanceAs (Decidable (buffer.kind = key.1 ∧ _))

/-- **The invariant**, for the references `owners`: every buffer has one reference for each, and
what has been retained and not released is what the buffers of this process own. -/
structure Sound (m : Memory F) (owners : Multiset ℕ) : Prop where
  owned : Owned m.heap owners
  framed : ∀ a n buffer, m.heap.cell a = some (n, buffer) → buffer.frame ≠ none
  within : ∀ key, m.released key + m.heap.live (Own m.pid key) ≤ m.retained key
  balanced : m.finalizing = false →
    ∀ key, m.retained key = m.released key + m.heap.live (Own m.pid key)

variable {m : Memory F} {owners : Multiset ℕ} {a : ℕ}

/-- What the functions leave as it is. -/
structure Same (m m' : Memory F) : Prop where
  held : m'.held = m.held
  pid : m'.pid = m.pid
  finalizing : m'.finalizing = m.finalizing

omit [DecidableEq F] in
theorem Same.refl (m : Memory F) : Same m m := ⟨rfl, rfl, rfl⟩

omit [DecidableEq F] in
theorem Same.trans {m₁ m₂ m₃ : Memory F} (h : Same m₁ m₂) (h' : Same m₂ m₃) : Same m₁ m₃ :=
  ⟨h'.held.trans h.held, h'.pid.trans h.pid, h'.finalizing.trans h.finalizing⟩

/-! ### One reference more or less -/

omit [DecidableEq F] in
theorem same_incref (m : Memory F) (a : ℕ) : Same m (m.incref a) := ⟨rfl, rfl, rfl⟩

theorem same_frameRelease (m : Memory F) (kind : FrameKind) (frame : Option F) :
    Same m (m.frameRelease kind frame) := by
  cases frame <;> exact ⟨rfl, rfl, rfl⟩

theorem same_decref (m : Memory F) (a : ℕ) : Same m (m.decref a) := by
  unfold Memory.decref
  split
  next buffer heap hdecref =>
    unfold Memory.frameBufferDealloc
    have hheap : Same m { m with heap := heap } := ⟨rfl, rfl, rfl⟩
    split
    · exact hheap.trans (same_frameRelease _ buffer.kind buffer.frame)
    · exact hheap
  next heap hdecref => exact ⟨rfl, rfl, rfl⟩

/-- Whoever has a reference may make another one. -/
theorem Sound.incref (hm : Sound m owners) (ha : a ∈ owners) :
    Sound (m.incref a) (a ::ₘ owners) where
  owned := hm.owned.incref ha
  framed b n buffer hcell := by
    obtain ⟨k, hcell⟩ := Heap.has_incref.mp ⟨n, hcell⟩
    exact hm.framed b k buffer hcell
  within key := by
    rw [show (m.incref a).heap.live _ = m.heap.live _ from hm.owned.live_incref _]
    exact hm.within key
  balanced hrunning key := by
    rw [show (m.incref a).heap.live _ = m.heap.live _ from hm.owned.live_incref _]
    exact hm.balanced hrunning key

/-- A buffer of this process that owned `frame` has left, and the frame is released. -/
theorem live_released {key : FrameKind × F} {pid live live' : ℕ} {buffer : FrameBuffer F}
    (released : FrameKind × F → ℕ) (key' : FrameKind × F)
    (hlive : live' + (if Own pid key buffer then 1 else 0) = live)
    (hkey : key' = (buffer.kind, key'.2)) (hframe : buffer.frame = some key'.2)
    (hpid : buffer.creatorPid = pid) :
    Function.update released key' (released key' + 1) key + live' = released key + live := by
  by_cases hsame : key = key'
  · subst hsame
    have hown : Own pid key buffer := ⟨(congrArg Prod.fst hkey).symm, hframe, hpid⟩
    rw [if_pos hown] at hlive
    rw [Function.update_self]
    omega
  · have hown : ¬ Own pid key buffer := by
      rintro ⟨hkind, hf, -⟩
      have hsnd : key.2 = key'.2 := Option.some.inj (hf.symm.trans hframe)
      refine hsame (Prod.ext ?_ hsnd)
      rw [← hkind, hkey]
    rw [if_neg hown] at hlive
    rw [Function.update_of_ne hsame]
    omega

/-- **An owner gives its reference back**; a buffer that leaves releases its frame, in the process
that has retained it. -/
theorem Sound.decref (hm : Sound m (a ::ₘ owners)) : Sound (m.decref a) owners := by
  have howned := hm.owned.decref
  have hlive := fun key => hm.owned.live_decref (Own m.pid key) (a := a)
  have hframed : ∀ b n buffer, (m.heap.decref a).2.cell b = some (n, buffer) →
      buffer.frame ≠ none := by
    intro b n buffer hcell
    obtain ⟨k, hcell⟩ := Heap.Has.of_decref ⟨n, hcell⟩
    exact hm.framed b k buffer hcell
  have hleft : ∀ buffer, (m.heap.decref a).1 = some buffer → m.heap.Has a buffer := by
    intro buffer hleft
    exact (Heap.has_decref_some hleft).1
  unfold Memory.decref
  generalize m.heap.decref a = next at howned hlive hframed hleft
  obtain ⟨left, heap⟩ := next
  cases left with
  | none =>
      have hsame : ∀ key, heap.live (Own m.pid key) = m.heap.live (Own m.pid key) := hlive
      refine ⟨howned, hframed, ?_, ?_⟩
      · intro key
        show m.released key + heap.live (Own m.pid key) ≤ _
        rw [hsame]
        exact hm.within key
      · intro hrunning key
        show _ = m.released key + heap.live (Own m.pid key)
        rw [hsame]
        exact hm.balanced hrunning key
  | some buffer =>
      obtain ⟨n, hcell⟩ := hleft buffer rfl
      obtain ⟨frame, hframe⟩ := Option.ne_none_iff_exists'.mp (hm.framed a n buffer hcell)
      have hlive : ∀ key, heap.live (Own m.pid key) + (if Own m.pid key buffer then 1 else 0) =
        m.heap.live (Own m.pid key) := hlive
      simp only [Memory.frameBufferDealloc]
      split
      next hown =>
        simp only [Bool.and_eq_true, Bool.not_eq_true', decide_eq_true_eq] at hown
        rw [hframe]
        have hsum := fun key =>
          live_released m.released (buffer.kind, frame) (hlive key) rfl hframe hown.2
        refine ⟨howned, hframed, ?_, ?_⟩
        · intro key
          exact (hsum key).trans_le (hm.within key)
        · intro hrunning key
          exact (hm.balanced hrunning key).trans (hsum key).symm
      next hforeign =>
        refine ⟨howned, hframed, ?_, ?_⟩
        · intro key
          have hle := hm.within key
          have hsum := hlive key
          show m.released key + heap.live (Own m.pid key) ≤ m.retained key
          omega
        · intro hrunning key
          have hpid : buffer.creatorPid ≠ m.pid := by
            have hrunning : m.finalizing = false := hrunning
            simpa [hrunning] using hforeign
          have hnot : ¬ Own m.pid key buffer := fun h => hpid h.2.2
          have hsum := hlive key
          rw [if_neg hnot, Nat.add_zero] at hsum
          show _ = m.released key + heap.live (Own m.pid key)
          rw [hsum]
          exact hm.balanced hrunning key

/-- Each element of a tuple is let go of. -/
theorem Sound.decrefAll {views : List ℕ} (hm : Sound m (↑views + owners)) :
    Sound (m.decrefAll views) owners ∧ Same m (m.decrefAll views) := by
  induction views generalizing m with
  | nil => exact ⟨by simpa [Memory.decrefAll] using hm, .refl m⟩
  | cons a rest ih =>
      rw [← Multiset.cons_coe, Multiset.cons_add] at hm
      obtain ⟨hsound, hsame⟩ := ih hm.decref
      exact ⟨hsound, (same_decref m a).trans hsame⟩

/-! ### A view -/

/-- The references after a function that may make a view. -/
def withView (owners : Multiset ℕ) : Option ℕ → Multiset ℕ
  | some a => a ::ₘ owners
  | none => owners

/-- A buffer that owns a frame which the Runtime has retained for it. -/
theorem Sound.new (hm : Sound m owners) (kind : FrameKind) (frame : F) (size : ℕ) :
    Sound { m.frameRetain kind (some frame) with
      heap := m.heap.new ⟨kind, some frame, size, m.pid⟩ } (m.heap.made ::ₘ owners) := by
  have hsum : ∀ key, Function.update m.retained (kind, frame) (m.retained (kind, frame) + 1) key =
      m.retained key + if Own m.pid key ⟨kind, some frame, size, m.pid⟩ then 1 else 0 := by
    intro key
    by_cases hkey : key = (kind, frame)
    · subst hkey
      rw [Function.update_self, if_pos ⟨rfl, rfl, rfl⟩]
    · have hnot : ¬ Own m.pid key ⟨kind, some frame, size, m.pid⟩ := by
        rintro ⟨hkind, hframe, -⟩
        exact hkey (Prod.ext hkind.symm (Option.some.inj hframe).symm)
      rw [Function.update_of_ne hkey, if_neg hnot, Nat.add_zero]
  have hlive := fun key =>
    hm.owned.live_new (Own m.pid key) (⟨kind, some frame, size, m.pid⟩ : FrameBuffer F)
  refine ⟨hm.owned.new _, ?_, ?_, ?_⟩
  · intro b n buffer hcell
    by_cases hb : b = m.heap.made
    · subst hb
      simp only [Heap.new, Function.update_self, Option.some.injEq, Prod.mk.injEq] at hcell
      simp [← hcell.2]
    · simp only [Heap.new, Function.update_of_ne hb] at hcell
      exact hm.framed b n buffer hcell
  · intro key
    have hle := hm.within key
    simp only [Memory.frameRetain, hsum, hlive]
    omega
  · intro hrunning key
    have heq := hm.balanced hrunning key
    simp only [Memory.frameRetain, hsum, hlive]
    omega

/-- **A view, or nothing**: whatever fails on the way, no reference and no frame is left behind. -/
theorem Sound.view (hm : Sound m owners) (kind : FrameKind) (request : ViewRequest F) :
    Sound (m.frameMemoryview kind request).2
        (withView owners (m.frameMemoryview kind request).1) ∧
      Same m (m.frameMemoryview kind request).2 := by
  unfold Memory.frameMemoryview
  split
  · exact ⟨hm, .refl m⟩
  · split
    · exact ⟨hm, .refl m⟩
    · cases hretained : request.retained with
      | none =>
          have hskip : Memory.decref
              { m with heap := m.heap.new ⟨kind, none, request.size, m.pid⟩ } m.heap.made =
              { m with heap := { m.heap with made := m.heap.made + 1 } } := by
            unfold Memory.decref
            rw [hm.owned.decref_new]
            simp only [Memory.frameBufferDealloc, Memory.frameRelease, ite_self]
          simp only [Memory.frameRetain]
          rw [hskip]
          exact ⟨{ hm with owned := hm.owned.skip }, ⟨rfl, rfl, rfl⟩⟩
      | some frame =>
          have hnew := hm.new kind frame request.size
          have hsame : Same m { m.frameRetain kind (some frame) with
              heap := m.heap.new ⟨kind, some frame, request.size, m.pid⟩ } := ⟨rfl, rfl, rfl⟩
          cases hview : request.view with
          | true =>
              -- the view has a reference of its own before the maker's is given up
              have htwo := hnew.incref (Multiset.mem_cons_self m.heap.made owners)
              exact ⟨htwo.decref, (hsame.trans (same_incref _ _)).trans (same_decref _ _)⟩
          | false => exact ⟨hnew.decref, hsame.trans (same_decref _ _)⟩

/-! ### The callbacks -/

/-- The invariant between two steps. -/
abbrev Settled (m : Memory F) : Prop := Sound m m.held

omit [DecidableEq F] in
/-- A function without references of its own is through. -/
theorem Sound.settled {m' : Memory F} (hsame : Same m m') (hm : Sound m' m.held) : Settled m' := by
  rw [← hsame.held] at hm
  exact hm

/-- The arguments go to whoever keeps them, or their views are let go of; `extra` are the references
of the caller. -/
theorem Sound.call {views : List ℕ} (extra : Multiset ℕ) (keeps : Bool)
    (hm : Sound m (↑views + (extra + m.held))) :
    Sound (m.callCallbackLocked (some views) keeps)
      (extra + (m.callCallbackLocked (some views) keeps).held) := by
  cases keeps with
  | true =>
      have howners : (extra + (↑views + m.held)) = ↑views + (extra + m.held) :=
        add_left_comm _ _ _
      show Sound { m with held := ↑views + m.held } (extra + (↑views + m.held))
      rw [howners]
      exact { hm with }
  | false =>
      obtain ⟨hsound, hsame⟩ := hm.decrefAll
      show Sound (m.decrefAll views) (extra + (m.decrefAll views).held)
      rw [hsame.held]
      exact hsound

/-- The same for a caller without references. -/
theorem Sound.call_settled {views : List ℕ} (keeps : Bool) (hm : Sound m (↑views + m.held)) :
    Settled (m.callCallbackLocked (some views) keeps) := by
  have hcall := Sound.call 0 keeps (by rwa [zero_add])
  rwa [zero_add] at hcall

theorem settled_audio (hm : Settled m) (data : ViewRequest F) (built keeps : Bool) :
    Settled (m.outputOnAudioFrame data built keeps) := by
  have hview := hm.view .audio data
  unfold Memory.outputOnAudioFrame
  generalize m.frameMemoryview .audio data = next at hview
  obtain ⟨view, m₁⟩ := next
  obtain ⟨hsound, hsame⟩ := hview
  cases view with
  | none => exact hsound.settled hsame
  | some a =>
      have hsound : Sound m₁ (a ::ₘ m.held) := hsound
      cases built with
      | true =>
          have hone := (hsound.incref (Multiset.mem_cons_self a m.held)).decref
          have hheld : ((m₁.incref a).decref a).held = m.held :=
            ((hsame.trans (same_incref _ _)).trans (same_decref _ _)).held
          refine Sound.call_settled keeps ?_
          rw [hheld]
          exact hone
      | false => exact hsound.decref.settled (hsame.trans (same_decref _ _))

theorem settled_encoded (hm : Settled m) (kind : FrameKind) (data config : ViewRequest F)
    (built keeps : Bool) : Settled (m.outputOnEncodedFrame kind data config built keeps) := by
  have hview := hm.view kind data
  unfold Memory.outputOnEncodedFrame
  generalize m.frameMemoryview kind data = next at hview
  obtain ⟨view, m₁⟩ := next
  obtain ⟨hsound, hsame⟩ := hview
  cases view with
  | none => exact hsound.settled hsame
  | some a =>
      have hview := hsound.view kind config
      simp only
      generalize m₁.frameMemoryview kind config = next at hview
      obtain ⟨view, m₂⟩ := next
      obtain ⟨hsound, hsame'⟩ := hview
      have hsame := hsame.trans hsame'
      cases view with
      | none =>
          have hsound : Sound m₂ (a ::ₘ m.held) := hsound
          exact hsound.decref.settled (hsame.trans (same_decref _ _))
      | some b =>
          have hsound : Sound m₂ (b ::ₘ a ::ₘ m.held) := hsound
          rw [Multiset.cons_swap] at hsound
          cases built with
          | true =>
              have htwo := (hsound.incref (Multiset.mem_cons_self a _)).incref (a := b)
                (by simp)
              have hheld : ((m₂.incref a).incref b).held = m.held := hsame.held
              have htuple : Sound ((m₂.incref a).incref b)
                  (↑[a, b] + ({a, b} + ((m₂.incref a).incref b).held)) := by
                rw [hheld, ← Multiset.cons_coe, ← Multiset.cons_coe]
                rw [Multiset.cons_swap] at htwo
                simpa using htwo
              have hcall := Sound.call {a, b} keeps htuple
              simp only [if_true]
              generalize
                ((m₂.incref a).incref b).callCallbackLocked (some [a, b]) keeps = m₃ at hcall
              have hcall : Sound m₃ (a ::ₘ b ::ₘ m₃.held) := by simpa using hcall
              exact hcall.decref.decref.settled ((same_decref _ _).trans (same_decref _ _))
          | false =>
              exact hsound.decref.decref.settled
                ((hsame.trans (same_decref _ _)).trans (same_decref _ _))

/-- **The loop over the planes**: the tuple owns a view for each, or nothing is left of it. -/
theorem Sound.planes (planes : List (ViewRequest F × Bool)) {done : List ℕ}
    (hm : Sound m (↑done + owners)) :
    Sound (m.videoPlanes done planes).2
        ((m.videoPlanes done planes).1.elim owners fun views => ↑views + owners) ∧
      Same m (m.videoPlanes done planes).2 := by
  induction planes generalizing m done with
  | nil => exact ⟨hm, .refl m⟩
  | cons plane rest ih =>
      obtain ⟨request, built⟩ := plane
      have hview := hm.view .video request
      unfold Memory.videoPlanes
      generalize m.frameMemoryview .video request = next at hview
      obtain ⟨view, m₁⟩ := next
      obtain ⟨hsound, hsame⟩ := hview
      cases view with
      | none =>
          obtain ⟨hgone, hsame'⟩ := Sound.decrefAll (m := m₁) hsound
          exact ⟨hgone, hsame.trans hsame'⟩
      | some a =>
          have hsound : Sound m₁ (a ::ₘ (↑done + owners)) := hsound
          cases built with
          | true =>
              -- the tuple of the plane takes the view over
              have hone := (hsound.incref (Multiset.mem_cons_self a _)).decref
              have howners : a ::ₘ (↑done + owners) = ↑(done ++ [a]) + owners := by
                have hcoe : (↑(done ++ [a]) : Multiset ℕ) = a ::ₘ ↑done := by
                  rw [Multiset.cons_coe, Multiset.coe_eq_coe]
                  exact List.perm_append_singleton a done
                rw [hcoe, Multiset.cons_add]
              rw [howners] at hone
              obtain ⟨hrest, hsame'⟩ := ih hone
              exact ⟨hrest, ((hsame.trans (same_incref _ _)).trans (same_decref _ _)).trans hsame'⟩
          | false =>
              obtain ⟨hgone, hsame'⟩ := hsound.decref.decrefAll
              exact ⟨hgone, (hsame.trans (same_decref _ _)).trans hsame'⟩

theorem settled_video (hm : Settled m) (planes : List (ViewRequest F × Bool))
    (tuple built keeps : Bool) : Settled (m.outputOnVideoFrame planes tuple built keeps) := by
  unfold Memory.outputOnVideoFrame
  cases tuple with
  | false => exact hm
  | true =>
      have hstart : Sound m (↑([] : List ℕ) + m.held) := by simpa using hm
      have hplanes := hstart.planes planes
      simp only [if_true]
      generalize m.videoPlanes [] planes = next at hplanes
      obtain ⟨views, m₁⟩ := next
      obtain ⟨hsound, hsame⟩ := hplanes
      cases views with
      | none => exact hsound.settled hsame
      | some views =>
          have hsound : Sound m₁ (↑views + m.held) := hsound
          cases built with
          | true =>
              refine Sound.call_settled keeps ?_
              rw [hsame.held]
              exact hsound
          | false =>
              obtain ⟨hgone, hsame'⟩ := hsound.decrefAll
              exact hgone.settled (hsame.trans hsame')

/-! ### The steps -/

omit [DecidableEq F] in
/-- The process of another id owns none of the buffers. -/
theorem live_foreign {pid : ℕ} (hpid : ∀ a n buffer, m.heap.cell a = some (n, buffer) →
    buffer.creatorPid ≠ pid) (key : FrameKind × F) : m.heap.live (Own pid key) = 0 := by
  have hnone : {a | Heap.Holds (Own pid key) (m.heap.cell a)} = ∅ := by
    refine Set.eq_empty_iff_forall_notMem.mpr ?_
    intro a ha
    change Heap.Holds (Own pid key) (m.heap.cell a) at ha
    cases hcell : m.heap.cell a with
    | none =>
        rw [hcell] at ha
        exact ha
    | some c =>
        rw [hcell] at ha
        exact hpid a c.1 c.2 hcell ha.2.2
  simp [Heap.live, Counting.countOf, hnone]

/-- **Every step keeps the invariant.** -/
theorem settled_step {m' : Memory F} {act : FrameAction F} (hm : Settled m) (hown : OwnPid m act)
    (h : frameStep m act = some m') : Settled m' := by
  cases act with
  | audio data built keeps =>
      simp only [frameStep] at h
      split at h
      · cases h
      · cases h
        exact settled_audio hm data built keeps
  | encodedAudio data config built keeps =>
      simp only [frameStep] at h
      split at h
      · cases h
      · cases h
        exact settled_encoded hm .encodedAudio data config built keeps
  | encodedVideo data config built keeps =>
      simp only [frameStep] at h
      split at h
      · cases h
      · cases h
        exact settled_encoded hm .encodedVideo data config built keeps
  | video planes tuple built keeps =>
      simp only [frameStep] at h
      split at h
      · cases h
      · cases h
        exact settled_video hm planes tuple built keeps
  | copy a =>
      simp only [frameStep] at h
      split at h
      next ha =>
        cases h
        exact { hm.incref ha with }
      next => cases h
  | drop a =>
      simp only [frameStep] at h
      split at h
      next ha =>
        cases h
        have howners : Sound m (a ::ₘ m.held.erase a) := by
          rw [Multiset.cons_erase ha]
          exact hm
        exact { howners.decref with }
      next => cases h
  | fork pid =>
      cases h
      have hlive := live_foreign hown
      refine ⟨hm.owned, hm.framed, ?_, ?_⟩
      · intro key
        show 0 + m.heap.live (Own pid key) ≤ 0
        rw [hlive key]
      · intro _ key
        show 0 = 0 + m.heap.live (Own pid key)
        rw [hlive key]
  | finalize =>
      cases h
      exact { hm with balanced := fun hrunning => by cases hrunning }

omit [DecidableEq F] in
/-- Nothing has happened yet. -/
theorem settled_start (pid : ℕ) : Settled ({ pid := pid } : Memory F) where
  owned := .empty
  framed a n buffer hcell := by cases hcell
  within key := by
    show 0 + ({} : Heap (FrameBuffer F)).live (Own pid key) ≤ 0
    rw [Heap.live_empty]
  balanced _ key := by
    show 0 = 0 + ({} : Heap (FrameBuffer F)).live (Own pid key)
    rw [Heap.live_empty]

end Invariant

/-! ## The runs -/

section Runs

variable {F : Type} [DecidableEq F] {m : Memory F}

/-- **The frames are balanced**, in every run in which a fork has a process id of its own, whatever
allocations fail: a view that somebody holds has a buffer with a frame, and in the process that made
it this frame has been retained more often than released; no frame is released more often than it
has been retained; while the interpreter runs, exactly the frames of the buffers of this process are
retained and not released, so that none is when nobody holds a view. -/
theorem frames_balanced (hm : (frames F).ReachWith OwnPid m) :
    (∀ a ∈ m.held, ∃ n buffer frame, m.heap.cell a = some (n, buffer) ∧
      buffer.frame = some frame ∧ (buffer.creatorPid = m.pid →
        m.released (buffer.kind, frame) < m.retained (buffer.kind, frame))) ∧
    (∀ key, m.released key ≤ m.retained key) ∧
    (m.finalizing = false →
      ∀ key, m.retained key = m.released key + m.heap.live (Own m.pid key)) ∧
    (m.finalizing = false → m.held = 0 → ∀ key, m.retained key = m.released key) := by
  have hs : Settled m := hm.invariant (I := Settled)
    (by
      rintro _ ⟨pid, rfl⟩
      exact settled_start pid)
    (fun _ _ _ hs hown hstep => settled_step hs hown hstep)
  refine ⟨?_, ?_, hs.balanced, ?_⟩
  · intro a ha
    obtain ⟨n, buffer, hcell⟩ := hs.owned.held a ha
    obtain ⟨frame, hframe⟩ := Option.ne_none_iff_exists'.mp (hs.framed a n buffer hcell)
    refine ⟨n, buffer, frame, hcell, hframe, fun hpid => ?_⟩
    have hpos := hs.owned.live_pos (Own m.pid (buffer.kind, frame)) hcell ⟨rfl, hframe, hpid⟩
    have hle := hs.within (buffer.kind, frame)
    omega
  · intro key
    exact (Nat.le_add_right _ _).trans (hs.within key)
  · intro hrunning hheld key
    have howned := hs.owned
    rw [hheld] at howned
    have hforeign : ∀ a n buffer, m.heap.cell a = some (n, buffer) →
        buffer.creatorPid ≠ m.pid := by
      intro a n buffer hcell
      cases (howned.nothing a).symm.trans hcell
    have hnone := live_foreign hforeign key
    rw [hs.balanced hrunning key, hnone, Nat.add_zero]

end Runs

/-- A request for a view of frame `0` in which nothing fails. -/
def wholeView : ViewRequest (Fin 1) := ⟨8, true, some 0, true⟩

/-- A frame with two planes is kept, one whose configuration has no memoryview is not, and both
views of the first are dropped. -/
theorem frames_balanced_dropped :
    ∃ m, (frames (Fin 1)).ReachWith OwnPid m ∧ m.held = 0 ∧ m.retained (.video, 0) = 2 ∧
      m.retained (.encodedVideo, 0) = 2 ∧ ∀ key, m.retained key = m.released key := by
  have hrun : (((frames (Fin 1)).guarded fun _ act => !act.forks).exec { pid := 7 }
      [.video [(wholeView, true), (wholeView, true)] true true true,
        .encodedVideo wholeView { wholeView with view := false } true true, .drop 0, .drop 1]).any
      (fun m => decide (m.held = 0 ∧ m.finalizing = false ∧ m.retained (.video, 0) = 2 ∧
        m.retained (.encodedVideo, 0) = 2)) = true := by
    decide +kernel
  obtain ⟨m, hexec, htest⟩ := (Option.any_eq_true _ _).mp hrun
  obtain ⟨hheld, hrunning, hvideo, hencoded⟩ := of_decide_eq_true htest
  have hstart : (frames (Fin 1)).ReachWith (fun _ act => (!act.forks) = true) { pid := 7 } :=
    .start ⟨7, rfl⟩
  have hreach : (frames (Fin 1)).ReachWith OwnPid m := by
    refine (Machine.ReachWith.exec hstart hexec).mono ?_
    intro m act hact
    cases act with
    | fork pid => cases hact
    | _ => trivial
  exact ⟨m, hreach, hheld, hvideo, hencoded, (frames_balanced hreach).2.2.2 hrunning hheld⟩

end Tirtc.Frames
