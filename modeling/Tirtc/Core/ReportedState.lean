import Tirtc.Core.LinkAgreement
import Tirtc.Core.Isolation

/-!
# The reported state agrees with the native connection

All runs of `connect` and `disconnect` calls on an open Connection, with its native connection.

* `LinkAt`: what a thread knows of the native connection at each place of its calls.
* `writesInTime`: the condition on `disconnect`, that its last write runs while the native
  connection is down and no attempt is about to start it.
* `callStep_linked`, `step_linked`: a step of a thread keeps `Agrees`.
* `linked_rely_guarantee`: all steps do, and leave what the other threads know.
* `reported_state_agrees`: the result, in the states without a call or an event on its way.
* `disconnect_overwrites`: the `disconnect` that writes too late.
-/

set_option autoImplicit false

namespace Tirtc

open Transition

variable {ι : Type} {errorName : ℤ → String} {mode : AuthMode}

/-! ### One step of a call -/

/-- What a thread knows of the native connection at a place of its call. -/
def LinkAt (s : Linked ι) : Pc → Prop
  | .connect a (.cancel stage) | .disconnect (.cancel a stage) => CancelLink s a stage
  | .closeJoin _ | .close _ _ => False
  | _ => True

/-- The condition on `disconnect`: it writes while the native connection is down, and the attempt in
progress, if there is one, has come past its native connect call. -/
def writesInTime (s : Linked ι) : Pc → CallAction → Bool
  | .disconnect .write, .go => s.link == .down &&
      s.shared.connection.activeConnect.all fun a => (s.shared.history a).startedAt.isSome
  | _, _ => true

/-- What a step of a call has to show. -/
structure CallLinked (s : Linked ι) (t : Shared ι) (pc : Pc) : Prop where
  agrees : Agrees { s with shared := t }
  next : LinkAt { s with shared := t } pc

/-- A step of a call that only reads. -/
theorem CallLinked.reads {s : Linked ι} {pc : Pc} (hs : Agrees s) (hnext : LinkAt s pc) :
    CallLinked s s.shared pc :=
  ⟨hs, hnext⟩

/-- `connect` ends without a matter. -/
theorem Agrees.ends {s : Linked ι} (hs : Agrees s) (a : ℕ) (raised : Option PyError) :
    CallLinked s (connectEnds s.shared a raised).1 (connectEnds s.shared a raised).2 := by
  have hcalm := Calm.change s.shared a (f := id)
    (g := fun history => { history with outcome := some raised }) ⟨rfl, rfl, rfl, rfl, rfl, rfl⟩
  refine ⟨?_, trivial⟩
  have h := hs.calm hcalm
  rwa [Shared.modify_id] at h

/-- **A step of `connect`**, up to what its native calls do to the native connection. -/
theorem connectStep_linked {s : Linked ι} {t : Shared ι} {i : ι} {a : ℕ} {stage : ConnectStage}
    {act : CallAction} {pc : Pc} (hI : Attempts errorName s.shared) (hs : Agrees s)
    (hat : ConnectAt i (s.shared.view a) stage) (hlink : LinkAt s (.connect a stage))
    (hnative : ∀ r, act = .native r → r = .code 0)
    (heffect : Linked.effect (.connect a stage) = none)
    (hstep : connectStep errorName s.shared i a stage act = some (t, pc)) : CallLinked s t pc := by
  obtain ⟨hstart, hcancel, hclose⟩ := hs.flawless a
  have hcancelStage (stage' : CancelStage) (h : stage = .cancel stage') : stage' ≠ .disconnect := by
    rintro rfl
    rw [h] at heffect
    cases heffect
  cases connectStep_cases hstep with
  | started | notStarted => cases heffect
  | rolledBack => cases hstart.symm.trans hat.2
  | ends _ e hstage =>
      rcases hstage with rfl | rfl
      · cases hstart.symm.trans hat.2.2.1
      · obtain ⟨-, -, -, -, h | ⟨-, h⟩⟩ := hat
        · cases hclose.symm.trans h
        · cases hcancel.symm.trans h
  | waited | timedOut | cancelWaited | handleClosed | drained => exact .reads hs trivial
  | cancels stage' _ _ _ hmoves =>
      have hlinked := hmoves.linked hI hs hlink hnative (hcancelStage stage' rfl)
      exact ⟨hlinked.agrees, hlinked.next _ rfl⟩
  | cancelled stage' _ _ hmoves =>
      exact ⟨(hmoves.linked hI hs hlink hnative (hcancelStage stage' rfl)).agrees, trivial⟩
  | cancelRaises stage' _ _ _ hmoves =>
      exact ⟨(hmoves.linked hI hs hlink hnative (hcancelStage stage' rfl)).agrees, trivial⟩
  | raises => cases hcancel.symm.trans hat.2.2.2
  | reads | checked =>
      refine .reads hs ?_
      split
      · trivial
      · trivial
  | cancelFailed e herror =>
      have hfailed := ((hI.ok a).cancelError.mp (by
        show (s.shared.attempt a).cancelError ≠ none
        simp [herror])).2
      cases hcancel.symm.trans hfailed
  | handleNotClosed r _ hr => exact absurd (hnative r rfl) hr
  | finishes => exact ⟨hs.finish hI hat (connectStep_queue hstep), trivial⟩
  | returns raised => exact hs.ends a raised

/-- **A step of `disconnect`**, up to what its native call does to the native connection. -/
theorem disconnectStep_linked {s : Linked ι} {t : Shared ι} {i : ι} {stage : DisconnectStage}
    {act : CallAction} {pc : Pc} (hI : Attempts errorName s.shared) (hs : Agrees s)
    (hlink : LinkAt s (.disconnect stage)) (hnative : ∀ r, act = .native r → r = .code 0)
    (heffect : Linked.effect (.disconnect stage) = none)
    (hwrites : writesInTime s (.disconnect stage) act = true)
    (hstep : disconnectStep errorName s.shared i stage act = some (t, pc)) :
    CallLinked s t pc := by
  have hcancelStage (a : ℕ) (stage' : CancelStage) (h : stage = .cancel a stage') :
      stage' ≠ .disconnect := by
    rintro rfl
    rw [h] at heffect
    cases heffect
  cases disconnectStep_cases hstep with
  | cancels a stage' _ _ _ hmoves =>
      have hlinked := hmoves.linked hI hs hlink hnative (hcancelStage a stage' rfl)
      exact ⟨hlinked.agrees, hlinked.next _ rfl⟩
  | cancelled a stage' _ _ hmoves =>
      exact ⟨(hmoves.linked hI hs hlink hnative (hcancelStage a stage' rfl)).agrees, trivial⟩
  | cancelRaises a stage' _ _ _ hmoves =>
      exact ⟨(hmoves.linked hI hs hlink hnative (hcancelStage a stage' rfl)).agrees, trivial⟩
  | connected | settled | drained => exact .reads hs trivial
  | disconnected | fails => cases heffect
  | writes =>
      obtain ⟨hdown, hstarted⟩ := Bool.and_eq_true_iff.mp hwrites
      refine ⟨hs.write (beq_iff_eq.mp hdown) fun a ha => ?_, trivial⟩
      rw [ha] at hstarted
      exact Option.isSome_iff_ne_none.mp hstarted

/-- **A step of a call**, up to what its native calls do to the native connection. -/
theorem callStep_linked {s : Linked ι} {t : Shared ι} {i : ι} {p pc : Pc} {act : CallAction}
    (hI : Attempts errorName s.shared) (hs : Agrees s) (hat : CallAt i s.shared p)
    (hlink : LinkAt s p) (hclose : act ≠ .close) (hnative : ∀ r, act = .native r → r = .code 0)
    (heffect : Linked.effect p = none) (hwrites : writesInTime s p act = true)
    (hstep : callStep errorName s.shared i mode p act = some (t, pc)) : CallLinked s t pc := by
  unfold callStep at hstep
  split at hstep
  · rcases connectBegin_cases s.shared i mode with ⟨e, h⟩ | ⟨-, hnone, h⟩
    · cases h.symm.trans (Option.some.inj hstep)
      exact .reads hs trivial
    · cases h.symm.trans (Option.some.inj hstep)
      exact ⟨hs.begun hnone i _, trivial⟩
  · unfold disconnectBegin at hstep
    repeat' split at hstep
    all_goals cases hstep
    all_goals exact .reads hs trivial
  · exact absurd rfl hclose
  · exact connectStep_linked hI hs hat hlink hnative heffect hstep
  · exact disconnectStep_linked hI hs hlink hnative heffect hwrites hstep
  · exact hlink.elim
  · exact hlink.elim
  · cases hstep

/-! ### Native calls -/

/-- **How a thread steps**: a step of its call, and, where that is the return of a native call that
changes the native connection, the change with its report. -/
theorem Linked.step_cases {s s' : Linked ι} {i : ι} {p pc : Pc} {act : CallAction}
    (hstep : Linked.step errorName mode i s p act = some (s', pc)) :
    act ≠ .close ∧ (∀ r, act = .native r → r = .code 0) ∧
      ∃ t, callStep errorName s.shared i mode p act = some (t, pc) ∧
        ((s' = { s with shared := t } ∧
            ∀ r link, act = .native r → Linked.effect p = some link → s.link = link) ∨
          ∃ link, act = .native (.code 0) ∧ Linked.effect p = some link ∧ s.link ≠ link ∧
            Linked.report { s with shared := t } link 0 = some s') := by
  unfold Linked.step at hstep
  obtain ⟨⟨t, pc'⟩, hcall, hnext⟩ := Option.bind_eq_some_iff.mp hstep
  split at hnext
  · cases hnext
  · next r =>
      split at hnext
      · next hr =>
          split at hnext
          · next link heffect =>
              split at hnext
              · next hlink =>
                  cases hnext
                  refine ⟨by simp, by simp [hr], t, hcall, .inl ⟨rfl, ?_⟩⟩
                  intro r' link' _ h
                  cases heffect.symm.trans h
                  exact hlink
              · next hlink =>
                  obtain ⟨s'', hreport, heq⟩ := Option.map_eq_some_iff.mp hnext
                  cases heq
                  exact ⟨by simp, by simp [hr], t, hcall,
                    .inr ⟨link, by rw [hr], heffect, hlink, hreport⟩⟩
          · next heffect =>
              cases hnext
              refine ⟨by simp, by simp [hr], t, hcall, .inl ⟨rfl, ?_⟩⟩
              intro r' link' _ h
              cases heffect.symm.trans h
      · cases hnext
  · next hclose hnative =>
      cases hnext
      refine ⟨hclose, fun r h => absurd h (hnative r), t, hcall, .inl ⟨rfl, fun r link h => ?_⟩⟩
      exact absurd h (hnative r)

/-- The steps that change the native connection: the native connect call of an attempt, or a native
disconnect call, which writes nothing. -/
theorem effect_cases {s t : Shared ι} {i : ι} {p pc : Pc} {act : CallAction} {link : Link}
    (hnative : ∀ r, act = .native r → r = .code 0) (heffect : Linked.effect p = some link)
    (hcall : callStep errorName s i mode p act = some (t, pc)) : act = .native (.code 0) ∧
    ((∃ a, p = .connect a .starting ∧ link = .connecting ∧ t = s.started a ∧
      pc = .connect a .waitDone) ∨
    (link = .down ∧ t = s ∧ ((∃ a, p = .connect a (.cancel .disconnect) ∧
      pc = .connect a (.cancel .barrier)) ∨
      (∃ a, p = .disconnect (.cancel a .disconnect) ∧ pc = .disconnect (.cancel a .barrier)) ∨
      (p = .disconnect .native ∧ pc = .disconnect .barrier)))) := by
  have hact : act = .native (.code 0) := by
    cases act with
    | native r => rw [hnative r rfl]
    | _ =>
        unfold Linked.effect at heffect
        split at heffect <;> first | cases hcall | cases heffect
  subst hact
  refine ⟨rfl, ?_⟩
  unfold Linked.effect at heffect
  split at heffect
  · next a =>
      cases heffect
      cases hcall
      exact .inl ⟨a, rfl, rfl, rfl, rfl⟩
  · next a =>
      cases heffect
      cases hcall
      exact .inr ⟨rfl, rfl, .inl ⟨a, rfl, rfl⟩⟩
  · cases heffect
    cases hcall
    exact .inr ⟨rfl, rfl, .inr (.inr ⟨rfl, rfl⟩)⟩
  · next a =>
      cases heffect
      cases hcall
      exact .inr ⟨rfl, rfl, .inr (.inl ⟨a, rfl, rfl⟩)⟩
  · cases heffect

/-- The native connection stays down below an attempt that has come past its native connect call. -/
def LinkStays (s s' : Linked ι) : Prop :=
  ∀ a, s.shared.connection.activeConnect = some a → (s.shared.history a).startedAt ≠ none →
    s.link = .down → s'.link = .down

/-- Behind a native disconnect call the native connection is down. -/
theorem LinkAt.disconnected {s s' : Linked ι} {p pc : Pc} (hlink : LinkAt s p)
    (hnext : (∃ a, p = .connect a (.cancel .disconnect) ∧ pc = .connect a (.cancel .barrier)) ∨
      (∃ a, p = .disconnect (.cancel a .disconnect) ∧ pc = .disconnect (.cancel a .barrier)) ∨
      (p = .disconnect .native ∧ pc = .disconnect .barrier)) (hdown : s'.link = .down)
    (hactive : s'.shared.connection.activeConnect = s.shared.connection.activeConnect)
    (hattempt : ∀ a, s'.shared.attempt a = s.shared.attempt a) : LinkAt s' pc := by
  have hbarrier (a : ℕ) (h : CancelLink s a .disconnect) : CancelLink s' a .barrier := by
    refine ⟨?_, hdown⟩
    rw [hactive, hattempt]
    exact h
  rcases hnext with ⟨a, rfl, rfl⟩ | ⟨a, rfl, rfl⟩ | ⟨rfl, rfl⟩
  · exact hbarrier a hlink
  · exact hbarrier a hlink
  · trivial

/-- **A step of a thread** keeps the agreement. -/
theorem step_linked {s s' : Linked ι} {i : ι} {p pc : Pc} {act : CallAction}
    (hI : Attempts errorName s.shared) (hs : Agrees s) (hat : CallAt i s.shared p)
    (hlink : LinkAt s p) (hwrites : writesInTime s p act = true)
    (hstep : Linked.step errorName mode i s p act = some (s', pc)) :
    Agrees s' ∧ LinkAt s' pc ∧ LinkStays s s' := by
  obtain ⟨hclose, hnative, t, hcall, ⟨rfl, hsame⟩ | ⟨link, hact, heffect, hne, hreport⟩⟩ :=
    Linked.step_cases hstep
  · rcases Option.eq_none_or_eq_some (Linked.effect p) with heffect | ⟨link, heffect⟩
    · obtain ⟨hagrees, hnext⟩ :=
        callStep_linked hI hs hat hlink hclose hnative heffect hwrites hcall
      exact ⟨hagrees, hnext, fun _ _ _ hdown => hdown⟩
    · obtain ⟨hact, ⟨a, rfl, rfl, rfl, rfl⟩ | ⟨rfl, rfl, hnext⟩⟩ :=
        effect_cases hnative heffect hcall
      · -- before its native connect call the native connection is not on its way
        obtain ⟨ho, -, hns⟩ := hat
        have hactive := (view_active s.shared a).mp ho.active
        have hstarted := (hI.ok a).started.not.mp (by rw [hns]; decide)
        have hunstarted := not_not.mp fun h => hstarted (.inr h)
        exact absurd (hsame _ _ hact heffect) ((hs.active a hactive).unstarted hunstarted).2.2
      · have hdown := hsame _ _ hact heffect
        exact ⟨hs, hlink.disconnected hnext hdown rfl fun _ => rfl, fun _ _ _ h => h⟩
  · obtain ⟨-, ⟨a, rfl, rfl, rfl, rfl⟩ | ⟨rfl, rfl, hnext⟩⟩ := effect_cases hnative heffect hcall
    · obtain ⟨ho, -, hns⟩ := hat
      have hactive := (view_active s.shared a).mp ho.active
      have hstarted := (hI.ok a).started.not.mp (by rw [hns]; decide)
      have hunstarted : (s.shared.history a).startedAt = none :=
        not_not.mp fun h => hstarted (.inr h)
      refine ⟨hs.started hactive hunstarted hreport, trivial, fun b hb hb' => ?_⟩
      cases hactive.symm.trans hb
      exact absurd hunstarted hb'
    · obtain ⟨hlink', hshared, -⟩ :=
        news_report (fun event hmem => (hs.reports event hmem).1) hreport
      refine ⟨hs.report (.inl rfl) hreport, ?_, fun _ _ _ _ => hlink'⟩
      refine hlink.disconnected hnext hlink' ?_ ?_
      · rw [hshared]
        rfl
      · intro a
        rw [hshared]
        rfl

/-! ### The Runtime and the pool -/

/-- A report is a post of the Runtime. -/
theorem post_of_report {s s' : Linked ι} {link : Link} {code : ℤ}
    (hreport : s.report link code = some s') :
    environmentStep s.shared (.post .state (link.values code)) = some s'.shared := by
  unfold Linked.report Linked.post at hreport
  split at hreport
  · cases hreport
  · cases hreport
    rfl

/-- **A step of the Runtime or the pool** keeps the agreement, as long as the handler gives an
attempt no outcome from before its native connect call. -/
theorem env_linked {s s' : Linked ι} {e : Linked.Action} (hs : Agrees s)
    (hown : handlesOwn s e = true) (hstep : Linked.env s e = some s') :
    Agrees s' ∧ LinkStays s s' ∧ ∃ e', environmentStep s.shared e' = some s'.shared := by
  have hlink {link : Link} {code : ℤ} (hreport : s.report link code = some s') :
      s'.link = link :=
    (news_report (fun event hmem => (hs.reports event hmem).1) hreport).1
  cases e with
  | establish =>
      obtain ⟨hconnecting, hreport⟩ := Option.ite_none_right_eq_some.mp hstep
      refine ⟨hs.report (.inr (.inr ⟨hconnecting, rfl⟩)) hreport, fun _ _ _ hdown => ?_,
        _, post_of_report hreport⟩
      cases hconnecting.symm.trans hdown
  | drop code =>
      obtain ⟨-, hreport⟩ := Option.ite_none_left_eq_some.mp hstep
      exact ⟨hs.report (.inl rfl) hreport, fun _ _ _ _ => hlink hreport, _, post_of_report hreport⟩
  | again code =>
      have hreport : s.report s.link code = some s' := hstep
      exact ⟨hs.report (.inr (.inl rfl)) hreport, fun _ _ _ hdown => (hlink hreport).trans hdown,
        _, post_of_report hreport⟩
  | runtime e =>
      cases e with
      | post kind values =>
          obtain ⟨hkind, hpost⟩ := Option.ite_none_left_eq_some.mp hstep
          obtain ⟨hlink', hshared, -⟩ := news_post_other hkind hpost
          refine ⟨hs.post_other hkind hpost, fun _ _ _ hdown => hlink'.trans hdown,
            .post kind values, ?_⟩
          rw [hshared]
          rfl
      | managedComplete a code =>
          obtain ⟨hcompletes, hnext⟩ := Option.ite_none_right_eq_some.mp hstep
          obtain ⟨t, henv, rfl⟩ := Option.map_eq_some_iff.mp hnext
          refine ⟨?_, fun _ _ _ hdown => hdown, _, henv⟩
          obtain ⟨-, ht⟩ := Option.ite_none_right_eq_some.mp henv
          cases ht
          exact hs.managedComplete hcompletes
      | drainBegin =>
          obtain ⟨t, henv, rfl⟩ := Option.map_eq_some_iff.mp hstep
          exact ⟨hs.drainBegin henv, fun _ _ _ hdown => hdown, _, henv⟩
      | handle =>
          obtain ⟨t, henv, rfl⟩ := Option.map_eq_some_iff.mp hstep
          refine ⟨?_, fun _ _ _ hdown => hdown, _, henv⟩
          obtain ⟨event, hevent, rfl⟩ := Option.map_eq_some_iff.mp henv
          exact hs.handle hevent hown
      | drainEnd =>
          obtain ⟨t, henv, rfl⟩ := Option.map_eq_some_iff.mp hstep
          exact ⟨hs.drainEnd henv, fun _ _ _ hdown => hdown, _, henv⟩

/-! ### All threads together -/

/-- What a thread knows of its cancellation stays true while others step. -/
theorem CancelLink.stable {k : Option ι} {j : ι} {s s' : Linked ι} {a : ℕ} {stage : CancelStage}
    (h : CancelLink s a stage) (hI : Attempts errorName s.shared) (hs : Agrees s)
    (hs' : Agrees s') (hG : Guarantees k s.shared s'.shared) (hstays : LinkStays s s')
    (hat : CancelAt j (s.shared.view a) stage) : CancelLink s' a stage := by
  have hactive (hp : stage.Performing) (h : s.shared.connection.activeConnect = some a) :
      s'.shared.connection.activeConnect = some a := by
    obtain ⟨hcanceller, hpending⟩ := hat.performs hp
    have hcancelling := (hI.ok a).canceller.mp (by simp [hcanceller])
    rcases (hG a).held ((view_active _ _).mpr h) hcancelling hpending with h | h
    · exact (view_active _ _).mp h
    · exact absurd ((hs'.flawless a).1.symm.trans h) (by simp)
  have hstarted (h : (s.shared.attempt a).nativeStarted = true) :
      (s'.shared.attempt a).nativeStarted = true := (hG a).nativeStarted h
  have hdown (ha : s.shared.connection.activeConnect = some a ∧
      (s.shared.attempt a).nativeStarted = true) (h : s.link = .down) : s'.link = .down :=
    hstays a ha.1 (started_of_nativeStarted hI hs ha.2) h
  cases stage with
  | enter => trivial
  | join => trivial
  | start => exact hactive trivial h
  | attemptCancel => exact ⟨hactive trivial h.1, hstarted h.2⟩
  | awaitDone => exact ⟨hactive trivial h.1, hstarted h.2⟩
  | disconnect => exact ⟨hactive trivial h.1, hstarted h.2⟩
  | _ => exact ⟨⟨hactive trivial h.1.1, hstarted h.1.2⟩, hdown h.1 h.2⟩

/-- What a thread knows of the native connection stays true while others step. -/
theorem LinkAt.stable {k : Option ι} {j : ι} {s s' : Linked ι} {p : Pc} (h : LinkAt s p)
    (hI : Attempts errorName s.shared) (hs : Agrees s) (hs' : Agrees s')
    (hG : Guarantees k s.shared s'.shared) (hstays : LinkStays s s')
    (hat : CallAt j s.shared p) : LinkAt s' p := by
  cases p with
  | idle raised => trivial
  | connect a stage =>
      cases stage with
      | cancel stage => exact CancelLink.stable h hI hs hs' hG hstays (hat.cancel rfl)
      | _ => trivial
  | disconnect stage =>
      cases stage with
      | cancel a stage => exact CancelLink.stable h hI hs hs' hG hstays (hat.cancel rfl)
      | _ => trivial
  | closeJoin g => exact h
  | close g stage => exact h

/-- The attempts of a thread whose `connect` has not come to its end: the thread is in it. -/
def RunsOwn (i : ι) (s : Shared ι) (p : Pc) : Prop :=
  ∀ a, (s.history a).owner = some i → (s.history a).outcome = none → ∃ stage, p = .connect a stage

/-- `connect` goes on with its attempt until it comes to its end. -/
theorem connectStep_goes_on {s t : Shared ι} {i : ι} {a : ℕ} {stage : ConnectStage}
    {act : CallAction} {pc : Pc} (hstep : connectStep errorName s i a stage act = some (t, pc)) :
    (∃ stage, pc = .connect a stage) ∨ (t.history a).outcome ≠ none := by
  cases connectStep_cases hstep with
  | ends | raises | returns => exact .inr (by simp [Shared.note])
  | _ => exact .inl ⟨_, rfl⟩

/-- A step of a thread leaves it in the `connect` of its attempt. -/
theorem RunsOwn.own {s t : Shared ι} {i : ι} {p pc : Pc} {act : CallAction}
    (h : RunsOwn i s p) (hI : Attempts errorName s) (hI' : Attempts errorName t)
    (hG : Guarantees (some i) s t)
    (hstep : callStep errorName s i mode p act = some (t, pc)) : RunsOwn i t pc := by
  intro a howner houtcome
  by_cases hfresh : (s.history a).owner = none
  · -- the attempt is new
    rcases callStep_queue hstep with hsame | ⟨-, -, -, rfl, rfl⟩
    · have hborn := (hI'.born a).mp (by simp [howner])
      rw [hsame.generation] at hborn
      exact absurd hfresh ((hI.born a).mpr hborn)
    · by_cases ha : a = s.next
      · exact ⟨.starting, by rw [ha]⟩
      · have hsame : ((s.begun i (decide (mode = .accessKey))).history a).owner =
            (s.history a).owner := by
          simp [Shared.begun, Shared.note, ha]
        cases howner.symm.trans (hsame.trans hfresh)
  · have howner' : (s.history a).owner = some i := ((hG a).owner hfresh).symm.trans howner
    have houtcome' : (s.history a).outcome = none :=
      not_not.mp fun h => (hG a).outcome h houtcome
    obtain ⟨stage, rfl⟩ := h a howner' houtcome'
    exact (connectStep_goes_on hstep).resolve_right fun h => h houtcome

/-- The other threads leave it so. -/
theorem RunsOwn.stable {k : Option ι} {j : ι} {s t : Shared ι} {p : Pc} (h : RunsOwn j s p)
    (hk : k ≠ some j) (hG : Guarantees k s t) : RunsOwn j t p := by
  intro a howner houtcome
  have hfresh : (s.history a).owner ≠ none := by
    intro hnone
    rcases (hG a).fresh hnone with h | h
    · cases h.symm.trans howner
    · exact hk (h.symm.trans howner)
  have howner' : (s.history a).owner = some j := ((hG a).owner hfresh).symm.trans howner
  refine h a howner' ?_
  have hne : (s.history a).owner ≠ k := by
    rw [howner']
    exact hk.symm
  obtain ⟨-, -, -, -, -, -, -, hsame⟩ := (hG a).owned hfresh hne
  exact hsame.symm.trans houtcome

/-- **Any number of `connect` and `disconnect` calls keep the agreement**, under the conditions on
`disconnect` and on the pool. -/
theorem linked_rely_guarantee : Threads.RelyGuarantee (linkedCalls ι mode errorName)
    (fun _ s p act => writesInTime s p act = true) (fun s e => handlesOwn s e = true)
    (fun s => Attempts errorName s.shared ∧ Agrees s)
    (fun i s p => CallAt i s.shared p ∧ LinkAt s p ∧ RunsOwn i s.shared p)
    (fun k s s' => Guarantees k s.shared s'.shared ∧ LinkStays s s') where
  start := by
    rintro s rfl
    have hcalls : Threads.RelyGuarantee (calls ι mode errorName) _ _ _ _ _ :=
      attempts_rely_guarantee
    refine ⟨⟨(hcalls.start {} rfl).1, ?_⟩, fun i => ⟨trivial, trivial, fun a h => by cases h⟩⟩
    constructor
    · intro event h
      cases h
    · intro event h
      cases h
    · intro _
      rfl
    · intro h
      cases h
    · intro _
      exact ⟨nofun, fun _ => ⟨nofun, nofun⟩⟩
    · intro a h
      cases h
    · exact fun _ => ⟨rfl, rfl, rfl⟩
  thread := by
    rintro i s p act s' p' ⟨hI, hs⟩ ⟨hat, hlink, hruns⟩ hwrites hstep
    have hcalls : Threads.RelyGuarantee (calls ι mode errorName) _ _ _ _ _ :=
      attempts_rely_guarantee
    obtain ⟨hs', hlink', hstays⟩ := step_linked hI hs hat hlink hwrites hstep
    obtain ⟨-, -, t, hcall, hcase⟩ := Linked.step_cases hstep
    have hspec := callStep_spec hI hat hcall
    have hruns' := hruns.own hI hspec.step.1 hspec.step.2 hcall
    rcases hcase with ⟨rfl, -⟩ | ⟨link, -, -, -, hreport⟩
    · exact ⟨⟨hspec.step.1, hs'⟩, ⟨hspec.at_, hlink', hruns'⟩, hspec.step.2, hstays⟩
    · -- the report touches no attempt
      have hpost := post_of_report hreport
      obtain ⟨hI', hG'⟩ := environment_spec hspec.step.1 hpost
      have hview (a : ℕ) : s'.shared.view a = t.view a := by
        rw [← Option.some.inj hpost]
        rfl
      have hruns'' := hruns'.stable (Option.some_ne_none i).symm hG'
      refine ⟨⟨hI', hs'⟩, ⟨?_, hlink', hruns''⟩, ?_, hstays⟩
      · exact hcalls.stable i none _ _ _ nofun hspec.step.1 hI' hG' hspec.at_
      · intro a
        rw [hview]
        exact hspec.step.2 a
  env := by
    rintro s e s' ⟨hI, hs⟩ hown hstep
    obtain ⟨hs', hstays, e', henv⟩ := env_linked hs hown hstep
    obtain ⟨hI', hG⟩ := environment_spec hI henv
    exact ⟨⟨hI', hs'⟩, hG, hstays⟩
  stable := by
    rintro j k s s' p hk ⟨hI, hs⟩ ⟨hI', hs'⟩ ⟨hG, hstays⟩ ⟨hat, hlink, hruns⟩
    have hcalls : Threads.RelyGuarantee (calls ι mode errorName) _ _ _ _ _ :=
      attempts_rely_guarantee
    exact ⟨hcalls.stable j k _ _ _ hk hI hI' hG hat,
      hlink.stable hI hs hs' hG hstays hat, hruns.stable hk hG⟩

/-! ### The result -/

/-- The conditions on the steps of a run. -/
def inOrder (c : Config ι (Linked ι) Pc) : Label ι CallAction Linked.Action → Bool
  | .thread i act => writesInTime c.shared (c.pc i) act
  | .env e => handlesOwn c.shared e

/-- No call is in progress, and the dispatcher is drained. -/
structure AtRest (c : Config ι (Linked ι) Pc) : Prop where
  idle : ∀ i, ∃ raised, c.pc i = .idle raised
  empty : c.shared.shared.connection.dispatcher.events = []
  drained : c.shared.shared.connection.dispatcher.executing = false

/-- **What the record says of the native connection is true.** -/
structure Reported (s : Linked ι) : Prop where
  state : s.shared.connection.state = .connected ↔ s.link = .up
  finished : s.shared.connection.disconnectFinished = true → s.link ≠ .up
  /-- `close` disconnects a native connection that is up before it destroys it. -/
  close : s.link = .up → s.shared.connection.closeDisconnects = true

/-- Without a call in progress there is no attempt in progress. -/
theorem no_attempt_at_rest {c : Config ι (Linked ι) Pc}
    (hI : Attempts errorName c.shared.shared) (hs : Agrees c.shared)
    (hruns : ∀ i, RunsOwn i c.shared.shared (c.pc i)) (hrest : AtRest c) :
    c.shared.shared.connection.activeConnect = none := by
  by_contra hne
  obtain ⟨a, hactive⟩ := Option.ne_none_iff_exists'.mp hne
  obtain ⟨i, howner⟩ := Option.ne_none_iff_exists'.mp (owner_of_active hI hactive)
  obtain ⟨raised, hidle⟩ := hrest.idle i
  cases houtcome : (c.shared.shared.history a).outcome with
  | none =>
      obtain ⟨stage, hstage⟩ := hruns i a howner houtcome
      cases hidle.symm.trans hstage
  | some raised =>
      -- its `connect` has ended, and only a native call that failed leaves it active
      have hactive := (view_active c.shared.shared a).mpr hactive
      have hended := (hI.ok a).ended raised houtcome
      obtain ⟨-, hcancel, hclose⟩ := hs.flawless a
      rcases (hended.failed_of_active hactive) fun hseen => by
        obtain ⟨seen, hseen⟩ := Option.ne_none_iff_exists'.mp hseen
        exact ((hI.ok a).seen seen hseen).1 with h | h
      · cases hcancel.symm.trans h
      · cases hclose.symm.trans h

section Runs

variable [DecidableEq ι] {c : Config ι (Linked ι) Pc}

/-- **The reported state agrees with the native connection** whenever no call is in progress and the
dispatcher is drained, in every run in which `disconnect` writes while the native connection is
down and no attempt is about to start it, and in which the handler gives no attempt an outcome from
before its native connect call. -/
theorem reported_state_agrees
    (hc : (linkedCalls ι mode errorName).machine.ReachWith (fun c l => inOrder c l = true) c)
    (hrest : AtRest c) : Reported c.shared := by
  have hguard : (linkedCalls ι mode errorName).machine.ReachWith
      (Threads.guard (fun _ s p act => writesInTime s p act = true)
        fun s e => handlesOwn s e = true) c :=
    hc.mono fun c l h => by cases l <;> exact h
  obtain ⟨⟨hI, hs⟩, hA⟩ := linked_rely_guarantee.reach hguard
  have hnone := no_attempt_at_rest hI hs (fun i => (hA i).2.2) hrest
  have hnews : c.shared.shared.news = [] := by
    rw [news_eq, hs.handler hrest.drained, hrest.empty]
    rfl
  have hstate := (hs.rest hnone).2 hnews
  have hfinished (h : c.shared.shared.connection.disconnectFinished = true) :
      c.shared.link ≠ .up := by
    rw [(hs.finished h).1]
    decide
  refine ⟨hstate, hfinished, fun hup => ?_⟩
  have hf : c.shared.shared.connection.disconnectFinished = false := by
    rw [Bool.eq_false_iff]
    exact fun h => hfinished h hup
  simp [Connection.closeDisconnects, hf, hstate.mpr hup]

/-- The pool handles the next event. -/
def drained {ι : Type} : List (Label ι CallAction Linked.Action) :=
  [.env (.runtime .drainBegin), .env (.runtime .handle), .env (.runtime .drainEnd)]

/-- Thread `i` connects, and its native connection is established. -/
def connects {ι : Type} (i : ι) : List (Label ι CallAction Linked.Action) :=
  [.thread i .connect, .thread i nativeOk, .env .establish] ++ drained ++
    List.replicate 6 (.thread i .go)

/-- Thread `i` disconnects, up to its last write. -/
def disconnects {ι : Type} (i : ι) : List (Label ι CallAction Linked.Action) :=
  [.thread i .disconnect, .thread i nativeOk] ++ drained ++ [.thread i .go]

/-- The Connection connects, disconnects and connects again. -/
theorem reported_state_agrees_reconnected : ∃ c : Config Unit (Linked Unit) Pc,
    c.shared.link = .up ∧ c.shared.shared.connection.connectGeneration = 2 ∧
      Reported c.shared := by
  have hrun : (((linkedCalls Unit .externalToken fun _ => "").machine.guarded fun c l =>
      decide (inOrder c l = true)).exec ⟨{}, fun _ => .idle none⟩ (connects () ++ disconnects () ++
        [.thread () .go] ++ connects ())).any (fun c => decide (c.shared.link = .up ∧
          c.shared.shared.connection.connectGeneration = 2 ∧ c.pc () = .idle none ∧
          c.shared.shared.connection.dispatcher.events = [] ∧
          c.shared.shared.connection.dispatcher.executing = false)) = true := by decide +kernel
  have hstart : (linkedCalls Unit .externalToken fun _ => "").machine.start
      ⟨{}, fun _ => .idle none⟩ := ⟨rfl, rfl⟩
  obtain ⟨c, hc, hend⟩ := Machine.exists_reachWith hstart hrun
  obtain ⟨hup, hgeneration, hidle, hempty, hdrained⟩ := of_decide_eq_true hend
  exact ⟨c, hup, hgeneration,
    reported_state_agrees hc ⟨fun _ => ⟨none, hidle⟩, hempty, hdrained⟩⟩

/-- **A `disconnect` overwrites a newer truth**: between its wait for the barrier and its write,
another thread connects again. With every call over and the dispatcher drained, the record says
DISCONNECTED and `_disconnect_finished`, the native connection is up, and `close` would destroy it
without disconnecting it. -/
theorem disconnect_overwrites : ∃ c : Config Bool (Linked Bool) Pc,
    (linkedCalls Bool .externalToken fun _ => "").machine.Reach c ∧ AtRest c ∧
      c.shared.link = .up ∧ c.shared.shared.connection.state = .disconnected ∧
      c.shared.shared.connection.disconnectFinished = true ∧
      c.shared.shared.connection.closeDisconnects = false ∧ ¬ Reported c.shared := by
  have hrun : ((linkedCalls Bool .externalToken fun _ => "").machine.exec
      ⟨{}, fun _ => .idle none⟩ (connects false ++ disconnects true ++ connects false ++
        [.thread true .go])).any (fun c => decide ((c.pc false = .idle none ∧
          c.pc true = .idle none ∧ c.shared.shared.connection.dispatcher.events = [] ∧
          c.shared.shared.connection.dispatcher.executing = false) ∧
          c.shared.link = .up ∧ c.shared.shared.connection.state = .disconnected ∧
          c.shared.shared.connection.disconnectFinished = true ∧
          c.shared.shared.connection.closeDisconnects = false)) = true := by decide +kernel
  have hstart : (linkedCalls Bool .externalToken fun _ => "").machine.start
      ⟨{}, fun _ => .idle none⟩ := ⟨rfl, rfl⟩
  obtain ⟨c, hc, hend⟩ := Machine.exists_reach hstart hrun
  obtain ⟨⟨hfalse, htrue, hempty, hdrained⟩, hup, hstate, hfinished, hcloses⟩ :=
    of_decide_eq_true hend
  refine ⟨c, hc, ⟨fun i => ⟨none, ?_⟩, hempty, hdrained⟩, hup, hstate, hfinished, hcloses,
    fun h => h.finished hfinished hup⟩
  cases i
  · exact hfalse
  · exact htrue

end Runs

end Tirtc
