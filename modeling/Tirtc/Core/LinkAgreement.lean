import Tirtc.Core.NativeLink
import Tirtc.Core.Outcome

/-!
# The reported state and the native connection

The invariant that ties `_state` and `_disconnect_finished` to the native connection, and one lemma
for each kind of step that keeps it. `ReportedState` puts the steps together.

* `Agrees`: the newest state event on its way reports the native connection; without an attempt, and
  with no state event on its way, the reported state is that of the native connection; a set
  `_disconnect_finished` means that it is down; and `ActiveOk` says what the active attempt has to
  do with it.
* `Agrees.report`: the native connection changes, with its report; `Agrees.calm`, `Agrees.change`:
  a step writes nothing of that, or writes to one attempt.
* `CancelLink`, `CancelMoves.linked`: what a thread knows of the native connection while it cancels.
* `Agrees.begun`, `started`, `finish`, `write`: the sections of `connect` and `disconnect`.
* `Agrees.handle`: the handler, as long as it gives an attempt no outcome from before its native
  connect call (`handlesOwn`).
-/

set_option autoImplicit false

namespace Tirtc

open Transition

variable {ι : Type} {errorName : ℤ → String} {mode : AuthMode}

/-! ### The invariant -/

/-- What the active attempt `v` has to do with the native connection, with the state events `news`
on their way. -/
structure ActiveOk (link : Link) (news : List ConnectionEvent) (v : View ι) : Prop where
  unstarted : v.history.startedAt = none → v.attempt.terminalCode = none ∧
    v.attempt.cancelFinished = false ∧ link ≠ .connecting
  connected : v.attempt.terminalCode = some 0 → link ≠ .connecting
  ended : ∀ code, v.attempt.terminalCode = some code → code ≠ 0 → link = .down
  dropped : v.history.startedAt ≠ none → link = .down →
    (∃ code, v.attempt.terminalCode = some code ∧ code ≠ 0) ∨ news ≠ []
  cancelled : v.attempt.cancelFinished = true → link = .down
  since : ∀ t, v.history.startedAt = some t → ∀ event ∈ news, t ≤ event.values.tag →
    (Reports .up event → link ≠ .connecting) ∧ (Reports .down event → link = .down)

/-- **The reported state and the native connection agree**, up to the state events on their way and
the attempt in progress. -/
structure Agrees (s : Linked ι) : Prop where
  reports : ∀ event ∈ s.shared.news, event.frame = false ∧ event.values.tag < s.shared.clock ∧
    ∃ link, Reports link event
  newest : ∀ event, s.shared.news.getLast? = some event → Reports s.link event
  handler : s.shared.connection.dispatcher.executing = false → s.shared.delivering = none
  finished : s.shared.connection.disconnectFinished = true → s.link = .down ∧
    ∀ a, s.shared.connection.activeConnect = some a → (s.shared.history a).startedAt ≠ none
  rest : s.shared.connection.activeConnect = none → s.link ≠ .connecting ∧
    (s.shared.news = [] → (s.shared.connection.state = .connected ↔ s.link = .up))
  active : ∀ a, s.shared.connection.activeConnect = some a →
    ActiveOk s.link s.shared.news (s.shared.view a)
  flawless : ∀ a, (s.shared.history a).startFailed = false ∧
    (s.shared.history a).cancelFailed = false ∧ (s.shared.history a).closeFailed = false

/-! ### Posts -/

/-- A post of another event that loses no state event leaves the news alone. -/
theorem news_post_other {s s' : Linked ι} {kind : EventKind} {values : List PyValue}
    (hkind : kind ≠ .state) (hpost : s.post kind values = some s') :
    s'.link = s.link ∧ s'.shared = postEvent s.shared kind values ∧
      s'.shared.news = s.shared.news := by
  unfold Linked.post at hpost
  split at hpost
  · cases hpost
  · next hkeeps =>
      cases hpost
      have hkeeps := Bool.eq_false_iff.mpr hkeeps
      have hkind' : (nativeEvent kind (⟨s.shared.clock, values⟩ : Tagged _)).kind ≠ .state := hkind
      refine ⟨rfl, rfl, ?_⟩
      rw [news_eq, news_eq]
      exact congrArg _ (states_other hkind' hkeeps)

/-- A report is the newest of the news, and the others were there before. -/
theorem news_report {s s' : Linked ι} {link : Link} {code : ℤ}
    (hframes : ∀ event ∈ s.shared.news, event.frame = false)
    (hreport : s.report link code = some s') :
    s'.link = link ∧ s'.shared = postEvent s.shared .state (link.values code) ∧
      ∃ old, (∀ event ∈ old, event ∈ s.shared.news) ∧
        s'.shared.news = old ++ [nativeEvent .state ⟨s.shared.clock, link.values code⟩] := by
  unfold Linked.report Linked.post at hreport
  split at hreport
  · cases hreport
  · next hkeeps =>
      cases hreport
      have hkeeps := Bool.eq_false_iff.mpr hkeeps
      have hqueue (event : ConnectionEvent)
          (hmem : event ∈ s.shared.connection.dispatcher.events) (hkind : event.kind = .state) :
          event.frame = false :=
        hframes event (mem_news.mpr ⟨List.mem_append_right _ hmem, hkind⟩)
      obtain ⟨states, hstates, heq⟩ := states_state hkeeps hqueue
      refine ⟨rfl, rfl, s.shared.delivering.toList.filter (·.kind = .state) ++ states, ?_, ?_⟩
      · intro event hmem
        rw [news_eq]
        rcases List.mem_append.mp hmem with h | h
        · exact List.mem_append_left _ h
        · exact List.mem_append_right _ (hstates event h)
      · rw [news_eq, List.append_assoc]
        exact congrArg _ heq

/-- How the native connection changes while an attempt goes on, or without one. -/
def Link.Moves (link link' : Link) : Prop :=
  link' = .down ∨ link' = link ∨ (link = .connecting ∧ link' = .up)

/-- The active attempt when the native connection changes, with the report of that. -/
theorem ActiveOk.report {link link' : Link} {news old : List ConnectionEvent}
    {new : ConnectionEvent} {v : View ι} (h : ActiveOk link news v) (hmoves : link.Moves link')
    (hold : ∀ event ∈ old, event ∈ news) (hnew : Reports link' new) :
    ActiveOk link' (old ++ [new]) v := by
  have hdown (hd : link = .down) : link' = .down := by
    rcases hmoves with h | h | ⟨h, -⟩
    · exact h
    · exact h.trans hd
    · cases h.symm.trans hd
  have hconnecting (hc : link ≠ .connecting) : link' ≠ .connecting := by
    rcases hmoves with h | h | ⟨h, -⟩
    · rw [h]
      decide
    · rwa [h]
    · exact absurd h hc
  constructor
  · intro hs
    obtain ⟨ht, hf, hc⟩ := h.unstarted hs
    exact ⟨ht, hf, hconnecting hc⟩
  · exact fun ht => hconnecting (h.connected ht)
  · exact fun code ht hne => hdown (h.ended code ht hne)
  · exact fun _ _ => .inr (by simp)
  · exact fun hf => hdown (h.cancelled hf)
  · intro t ht event hmem hle
    rcases List.mem_append.mp hmem with hmem | hmem
    · obtain ⟨hup, hdn⟩ := h.since t ht event (hold event hmem) hle
      exact ⟨fun hr => hconnecting (hup hr), fun hr => hdown (hdn hr)⟩
    · rw [List.mem_singleton] at hmem
      subst hmem
      refine ⟨fun hr hc => ?_, fun hr => (hr.unique hnew)⟩
      rw [hc] at hnew
      cases hr.unique hnew

/-- A report on a state in which the parts of `Agrees` hold that it does not settle. -/
theorem Agrees.of_report {s s' : Linked ι} {link : Link} {code : ℤ}
    (hreports : ∀ event ∈ s.shared.news, event.frame = false ∧
      event.values.tag < s.shared.clock ∧ ∃ link, Reports link event)
    (hhandler : s.shared.connection.dispatcher.executing = false → s.shared.delivering = none)
    (hfinished : s.shared.connection.disconnectFinished = true → link = .down ∧
      ∀ a, s.shared.connection.activeConnect = some a → (s.shared.history a).startedAt ≠ none)
    (hrest : s.shared.connection.activeConnect = none → link ≠ .connecting)
    (hactive : ∀ a, s.shared.connection.activeConnect = some a → ∀ old new,
      (∀ event ∈ old, event ∈ s.shared.news) → Reports link new →
        ActiveOk link (old ++ [new]) (s.shared.view a))
    (hflawless : ∀ a, (s.shared.history a).startFailed = false ∧
      (s.shared.history a).cancelFailed = false ∧ (s.shared.history a).closeFailed = false)
    (hreport : s.report link code = some s') : Agrees s' := by
  obtain ⟨hlink, hshared, old, hold, hnews⟩ :=
    news_report (fun event hmem => (hreports event hmem).1) hreport
  have hnew := reports_values link code s.shared.clock
  have hclock : s'.shared.clock = s.shared.clock + 1 := by
    rw [hshared]
    rfl
  have hexecuting : s'.shared.connection.dispatcher.executing =
      s.shared.connection.dispatcher.executing := by
    rw [hshared]
    exact Dispatcher.post_executing _ _ _
  constructor
  · intro event hmem
    rw [hnews, List.mem_append, List.mem_singleton] at hmem
    rw [hclock]
    rcases hmem with hmem | rfl
    · obtain ⟨hframe, htag, hreports⟩ := hreports event (hold event hmem)
      exact ⟨hframe, Nat.lt_succ_of_lt htag, hreports⟩
    · exact ⟨rfl, Nat.lt_succ_self _, link, hnew⟩
  · intro event hlast
    rw [hnews, List.getLast?_append] at hlast
    cases hlast
    rw [hlink]
    exact hnew
  · rw [hexecuting, hshared]
    exact hhandler
  · rw [hlink, hshared]
    exact hfinished
  · intro hnone
    rw [hshared] at hnone
    rw [hlink, hnews]
    exact ⟨hrest hnone, fun h => by simp at h⟩
  · intro a ha
    rw [hlink, hnews]
    rw [hshared] at ha ⊢
    exact hactive a ha old _ hold hnew
  · rw [hshared]
    exact hflawless

/-- **A change of the native connection with its report.** -/
theorem Agrees.report {s s' : Linked ι} {link : Link} {code : ℤ} (hs : Agrees s)
    (hmoves : s.link.Moves link) (hreport : s.report link code = some s') : Agrees s' := by
  refine .of_report hs.reports hs.handler ?_ ?_ ?_ hs.flawless hreport
  · intro hfinished
    obtain ⟨hdown, hstarted⟩ := hs.finished hfinished
    refine ⟨?_, hstarted⟩
    rcases hmoves with h | h | ⟨h, -⟩
    · exact h
    · exact h.trans hdown
    · cases h.symm.trans hdown
  · intro hnone
    obtain ⟨hc, -⟩ := hs.rest hnone
    rcases hmoves with h | h | ⟨h, -⟩
    · rw [h]
      decide
    · rwa [h]
    · exact absurd h hc
  · exact fun a ha old new hold hnew => (hs.active a ha).report hmoves hold hnew

/-! ### Steps that are no matter -/

/-- What `Agrees` asks of an attempt is the same. -/
structure SameFacts (v v' : View ι) : Prop where
  startedAt : v'.history.startedAt = v.history.startedAt
  terminal : v'.attempt.terminalCode = v.attempt.terminalCode
  cancelFinished : v'.attempt.cancelFinished = v.attempt.cancelFinished
  startFailed : v'.history.startFailed = v.history.startFailed
  cancelFailed : v'.history.cancelFailed = v.history.cancelFailed
  closeFailed : v'.history.closeFailed = v.history.closeFailed

theorem SameFacts.refl (v : View ι) : SameFacts v v := ⟨rfl, rfl, rfl, rfl, rfl, rfl⟩

/-- The active attempt, where what is asked of it is the same. -/
theorem ActiveOk.same {link : Link} {news : List ConnectionEvent} {v v' : View ι}
    (h : ActiveOk link news v) (hv : SameFacts v v') : ActiveOk link news v' := by
  constructor
  · rw [hv.startedAt, hv.terminal, hv.cancelFinished]
    exact h.unstarted
  · rw [hv.terminal]
    exact h.connected
  · rw [hv.terminal]
    exact h.ended
  · rw [hv.startedAt, hv.terminal]
    exact h.dropped
  · rw [hv.cancelFinished]
    exact h.cancelled
  · rw [hv.startedAt]
    exact h.since

/-- What `Agrees` asks of the record and of the attempts is the same. -/
structure Calm (s t : Shared ι) : Prop where
  queue : SameQueue s t
  state : t.connection.state = s.connection.state
  finished : t.connection.disconnectFinished = s.connection.disconnectFinished
  active : t.connection.activeConnect = s.connection.activeConnect
  facts : ∀ a, SameFacts (s.view a) (t.view a)

theorem SameQueue.news {s t : Shared ι} (h : SameQueue s t) : t.news = s.news := by
  unfold Shared.news
  rw [h.pending]

/-- **A step that is no matter.** -/
theorem Agrees.calm {s : Linked ι} {t : Shared ι} (hs : Agrees s) (h : Calm s.shared t) :
    Agrees { s with shared := t } := by
  have hhistory (a : ℕ) : (t.history a).startedAt = (s.shared.history a).startedAt :=
    (h.facts a).startedAt
  constructor
  · rw [h.queue.news, h.queue.clock]
    exact hs.reports
  · rw [h.queue.news]
    exact hs.newest
  · rw [h.queue.executing, h.queue.delivering]
    exact hs.handler
  · intro hfinished
    rw [h.finished] at hfinished
    obtain ⟨hdown, hstarted⟩ := hs.finished hfinished
    refine ⟨hdown, fun a ha => ?_⟩
    rw [h.active] at ha
    rw [hhistory a]
    exact hstarted a ha
  · rw [h.active, h.queue.news, h.state]
    exact hs.rest
  · intro a ha
    rw [h.active] at ha
    rw [h.queue.news]
    exact (hs.active a ha).same (h.facts a)
  · intro a
    obtain ⟨hstart, hcancel, hclose⟩ := hs.flawless a
    exact ⟨(h.facts a).startFailed.trans hstart, (h.facts a).cancelFailed.trans hcancel,
      (h.facts a).closeFailed.trans hclose⟩

/-- Attempt `a` is changed where `Agrees` does not look. -/
theorem Calm.change (s : Shared ι) (a : ℕ) {f : ConnectState → ConnectState}
    {g : Attempt ι → Attempt ι}
    (hfacts : SameFacts (s.view a) ((s.view a).write (s.view a).active f g)) :
    Calm s ((s.modify a f).note a g) := by
  refine ⟨⟨rfl, rfl, rfl, rfl, rfl, rfl⟩, rfl, rfl, rfl, fun b => ?_⟩
  by_cases hb : b = a
  · subst hb
    simpa [View.write] using hfacts
  · simpa [hb] using SameFacts.refl _

/-- **Attempt `a` is changed** so that it stays as `ActiveOk` says. -/
theorem Agrees.change {s : Linked ι} (hs : Agrees s) {a : ℕ} {f : ConnectState → ConnectState}
    {g : Attempt ι → Attempt ι}
    (hok : s.shared.connection.activeConnect = some a → ActiveOk s.link s.shared.news
      ((s.shared.view a).write (s.shared.view a).active f g))
    (hstarted : (g (s.shared.history a)).startedAt = (s.shared.history a).startedAt)
    (hflawless : (g (s.shared.history a)).startFailed = false ∧
      (g (s.shared.history a)).cancelFailed = false ∧
      (g (s.shared.history a)).closeFailed = false) :
    Agrees { s with shared := (s.shared.modify a f).note a g } := by
  have hview (b : ℕ) : ((s.shared.modify a f).note a g).view b =
      if b = a then (s.shared.view a).write (s.shared.view a).active f g
      else s.shared.view b := by
    by_cases hb : b = a
    · simp [hb, View.write]
    · simp [hb]
  have hhistory (b : ℕ) : ((s.shared.modify a f).note a g).history b =
      if b = a then g (s.shared.history a) else s.shared.history b := by
    by_cases hb : b = a
    · simp [hb, Shared.note]
    · simp [hb, Shared.note]
  constructor
  · exact hs.reports
  · exact hs.newest
  · exact hs.handler
  · intro hfinished
    obtain ⟨hdown, hall⟩ := hs.finished hfinished
    refine ⟨hdown, fun b hb => ?_⟩
    show (((s.shared.modify a f).note a g).history b).startedAt ≠ none
    rw [hhistory]
    split
    · next heq =>
        rw [hstarted, ← heq]
        exact hall b hb
    · exact hall b hb
  · exact hs.rest
  · intro b hb
    show ActiveOk s.link s.shared.news (((s.shared.modify a f).note a g).view b)
    rw [hview]
    split
    · next heq => exact hok (heq ▸ hb)
    · exact hs.active b hb
  · intro b
    show (((s.shared.modify a f).note a g).history b).startFailed = false ∧
      (((s.shared.modify a f).note a g).history b).cancelFailed = false ∧
        (((s.shared.modify a f).note a g).history b).closeFailed = false
    rw [hhistory]
    split
    · exact hflawless
    · exact hs.flawless b

/-! ### The steps of a cancellation -/

/-- What a thread knows of the native connection where it cancels attempt `a`. -/
def CancelLink (s : Linked ι) (a : ℕ) : CancelStage → Prop
  | .enter | .join => True
  | .start => s.shared.connection.activeConnect = some a
  | .attemptCancel | .awaitDone | .disconnect =>
      s.shared.connection.activeConnect = some a ∧ (s.shared.attempt a).nativeStarted = true
  | .barrier | .terminal | .mark | .leave _ =>
      (s.shared.connection.activeConnect = some a ∧ (s.shared.attempt a).nativeStarted = true) ∧
        s.link = .down

/-- An attempt whose native connect call has returned has its number of that. -/
theorem started_of_nativeStarted {s : Linked ι} (hI : Attempts errorName s.shared) (hs : Agrees s)
    {a : ℕ} (h : (s.shared.attempt a).nativeStarted = true) :
    (s.shared.history a).startedAt ≠ none := by
  rcases (hI.ok a).started.mp h with hfailed | hstarted
  · exact absurd ((hs.flawless a).1.symm.trans hfailed) (by simp)
  · exact hstarted

/-- What a step of a cancellation has to show. -/
structure CancelLinked (s : Linked ι) (t : Shared ι) (a : ℕ)
    (next : CancelStage ⊕ Option PyError) : Prop where
  agrees : Agrees { s with shared := t }
  next : ∀ stage, next = .inl stage → CancelLink { s with shared := t } a stage

/-- A step of a cancellation that only reads, and goes on. -/
theorem CancelLinked.goes {s : Linked ι} (hs : Agrees s) {a : ℕ} {stage : CancelStage}
    (hlink : CancelLink s a stage) : CancelLinked s s.shared a (.inl stage) :=
  ⟨hs, fun _ h => Sum.inl.inj h ▸ hlink⟩

/-- A step of a cancellation that only reads, and returns. -/
theorem CancelLinked.returns {s : Linked ι} (hs : Agrees s) {a : ℕ} (raised : Option PyError) :
    CancelLinked s s.shared a (.inr raised) :=
  ⟨hs, fun _ h => by cases h⟩

/-- The terminal code of a cancelled attempt, whose native connection is down. -/
theorem Agrees.cancelTerminal {s : Linked ι} (hI : Attempts errorName s.shared) (hs : Agrees s)
    {a : ℕ} (hactive : s.shared.connection.activeConnect = some a)
    (hstarted : (s.shared.attempt a).nativeStarted = true) (hdown : s.link = .down) :
    CancelLinked s (s.shared.settle a .cancelled (s.shared.connection.cancelTerminal a)) a
      (.inl .mark) := by
  have hstartedAt := started_of_nativeStarted hI hs hstarted
  have hok := hs.active a hactive
  rcases cancelTerminal_cases s.shared a with ⟨-, heq⟩ | ⟨-, heq⟩
  · rw [heq]
    refine ⟨hs.change ?_ rfl (hs.flawless a), ?_⟩
    · intro _
      constructor
      · exact fun h => absurd h hstartedAt
      · intro h
        cases h
      · exact fun _ _ _ => hdown
      · exact fun _ _ => .inl ⟨6115, rfl, by decide⟩
      · exact hok.cancelled
      · exact hok.since
    · intro stage h
      cases h
      exact ⟨⟨hactive, by simpa using hstarted⟩, hdown⟩
  · rw [heq]
    refine ⟨hs.calm (.change s.shared a ⟨rfl, rfl, rfl, rfl, rfl, rfl⟩), fun stage h => ?_⟩
    cases h
    exact ⟨⟨hactive, by simpa using hstarted⟩, hdown⟩

/-- `_disconnect_finished` is set while the native connection is down and the active attempt has
begun its native connect call. -/
theorem Agrees.mark {s : Linked ι} (hs : Agrees s) (hdown : s.link = .down)
    (hstarted : ∀ a, s.shared.connection.activeConnect = some a →
      (s.shared.history a).startedAt ≠ none) :
    Agrees { s with shared := { s.shared with
      connection := { s.shared.connection with disconnectFinished := true } } } :=
  ⟨hs.reports, hs.newest, hs.handler, fun _ => ⟨hdown, hstarted⟩, hs.rest, hs.active, hs.flawless⟩

/-- The cancellation is finished, and the native connection is down. -/
theorem Agrees.leave {s : Linked ι} (hI : Attempts errorName s.shared) (hs : Agrees s) {a : ℕ}
    (hactive : s.shared.connection.activeConnect = some a)
    (hstarted : (s.shared.attempt a).nativeStarted = true) (hdown : s.link = .down)
    (raised : Option PyError) :
    Agrees { s with shared := (s.shared.modify a fun attempt =>
      { attempt with
        cancelError := raised <|> attempt.cancelError, cancelFinished := true }).note a id } := by
  have hok := hs.active a hactive
  refine hs.change (fun _ => ?_) rfl (hs.flawless a)
  constructor
  · exact fun h => absurd h (started_of_nativeStarted hI hs hstarted)
  · exact hok.connected
  · exact hok.ended
  · exact hok.dropped
  · exact fun _ => hdown
  · exact hok.since

/-- **A step of a cancellation**, up to what its native disconnect does to the native connection. -/
theorem CancelMoves.linked {s : Linked ι} {t : Shared ι} {i : ι} {a : ℕ} {error : PyError}
    {stage : CancelStage} {act : CallAction} {next : CancelStage ⊕ Option PyError}
    (hI : Attempts errorName s.shared) (hs : Agrees s) (hlink : CancelLink s a stage)
    (hnative : ∀ r, act = .native r → r = .code 0) (hstage : stage ≠ .disconnect)
    (hmoves : CancelMoves s.shared i a error stage act t next) : CancelLinked s t a next := by
  cases hmoves with
  | settled => exact .returns hs none
  | joined => exact .returns hs _
  | waits => exact .goes hs trivial
  | performs hactive =>
      refine ⟨hs.calm (.change s.shared a ⟨rfl, rfl, rfl, rfl, rfl, rfl⟩), fun stage h => ?_⟩
      cases h
      exact hactive
  | tooLate hfinished =>
      -- the attempt is active, so its `connect` has not finished it
      obtain ⟨-, hcancel, hclose⟩ := hs.flawless a
      rcases (hI.ok a).unfinished ((view_active _ _).mpr hlink) hfinished with h | h
      · cases hcancel.symm.trans h
      · cases hclose.symm.trans h
  | unhandled hstarted _ hmanaged hhandle =>
      have hstartedAt := started_of_nativeStarted hI hs hstarted
      exact absurd hhandle ((hI.ok a).handle hstartedAt hmanaged)
  | toAttempt hstarted => exact .goes hs ⟨hlink, hstarted⟩
  | toDisconnect hstarted => exact .goes hs ⟨hlink, hstarted⟩
  | attemptCancelled => exact .goes hs hlink
  | connected => exact .goes hs hlink
  | ended hdone hne =>
      obtain ⟨code, hcode⟩ := Option.ne_none_iff_exists'.mp ((hI.ok a).done hdone)
      refine .goes hs ⟨hlink, (hs.active a hlink.1).ended code hcode fun h => hne ?_⟩
      rw [← h]
      exact hcode
  | disconnected => exact absurd rfl hstage
  | failed _ r e _ hr => exact absurd (hnative r rfl) hr
  | drained =>
      refine .goes hs ?_
      split
      · exact hlink
      · exact hlink
  | terminal => exact hs.cancelTerminal hI hlink.1.1 hlink.1.2 hlink.2
  | marks =>
      refine ⟨hs.mark hlink.2 ?_, ?_⟩
      · intro b hb
        cases hb.symm.trans hlink.1.1
        exact started_of_nativeStarted hI hs hlink.1.2
      · intro stage h
        cases h
        exact hlink
  | leaves raised =>
      refine ⟨?_, fun stage h => by cases h⟩
      have hleave := hs.leave hI hlink.1.1 hlink.1.2 hlink.2 raised
      rwa [Shared.note_id] at hleave

/-! ### The steps of `connect` and `disconnect` -/

/-- `_begin_connect` makes an attempt. -/
theorem Agrees.begun {s : Linked ι} (hs : Agrees s)
    (hnone : s.shared.connection.activeConnect = none) (i : ι) (managed : Bool) :
    Agrees { s with shared := s.shared.begun i managed } := by
  obtain ⟨hc, -⟩ := hs.rest hnone
  have hhistory (a : ℕ) : (s.shared.begun i managed).history a =
      if a = s.shared.next then { owner := some i, bornAt := s.shared.clock }
      else s.shared.history a := by
    by_cases h : a = s.shared.next
    · simp [Shared.begun, Shared.note, h]
    · simp [Shared.begun, Shared.note, h]
  constructor
  · exact hs.reports
  · exact hs.newest
  · exact hs.handler
  · intro hfinished
    cases hfinished
  · intro h
    cases h
  · intro a ha
    cases ha
    show ActiveOk s.link s.shared.news ((s.shared.begun i managed).view s.shared.next)
    rw [view_begun_next]
    constructor
    · exact fun _ => ⟨rfl, rfl, hc⟩
    · intro h
      cases h
    · intro code h
      cases h
    · exact fun h => absurd rfl h
    · intro h
      cases h
    · intro t h
      cases h
  · intro a
    show ((s.shared.begun i managed).history a).startFailed = false ∧
      ((s.shared.begun i managed).history a).cancelFailed = false ∧
        ((s.shared.begun i managed).history a).closeFailed = false
    rw [hhistory]
    split
    · exact ⟨rfl, rfl, rfl⟩
    · exact hs.flawless a

/-- The state after the native connect call of attempt `a` has returned. -/
def Shared.started (s : Shared ι) (a : ℕ) : Shared ι :=
  (s.modify a fun attempt =>
    { attempt with
      managedHandle := if attempt.managed then some a else none
      nativeStarted := true }).note a
    fun history => { history with startedAt := some s.clock }

/-- **The native connect call**, with the report of that. -/
theorem Agrees.started {s s' : Linked ι} {a : ℕ} (hs : Agrees s)
    (hactive : s.shared.connection.activeConnect = some a)
    (hunstarted : (s.shared.history a).startedAt = none)
    (hreport : Linked.report { s with shared := s.shared.started a } .connecting 0 = some s') :
    Agrees s' := by
  have hok := hs.active a hactive
  obtain ⟨hterminal, hcancel, hlink⟩ := hok.unstarted hunstarted
  have hview : (s.shared.started a).view a = (s.shared.view a).write (s.shared.view a).active
      (fun attempt => { attempt with
        managedHandle := if attempt.managed then some a else none, nativeStarted := true })
      fun history => { history with startedAt := some s.shared.clock } := by
    simp [Shared.started, View.write]
  refine .of_report (s := { s with shared := s.shared.started a }) hs.reports hs.handler
    ?_ ?_ ?_ ?_ hreport
  · -- nothing sets `_disconnect_finished` before the native call
    intro hfinished
    exact absurd hunstarted ((hs.finished hfinished).2 a hactive)
  · intro hnone
    cases hactive.symm.trans hnone
  · intro b hb old new hold hnew
    cases hactive.symm.trans hb
    rw [hview]
    constructor
    · intro h
      cases h
    · intro h
      cases hterminal.symm.trans h
    · intro code h
      cases hterminal.symm.trans h
    · intro _ h
      cases h
    · intro h
      cases hcancel.symm.trans h
    · intro t ht event hmem hle
      cases ht
      rcases List.mem_append.mp hmem with hmem | hmem
      · -- the events from before the call have smaller numbers
        have hlt := (hs.reports event (hold event hmem)).2.1
        exact absurd hle (Nat.not_le_of_lt hlt)
      · rw [List.mem_singleton] at hmem
        subst hmem
        refine ⟨?_, ?_⟩
        · intro hr
          cases hr.unique hnew
        · intro hr
          cases hr.unique hnew
  · intro b
    by_cases hb : b = a
    · subst hb
      simpa [Shared.started, Shared.note] using hs.flawless b
    · simpa [Shared.started, Shared.note, Shared.modify, hb] using hs.flawless b

/-- An attempt that is over without success has its native connection down. -/
theorem ActiveOk.down_of_fails {link : Link} {news : List ConnectionEvent} {v : View ι}
    (h : ActiveOk link news v) (hok : AttemptOk errorName v) (hover : Over v) (hquiet : Quiet v)
    (hfails : Connection.succeeds v.attempt = false) : link = .down := by
  by_cases herror : v.attempt.error = none
  · cases ht : v.attempt.terminalCode with
    | none => exact h.cancelled (hover.resolve_left fun hne => hne ht)
    | some code =>
        refine h.ended code ht ?_
        intro hzero
        simp [Connection.succeeds, ht, hzero, herror] at hfails
  · exact h.cancelled (hquiet (hok.error.mp herror))

/-- The state after the section of `_finish_connect`. -/
def Shared.finish (s : Shared ι) (a : ℕ) (seen : FinishView) : Shared ι :=
  let c := s.connection.finishConnect a
  Shared.note { s with connection := c } a
    fun history => { history with finishView := some seen }

/-- **`_finish_connect`** releases the active attempt: it has succeeded and the native connection
is up, or has gone down with a report on its way, or it has failed and the native connection is
down. -/
theorem Agrees.finish {s : Linked ι} {i : ι} {a : ℕ} {seen : FinishView}
    (hI : Attempts errorName s.shared) (hs : Agrees s)
    (hat : ConnectAt i (s.shared.view a) .finishLock)
    (hqueue : SameQueue s.shared (s.shared.finish a seen)) :
    Agrees { s with shared := s.shared.finish a seen } := by
  obtain ⟨ho, -, hover, hquiet, -⟩ := hat
  have hactive := (view_active s.shared a).mp ho.active
  have hok := hs.active a hactive
  have hfails := hok.down_of_fails (hI.ok a) hover hquiet
  have hnone : (s.shared.finish a seen).connection.activeConnect = none := by
    simp [Shared.finish, s.shared.connection.finishConnect_eq, hactive]
  have hstate : (s.shared.finish a seen).connection.state =
      if Connection.succeeds (s.shared.attempt a) then .connected else .disconnected := by
    simp [Shared.finish, s.shared.connection.finishConnect_eq]
  have hfinished : (s.shared.finish a seen).connection.disconnectFinished =
      if Connection.succeeds (s.shared.attempt a) then
        s.shared.connection.disconnectFinished else true := by
    simp [Shared.finish, s.shared.connection.finishConnect_eq]
  have hterminal (h : Connection.succeeds (s.shared.attempt a) = true) :
      (s.shared.view a).attempt.terminalCode = some 0 := by
    simp only [Connection.succeeds, Bool.and_eq_true, decide_eq_true_eq] at h
    exact h.1
  constructor
  · rw [hqueue.news, hqueue.clock]
    exact hs.reports
  · rw [hqueue.news]
    exact hs.newest
  · rw [hqueue.executing, hqueue.delivering]
    exact hs.handler
  · intro h
    refine ⟨?_, fun b hb => by cases hnone.symm.trans hb⟩
    cases hsucceeds : Connection.succeeds (s.shared.attempt a) with
    | false => exact hfails hsucceeds
    | true =>
        rw [hfinished, if_pos hsucceeds] at h
        exact (hs.finished h).1
  · intro _
    rw [hqueue.news, hstate]
    cases hsucceeds : Connection.succeeds (s.shared.attempt a) with
    | false =>
        have hdown := hfails hsucceeds
        refine ⟨by rw [hdown]; decide, fun _ => ?_⟩
        rw [hdown]
        decide
    | true =>
        have ht := hterminal hsucceeds
        refine ⟨hok.connected ht, fun hnews => ?_⟩
        have hstarted : (s.shared.view a).history.startedAt ≠ none := by
          intro h
          cases (hok.unstarted h).1.symm.trans ht
        have hup : s.link = .up := by
          cases hlink : s.link with
          | up => rfl
          | connecting => exact absurd hlink (hok.connected ht)
          | down =>
              -- a drop would still be on its way
              rcases hok.dropped hstarted hlink with ⟨code, hcode, hne⟩ | hne
              · cases ht.symm.trans hcode
                exact absurd rfl hne
              · exact absurd hnews hne
        simp [hup]
  · intro b hb
    cases hnone.symm.trans hb
  · intro b
    by_cases hb : b = a
    · subst hb
      simpa [Shared.finish, Shared.note] using hs.flawless b
    · simpa [Shared.finish, Shared.note, hb] using hs.flawless b

/-- The write at the end of `disconnect`, while the native connection is down and stays so. -/
theorem Agrees.write {s : Linked ι} (hs : Agrees s) (hdown : s.link = .down)
    (hstarted : ∀ a, s.shared.connection.activeConnect = some a →
      (s.shared.history a).startedAt ≠ none) :
    Agrees { s with shared := { s.shared with connection := { s.shared.connection with
      state := .disconnected, disconnectFinished := true } } } := by
  refine ⟨hs.reports, hs.newest, hs.handler, fun _ => ⟨hdown, hstarted⟩, fun hnone => ?_,
    hs.active, hs.flawless⟩
  refine ⟨(hs.rest hnone).1, fun _ => ?_⟩
  show ConnectionState.disconnected = .connected ↔ s.link = .up
  rw [hdown]
  decide

/-! ### The steps of the Runtime and the pool -/

/-- A post of another event. -/
theorem Agrees.post_other {s s' : Linked ι} {kind : EventKind} {values : List PyValue}
    (hs : Agrees s) (hkind : kind ≠ .state) (hpost : s.post kind values = some s') :
    Agrees s' := by
  obtain ⟨hlink, hshared, hnews⟩ := news_post_other hkind hpost
  have hclock : s'.shared.clock = s.shared.clock + 1 := by
    rw [hshared]
    rfl
  have hexecuting : s'.shared.connection.dispatcher.executing =
      s.shared.connection.dispatcher.executing := by
    rw [hshared]
    exact Dispatcher.post_executing _ _ _
  constructor
  · intro event hmem
    rw [hnews] at hmem
    rw [hclock]
    obtain ⟨hframe, htag, hreports⟩ := hs.reports event hmem
    exact ⟨hframe, Nat.lt_succ_of_lt htag, hreports⟩
  · rw [hnews, hlink]
    exact hs.newest
  · rw [hexecuting, hshared]
    exact hs.handler
  · rw [hlink, hshared]
    exact hs.finished
  · rw [hlink, hnews, hshared]
    exact hs.rest
  · rw [hlink, hnews, hshared]
    exact hs.active
  · rw [hshared]
    exact hs.flawless

/-- The completion of a managed attempt. -/
theorem Agrees.managedComplete {s : Linked ι} (hs : Agrees s) {a : ℕ} {code : ℤ}
    (hcompletes : s.completes a code = true) :
    Agrees { s with
      shared := s.shared.settle a .managed (s.shared.connection.managedComplete a code) } := by
  rcases managedComplete_cases s.shared a code with ⟨hactive, ht, heq⟩ | heq
  · have hok := hs.active a hactive
    unfold Linked.completes at hcompletes
    obtain ⟨hstarted, hlink⟩ := Bool.and_eq_true_iff.mp hcompletes
    have hstarted : (s.shared.history a).startedAt ≠ none := Option.isSome_iff_ne_none.mp hstarted
    rw [heq]
    refine hs.change (fun _ => ?_) rfl (hs.flawless a)
    constructor
    · exact fun h => absurd h hstarted
    · intro h
      cases h
      simpa using hlink
    · intro code' h hne
      cases h
      simpa [hne] using hlink
    · intro _ hdown
      by_cases hzero : code = 0
      · -- a drop before the completion is still on its way
        rcases hok.dropped hstarted hdown with ⟨code', hcode, hne⟩ | hnews
        · rcases ht with h | ⟨-, h⟩
          · cases h.symm.trans hcode
          · exact absurd hzero h
        · exact .inr hnews
      · exact .inl ⟨code, rfl, hzero⟩
    · exact hok.cancelled
    · exact hok.since
  · rw [heq]
    exact hs

/-- The pool moves the events, with the same news. -/
theorem Agrees.moved {s : Linked ι} (hs : Agrees s) (delivering : Option ConnectionEvent)
    (d : Dispatcher (Tagged (List PyValue)))
    (hnews : (delivering.toList ++ d.events).filter (·.kind = .state) = s.shared.news)
    (hhandler : d.executing = false → delivering = none) :
    Agrees { s with shared := { s.shared with
      delivering := delivering, connection := { s.shared.connection with dispatcher := d } } } := by
  have hnews' : Shared.news { s.shared with
      delivering := delivering
      connection := { s.shared.connection with dispatcher := d } } = s.shared.news := hnews
  constructor
  · rw [hnews']
    exact hs.reports
  · rw [hnews']
    exact hs.newest
  · exact hhandler
  · exact hs.finished
  · rw [hnews']
    exact hs.rest
  · rw [hnews']
    exact hs.active
  · exact hs.flawless

/-- The pool takes the next event. -/
theorem Agrees.drainBegin {s : Linked ι} {t : Shared ι} (hs : Agrees s)
    (hstep : environmentStep s.shared .drainBegin = some t) : Agrees { s with shared := t } := by
  simp only [environmentStep] at hstep
  split at hstep
  · cases hstep
  · next hidle =>
      have hnone := hs.handler (Bool.eq_false_iff.mpr hidle)
      cases hevents : s.shared.connection.dispatcher.events with
      | nil =>
          rw [Dispatcher.drainBegin_nil hevents] at hstep
          cases hstep
          refine hs.moved none _ ?_ fun _ => rfl
          simp [Shared.news, Shared.pending, hnone]
      | cons event rest =>
          rw [Dispatcher.drainBegin_cons hevents] at hstep
          cases hstep
          refine hs.moved (some event) _ ?_ fun h => by cases h
          simp [Shared.news, Shared.pending, hnone, hevents]

/-- The pool is done with an event. -/
theorem Agrees.drainEnd {s : Linked ι} {t : Shared ι} (hs : Agrees s)
    (hstep : environmentStep s.shared .drainEnd = some t) : Agrees { s with shared := t } := by
  simp only [environmentStep] at hstep
  split at hstep
  · next hdone =>
      cases hstep
      have hnone : s.shared.delivering = none := by
        simpa using (Bool.and_eq_true_iff.mp hdone).2
      refine hs.moved s.shared.delivering _ rfl fun _ => hnone
  · cases hstep

/-- The event brings attempt `a` a terminal code. -/
def Shared.settles {ι : Type} (s : Shared ι) (event : ConnectionEvent) (a : ℕ) : Bool :=
  (Connection.readState event).any fun change =>
    Connection.takesState (s.attempt a) change.1 change.2 &&
      (Connection.stateOutcome change.1 change.2).isSome

/-- The condition on the pool: the handler gives the active attempt no outcome from before its
native connect call. -/
def handlesOwn (s : Linked ι) : Linked.Action → Bool
  | .runtime .handle =>
      s.shared.delivering.all fun event => s.shared.connection.activeConnect.all fun a =>
        !s.shared.settles event a ||
          (s.shared.history a).startedAt.any fun t => decide (t ≤ event.values.tag)
  | _ => true

/-- The event with the handler and the others that are on their way. -/
theorem news_delivering {s : Shared ι} {event : ConnectionEvent}
    (hdelivering : s.delivering = some event) :
    s.news = [event].filter (·.kind = .state) ++ (deliver s event).news := by
  unfold Shared.news
  rw [pending_deliver]
  unfold Shared.pending
  rw [hdelivering, List.filter_append]
  rfl

/-- An event that is not a state event is not read as one. -/
theorem readState_of_kind {event : ConnectionEvent} (h : event.kind ≠ .state) :
    Connection.readState event = none := if_neg h

/-- The handler takes a state event, and none is left: the event reports the native connection. -/
theorem Agrees.last_reports {s : Linked ι} (hs : Agrees s) {event : ConnectionEvent}
    (hdelivering : s.shared.delivering = some event) (hkind : event.kind = .state)
    (hrest : (deliver s.shared event).news = []) : Reports s.link event := by
  have hnews := news_delivering hdelivering
  rw [hrest] at hnews
  refine hs.newest event ?_
  simp [hnews, hkind]

/-- What the handler leaves, where the reported state and the active attempt are as they should
be. -/
theorem Agrees.delivered {s : Linked ι} (hs : Agrees s) {event : ConnectionEvent}
    (hdelivering : s.shared.delivering = some event) {state : ConnectionState} {a : ℕ}
    {f : ConnectState → ConnectState} {g : Attempt ι → Attempt ι}
    (hd : deliver s.shared event = ((s.shared.reports state).modify a f).note a g)
    (hg : ∀ h, (g h).startedAt = h.startedAt ∧ (g h).startFailed = h.startFailed ∧
      (g h).cancelFailed = h.cancelFailed ∧ (g h).closeFailed = h.closeFailed)
    (hrest : s.shared.connection.activeConnect = none → (deliver s.shared event).news = [] →
      (state = .connected ↔ s.link = .up))
    (hok : ∀ b, s.shared.connection.activeConnect = some b → ActiveOk s.link
      (deliver s.shared event).news ((deliver s.shared event).view b)) :
    Agrees { s with shared := deliver s.shared event } := by
  have hnews := news_delivering hdelivering
  have hhistory (b : ℕ) : (deliver s.shared event).history b =
      if b = a then g (s.shared.history b) else s.shared.history b := by
    rw [hd]
    by_cases hb : b = a
    · simp [hb, Shared.note, Shared.reports]
    · simp [hb, Shared.note, Shared.reports]
  constructor
  · intro other hmem
    have hclock : (deliver s.shared event).clock = s.shared.clock := by
      rw [hd]
      rfl
    rw [hclock]
    exact hs.reports other (hnews ▸ List.mem_append_right _ hmem)
  · intro other hlast
    refine hs.newest other ?_
    rw [hnews, List.getLast?_append, hlast]
    rfl
  · intro _
    rw [hd]
    rfl
  · intro h
    have hfinished : s.shared.connection.disconnectFinished = true := by
      rw [hd] at h
      exact h
    obtain ⟨hdown, hstarted⟩ := hs.finished hfinished
    refine ⟨hdown, fun b hb => ?_⟩
    rw [hd] at hb
    have hstartedAt : ((deliver s.shared event).history b).startedAt =
        (s.shared.history b).startedAt := by
      rw [hhistory]
      split
      · exact (hg _).1
      · rfl
    rw [hstartedAt]
    exact hstarted b hb
  · intro h
    have hnone : s.shared.connection.activeConnect = none := by
      rw [hd] at h
      exact h
    refine ⟨(hs.rest hnone).1, fun hempty => ?_⟩
    have hstate : (deliver s.shared event).connection.state = state := by
      rw [hd]
      rfl
    rw [hstate]
    exact hrest hnone hempty
  · intro b hb
    refine hok b ?_
    rw [hd] at hb
    exact hb
  · intro b
    rw [hhistory]
    split
    · obtain ⟨-, hstart, hcancel, hclose⟩ := hg (s.shared.history b)
      rw [hstart, hcancel, hclose]
      exact hs.flawless b
    · exact hs.flawless b

/-- The handler is called without an attempt in progress. -/
theorem Agrees.handle_idle {s : Linked ι} (hs : Agrees s) {event : ConnectionEvent}
    (hdelivering : s.shared.delivering = some event)
    (hnone : s.shared.connection.activeConnect = none) :
    Agrees { s with shared := deliver s.shared event } := by
  obtain ⟨hc, hidle⟩ := hs.rest hnone
  have hd : deliver s.shared event = ((s.shared.reports
      (s.shared.connection.handleEvent event).1.state).modify 0 id).note 0 id := by
    rcases s.shared.connection.handleEvent_cases event with
      ⟨⟨state, h⟩, -⟩ | ⟨a, state, code, terminal, hactive, -⟩
    · simp [deliver, hnone, h, Shared.reports]
    · cases hnone.symm.trans hactive
  refine hs.delivered hdelivering hd (fun _ => ⟨rfl, rfl, rfl, rfl⟩) (fun _ hrest => ?_)
    fun b hb => by cases hnone.symm.trans hb
  by_cases hkind : event.kind = .state
  · -- the last event reports the native connection, which is not `connecting`
    obtain ⟨code, hread⟩ := hs.last_reports hdelivering hkind hrest
    have hstate : (s.shared.connection.handleEvent event).1.state = s.link.state := by
      unfold Connection.handleEvent Connection.handleState
      simp only [hread, hnone]
      rw [if_neg]
      rintro ⟨-, h⟩
      cases hlink : s.link <;> simp [hlink, Link.state] at h hc
    rw [hstate]
    cases s.link <;> simp [Link.state]
  · have hsame : (s.shared.connection.handleEvent event).1 = s.shared.connection := by
      simp [Connection.handleEvent, readState_of_kind hkind]
    rw [hsame]
    apply hidle
    rw [news_delivering hdelivering, hrest]
    simp [hkind]

/-- A drop of the native connection that the handler takes ends the attempt, unless it has ended
with an error. -/
theorem takes_drop {attempt : ConnectState} {state : ConnectionState} {code : ℤ}
    (hstate : state = .disconnected) (h : Connection.takesState attempt state code = false) :
    ∃ terminal, attempt.terminalCode = some terminal ∧ terminal ≠ 0 := by
  unfold Connection.takesState at h
  cases ht : attempt.terminalCode with
  | none => simp [ht] at h
  | some terminal =>
      refine ⟨terminal, rfl, fun hzero => ?_⟩
      simp [ht, hzero, hstate] at h

/-- The active attempt, with fewer state events on their way. -/
theorem ActiveOk.fewer {link : Link} {news news' : List ConnectionEvent} {v : View ι}
    (h : ActiveOk link news v) (hsub : ∀ event ∈ news', event ∈ news)
    (hdropped : v.history.startedAt ≠ none → link = .down →
      (∃ code, v.attempt.terminalCode = some code ∧ code ≠ 0) ∨ news' ≠ []) :
    ActiveOk link news' v :=
  ⟨h.unstarted, h.connected, h.ended, hdropped, h.cancelled,
    fun t ht event hmem hle => h.since t ht event (hsub event hmem) hle⟩

/-- The active attempt takes the outcome of an event from behind its native connect call. -/
theorem ActiveOk.takes {link : Link} {news news' : List ConnectionEvent} {v : View ι}
    {event : ConnectionEvent} {t : ℕ} {terminal : ℤ} (h : ActiveOk link news v)
    (hsub : ∀ event ∈ news', event ∈ news) (hmem : event ∈ news)
    (hreports : ∃ link', Reports link' event) (hnewest : news' = [] → Reports link event)
    (ht : v.history.startedAt = some t) (hle : t ≤ event.values.tag)
    (houtcome : Connection.eventOutcome event = some terminal) (g : Attempt ι → Attempt ι)
    (hg : (g v.history).startedAt = v.history.startedAt) :
    ActiveOk link news' (v.write v.active (fun attempt =>
      { attempt with terminalCode := some terminal, done := true }) g) := by
  obtain ⟨hup, hdown⟩ := h.since t ht event hmem hle
  obtain ⟨link', hlink'⟩ := hreports
  have houtcome' := outcome_of_reports hlink'
  have hstarted : (g v.history).startedAt = some t := hg.trans ht
  have hzero (hz : terminal = 0) : link' = .up := by
    cases link' with
    | up => rfl
    | connecting => cases houtcome.symm.trans houtcome'
    | down =>
        obtain ⟨code, hne, hcode⟩ := houtcome'
        cases houtcome.symm.trans hcode
        exact absurd hz hne
  have hnonzero (hz : terminal ≠ 0) : link' = .down := by
    cases link' with
    | up =>
        cases houtcome.symm.trans houtcome'
        exact absurd rfl hz
    | connecting => cases houtcome.symm.trans houtcome'
    | down => rfl
  constructor
  · intro hnone
    cases hstarted.symm.trans hnone
  · intro hcode
    exact hup (hzero (Option.some.inj hcode) ▸ hlink')
  · intro code hcode hne
    cases hcode
    exact hdown (hnonzero hne ▸ hlink')
  · intro _ hd
    by_cases hz : terminal = 0
    · -- CONNECTED is not the newest of the news, since the native connection is down
      right
      intro hempty
      have hnew := hnewest hempty
      rw [hd] at hnew
      rw [hzero hz] at hlink'
      cases hlink'.unique hnew
    · exact .inl ⟨terminal, rfl, hz⟩
  · exact h.cancelled
  · intro t' ht' other hother hle'
    exact h.since t' (hg.symm.trans ht') other (hsub other hother) hle'

/-- **The handler is called.** -/
theorem Agrees.handle {s : Linked ι} (hs : Agrees s) {event : ConnectionEvent}
    (hdelivering : s.shared.delivering = some event)
    (hown : handlesOwn s (.runtime .handle) = true) :
    Agrees { s with shared := deliver s.shared event } := by
  rcases Option.eq_none_or_eq_some s.shared.connection.activeConnect with hnone | ⟨a, hactive⟩
  · exact hs.handle_idle hdelivering hnone
  have hok := hs.active a hactive
  have hnews := news_delivering hdelivering
  have hsub (other : ConnectionEvent) (h : other ∈ (deliver s.shared event).news) :
      other ∈ s.shared.news := hnews ▸ List.mem_append_right _ h
  rcases deliver_cases s.shared event with
    ⟨⟨state, hd⟩, hquiet⟩ | ⟨b, state, code, terminal, hb, hread, houtcome, hterminal, hd⟩
  · have hd' : deliver s.shared event = ((s.shared.reports state).modify 0 id).note 0 id := by
      simp [hd]
    refine hs.delivered hdelivering hd' (fun _ => ⟨rfl, rfl, rfl, rfl⟩)
      (fun hnone => by cases hnone.symm.trans hactive) ?_
    intro b hb
    cases hactive.symm.trans hb
    have hview : (deliver s.shared event).view a = s.shared.view a := by
      rw [hd]
      rfl
    rw [hview]
    refine hok.fewer hsub ?_
    intro hstarted hdown
    by_cases hempty : (deliver s.shared event).news = []
    · left
      by_cases hkind : event.kind = .state
      · -- the report of the drop: the attempt does not take it, so it has ended with an error
        obtain ⟨code, hread⟩ := hs.last_reports hdelivering hkind hempty
        rw [hdown] at hread
        have hleft : Connection.takesState (s.shared.attempt a) .disconnected code = false := by
          rw [Bool.eq_false_iff]
          intro htakes
          have hnone := hquiet a _ _ hactive hread htakes
          simp [Connection.stateOutcome, Link.state] at hnone
        exact takes_drop rfl hleft
      · have hnone : s.shared.news = [] := by
          rw [hnews, hempty]
          simp [hkind]
        exact (hok.dropped hstarted hdown).resolve_right fun h => h hnone
    · exact .inr hempty
  · cases hactive.symm.trans hb
    have hsettles : s.shared.settles event a = true := by
      simp [Shared.settles, hread, houtcome, (Connection.takes_iff houtcome).mpr hterminal]
    obtain ⟨t, ht, hle⟩ : ∃ t, (s.shared.history a).startedAt = some t ∧
        t ≤ event.values.tag := by
      simpa [handlesOwn, hdelivering, hactive, hsettles, Option.any_eq_true] using hown
    have houtcome : Connection.eventOutcome event = some terminal := by
      simp [Connection.eventOutcome, hread, houtcome]
    have hkind : event.kind = .state := by
      by_contra hkind
      cases (readState_of_kind hkind).symm.trans hread
    have hmem : event ∈ s.shared.news := by
      rw [hnews]
      simp [hkind]
    refine hs.delivered hdelivering hd (fun _ => ⟨rfl, rfl, rfl, rfl⟩)
      (fun hnone => by cases hnone.symm.trans hactive) ?_
    intro b hb
    cases hactive.symm.trans hb
    have hview : (deliver s.shared event).view a =
        (s.shared.view a).write (s.shared.view a).active (fun attempt =>
          { attempt with terminalCode := some terminal, done := true }) fun history =>
            { history with causes := (.event event.values.tag, terminal) :: history.causes } := by
      have hsame : (s.shared.reports state).view a = s.shared.view a := rfl
      rw [hd]
      simp [View.write, hsame]
    rw [hview]
    exact hok.takes hsub hmem (hs.reports event hmem).2.2
      (fun hempty => hs.last_reports hdelivering hkind hempty) ht hle houtcome _ rfl

end Tirtc
