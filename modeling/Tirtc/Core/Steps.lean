import Tirtc.Core.Calls

/-!
# The calls on one Connection, inverted

What every stage of `connect`, `disconnect` and `close` can do: where the thread is, what moves it,
what it finds, what becomes of the record and its histories, and where the thread goes.

* `CancelMoves`, `cancelStep_cases`: `_cancel_connect`.
* `ConnectMoves`, `connectStep_cases`; `DisconnectMoves`, `disconnectStep_cases`; `CloseMoves`,
  `closeStep_cases`: the three calls.
-/

set_option autoImplicit false

namespace Tirtc

variable {ι : Type} {errorName : ℤ → String} {s s' : Shared ι} {i : ι} {a : ℕ} {error : PyError}
  {act : CallAction} {pc : Pc}

/-! ## Cancellation -/

/-- **What a stage of `_cancel_connect` can do**, called by thread `i` for attempt `a`. -/
inductive CancelMoves (s : Shared ι) (i : ι) (a : ℕ) (error : PyError) :
    CancelStage → CallAction → Shared ι → CancelStage ⊕ Option PyError → Prop
  | settled : s.connection.activeConnect ≠ some a ∨ (s.attempt a).terminalCode ≠ none →
      CancelMoves s i a error .enter .go s (.inr none)
  | waits : s.connection.activeConnect = some a → (s.attempt a).cancelling = true →
      CancelMoves s i a error .enter .go s (.inl .join)
  | performs : s.connection.activeConnect = some a → (s.attempt a).terminalCode = none →
      (s.attempt a).cancelling = false →
      CancelMoves s i a error .enter .go
        ((s.modify a fun attempt => { attempt with error := some error, cancelling := true }).note a
          fun history => { history with canceller := some i }) (.inl .start)
  | joined : (s.attempt a).cancelFinished = true →
      CancelMoves s i a error .join .go s (.inr ((s.attempt a).cancelError.map copyError))
  | tooLate : (s.attempt a).finished = true →
      CancelMoves s i a error .start .go s (.inl (.leave none))
  | unhandled : (s.attempt a).nativeStarted = true → (s.attempt a).finished = false →
      (s.attempt a).managed = true → (s.attempt a).managedHandle = none →
      CancelMoves s i a error .start .go s (.inl (.leave none))
  | toAttempt : (s.attempt a).nativeStarted = true → (s.attempt a).finished = false →
      (s.attempt a).managed = true → (s.attempt a).managedHandle ≠ none →
      CancelMoves s i a error .start .go s (.inl .attemptCancel)
  | toDisconnect : (s.attempt a).nativeStarted = true → (s.attempt a).finished = false →
      (s.attempt a).managed = false →
      CancelMoves s i a error .start .go s (.inl .disconnect)
  | attemptCancelled :
      CancelMoves s i a error .attemptCancel (.native (.code 0)) s (.inl .awaitDone)
  | connected : (s.attempt a).done = true → (s.attempt a).terminalCode = some 0 →
      CancelMoves s i a error .awaitDone .go s (.inl .disconnect)
  | ended : (s.attempt a).done = true → (s.attempt a).terminalCode ≠ some 0 →
      CancelMoves s i a error .awaitDone .go s (.inl .mark)
  | disconnected : CancelMoves s i a error .disconnect (.native (.code 0)) s (.inl .barrier)
  | failed (stage : CancelStage) (r : NativeResult) (e : PyError) :
      (stage = .attemptCancel ∨ stage = .disconnect) → r ≠ .code 0 →
      CancelMoves s i a error stage (.native r)
        (s.note a fun history => { history with cancelFailed := true }) (.inl (.leave (some e)))
  | drained : s.connection.dispatcher.barrierDone = true →
      CancelMoves s i a error .barrier .go s
        (.inl (if (s.attempt a).managed then .mark else .terminal))
  | terminal : CancelMoves s i a error .terminal .go
      (s.settle a .cancelled (s.connection.cancelTerminal a)) (.inl .mark)
  | marks : CancelMoves s i a error .mark .go
      { s with connection := { s.connection with disconnectFinished := true } } (.inl (.leave none))
  | leaves (raised : Option PyError) : CancelMoves s i a error (.leave raised) .go
      (s.modify a fun attempt =>
        { attempt with cancelError := raised <|> attempt.cancelError, cancelFinished := true })
      (.inr raised)

/-- A native call that fails has not returned `0`. -/
theorem NativeResult.ne_of_check {r : NativeResult} {e : PyError}
    (h : r.check errorName = some e) : r ≠ .code 0 := by
  rintro rfl
  rw [NativeResult.check_eq_none.mpr rfl] at h
  cases h

/-- A native call that fails for good has not returned `0`. -/
theorem NativeResult.ne_of_retryInUse {r : NativeResult} {e : PyError}
    (h : r.retryInUse errorName = some e) : r ≠ .code 0 := by
  rintro rfl
  rw [NativeResult.retryInUse_eq_none.mpr rfl] at h
  cases h

/-- **`_cancel_connect`, inverted.** -/
theorem cancelStep_cases {stage : CancelStage} {next : CancelStage ⊕ Option PyError}
    (h : cancelStep errorName s i a error stage act = some (s', next)) :
    CancelMoves s i a error stage act s' next := by
  cases stage with
  | enter =>
      cases act with
      | go =>
          simp only [cancelStep] at h
          rcases s.connection.requestCancel_cases a error with ⟨hover, heq⟩ | ⟨hactive, hc, heq⟩ |
            ⟨hactive, ht, hc, heq⟩
          all_goals
            rw [heq] at h
            cases h
          · exact .settled hover
          · exact .waits hactive hc
          · exact .performs hactive ht hc
      | _ => cases h
  | join =>
      cases act with
      | go =>
          simp only [cancelStep] at h
          split at h
          next hfinished =>
            cases h
            exact .joined hfinished
          next => cases h
      | _ => cases h
  | start =>
      cases act with
      | go =>
          simp only [cancelStep] at h
          split at h
          next hstarted =>
            split at h
            next hfinished =>
              cases h
              exact .tooLate hfinished
            next hfinished =>
              have hfinished : (s.attempt a).finished = false := by simpa using hfinished
              split at h
              next hmanaged =>
                split at h
                next hhandle =>
                  cases h
                  exact .unhandled hstarted hfinished hmanaged hhandle
                next hhandle =>
                  cases h
                  exact .toAttempt hstarted hfinished hmanaged hhandle
              next hmanaged =>
                cases h
                exact .toDisconnect hstarted hfinished (by simpa using hmanaged)
          next => cases h
      | _ => cases h
  | attemptCancel =>
      cases act with
      | native r =>
          simp only [cancelStep] at h
          split at h
          next hr =>
            cases h
            obtain rfl := NativeResult.check_eq_none.mp hr
            exact .attemptCancelled
          next e hr =>
            cases h
            exact .failed _ r e (.inl rfl) (NativeResult.ne_of_check hr)
      | _ => cases h
  | awaitDone =>
      cases act with
      | go =>
          simp only [cancelStep] at h
          split at h
          next hdone =>
            split at h
            next ht =>
              cases h
              exact .connected hdone ht
            next ht =>
              cases h
              exact .ended hdone ht
          next => cases h
      | _ => cases h
  | disconnect =>
      cases act with
      | native r =>
          simp only [cancelStep] at h
          split at h
          next hr =>
            cases h
            obtain rfl := NativeResult.check_eq_none.mp hr
            exact .disconnected
          next e hr =>
            cases h
            exact .failed _ r e (.inr rfl) (NativeResult.ne_of_check hr)
      | _ => cases h
  | barrier =>
      cases act with
      | go =>
          simp only [cancelStep] at h
          split at h
          next hdrained =>
            cases h
            exact .drained hdrained
          next => cases h
      | _ => cases h
  | terminal =>
      cases act with
      | go =>
          cases h
          exact .terminal
      | _ => cases h
  | mark =>
      cases act with
      | go =>
          cases h
          exact .marks
      | _ => cases h
  | leave raised =>
      cases act with
      | go =>
          cases h
          exact .leaves raised
      | _ => cases h

/-- **What the section for an external-token attempt does**: it writes the terminal code `6115`, or
only sets `done` when there is a code. -/
theorem cancelTerminal_cases (s : Shared ι) (a : ℕ) :
    ((s.attempt a).terminalCode = none ∧ s.settle a .cancelled (s.connection.cancelTerminal a) =
      (s.modify a fun attempt => { attempt with terminalCode := some 6115, done := true }).note a
        fun history => { history with causes := (.cancelled, 6115) :: history.causes }) ∨
    ((s.attempt a).terminalCode ≠ none ∧
      s.settle a .cancelled (s.connection.cancelTerminal a) =
        (s.modify a fun attempt => { attempt with done := true }).note a id) := by
  by_cases ht : (s.attempt a).terminalCode = none
  · refine .inl ⟨ht, ?_⟩
    have hnew : ((s.connection.cancelTerminal a).attempts a).terminalCode = some 6115 := by
      simp [Connection.cancelTerminal, Connection.modifyAttempt, ht]
    rw [Shared.settle_new hnew (by simp [ht])]
    simp [Shared.modify, Connection.cancelTerminal, Connection.modifyAttempt, ht]
  · refine .inr ⟨ht, ?_⟩
    have hold : ((s.connection.cancelTerminal a).attempts a).terminalCode =
        (s.attempt a).terminalCode := by
      simp [Connection.cancelTerminal, Connection.modifyAttempt, ht]
    rw [Shared.settle_same hold]
    simp [Shared.modify, Shared.note, Connection.cancelTerminal, Connection.modifyAttempt, ht]

/-! ## `connect` -/

/-- **What a stage of `connect` can do** on its attempt `a`, by thread `i`. -/
inductive ConnectMoves (s : Shared ι) (i : ι) (a : ℕ) :
    ConnectStage → CallAction → Shared ι → Pc → Prop
  | started : ConnectMoves s i a .starting (.native (.code 0))
      ((s.modify a fun attempt =>
        { attempt with
          managedHandle := if attempt.managed then some a else none
          nativeStarted := true }).note a fun history => { history with startedAt := some s.clock })
      (.connect a .waitDone)
  | notStarted (r : NativeResult) (e : PyError) : r ≠ .code 0 →
      ConnectMoves s i a .starting (.native r)
        ((s.modify a fun attempt => { attempt with nativeStarted := true }).note a
          fun history => { history with startFailed := true }) (.connect a (.rollback e))
  | rolledBack (e : PyError) : ConnectMoves s i a (.rollback e) .go
      { s with connection := s.connection.rollback a } (.connect a (.startFinish e))
  | ends (stage : ConnectStage) (e : PyError) : (stage = .startFinish e ∨ stage = .fail e) →
      ConnectMoves s i a stage .go
        ((s.modify a fun attempt => { attempt with finished := true }).note a
          fun history => { history with outcome := some (some e) }) (.idle (some e))
  | waited : (s.attempt a).done = true →
      ConnectMoves s i a .waitDone .go s (.connect a .readCancelling)
  | timedOut : ConnectMoves s i a .waitDone .timeout s (.connect a (.cancel .enter))
  | cancels (stage stage' : CancelStage) (act : CallAction) (s' : Shared ι) :
      CancelMoves s i a timeoutError stage act s' (.inl stage') →
      ConnectMoves s i a (.cancel stage) act s' (.connect a (.cancel stage'))
  | cancelled (stage : CancelStage) (act : CallAction) (s' : Shared ι) :
      CancelMoves s i a timeoutError stage act s' (.inr none) →
      ConnectMoves s i a (.cancel stage) act s' (.connect a .readCancelling)
  | cancelRaises (stage : CancelStage) (act : CallAction) (s' : Shared ι) (e : PyError) :
      CancelMoves s i a timeoutError stage act s' (.inr (some e)) →
      ConnectMoves s i a (.cancel stage) act s' (.connect a (.cancelRaised e))
  | raises (e : PyError) : ConnectMoves s i a (.cancelRaised e) .go
      (s.note a fun history => { history with outcome := some (some e) }) (.idle (some e))
  | reads : ConnectMoves s i a .readCancelling .go s
      (.connect a (if (s.attempt a).cancelling then .awaitCancel else .checkCancel))
  | cancelWaited : (s.attempt a).cancelFinished = true →
      ConnectMoves s i a .awaitCancel .go s (.connect a .checkCancel)
  | cancelFailed (e : PyError) : (s.attempt a).cancelError = some e →
      ConnectMoves s i a .checkCancel .go s (.connect a (.fail (copyError e)))
  | checked : (s.attempt a).cancelError = none → ConnectMoves s i a .checkCancel .go s
      (.connect a (if (s.attempt a).managedHandle = none then .finishBarrier else .closeHandle))
  | handleClosed : ConnectMoves s i a .closeHandle (.native (.code 0)) s (.connect a .finishBarrier)
  | handleNotClosed (r : NativeResult) (e : PyError) : r ≠ .code 0 →
      ConnectMoves s i a .closeHandle (.native r)
        (s.note a fun history => { history with closeFailed := true }) (.connect a (.fail e))
  | drained : s.connection.dispatcher.barrierDone = true →
      ConnectMoves s i a .finishBarrier .go s (.connect a .finishLock)
  | finishes : ConnectMoves s i a .finishLock .go
      (Shared.note { s with connection := s.connection.finishConnect a } a fun history =>
        { history with
          finishView := some ⟨(s.attempt a).terminalCode, (s.attempt a).error,
            (s.connection.finishConnect a).state⟩ }) (.connect a .result)
  | returns (raised : Option PyError) : ConnectMoves s i a .result .go
      (s.note a fun history => { history with outcome := some raised }) (.idle raised)

/-- **`connect`, inverted.** -/
theorem connectStep_cases {stage : ConnectStage}
    (h : connectStep errorName s i a stage act = some (s', pc)) :
    ConnectMoves s i a stage act s' pc := by
  cases stage with
  | starting =>
      cases act with
      | native r =>
          simp only [connectStep] at h
          split at h
          next hr =>
            cases h
            obtain rfl := NativeResult.check_eq_none.mp hr
            exact .started
          next e hr =>
            cases h
            exact .notStarted r e (NativeResult.ne_of_check hr)
      | _ => cases h
  | rollback e =>
      cases act with
      | go =>
          cases h
          exact .rolledBack e
      | _ => cases h
  | startFinish e =>
      cases act with
      | go =>
          cases h
          exact .ends _ e (.inl rfl)
      | _ => cases h
  | waitDone =>
      cases act with
      | go =>
          simp only [connectStep] at h
          split at h
          next hdone =>
            cases h
            exact .waited hdone
          next => cases h
      | timeout =>
          cases h
          exact .timedOut
      | _ => cases h
  | cancel stage =>
      simp only [connectStep] at h
      obtain ⟨⟨t, next⟩, hcancel, h⟩ := Option.map_eq_some_iff.mp h
      rcases next with stage' | (_ | e)
      all_goals cases h
      · exact .cancels _ _ _ _ (cancelStep_cases hcancel)
      · exact .cancelled _ _ _ (cancelStep_cases hcancel)
      · exact .cancelRaises _ _ _ e (cancelStep_cases hcancel)
  | cancelRaised e =>
      cases act with
      | go =>
          cases h
          exact .raises e
      | _ => cases h
  | readCancelling =>
      cases act with
      | go =>
          cases h
          exact .reads
      | _ => cases h
  | awaitCancel =>
      cases act with
      | go =>
          simp only [connectStep] at h
          split at h
          next hfinished =>
            cases h
            exact .cancelWaited hfinished
          next => cases h
      | _ => cases h
  | checkCancel =>
      cases act with
      | go =>
          simp only [connectStep] at h
          split at h
          next e he =>
            cases h
            exact .cancelFailed e he
          next he =>
            cases h
            exact .checked he
      | _ => cases h
  | closeHandle =>
      cases act with
      | native r =>
          simp only [connectStep] at h
          split at h
          next hr =>
            cases h
            obtain rfl := NativeResult.retryInUse_eq_none.mp hr
            exact .handleClosed
          next e hr =>
            cases h
            exact .handleNotClosed r e (NativeResult.ne_of_retryInUse hr)
      | _ => cases h
  | finishBarrier =>
      cases act with
      | go =>
          simp only [connectStep] at h
          split at h
          next hdrained =>
            cases h
            exact .drained hdrained
          next => cases h
      | _ => cases h
  | finishLock =>
      cases act with
      | go =>
          cases h
          exact .finishes
      | _ => cases h
  | fail e =>
      cases act with
      | go =>
          cases h
          exact .ends _ e (.inr rfl)
      | _ => cases h
  | result =>
      cases act with
      | go =>
          simp only [connectStep] at h
          split at h
          all_goals
            cases h
            exact .returns _
      | _ => cases h

/-! ## `disconnect` and `close` -/

/-- **What a stage of `disconnect` can do.** -/
inductive DisconnectMoves (errorName : ℤ → String) (s : Shared ι) (i : ι) :
    DisconnectStage → CallAction → Shared ι → Pc → Prop
  | cancels (a : ℕ) (stage stage' : CancelStage) (act : CallAction) (s' : Shared ι) :
      CancelMoves s i a (cancelledError errorName) stage act s' (.inl stage') →
      DisconnectMoves errorName s i (.cancel a stage) act s' (.disconnect (.cancel a stage'))
  | cancelled (a : ℕ) (stage : CancelStage) (act : CallAction) (s' : Shared ι) :
      CancelMoves s i a (cancelledError errorName) stage act s' (.inr none) →
      DisconnectMoves errorName s i (.cancel a stage) act s' (.disconnect (.awaitFinished a))
  | cancelRaises (a : ℕ) (stage : CancelStage) (act : CallAction) (s' : Shared ι) (e : PyError) :
      CancelMoves s i a (cancelledError errorName) stage act s' (.inr (some e)) →
      DisconnectMoves errorName s i (.cancel a stage) act s' (.idle (some e))
  | connected (a : ℕ) : (s.attempt a).finished = true →
      ((s.attempt a).error = none ∧ (s.attempt a).terminalCode = some 0) →
      DisconnectMoves errorName s i (.awaitFinished a) .go s (.disconnect .native)
  | settled (a : ℕ) : (s.attempt a).finished = true →
      ¬ ((s.attempt a).error = none ∧ (s.attempt a).terminalCode = some 0) →
      DisconnectMoves errorName s i (.awaitFinished a) .go s (.disconnect .write)
  | disconnected :
      DisconnectMoves errorName s i .native (.native (.code 0)) s (.disconnect .barrier)
  | fails (r : NativeResult) (e : PyError) : r ≠ .code 0 →
      DisconnectMoves errorName s i .native (.native r) s (.idle (some e))
  | drained : s.connection.dispatcher.barrierDone = true →
      DisconnectMoves errorName s i .barrier .go s (.disconnect .write)
  | writes : DisconnectMoves errorName s i .write .go
      { s with connection := { s.connection with
        state := .disconnected, disconnectFinished := true } } (.idle none)

/-- **`disconnect`, inverted.** -/
theorem disconnectStep_cases {stage : DisconnectStage}
    (h : disconnectStep errorName s i stage act = some (s', pc)) :
    DisconnectMoves errorName s i stage act s' pc := by
  cases stage with
  | cancel a stage =>
      simp only [disconnectStep] at h
      obtain ⟨⟨t, next⟩, hcancel, h⟩ := Option.map_eq_some_iff.mp h
      rcases next with stage' | (_ | e)
      all_goals cases h
      · exact .cancels a _ _ _ _ (cancelStep_cases hcancel)
      · exact .cancelled a _ _ _ (cancelStep_cases hcancel)
      · exact .cancelRaises a _ _ _ e (cancelStep_cases hcancel)
  | awaitFinished a =>
      cases act with
      | go =>
          simp only [disconnectStep] at h
          split at h
          next hfinished =>
            cases h
            split
            next hconnected => exact .connected a hfinished hconnected
            next hover => exact .settled a hfinished hover
          next => cases h
      | _ => cases h
  | native =>
      cases act with
      | native r =>
          simp only [disconnectStep] at h
          split at h
          next hr =>
            cases h
            obtain rfl := NativeResult.check_eq_none.mp hr
            exact .disconnected
          next e hr =>
            cases h
            exact .fails r e (NativeResult.ne_of_check hr)
      | _ => cases h
  | barrier =>
      cases act with
      | go =>
          simp only [disconnectStep] at h
          split at h
          next hdrained =>
            cases h
            exact .drained hdrained
          next => cases h
      | _ => cases h
  | write =>
      cases act with
      | go =>
          cases h
          exact .writes
      | _ => cases h

/-- **What a stage of `close` can do** in the thread that performs generation `g`. -/
inductive CloseMoves (errorName : ℤ → String) (s : Shared ι) (i : ι) (g : ℕ) :
    CloseStage → CallAction → Shared ι → Pc → Prop
  | cancels (a : ℕ) (stage stage' : CancelStage) (act : CallAction) (s' : Shared ι) :
      CancelMoves s i a (cancelledError errorName) stage act s' (.inl stage') →
      CloseMoves errorName s i g (.cancel a stage) act s' (.close g (.cancel a stage'))
  | cancelled (a : ℕ) (stage : CancelStage) (act : CallAction) (s' : Shared ι) :
      CancelMoves s i a (cancelledError errorName) stage act s' (.inr none) →
      CloseMoves errorName s i g (.cancel a stage) act s' (.close g (.awaitFinished a))
  | cancelRaises (a : ℕ) (stage : CancelStage) (act : CallAction) (s' : Shared ι) (e : PyError) :
      CancelMoves s i a (cancelledError errorName) stage act s' (.inr (some e)) →
      CloseMoves errorName s i g (.cancel a stage) act s' (.close g (.fail e))
  | awaited (a : ℕ) : (s.attempt a).finished = true →
      CloseMoves errorName s i g (.awaitFinished a) .go s (.close g .children)
  | childrenClosed (dumpError : Option PyError) :
      CloseMoves errorName s i g .children (.children none dumpError) s
        (.close g (.dispatcher dumpError))
  | fails (stage : CloseStage) (act : CallAction) (e : PyError) :
      (stage = .children ∨ (∃ d, stage = .disconnect d) ∨ ∃ d, stage = .destroy d) →
      act ≠ .native (.code 0) → CloseMoves errorName s i g stage act s (.close g (.fail e))
  | dispatcher (dumpError : Option PyError) :
      CloseMoves errorName s i g (.dispatcher dumpError) .go
        { s with connection := { s.connection with
          dispatcher := s.connection.dispatcher.close } } (.close g (.drain dumpError))
  | drained (dumpError : Option PyError) : s.connection.dispatcher.closeDone = true →
      CloseMoves errorName s i g (.drain dumpError) .go s (.close g (.read dumpError))
  | reads (dumpError : Option PyError) :
      CloseMoves errorName s i g (.read dumpError) .go s
        (.close g (.decide dumpError s.connection.state))
  | toDisconnect (dumpError : Option PyError) (state : ConnectionState) :
      CloseMoves errorName s i g (.decide dumpError state) .go s (.close g (.disconnect dumpError))
  | toDestroy (dumpError : Option PyError) (state : ConnectionState) :
      CloseMoves errorName s i g (.decide dumpError state) .go s (.close g (.destroy dumpError))
  | disconnected (dumpError : Option PyError) :
      CloseMoves errorName s i g (.disconnect dumpError) (.native (.code 0))
        { s with connection := { s.connection with disconnectFinished := true } }
        (.close g (.destroy dumpError))
  | destroyed (dumpError : Option PyError) :
      CloseMoves errorName s i g (.destroy dumpError) (.native (.code 0)) s
        (.close g (.state dumpError))
  | stated (dumpError : Option PyError) :
      CloseMoves errorName s i g (.state dumpError) .go
        { s with connection := { s.connection with state := .disconnected } }
        (.close g (.succeed dumpError))
  | succeeds (dumpError : Option PyError) :
      CloseMoves errorName s i g (.succeed dumpError) .go
        { s with connection := { s.connection with
          close := s.connection.close.succeed g dumpError } } (.idle dumpError)
  | failed (e : PyError) : CloseMoves errorName s i g (.fail e) .go
      { s with connection := { s.connection with close := s.connection.close.fail g e } }
      (.idle (some e))

/-- **`close`, inverted.** -/
theorem closeStep_cases {g : ℕ} {stage : CloseStage}
    (h : closeStep errorName s i g stage act = some (s', pc)) :
    CloseMoves errorName s i g stage act s' pc := by
  cases stage with
  | cancel a stage =>
      simp only [closeStep] at h
      obtain ⟨⟨t, next⟩, hcancel, h⟩ := Option.map_eq_some_iff.mp h
      rcases next with stage' | (_ | e)
      all_goals cases h
      · exact .cancels a _ _ _ _ (cancelStep_cases hcancel)
      · exact .cancelled a _ _ _ (cancelStep_cases hcancel)
      · exact .cancelRaises a _ _ _ e (cancelStep_cases hcancel)
  | awaitFinished a =>
      cases act with
      | go =>
          simp only [closeStep] at h
          split at h
          next hfinished =>
            cases h
            exact .awaited a hfinished
          next => cases h
      | _ => cases h
  | children =>
      cases act with
      | children e dumpError =>
          simp only [closeStep] at h
          split at h
          · cases h
            exact .fails _ _ _ (.inl rfl) (by nofun)
          · cases h
            exact .childrenClosed dumpError
      | _ => cases h
  | dispatcher dumpError =>
      cases act with
      | go =>
          cases h
          exact .dispatcher dumpError
      | _ => cases h
  | drain dumpError =>
      cases act with
      | go =>
          simp only [closeStep] at h
          split at h
          next hdrained =>
            cases h
            exact .drained dumpError hdrained
          next => cases h
      | _ => cases h
  | read dumpError =>
      cases act with
      | go =>
          cases h
          exact .reads dumpError
      | _ => cases h
  | decide dumpError state =>
      cases act with
      | go =>
          simp only [closeStep] at h
          cases h
          split
          · exact .toDisconnect dumpError state
          · exact .toDestroy dumpError state
      | _ => cases h
  | disconnect dumpError =>
      cases act with
      | native r =>
          simp only [closeStep] at h
          split at h
          next hr =>
            cases h
            obtain rfl := NativeResult.check_eq_none.mp hr
            exact .disconnected dumpError
          next e hr =>
            cases h
            exact .fails _ _ e (.inr (.inl ⟨_, rfl⟩)) (by
              rintro hcode
              cases hcode
              exact NativeResult.ne_of_check hr rfl)
      | _ => cases h
  | destroy dumpError =>
      cases act with
      | native r =>
          simp only [closeStep] at h
          split at h
          next hr =>
            cases h
            obtain rfl := NativeResult.retryInUse_eq_none.mp hr
            exact .destroyed dumpError
          next e hr =>
            cases h
            exact .fails _ _ e (.inr (.inr ⟨_, rfl⟩)) (by
              rintro hcode
              cases hcode
              exact NativeResult.ne_of_retryInUse hr rfl)
      | _ => cases h
  | state dumpError =>
      cases act with
      | go =>
          cases h
          exact .stated dumpError
      | _ => cases h
  | succeed dumpError =>
      cases act with
      | go =>
          cases h
          exact .succeeds dumpError
      | _ => cases h
  | fail e =>
      cases act with
      | go =>
          cases h
          exact .failed e
      | _ => cases h

/-- **The first section of `disconnect`**: it raises, or, on an open Connection, it cancels the
attempt in progress, or comes to the native call. -/
theorem disconnectBegin_cases (s : Shared ι) :
    (∃ e, s.connection.close.requireOpen = some e ∧
      disconnectBegin s = (s, .idle (some e))) ∨
    (s.connection.close.status = .open ∧ ∃ stage, disconnectBegin s = (s, .disconnect stage)) := by
  unfold disconnectBegin
  cases hopen : s.connection.close.requireOpen with
  | some e => exact .inl ⟨e, rfl, rfl⟩
  | none =>
      refine .inr ⟨CloseCoordinator.requireOpen_eq_none.mp hopen, ?_⟩
      cases s.connection.activeConnect with
      | some a => exact ⟨.cancel a .enter, rfl⟩
      | none => exact ⟨.native, rfl⟩

/-- **The first section of `close`**: it joins a teardown, has nothing to do, or begins one, behind
the attempt in progress if there is one. -/
theorem closeBegin_cases (s : Shared ι) : ∃ close,
    (∃ pc, closeBegin s = ({ s with connection := { s.connection with close := close } }, pc) ∧
      close.status = s.connection.close.status ∧ ((∃ g, pc = .closeJoin g) ∨ ∃ e, pc = .idle e)) ∨
    ∃ g stage, closeBegin s =
        ({ s with connection := { s.connection with close := close } }, .close g stage) ∧
      (s.connection.close.status = .open ∨ s.connection.close.status = .closeFailed) ∧
      close.status = .closing ∧
      ((s.connection.activeConnect = none ∧ stage = .children) ∨
        ∃ a, s.connection.activeConnect = some a ∧ stage = .cancel a .enter) := by
  refine ⟨(s.connection.close.begin).2, ?_⟩
  rcases s.connection.close.begin_cases false with ⟨hst, hbegin⟩ | ⟨hst, hbegin⟩ | ⟨hst, hbegin⟩ |
    ⟨hst, hbegin⟩
  · exact .inl ⟨.closeJoin s.connection.close.generation, by simp only [closeBegin, hbegin],
      by rw [hbegin], .inl ⟨_, rfl⟩⟩
  · exact .inl ⟨.idle none, by simp only [closeBegin, hbegin], by rw [hbegin], .inr ⟨_, rfl⟩⟩
  · exact .inl ⟨.idle (some inUseError), by simp only [closeBegin, hbegin], by rw [hbegin],
      .inr ⟨_, rfl⟩⟩
  · refine .inr ⟨s.connection.close.generation + 1, ?_⟩
    cases hactive : s.connection.activeConnect with
    | none =>
        exact ⟨.children, by simp only [closeBegin, hbegin, hactive], hst, by rw [hbegin],
          .inl ⟨rfl, rfl⟩⟩
    | some a =>
        exact ⟨.cancel a .enter, by simp only [closeBegin, hbegin, hactive], hst, by rw [hbegin],
          .inr ⟨a, rfl, rfl⟩⟩

/-! ## What a call leaves alone -/

/-- **What a step from `p` leaves alone**: no attempt is made, only a failed native close fails one,
only its start gives it a handle, none is found connected that was not, and none that was cancelled
is uncancelled. -/
structure Frame (s s' : Shared ι) (p : Pc) : Prop where
  active : s'.connection.activeConnect = s.connection.activeConnect ∨
    s'.connection.activeConnect = none
  closeFailed : ∀ b, (s'.history b).closeFailed = true →
    (s.history b).closeFailed = true ∨ p = .connect b .closeHandle
  handle : ∀ b, ((s'.attempt b).managed = (s.attempt b).managed ∧
    (s'.attempt b).managedHandle = (s.attempt b).managedHandle) ∨ p = .connect b .starting
  terminal : ∀ b, (s'.attempt b).terminalCode = some 0 → (s.attempt b).terminalCode = some 0
  error : ∀ b, (s'.attempt b).error = none → (s.attempt b).error = none

variable {p : Pc}

/-- A step that leaves the attempts and their histories alone. -/
theorem Frame.same (hactive : s'.connection.activeConnect = s.connection.activeConnect)
    (hattempts : s'.connection.attempts = s.connection.attempts)
    (hhistory : s'.history = s.history) :
    Frame s s' p where
  active := .inl hactive
  closeFailed b h := .inl (hhistory ▸ h)
  handle b := .inl (by simp [Shared.attempt, hattempts])
  terminal b h := by simpa [Shared.attempt, hattempts] using h
  error b h := by simpa [Shared.attempt, hattempts] using h

theorem Frame.refl (s : Shared ι) (p : Pc) : Frame s s p := .same rfl rfl rfl

/-- Another record with the same attempts and histories. -/
theorem Frame.congr {t : Shared ι} (h : Frame s t p)
    (hattempts : s'.connection.attempts = t.connection.attempts) (hhistory : s'.history = t.history)
    (hactive : s'.connection.activeConnect = s.connection.activeConnect ∨
      s'.connection.activeConnect = none) : Frame s s' p where
  active := hactive
  closeFailed b hb := h.closeFailed b (hhistory ▸ hb)
  handle b := by simpa [Shared.attempt, hattempts] using h.handle b
  terminal b hb := h.terminal b (by simpa [Shared.attempt, hattempts] using hb)
  error b hb := h.error b (by simpa [Shared.attempt, hattempts] using hb)

/-- A step that changes attempt `a` alone. -/
theorem Frame.change {f : ConnectState → ConnectState} {g : Attempt ι → Attempt ι}
    (hclose : (g (s.history a)).closeFailed = true →
      (s.history a).closeFailed = true ∨ p = .connect a .closeHandle)
    (hhandle : ((f (s.attempt a)).managed = (s.attempt a).managed ∧
      (f (s.attempt a)).managedHandle = (s.attempt a).managedHandle) ∨ p = .connect a .starting)
    (hterminal : (f (s.attempt a)).terminalCode = some 0 → (s.attempt a).terminalCode = some 0)
    (herror : (f (s.attempt a)).error = none → (s.attempt a).error = none) :
    Frame s ((s.modify a f).note a g) p where
  active := .inl rfl
  closeFailed b h := by
    by_cases hb : b = a
    · subst hb
      exact hclose (by simpa [Shared.note, Shared.modify] using h)
    · exact .inl (by simpa [Shared.note, Shared.modify, hb] using h)
  handle b := by
    by_cases hb : b = a
    · subst hb
      simpa [Shared.attempt, Shared.note, Shared.modify, Connection.modifyAttempt] using hhandle
    · exact .inl (by
        simp [Shared.attempt, Shared.note, Shared.modify, Connection.modifyAttempt, hb])
  terminal b h := by
    by_cases hb : b = a
    · subst hb
      exact hterminal (by
        simpa [Shared.attempt, Shared.note, Shared.modify, Connection.modifyAttempt] using h)
    · simpa [Shared.attempt, Shared.note, Shared.modify, Connection.modifyAttempt, hb] using h
  error b h := by
    by_cases hb : b = a
    · subst hb
      exact herror (by
        simpa [Shared.attempt, Shared.note, Shared.modify, Connection.modifyAttempt] using h)
    · simpa [Shared.attempt, Shared.note, Shared.modify, Connection.modifyAttempt, hb] using h

/-- A step that changes the record of attempt `a` alone. -/
theorem Frame.modify {f : ConnectState → ConnectState}
    (hhandle : (f (s.attempt a)).managed = (s.attempt a).managed ∧
      (f (s.attempt a)).managedHandle = (s.attempt a).managedHandle)
    (hterminal : (f (s.attempt a)).terminalCode = some 0 → (s.attempt a).terminalCode = some 0)
    (herror : (f (s.attempt a)).error = none → (s.attempt a).error = none) :
    Frame s (s.modify a f) p := by
  have h := Frame.change (p := p) (s := s) (a := a) (f := f) (g := id) .inl (.inl hhandle) hterminal
    herror
  rwa [Shared.note_id] at h

/-- A step that changes the history of attempt `a` alone. -/
theorem Frame.note {g : Attempt ι → Attempt ι}
    (hclose : (g (s.history a)).closeFailed = true →
      (s.history a).closeFailed = true ∨ p = .connect a .closeHandle) :
    Frame s (s.note a g) p := by
  have h := Frame.change (p := p) (s := s) (a := a) (f := id) (g := g) hclose (.inl ⟨rfl, rfl⟩)
    (fun h => h) fun h => h
  rwa [Shared.modify_id] at h

/-- `_cancel_connect` leaves that alone. -/
theorem CancelMoves.frame {stage : CancelStage} {next : CancelStage ⊕ Option PyError}
    (h : CancelMoves s i a error stage act s' next) :
    Frame s s' p ∧ s'.connection.close = s.connection.close := by
  cases h with
  | performs => exact ⟨.change .inl (.inl ⟨rfl, rfl⟩) (fun h => h) nofun, rfl⟩
  | failed stage r e => exact ⟨.note .inl, rfl⟩
  | terminal =>
      rcases cancelTerminal_cases s a with ⟨ht, heq⟩ | ⟨ht, heq⟩
      · rw [heq]
        exact ⟨.change .inl (.inl ⟨rfl, rfl⟩) nofun fun h => h, rfl⟩
      · rw [heq]
        exact ⟨.change .inl (.inl ⟨rfl, rfl⟩) (fun h => h) fun h => h, rfl⟩
  | marks => exact ⟨.same rfl rfl rfl, rfl⟩
  | leaves raised => exact ⟨.modify ⟨rfl, rfl⟩ (fun h => h) fun h => h, rfl⟩
  | _ => exact ⟨.refl s p, rfl⟩

/-- It leaves the close of the Connection alone as well. -/
theorem CancelMoves.status_eq {stage : CancelStage} {next : CancelStage ⊕ Option PyError}
    (h : CancelMoves s i a error stage act s' next) :
    s'.connection.close.status = s.connection.close.status :=
  congrArg CloseCoordinator.status (h.frame (p := .idle none)).2

/-- So does `connect`. -/
theorem ConnectMoves.frame {stage : ConnectStage} (h : ConnectMoves s i a stage act s' pc) :
    Frame s s' (.connect a stage) ∧ s'.connection.close = s.connection.close := by
  cases h with
  | started => exact ⟨.change .inl (.inr rfl) (fun h => h) fun h => h, rfl⟩
  | notStarted r e hr =>
      exact ⟨.change .inl (.inl ⟨rfl, rfl⟩) (fun h => h) fun h => h, rfl⟩
  | rolledBack e =>
      unfold Connection.rollback
      split
      · exact ⟨⟨.inr rfl, fun _ => .inl, fun _ => .inl ⟨rfl, rfl⟩, fun _ h => h, fun _ h => h⟩, rfl⟩
      · exact ⟨.same rfl rfl rfl, rfl⟩
  | ends stage e hstage => exact ⟨.change .inl (.inl ⟨rfl, rfl⟩) (fun h => h) fun h => h, rfl⟩
  | cancels stage stage' act s' h => exact h.frame
  | cancelled stage act s' h => exact h.frame
  | cancelRaises stage act s' e h => exact h.frame
  | raises e => exact ⟨.note .inl, rfl⟩
  | handleNotClosed r e hr => exact ⟨.note fun _ => .inr rfl, rfl⟩
  | finishes =>
      have hsame : Frame s
          ((s.modify a fun attempt => { attempt with finished := true }).note a fun history =>
            { history with
              finishView := some ⟨(s.attempt a).terminalCode, (s.attempt a).error,
                (s.connection.finishConnect a).state⟩ }) (.connect a .finishLock) :=
        .change .inl (.inl ⟨rfl, rfl⟩) (fun h => h) fun h => h
      refine ⟨hsame.congr ?_ rfl ?_, ?_⟩
      · simp [Shared.note, Shared.modify, Connection.modifyAttempt, s.connection.finishConnect_eq]
      · by_cases hactive : s.connection.activeConnect = some a
        · exact .inr (by simp [Shared.note, s.connection.finishConnect_eq, hactive])
        · exact .inl (by simp [Shared.note, s.connection.finishConnect_eq, hactive])
      · simp [Shared.note, s.connection.finishConnect_eq]
  | returns raised => exact ⟨.note .inl, rfl⟩
  | _ => exact ⟨.refl s _, rfl⟩

/-- So does `disconnect`. -/
theorem DisconnectMoves.frame {stage : DisconnectStage}
    (h : DisconnectMoves errorName s i stage act s' pc) :
    Frame s s' (.disconnect stage) ∧ s'.connection.close = s.connection.close := by
  cases h with
  | cancels a stage stage' act s' h => exact h.frame
  | cancelled a stage act s' h => exact h.frame
  | cancelRaises a stage act s' e h => exact h.frame
  | writes => exact ⟨.same rfl rfl rfl, rfl⟩
  | _ => exact ⟨.refl s _, rfl⟩

/-- A step of `connect` does not come to a teardown. -/
theorem ConnectMoves.next {stage : ConnectStage} (h : ConnectMoves s i a stage act s' pc) (g : ℕ)
    (stage' : CloseStage) : pc ≠ .close g stage' := by
  cases h with
  | _ => nofun

/-- Nor does one of `disconnect`. -/
theorem DisconnectMoves.next {stage : DisconnectStage}
    (h : DisconnectMoves errorName s i stage act s' pc) (g : ℕ) (stage' : CloseStage) :
    pc ≠ .close g stage' := by
  cases h with
  | _ => nofun

/-- So does `close`. -/
theorem CloseMoves.frame {g : ℕ} {stage : CloseStage}
    (h : CloseMoves errorName s i g stage act s' pc) :
    Frame s s' (.close g stage) := by
  cases h with
  | cancels a stage stage' act s' h => exact h.frame.1
  | cancelled a stage act s' h => exact h.frame.1
  | cancelRaises a stage act s' e h => exact h.frame.1
  | dispatcher dumpError => exact .same rfl rfl rfl
  | disconnected dumpError => exact .same rfl rfl rfl
  | stated dumpError => exact .same rfl rfl rfl
  | succeeds dumpError => exact .same rfl rfl rfl
  | failed e => exact .same rfl rfl rfl
  | _ => exact .refl s _

end Tirtc
