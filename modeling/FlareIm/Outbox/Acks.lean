import FlareIm.Outbox.Dispatch

/-! Acknowledgements, enqueues and finished attempts make only moves. An acknowledgement
takes its message from one of three places, and what it does then is the same for all
three: settle the message, let it wait for the durable acknowledgement, or back off. -/

namespace FlareIm.Outbox

open Lib Message Store List KeyedMap MessageTable Prog PendingEntries QueueState

variable {ack : SendAck} {e : PendingSendVo} {s : QueueState} {x : InFlightSend}
  [codes : ProtoCodes] {sc : Scope} {t : QueueState}

/-! ### What an acknowledgement does to its message -/

/-- How `apply_ack_and_publish` leaves the queue, for each of its results. -/
inductive AckOutcome (e : PendingSendVo) (s t : QueueState) : AckApplyResult → Prop
  | terminal (hview : t.view = (s.view.forget e.clientMsgId).record [.popped e.clientMsgId]) :
      AckOutcome e s t .terminal
  | awaitDurable (hview : t.view = s.view) : AckOutcome e s t .awaitDurable
  | retryScheduled (hbudget : s.view.retries e.clientMsgId + 1 < s.view.maxRetries)
      (hview : t.view = { s.view with
        retries := Function.update s.view.retries e.clientMsgId (s.view.retries e.clientMsgId + 1)
        backoff := Function.update s.view.backoff e.clientMsgId (some (s.view.retries e.clientMsgId + 1)) }) :
      AckOutcome e s t .retryScheduled

omit codes in
/-- A retry within the budget never reaches the saturation bound. -/
theorem succ_lt_of_retry {retries next : ℕ}
    (h : decideSendAttemptFailure retries s.config.maxRetries = .retry next) :
    next = retries + 1 ∧ retries + 1 < s.config.maxRetries := by
  obtain ⟨rfl, hlt⟩ := decideSendAttemptFailure_retry h
  have hmax := s.config.maxRetries_le
  unfold satAddU32 at hlt ⊢
  omega

section Apply

def sentState (e : PendingSendVo) (ack : SendAck) (s : QueueState) : QueueState :=
  withLastMessage (markSentFromAck e.message ack) { s with
    pending := s.pending.pop ack.clientMsgId
    retryCount := Function.update s.retryCount ack.clientMsgId 0
    adaptiveWindow := s.adaptiveWindow.noteSuccess
    messages := s.messages.updateAfterAck s.nowMs ack.clientMsgId (markSentFromAck e.message ack)
    bus := .sendAck ack :: s.bus
    history := .popped ack.clientMsgId :: s.history }

theorem applyDurableAck_run (h : s.faults = []) :
    (applyDurableAck e ack).run s = (.ok .terminal, sentState e ack s) := by
  simp [applyDurableAck, pendingPop_run, updateAfterAck_run, updateConversationLastMessage_run, h,
    clearRetryCount, noteSendSuccess, publish, sentState, withLastMessage]

theorem sentState_outcome (hid : ack.clientMsgId = e.clientMsgId) :
    AckOutcome e s (sentState e ack s) .terminal := by
  refine .terminal ?_
  rw [← hid]
  simp [view, sentState, withLastMessage, View.forget, View.record, find?_pop_eq]
  rfl

def rejectedState (e : PendingSendVo) (ack : SendAck) (s : QueueState) : QueueState :=
  { failedState e ((errorMessageFromAck ack).getD ackMissingResultReason) s with
    bus := .sendFailed ack.clientMsgId ((errorMessageFromAck ack).getD ackMissingResultReason) ::
      .sendAck ack :: s.bus }

theorem applyRejectedAck_run (h : s.faults = []) (hid : ack.clientMsgId = e.clientMsgId) :
    (applyRejectedAck e ack).run s = (.ok .terminal, rejectedState e ack s) := by
  simp [applyRejectedAck, pendingPop_run, saveMessage_run, h, clearRetryCount, publish,
    rejectedState, failedState, hid]

theorem rejectedState_outcome : AckOutcome e s (rejectedState e ack s) .terminal :=
  .terminal (failedState_view e ackMissingResultReason s)

theorem applyAckAndPublish_outcome (h : s.faults = []) (hid : ack.clientMsgId = e.clientMsgId) :
    Ensures (applyAckAndPublish e ack) s (fun result t => AckOutcome e s t result ∧ t.faults = []) := by
  unfold applyAckAndPublish
  split
  · exact .intro (applyDurableAck_run h) ⟨sentState_outcome hid, h⟩
  split
  · exact .bind_of_run (modify_run _ _) (.bind_of_run (modify_run _ _) (.intro rfl ⟨.awaitDurable rfl, h⟩))
  refine .bind_of_run (get_run s) ?_
  dsimp only
  split
  · rename_i next hretryable hretry
    obtain ⟨rfl, hbudget⟩ := succ_lt_of_retry hretry
    refine .bind_of_run rfl (.intro rfl ⟨.retryScheduled ?_ ?_, h⟩)
    · rw [← hid]
      exact hbudget
    · rw [← hid]
      simp [view, hid]
  · exact .intro (applyRejectedAck_run h hid) ⟨rejectedState_outcome, h⟩

end Apply

/-! ### From the outcome to a move -/

section Handlers

variable {u : QueueState}

omit codes in
/-- The message was taken from its place (`t`), the acknowledgement applied (`u`); an
accepted message is then put among those that wait for the durable acknowledgement. -/
theorem AckOutcome.move {result : AckApplyResult} (h : AckOutcome e t u result) (src : Source)
    (hdrop : t.view = s.view.drop src e.clientMsgId) (hretries : t.retryCount = s.retryCount)
    (hholds : s.view.Holds src e) (hack : .acked ack ∈ s.view.history)
    (hid : ack.clientMsgId = e.clientMsgId) (sc : Scope) (deadlineMs : ℕ) :
    match result with
    | .terminal | .retryScheduled => Move sc s.view u.view
    | .awaitDurable => Move sc s.view
        ({ u with awaitingDurable := u.awaitingDurable.insert ⟨e, deadlineMs⟩ } : QueueState).view
    | .keepInFlight => False := by
  cases h with
  | terminal hview =>
    rw [hview, hdrop]
    exact .settle src e hholds
  | awaitDurable hview =>
    have hmove : Move sc s.view _ := .accept src e ack hholds hack hid
    rw [← hdrop, ← hview] at hmove
    convert hmove using 1
    simp [view, AwaitingDurableAck.clientMsgId]
  | retryScheduled hbudget hview =>
    have heq : t.view.retries = s.view.retries := hretries
    have hmax : t.view.maxRetries = s.view.maxRetries := by rw [hdrop, View.maxRetries_drop]
    rw [heq] at hbudget hview
    rw [hmax] at hbudget
    have hmove : Move sc s.view _ := .retryLater src e ack hholds hack hid hbudget
    rw [hview]
    rw [← hdrop] at hmove
    exact hmove

/-- Take the message from its place, apply the acknowledgement, finish: the shape of the
three acknowledgement handlers. -/
theorem takeAndApply_moves (src : Source) {take : OutboxM Unit}
    {finish : AckApplyResult → OutboxM Unit} {deadline : QueueState → ℕ}
    (htake : take.run s = (.ok (), t)) (hdrop : t.view = s.view.drop src e.clientMsgId)
    (hretries : t.retryCount = s.retryCount) (hfaults : t.faults = [])
    (hholds : s.view.Holds src e) (hack : .acked ack ∈ s.view.history)
    (hid : ack.clientMsgId = e.clientMsgId)
    (hterminal : ∀ u, (finish .terminal).run u = (.ok (), u))
    (hretry : ∀ u, (finish .retryScheduled).run u = (.ok (), u))
    (hawait : ∀ u, (finish .awaitDurable).run u =
      (.ok (), { u with awaitingDurable := u.awaitingDurable.insert ⟨e, deadline u⟩ })) :
    MovesOnly sc (take >>= fun _ => applyAckAndPublish e ack >>= finish) s := by
  refine Ensures.bind_of_run htake ?_
  refine (applyAckAndPublish_outcome hfaults hid).bind fun result u ⟨hout, hu⟩ => ?_
  have hmove := hout.move src hdrop hretries hholds hack hid sc (deadline u)
  cases result with
  | terminal => exact .intro (hterminal u) ⟨.single hmove, hu⟩
  | retryScheduled => exact .intro (hretry u) ⟨.single hmove, hu⟩
  | keepInFlight => exact hmove.elim
  | awaitDurable =>
    exact .intro (hawait u) ⟨.single hmove, hu⟩

section Heard

variable (h : s.faults = []) (hack : .acked ack ∈ s.history)

include h hack

theorem ackInFlight_moves (hx : s.inFlight.find? ack.clientMsgId = some x) :
    MovesOnly sc (ackInFlight x ack) s := by
  obtain ⟨hid, hholds⟩ := holds_of_inFlight hx
  refine takeAndApply_moves .inFlight (modify_run _ _) ?_ rfl
    h hholds hack hid.symm (fun _ => rfl) (fun _ => rfl) (fun _ => rfl)
  rw [hid]
  simp only [view, lookup_erase]
  rfl

theorem ackAwaiting_moves {x : AwaitingDurableAck} (hx : s.awaitingDurable.find? ack.clientMsgId = some x) :
    MovesOnly sc (ackAwaiting x ack) s := by
  obtain ⟨hid, hholds⟩ := holds_of_awaiting hx
  refine takeAndApply_moves .awaiting (modify_run _ _) ?_ rfl
    h hholds hack hid.symm (fun _ => rfl) (fun _ => rfl) (fun _ => rfl)
  rw [hid]
  simp only [view, lookup_erase]
  rfl

theorem ackQueued_moves {n : ℕ} (he : s.pending.byId.find? ack.clientMsgId = some (n, e))
    (hfly : s.inFlight.find? ack.clientMsgId = none)
    (hawait : s.awaitingDurable.find? ack.clientMsgId = none) :
    MovesOnly sc (ackQueued e ack) s := by
  have hid : ack.clientMsgId = e.clientMsgId := (key_of_find? he).symm
  refine takeAndApply_moves .queued (modify_run _ _) ?_ rfl
    h ?_ hack hid (fun _ => rfl) (fun _ => rfl) (fun _ => rfl)
  · simp only [view, lookup_erase]
    rfl
  · rw [hid] at he hfly hawait
    exact ⟨⟨n, he⟩, (lookup_eq_none_iff _ _ _).mpr hfly, (lookup_eq_none_iff _ _ _).mpr hawait⟩

end Heard

/-- A late acknowledgement rewrites rows and leaves the queue alone. -/
theorem applyOrphanDurableAck_moves (h : s.faults = []) : MovesOnly sc (applyOrphanDurableAck ack) s := by
  unfold applyOrphanDurableAck
  split
  · exact .of_run rfl .refl h
  dsimp only
  split
  · exact .of_run rfl .refl h
  refine .bind_of_run (storeCall_run h _) .refl ?_
  split
  · exact .of_run rfl .refl h
  rename_i row hrow
  split
  · exact .of_run rfl .refl h
  have hrun : (updateAfterAck (trim ack.clientMsgId) (markSentFromAck row ack) >>=
      fun _ => updateConversationLastMessage (markSentFromAck row ack)).run s =
        (.ok (), withLastMessage (markSentFromAck row ack) { s with
          messages := s.messages.updateAfterAck s.nowMs (trim ack.clientMsgId) (markSentFromAck row ack) }) := by
    simp [bind_run, updateAfterAck_run, updateConversationLastMessage_run, h]
  exact .of_run hrun .refl h

theorem ackOrphan_moves (h : s.faults = []) : MovesOnly sc (ackOrphan ack) s := by
  unfold ackOrphan
  split
  · exact (applyOrphanDurableAck_moves h).attempt.bind fun _ t ht => .of_run (modify_run _ _) .refl ht
  · exact .of_run rfl .refl h

theorem handleAckReceived_moves (h : s.faults = []) : MovesOnly sc (handleAckReceived ack) s := by
  have h : ({ s with history := .acked ack :: s.history } : QueueState).faults = [] := h
  refine .bind_of_run (modify_run _ _) (.single (.hear ack)) ?_
  refine .bind_of_run (get_run _) .refl ?_
  split
  · rename_i x _ hx
    exact (ackInFlight_moves h mem_cons_self hx).bind fun _ _ ht => trySendNext_moves ht
  · rename_i x _ hx
    exact (ackAwaiting_moves h mem_cons_self hx).bind fun _ _ ht => trySendNext_moves ht
  · rename_i hfly hawait
    refine .bind_of_run (pendingGet_run h _) .refl ?_
    split
    · rename_i entry hentry
      obtain ⟨⟨n, e⟩, hfind, rfl⟩ := Option.map_eq_some_iff.mp hentry
      exact (ackQueued_moves h mem_cons_self hfind hfly hawait).bind fun _ _ ht => trySendNext_moves ht
    · exact (ackOrphan_moves h).bind fun _ _ ht => trySendNext_moves ht

end Handlers

/-! ### Enqueue -/

omit codes in
theorem le_nextEnqueueMs (s : QueueState) : s.lastEnqueuedAtMs ≤ nextEnqueueMs s := by
  have hle := s.lastEnqueuedAtMs_le
  unfold nextEnqueueMs satAddU64
  omega

omit codes in
theorem entry_clientMsgId (m : IMMessage) : m.clientMsgId = m.clientMsgId := rfl

def enqueuedState (m : IMMessage) (s : QueueState) : QueueState :=
  withLastMessage (optimisticMessage m (nextEnqueueMs s)) { s with
    lastEnqueuedAtMs := nextEnqueueMs s
    lastEnqueuedAtMs_le := nextEnqueueMs_le s
    messages := s.messages.saveBatch s.nowMs [optimisticMessage m (nextEnqueueMs s)]
    pending := s.pending.push
      ⟨m.clientMsgId, m.conversationId, m, nextEnqueueMs s, entry_clientMsgId m, nextEnqueueMs_le s⟩
    bus := .receivedBatch [optimisticMessage m (nextEnqueueMs s)] :: s.bus
    answers := .enqueue (.ok ()) :: s.answers
    history := .pushed
      ⟨m.clientMsgId, m.conversationId, m, nextEnqueueMs s, entry_clientMsgId m, nextEnqueueMs_le s⟩ :: s.history }

section

variable (m : IMMessage)

theorem handleEnqueue_run (h : s.faults = []) : (handleEnqueue m).run s = trySendNext.run (enqueuedState m s) := by
  simp [handleEnqueue, saveMessage_run, pendingPush_run, pendingListOldestExcluding_run,
    updateConversationLastMessage_run, h, publish, answer, enqueuedState, withLastMessage]

omit codes in
theorem enqueuedState_move : Move sc s.view (enqueuedState m s).view := by
  have hmove : Move sc s.view _ := .enqueue
    ⟨m.clientMsgId, m.conversationId, m, nextEnqueueMs s, rfl, nextEnqueueMs_le s⟩ (le_nextEnqueueMs s)
  convert hmove using 1
  simp [view, enqueuedState, withLastMessage, push, find?_insert_eq]
  rfl

end

/-! ### Finished attempts and elapsed backoff -/

omit codes in
theorem lookup_renew {y : InFlightSend} {k : String} (hx : s.inFlight.find? k = some x) (hy : y.entry = x.entry) :
    ((s.inFlight.erase k).insert y).lookup InFlightSend.entry = s.inFlight.lookup InFlightSend.entry := by
  have hxk : x.clientMsgId = k := key_of_find? hx
  have hk : y.clientMsgId = k := by
    rw [InFlightSend.clientMsgId, hy]
    exact hxk
  rw [lookup_insert, lookup_erase, hk, Function.update_idem, hy,
    ← lookup_of_find? _ _ hx, Function.update_eq_self]

theorem handleSendAttemptFinished_moves (e : PendingSendVo) (retries : ℕ)
    (result : Except FlareError Unit) (h : s.faults = []) :
      MovesOnly sc (handleSendAttemptFinished e retries result) s := by
  unfold handleSendAttemptFinished
  split
  · exact .of_run rfl .refl h
  refine .bind_of_run (get_run s) .refl ?_
  split
  · exact .of_run rfl .refl h
  rename_i hcount
  have hcount : s.retryCount e.clientMsgId = retries := by simpa using hcount
  split
  · exact .of_run rfl .refl h
  rename_i x hx
  obtain ⟨hid, hholds⟩ := holds_of_inFlight hx
  refine Ensures.bind_of_run (modify_run _ _) ?_
  split
  · refine .intro (modify_run _ _) ⟨.of_eq ?_, h⟩
    simp only [view, lookup_renew hx (y := unsentInFlight s x.entry) rfl]
  refine .bind_of_run (modify_run _ _) ?_
  split
  · rename_i next hretry
    obtain ⟨rfl, hbudget⟩ := succ_lt_of_retry hretry
    refine .bind_of_run (modify_run _ _) (.intro (modify_run _ _) ⟨.single ?_, h⟩)
    have hretries : s.view.retries x.entry.clientMsgId = retries := by rw [hid]; exact hcount
    have hmove : Move sc s.view _ := .attemptFailed x.entry hholds (by
      rw [hretries]
      exact hbudget)
    rw [hretries] at hmove
    convert hmove using 1
    simp only [view, lookup_renew hx (y := unsentInFlight s x.entry) rfl]
  · rename_i reason hexhausted
    let taken : QueueState := { s with
      inFlight := s.inFlight.erase e.clientMsgId
      adaptiveWindow := s.adaptiveWindow.noteCongestion }
    refine .bind_of_run (failEntry_run (s := taken) h x.entry reason) ?_
    refine (trySendNext_moves (s := failedState x.entry reason taken) h).mono fun _ t ht =>
      ⟨.head ?_ ht.1, ht.2⟩
    have hmove : Move sc s.view _ := .settle .inFlight x.entry hholds
    convert hmove using 1
    rw [failedState_view, hid]
    simp only [taken, view, lookup_erase]
    rfl

theorem handleRetryBackoffElapsed_moves (k : String) (retries : ℕ) (h : s.faults = []) :
    MovesOnly sc (handleRetryBackoffElapsed k retries) s := by
  refine .bind_of_run (get_run s) .refl ?_
  split
  · refine .bind_of_run (modify_run _ _) (.single ?_) (trySendNext_moves h)
    have hmove : Move sc s.view _ := .endBackoff k
    convert hmove using 1
    simp [view]
  · exact trySendNext_moves h

end FlareIm.Outbox
