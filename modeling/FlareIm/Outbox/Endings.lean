import FlareIm.Outbox.Acks
import FlareIm.Outbox.System

/-! How a message ends while the store may fail. Every ending takes the entry out of the pending
store first and writes the row of the message second, in two calls of their own; all but one
ignore the errors of both. If the second call is the one that fails, the message is gone from the
pending store and its row still shows what it showed before; at every other point of failure
the entry stays or the row is final. -/

namespace FlareIm.Outbox

open Lib Message Store MessageTable Prog

section Endings

variable [codes : ProtoCodes] {α : Type} {s t : QueueState} {e : PendingSendVo} {n : ℕ} {err : FlareError}

/-! ### A store that fails once -/

/-- The store fails at its call number `n`, from zero, and at no other. -/
def failAt (n : ℕ) (err : FlareError) : List (Option FlareError) :=
  List.replicate n none ++ [some err]

variable {ack : SendAck} {k : String} {rest : List (Option FlareError)}

omit codes in
theorem storeCall_run_of_some (h : s.faults = some err :: rest)
    (f : QueueState → α × QueueState) :
    (storeCall f).run s = (.error err, { s with faults := rest }) := by
  show callStore f s = _
  simp only [callStore, h]

omit codes in
theorem storeCall_run_of_none (h : s.faults = none :: rest)
    (f : QueueState → α × QueueState) :
    (storeCall f).run s = (.ok (f { s with faults := rest }).1, (f { s with faults := rest }).2) := by
  show callStore f s = _
  simp only [callStore, h]

/-- What an ending leaves of the pending entry `k` and of the rows when the store fails at its
call number `n`: the first call pops the entry, the second one writes the row. -/
structure EndsOnce (write : MessageTable → MessageTable) (k : String) (n : ℕ) (s t : QueueState) :
    Prop where
  kept : n = 0 → t.pending = s.pending
  popped : n ≠ 0 → t.pending = s.pending.pop k
  unwritten : n = 1 → t.messages = s.messages
  written : 2 ≤ n → t.messages = write s.messages

/-- The queue's own state may differ. -/
def SameStores (s t : QueueState) : Prop := s.pending = t.pending ∧ s.messages = t.messages

omit codes in
/-- The endings that ignore the errors of both calls: `x` pops the entry, does something about the
queue's own state, writes the row and leaves both stores alone afterwards. -/
theorem endsOnce_of_ignored {β : Type} (rows : ℕ → MessageTable → MessageTable)
    {between : QueueState → QueueState} {w : QueueState → Unit × QueueState} {x : OutboxM β}
    (hx : ∀ s, SameStores (x.run s).2 ((storeCall w).run (between ((pendingPop k).run s).2)).2)
    (hbetween : ∀ s, (between s).pending = s.pending ∧ (between s).messages = s.messages ∧
      (between s).faults = s.faults ∧ (between s).nowMs = s.nowMs)
    (hw : ∀ s, (w s).2.pending = s.pending ∧ (w s).2.messages = rows s.nowMs s.messages) :
    EndsOnce (rows s.nowMs) k n s (x.run { s with faults := failAt n err }).2 := by
  obtain ⟨hxpending, hxmessages⟩ := hx { s with faults := failAt n err }
  match n with
  | 0 =>
    obtain ⟨hpending, -, hfaults, -⟩ := hbetween { s with faults := [] }
    have hcall := congrArg (fun r => r.2.pending) (storeCall_run hfaults w)
    exact ⟨fun _ => hxpending.trans (hcall.trans ((hw _).1.trans hpending)), by simp, by simp, by simp⟩
  | 1 =>
    obtain ⟨hpending, hmessages, hfaults, -⟩ := hbetween ((pendingPop k).run { s with faults := failAt 1 err }).2
    have hcall := storeCall_run_of_some hfaults w
    rw [hcall] at hxpending hxmessages
    exact ⟨by simp, fun _ => hxpending.trans hpending, fun _ => hxmessages.trans hmessages, by simp⟩
  | n + 2 =>
    obtain ⟨hpending, hmessages, hfaults, hnow⟩ := hbetween
      ((pendingPop k).run { s with faults := failAt (n + 2) err }).2
    have hcall := storeCall_run_of_none hfaults w
    rw [hcall] at hxpending hxmessages
    refine ⟨by simp, fun _ => hxpending.trans ((hw _).1.trans hpending), by simp, fun _ => ?_⟩
    rw [hxmessages, (hw _).2]
    dsimp only
    rw [hnow, hmessages]
    rfl

/-- The queue forgets how often it tried to send the message. -/
def forgetRetries (k : String) (s : QueueState) : QueueState :=
  { s with retryCount := Function.update s.retryCount k 0 }

def countSuccess (k : String) (s : QueueState) : QueueState :=
  { forgetRetries k s with adaptiveWindow := s.adaptiveWindow.noteSuccess }

theorem endsOnce_of_markFailed {x : OutboxM α} (hx : ∀ s, SameStores (x.run s).2
      ((saveMessage (markFailed e.message)).run (forgetRetries k ((pendingPop k).run s).2)).2) :
    EndsOnce (·.saveBatch s.nowMs [markFailed e.message]) k n s (x.run { s with faults := failAt n err }).2 :=
  endsOnce_of_ignored (fun now m => m.saveBatch now [markFailed e.message]) hx
    (fun _ => ⟨rfl, rfl, rfl, rfl⟩) fun _ => ⟨rfl, rfl⟩

/-- Here the first error ends the program. -/
theorem markSendFailedAndPublish_endsOnce (reason : String) :
    EndsOnce (·.saveBatch s.nowMs [markFailed e.message]) e.clientMsgId n s
      ((markSendFailedAndPublish e reason).run { s with faults := failAt n err }).2 := by
  match n with
  | 0 => exact ⟨fun _ => rfl, by simp, by simp, by simp⟩
  | 1 => exact ⟨by simp, fun _ => rfl, fun _ => rfl, by simp⟩
  | n + 2 => exact ⟨by simp, fun _ => rfl, by simp, fun _ => rfl⟩

omit codes in
/-- The conversation list is another store. -/
theorem updateConversationLastMessage_stores (m : IMMessage) (s : QueueState) :
    SameStores ((updateConversationLastMessage m).run s).2 s := by
  unfold updateConversationLastMessage
  dsimp only
  split
  · exact ⟨rfl, rfl⟩
  · show SameStores (callStore _ s).2 s
    unfold callStore
    split <;> exact ⟨rfl, rfl⟩

theorem applyDurableAck_endsOnce (ack : SendAck) :
    EndsOnce (·.updateAfterAck s.nowMs ack.clientMsgId (markSentFromAck e.message ack))
      ack.clientMsgId n s ((applyDurableAck e ack).run { s with faults := failAt n err }).2 := by
  have hx : ∀ s, SameStores ((applyDurableAck e ack).run s).2
      ((updateAfterAck ack.clientMsgId (markSentFromAck e.message ack)).run
        (countSuccess ack.clientMsgId ((pendingPop ack.clientMsgId).run s).2)).2 := fun s => by
    simp only [SameStores, applyDurableAck, clearRetryCount, noteSendSuccess, publish,
      bind_run, attempt_run, modify_run,
      pure_run]
    exact updateConversationLastMessage_stores _ _
  exact endsOnce_of_ignored (fun now m => m.updateAfterAck now ack.clientMsgId (markSentFromAck e.message ack)) hx
    (fun _ => ⟨rfl, rfl, rfl, rfl⟩) fun _ => ⟨rfl, rfl⟩

/-! ### Endings -/

/-- The acknowledgement fails its message: it is no acceptance, and either not retryable or
the retry budget is used up. -/
def RejectsNow (s : QueueState) (ack : SendAck) : Prop :=
  acceptedFromAck ack = none ∧ ¬ (isRetryableAckError ack = true ∧
    satAddU32 (s.retryCount ack.clientMsgId) 1 < s.config.maxRetries)

/-- The acknowledgement ends the message it is for. -/
def EndsMessage (s : QueueState) (ack : SendAck) : Prop :=
  (durableAcceptedFromAck ack).isSome ∨ RejectsNow s ack

/-- The part of the handler of failed attempts that ends a message. -/
def giveUpAttempt (x : InFlightSend) (reason : String) : OutboxM Unit := do
  removeInFlight x.clientMsgId
  noteSendCongestion
  failEntry x.entry reason

/-- A failed attempt that spends the budget is given up, and the next message is taken. -/
theorem handleSendAttemptFinished_run_of_spent {x : InFlightSend} {reason : String}
    (hx : s.inFlight.find? e.clientMsgId = some x) (hactive : s.isPaused = false)
    (hspent : decideSendAttemptFailure (s.retryCount e.clientMsgId) s.config.maxRetries = .fail reason) :
    (handleSendAttemptFinished e (s.retryCount e.clientMsgId) (.error err)).run s =
      (giveUpAttempt x reason >>= fun _ => trySendNext).run s := by
  have hid : x.clientMsgId = e.clientMsgId := (holds_of_inFlight hx).1
  unfold handleSendAttemptFinished giveUpAttempt
  rw [hid]
  simp only [get_bind, ne_eq, not_true, if_false, hx, hactive, hspent, Bool.false_eq_true]
  rfl

/-- The program ends the message of the entry in the given state: by a final acknowledgement,
by an attempt or a timer that finds the retry budget spent, or because the queue gives it up. -/
inductive Ends (s : QueueState) (e : PendingSendVo) : OutboxM Unit → Prop
  | ackInFlight (x : InFlightSend) (ack : SendAck) (hx : s.inFlight.find? ack.clientMsgId = some x)
      (he : x.entry = e) (hack : EndsMessage s ack) : Ends s e (ackInFlight x ack)
  | ackAwaiting (x : AwaitingDurableAck) (ack : SendAck)
      (hx : s.awaitingDurable.find? ack.clientMsgId = some x)
      (he : x.entry = e) (hack : EndsMessage s ack) : Ends s e (ackAwaiting x ack)
  | ackQueued (ack : SendAck) (he : e.clientMsgId = ack.clientMsgId) (hack : EndsMessage s ack) :
      Ends s e (ackQueued e ack)
  | attemptFailed (x : InFlightSend) (reason : String)
      (hx : s.inFlight.find? e.clientMsgId = some x) (he : x.entry = e)
      (hspent : decideSendAttemptFailure (s.retryCount e.clientMsgId) s.config.maxRetries = .fail reason) :
      Ends s e (giveUpAttempt x reason)
  | inFlightTimeout (x : InFlightSend) (hx : s.inFlight.find? e.clientMsgId = some x)
      (he : x.entry = e) (hdue : s.isDeadlineElapsed x.deadlineMs)
      (hspent : s.config.maxRetries ≤ s.retryCount e.clientMsgId) :
      Ends s e (checkInFlightEntry e.clientMsgId)
  | awaitingTimeout (x : AwaitingDurableAck)
      (hx : s.awaitingDurable.find? e.clientMsgId = some x)
      (he : x.entry = e) (hdue : s.isDeadlineElapsed x.deadlineMs)
      (hspent : s.config.maxRetries ≤ s.retryCount e.clientMsgId) :
      Ends s e (checkAwaitingEntry e.clientMsgId)
  | givenUp (reason : String) : Ends s e (markSendFailedAndPublish e reason)

/-- What a final acknowledgement does to the message. -/
def settleByAck (e : PendingSendVo) (ack : SendAck) : OutboxM AckApplyResult :=
  if (durableAcceptedFromAck ack).isSome then applyDurableAck e ack else applyRejectedAck e ack

theorem applyAckAndPublish_run_of_ends (h : EndsMessage s ack) :
    (applyAckAndPublish e ack).run s = (.ok .terminal, ((settleByAck e ack).run s).2) := by
  unfold applyAckAndPublish settleByAck
  by_cases hdurable : (durableAcceptedFromAck ack).isSome = true
  · rw [if_pos hdurable, if_pos hdurable]
    rfl
  · obtain ⟨hnone, hretry⟩ := h.resolve_left hdurable
    rw [if_neg hdurable, if_neg hdurable, hnone, if_neg (by simp), get_bind]
    dsimp only
    split
    · rename_i next hyes hbudget
      exact absurd ⟨hyes, (decideSendAttemptFailure_retry hbudget).1 ▸
        (decideSendAttemptFailure_retry hbudget).2⟩ hretry
    · rfl

theorem expireTimer_run_of_spent (hspent : s.config.maxRetries ≤ s.retryCount e.clientMsgId) :
    (expireTimer e).run s = (failEntry e reasonTimeoutAfterRetries).run
      { s with adaptiveWindow := s.adaptiveWindow.noteCongestion } := by
  have hdecide : decideTimeoutExpiry (s.retryCount e.clientMsgId) s.config.maxRetries =
      .fail reasonTimeoutAfterRetries := if_pos hspent
  rw [expireTimer, noteSendCongestion, modify_bind, get_bind]
  rw [hdecide]

/-! ### Where the message is afterwards -/

def RowTerminal (s : QueueState) (k : String) : Prop :=
  ∃ r ∈ s.messages.copies k, r.status = codes.statusSent ∨ r.status = codes.statusFailed
  deriving Decidable

/-- The message is still pending, or a row of it is terminal. -/
def Accounted (s : QueueState) (k : String) : Prop :=
  s.pending.byId.find? k ≠ none ∨ RowTerminal s k
  deriving Decidable

/-- A pending message as the application hands it over: it names a conversation and has no
number in it yet. -/
structure OutboxMessage (s : QueueState) (e : PendingSendVo) : Prop where
  pending : s.pending.byId.find? e.clientMsgId ≠ none
  conversation : isBlank e.message.conversationId = false
  unnumbered : e.message.conversationSeq = 0

omit codes in
theorem OutboxMessage.mono (h : OutboxMessage s e) (hpending : t.pending = s.pending) : OutboxMessage t e :=
  ⟨hpending ▸ h.pending, h.conversation, h.unnumbered⟩

theorem OutboxMessage.failed_row (h : OutboxMessage s e) (now : ℕ) :
    ∃ r ∈ (s.messages.saveBatch now [markFailed e.message]).copies e.clientMsgId,
      r.status = codes.statusSent ∨ r.status = codes.statusFailed := by
  have hsaved : s.messages.isPersistable (markFailed e.message) = true := by
    simp [isPersistable, markFailed, h.conversation, messageVisibleAfterClear, h.unnumbered]
  refine ⟨persisted now (markFailed e.message), ?_, .inr rfl⟩
  rw [saveBatch_singleton, if_pos hsaved, MessageTable.mem_copies, MessageTable.mem_insertRow]
  exact ⟨.inl rfl, e.message_clientMsgId⟩

theorem sent_row (m : MessageTable) (now : ℕ) (e : PendingSendVo) (ack : SendAck)
    (hid : e.clientMsgId = ack.clientMsgId) :
    ∃ r ∈ (m.updateAfterAck now ack.clientMsgId (markSentFromAck e.message ack)).copies ack.clientMsgId,
      r.status = codes.statusSent ∨ r.status = codes.statusFailed := by
  refine ⟨persisted now (ackedRow ack.clientMsgId
    (markSentFromAck e.message ack)), ?_, .inl (ackedRow_status _ _)⟩
  rw [MessageTable.mem_copies, MessageTable.updateAfterAck, MessageTable.mem_insertRow]
  refine ⟨.inl rfl, ?_⟩
  rw [persisted_clientMsgId, ackedRow_clientMsgId]
  rw [markSentFromAck_clientMsgId, e.message_clientMsgId, hid]

/-- An ending that writes a terminal row accounts for the message unless exactly that write
failed. -/
theorem EndsOnce.accounted_iff {rows : MessageTable → MessageTable}
    (h : EndsOnce rows k n s t) (hpending : s.pending.byId.find? k ≠ none)
    (hrow : ∃ r ∈ (rows s.messages).copies k, r.status = codes.statusSent ∨ r.status = codes.statusFailed) :
    Accounted t k ↔ n ≠ 1 ∨ RowTerminal s k := by
  match n with
  | 0 => exact iff_of_true (.inl (by rw [h.kept rfl]; exact hpending)) (.inl (by simp))
  | 1 =>
    have hgone : t.pending.byId.find? k = none := by
      rw [h.popped (by simp), PendingEntries.find?_pop, if_pos rfl]
    rw [Accounted, RowTerminal, h.unwritten rfl, hgone]
    simp [RowTerminal]
  | n + 2 =>
    refine iff_of_true (.inr ?_) (.inl (by simp))
    rw [RowTerminal, h.written (by omega)]
    exact hrow

/-- The program loses the message only if exactly the write of its row fails. -/
def AccountsFor (s : QueueState) (e : PendingSendVo) (x : OutboxM α) : Prop :=
  ∀ n err, Accounted (x.run { s with faults := failAt n err }).2 e.clientMsgId ↔ n ≠ 1 ∨ RowTerminal s e.clientMsgId

theorem settleByAck_accounted_iff (hmsg : OutboxMessage s e) (hid : e.clientMsgId = ack.clientMsgId) :
    AccountsFor s e (settleByAck e ack) := by
  intro n err
  have hpending := hmsg.pending
  have hfailed := hmsg.failed_row s.nowMs
  rw [hid] at hpending hfailed ⊢
  unfold settleByAck
  split
  · exact (applyDurableAck_endsOnce ack).accounted_iff hpending (sent_row _ _ e ack hid)
  · have hends : EndsOnce _ ack.clientMsgId n s
      ((applyRejectedAck e ack).run { s with faults := failAt n err }).2 :=
      endsOnce_of_markFailed fun _ => ⟨rfl, rfl⟩
    exact hends.accounted_iff hpending hfailed

theorem applyAckAndPublish_accounted_iff {after : AckApplyResult → OutboxM Unit}
    (hmsg : OutboxMessage s e) (hid : e.clientMsgId = ack.clientMsgId) (hack : EndsMessage s ack)
    (hafter : ∀ t, ((after .terminal).run t).2 = t) : AccountsFor s e (applyAckAndPublish e ack >>= after) := by
  intro n err
  rw [bind_state (applyAckAndPublish_run_of_ends (s := { s with faults := failAt n err }) hack) (hafter _)]
  exact settleByAck_accounted_iff hmsg hid n err

theorem failEntry_accounted_iff (hmsg : OutboxMessage s e) (reason : String) :
    AccountsFor s e (failEntry e reason) := by
  intro n err
  have hends : EndsOnce _ e.clientMsgId n s ((failEntry e reason).run { s with faults := failAt n err }).2 :=
    endsOnce_of_markFailed fun _ => ⟨rfl, rfl⟩
  exact hends.accounted_iff hmsg.pending (hmsg.failed_row _)

theorem expireTimer_accounted_iff (hmsg : OutboxMessage s e)
    (hspent : s.config.maxRetries ≤ s.retryCount e.clientMsgId) : AccountsFor s e (expireTimer e) := by
  intro n err
  rw [expireTimer_run_of_spent (s := { s with faults := failAt n err }) hspent]
  exact failEntry_accounted_iff (s := { s with adaptiveWindow := s.adaptiveWindow.noteCongestion })
    (hmsg.mono rfl) _ n err

/-- A message that ends while the store fails once is still pending or has a terminal row, unless
the failure hits the second call, the write of the row, and no row was terminal before. -/
theorem accounted_after_ending_iff {m : OutboxM Unit} (hends : Ends s e m) (hmsg : OutboxMessage s e)
    (n : ℕ) (err : FlareError) :
    Accounted (m.run { s with faults := failAt n err }).2 e.clientMsgId ↔ n ≠ 1 ∨ RowTerminal s e.clientMsgId := by
  cases hends with
  | ackInFlight x ack hx he hack =>
    subst he
    rw [ackInFlight, removeInFlight, modify_bind]
    exact applyAckAndPublish_accounted_iff (s := { s with inFlight := s.inFlight.erase ack.clientMsgId })
      (hmsg.mono rfl) (holds_of_inFlight hx).1 hack (fun _ => rfl) n err
  | ackAwaiting x ack hx he hack =>
    subst he
    rw [ackAwaiting, removeAwaiting, modify_bind]
    exact applyAckAndPublish_accounted_iff
      (s := { s with awaitingDurable := s.awaitingDurable.erase ack.clientMsgId })
      (hmsg.mono rfl) (holds_of_awaiting hx).1 hack (fun _ => rfl) n err
  | ackQueued ack hid hack =>
    rw [ackQueued, removeBackoff, modify_bind]
    exact applyAckAndPublish_accounted_iff (s := { s with retryBackoff := s.retryBackoff.erase e.clientMsgId })
      (hmsg.mono rfl) hid hack (fun _ => rfl) n err
  | attemptFailed x reason hx he hspent =>
    subst he
    exact failEntry_accounted_iff (s := { s with
        inFlight := s.inFlight.erase x.clientMsgId
        adaptiveWindow := s.adaptiveWindow.noteCongestion })
      (hmsg.mono rfl) reason n err
  | inFlightTimeout x hx he hdue hspent =>
    subst he
    let s₁ : QueueState := { s with inFlight := s.inFlight.erase x.entry.clientMsgId }
    have hrun : (checkInFlightEntry x.entry.clientMsgId).run { s with faults := failAt n err } =
        (expireTimer x.entry).run { s₁ with faults := failAt n err } := by
      rw [checkInFlightEntry, get_bind]
      rw [hx]
      exact congrFun (congrArg Prog.run (if_pos hdue)) _
    rw [hrun]
    exact expireTimer_accounted_iff (s := s₁) (hmsg.mono rfl) hspent n err
  | awaitingTimeout x hx he hdue hspent =>
    subst he
    let s₁ : QueueState := { s with awaitingDurable := s.awaitingDurable.erase x.entry.clientMsgId }
    have hrun : (checkAwaitingEntry x.entry.clientMsgId).run { s with faults := failAt n err } =
        (expireTimer x.entry).run { s₁ with faults := failAt n err } := by
      rw [checkAwaitingEntry, get_bind]
      rw [hx]
      exact congrFun (congrArg Prog.run (if_pos hdue)) _
    rw [hrun]
    exact expireTimer_accounted_iff (s := s₁) (hmsg.mono rfl) hspent n err
  | givenUp reason =>
    exact (markSendFailedAndPublish_endsOnce reason).accounted_iff hmsg.pending (hmsg.failed_row _)

/-! ### Enqueueing -/

def SameAnswers (s t : QueueState) : Prop := t.answers = s.answers

instance : Std.Refl SameAnswers := ⟨fun _ => rfl⟩

instance : IsTrans QueueState SameAnswers := ⟨fun _ _ _ h h' => Eq.trans h' h⟩

omit codes in
theorem allowsDispatch_sameAnswers (user : String) : AllowsDispatch SameAnswers user where
  meanwhile _ := rfl
  faults _ _ := rfl
  stores _ _ _ _ _ := rfl
  counts _ _ := rfl
  bus _ _ := rfl
  writerFull s := by
    unfold noteWriterFull
    split <;> rfl
  send s e retries _ _ := by
    simp only [dispatchSendAttempt, modify_run, noteWriterFull]
    split
    · split <;> rfl
    · rfl

theorem answers_enqueued (m : IMMessage) (s : QueueState) :
    ((attempt (pendingListOldestExcluding [] 100) >>= fun _ =>
      attempt (updateConversationLastMessage m) >>= fun _ =>
      publish (.receivedBatch [m]) >>= fun _ => answer (.enqueue (.ok ())) >>= fun _ =>
      trySendNext).run s).2.answers =
      .enqueue (.ok ()) :: s.answers := by
  have hcalls := (allowsDispatch_sameAnswers "").toAllowsCalls
  have hlist : Within SameAnswers (pendingListOldestExcluding [] 100) := hcalls.storeCall fun _ => rfl
  have hlast : Within SameAnswers (updateConversationLastMessage m) :=
    .ite (.pure ()) (hcalls.storeCall fun _ => rfl)
  have hbefore := (hlast _).trans (hlist s)
  rw [attempt_bind, attempt_bind, publish, answer, modify_bind, modify_bind]
  generalize ((updateConversationLastMessage m).run _).2 = t at hbefore ⊢
  have hsend := trySendNext_within allowsDispatch_sameAnswers
    { t with bus := .receivedBatch [m] :: t.bus, answers := .enqueue (.ok ()) :: t.answers }
  exact Eq.trans hsend (congrArg (Answer.enqueue (.ok ()) :: ·) hbefore)

omit codes in
theorem storeCall_run_of_ne (h : ∀ err rest, s.faults ≠ some err :: rest) (f : QueueState → α × QueueState) :
    (storeCall f).run s = (.ok (f { s with faults := s.faults.tail }).1,
      (f { s with faults := s.faults.tail }).2) := by
  match hfaults : s.faults with
  | [] =>
    rw [storeCall_run hfaults, List.tail_nil, ← hfaults]
  | none :: rest => rw [storeCall_run_of_none hfaults, List.tail_cons]
  | some err :: rest => exact absurd hfaults (h err rest)

/-- An enqueue whose second call, the write of the pending entry, does not fail after the first one went through. -/
theorem sameStores_handleEnqueue_of_error {m : IMMessage}
    (hpush : ∀ err' rest, s.faults ≠ none :: some err' :: rest)
    (herr : ((handleEnqueue m).run s).2.answers = .enqueue (.error err) :: s.answers) :
    SameStores s ((handleEnqueue m).run s).2 := by
  unfold handleEnqueue at herr ⊢
  rw [get_bind, modify_bind, attempt_bind, saveMessage] at herr ⊢
  by_cases hsave : ∃ err' rest, s.faults = some err' :: rest
  · obtain ⟨err', rest, hfaults⟩ := hsave
    rw [storeCall_run_of_some (by exact hfaults)]
    exact ⟨rfl, rfl⟩
  · have hsaved : ∀ err' rest, s.faults ≠ some err' :: rest := fun err' rest h => hsave ⟨err', rest, h⟩
    have hpushed : ∀ err' rest, s.faults.tail ≠ some err' :: rest := by
      intro err' rest h
      match hfaults : s.faults with
      | [] => simp [hfaults] at h
      | none :: _ => exact hpush err' rest (by rw [hfaults, ← h, hfaults, List.tail_cons])
      | some e :: _ => exact hsaved e _ hfaults
    rw [storeCall_run_of_ne (by exact hsaved)] at herr
    rw [attempt_bind, pendingPush, storeCall_run_of_ne (by exact hpushed)] at herr
    rw [answers_enqueued] at herr
    cases herr

/-- An error of the enqueue leaves both stores as they were exactly when the call that failed is not the
write of the
pending entry, before which the row was saved, or saving the row had nothing to do. -/
theorem sameStores_handleEnqueue (m : IMMessage) (s : QueueState) :
    (∀ err, ((handleEnqueue m).run s).2.answers = .enqueue (.error err) :: s.answers →
        SameStores s ((handleEnqueue m).run s).2) ↔
      (∀ err rest, s.faults ≠ none :: some err :: rest) ∨
        s.messages.saveBatch s.nowMs [optimisticMessage m (nextEnqueueMs s)] = s.messages := by
  by_cases hpush : ∃ err rest, s.faults = none :: some err :: rest
  · obtain ⟨err, rest, hfaults⟩ := hpush
    have hsave : ∃ t, ((handleEnqueue m).run s).2 = t ∧ t.answers = .enqueue (.error err) :: s.answers ∧
        t.messages = s.messages.saveBatch s.nowMs [optimisticMessage m (nextEnqueueMs s)] ∧
        t.pending = s.pending := by
      unfold handleEnqueue
      rw [get_bind, modify_bind, attempt_bind, saveMessage, storeCall_run_of_none (by exact hfaults)]
      exact ⟨_, rfl, rfl, rfl, rfl⟩
    obtain ⟨t, hrun, hanswers, hmessages, hpending⟩ := hsave
    rw [hrun, or_iff_right fun h => h err rest hfaults, ← hmessages]
    exact ⟨fun h => (h err hanswers).2.symm, fun h _ _ => ⟨hpending.symm, h.symm⟩⟩
  · have hpush : ∀ err rest, s.faults ≠ none :: some err :: rest := fun err rest h => hpush ⟨err, rest, h⟩
    exact iff_of_true (fun _ => sameStores_handleEnqueue_of_error hpush) (.inl hpush)

end Endings

/-- The queue before its first command, over a store that fails at its call number `n`. -/
def failingState (n : ℕ) : QueueState := { spawn sampleSurroundings with faults := failAt n ⟨"disk full"⟩ }

/-- The entry could not be stored, and the row stays. -/
theorem handleEnqueue_push_failed :
    ((@handleEnqueue sampleCodes alone (sampleMessage "c1")).run (failingState 1)).2.answers =
      [.enqueue (.error ⟨"disk full"⟩)] ∧
      ((failingState 1).messages.getByClientMsgId "c1").isNone ∧
      (((@handleEnqueue sampleCodes alone (sampleMessage "c1")).run (failingState 1)).2.messages.getByClientMsgId
        "c1").isSome :=
  ⟨rfl, by decide, by decide⟩

/-- The message is enqueued and in flight. -/
def dispatchedState : QueueState :=
  run (@step sampleCodes alone) (spawn sampleSurroundings) [.send (.enqueue (sampleMessage "c1")), .recv]

def dispatchedAttempt : InFlightSend := ⟨sampleEntry, 11000, 1000, false⟩

def samplePersisted : SendAck :=
  { clientMsgId := "c1", result := some (.accepted ⟨"s1", 1, 0, .persisted⟩) }

theorem ends_samplePersisted :
    @Ends sampleCodes dispatchedState sampleEntry
      (@ackInFlight sampleCodes alone dispatchedAttempt samplePersisted) :=
  @Ends.ackInFlight sampleCodes _ _ dispatchedAttempt samplePersisted (by decide) rfl (.inl rfl)

theorem accounted_samplePersisted_pop_failed :
    @Accounted sampleCodes ((@ackInFlight sampleCodes alone dispatchedAttempt samplePersisted).run
      { dispatchedState with faults := failAt 0 ⟨"disk full"⟩ }).2 "c1" :=
  (@accounted_after_ending_iff sampleCodes dispatchedState sampleEntry _ ends_samplePersisted
    ⟨by decide, by decide, rfl⟩ 0 ⟨"disk full"⟩).mpr (.inl (by decide))

theorem not_accounted_samplePersisted_write_failed :
    @Ends sampleCodes dispatchedState sampleEntry
      (@ackInFlight sampleCodes alone dispatchedAttempt samplePersisted) ∧
      ¬ @Accounted sampleCodes ((@ackInFlight sampleCodes alone dispatchedAttempt samplePersisted).run
        { dispatchedState with faults := failAt 1 ⟨"disk full"⟩ }).2 "c1" :=
  ⟨ends_samplePersisted, by decide⟩

end FlareIm.Outbox
