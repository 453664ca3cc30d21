import FlareIm.Outbox.Actor

/-! The command handlers and the timer of the reliable send queue: acknowledgements,
finished attempts, login reset, pause and resume with its recovery, stale expiry, and the
periodic check that reconciles with the local rows and expires timers. -/

namespace FlareIm.Outbox

open Lib Message Store KeyedMap Prog

variable [codes : ProtoCodes] [tasks : Tasks]

/-! ### Acknowledgements -/

inductive AckApplyResult
  | terminal
  | keepInFlight
  | awaitDurable
  | retryScheduled
  deriving DecidableEq, Repr

/-- Keep the entry in the pending store and start the timer that ends its backoff. -/
def scheduleRetryAfterBackoff (entry : PendingSendVo) (nextRetryCount : ℕ) : OutboxM Unit := do
  noteSendCongestion
  setRetryCount entry.clientMsgId nextRetryCount
  modify fun s =>
    { s with
      retryBackoff := s.retryBackoff.insert (entry.clientMsgId, nextRetryCount)
      backoffTimers := s.backoffTimers ++ [(entry.clientMsgId, nextRetryCount)] }

def ackMissingResultReason : String := "send ack missing accepted result"

section

variable (entry : PendingSendVo) (ack : SendAck)

/-- The rejecting branch of `apply_ack_and_publish`. -/
def applyRejectedAck : OutboxM AckApplyResult := do
  let _ ← attempt (pendingPop ack.clientMsgId)
  clearRetryCount ack.clientMsgId
  let _ ← attempt (saveMessage (markFailed entry.message))
  publish (.sendAck ack)
  publish (.sendFailed ack.clientMsgId ((errorMessageFromAck ack).getD ackMissingResultReason))
  return .terminal

/-- The durable branch of `apply_ack_and_publish`. -/
def applyDurableAck : OutboxM AckApplyResult := do
  let _ ← attempt (pendingPop ack.clientMsgId)
  clearRetryCount ack.clientMsgId
  noteSendSuccess
  let msg := markSentFromAck entry.message ack
  let _ ← attempt (updateAfterAck ack.clientMsgId msg)
  let _ ← attempt (updateConversationLastMessage msg)
  publish (.sendAck ack)
  return .terminal

def applyAckAndPublish : OutboxM AckApplyResult := do
  if (durableAcceptedFromAck ack).isSome then applyDurableAck entry ack
  else if (acceptedFromAck ack).isSome then
    noteSendSuccess
    publish (.sendAck ack)
    return .awaitDurable
  else
    let s ← get
    let retries := s.retryCount ack.clientMsgId
    match isRetryableAckError ack, decideRetryableAckError retries s.config.maxRetries with
    | true, .retry nextRetryCount =>
      scheduleRetryAfterBackoff entry nextRetryCount
      return .retryScheduled
    | _, _ => applyRejectedAck entry ack

end

def orphanDurableAckShouldUpdate (row : IMMessage) (clientMsgId : String) (ackSeq : ℕ) : Bool :=
  let pendingLike := row.serverId = clientMsgId || row.localState.isLocal || row.localState.sending ||
    row.status < codes.statusSent
  pendingLike || row.conversationSeq == 0 || row.conversationSeq < ackSeq

def applyOrphanDurableAck (ack : SendAck) : OutboxM Unit := do
  match durableAcceptedFromAck ack with
  | none => return ()
  | some accepted =>
    let clientMsgId := trim ack.clientMsgId
    if clientMsgId = "" then return ()
    match ← getByClientMsgId clientMsgId with
    | none => return ()
    | some row =>
      if orphanDurableAckShouldUpdate row clientMsgId accepted.conversationSeq = false then return ()
      let msg := markSentFromAck row ack
      updateAfterAck clientMsgId msg
      updateConversationLastMessage msg

def ackInFlight (x : InFlightSend) (ack : SendAck) : OutboxM Unit := do
  removeInFlight ack.clientMsgId
  let result ← applyAckAndPublish x.entry ack
  let s ← get
  match result with
  | .terminal | .retryScheduled => return ()
  | .keepInFlight => insertInFlight { x with sentAtMs := s.nowMs }
  | .awaitDurable => insertAwaiting ⟨x.entry, s.deadlineAfter⟩

def ackAwaiting (x : AwaitingDurableAck) (ack : SendAck) : OutboxM Unit := do
  removeAwaiting ack.clientMsgId
  let result ← applyAckAndPublish x.entry ack
  match result with
  | .terminal | .retryScheduled => return ()
  | .keepInFlight | .awaitDurable => insertAwaiting x

/-- An acknowledgement of an entry that is still queued: in backoff or without a slot. -/
def ackQueued (entry : PendingSendVo) (ack : SendAck) : OutboxM Unit := do
  removeBackoff entry.clientMsgId
  let result ← applyAckAndPublish entry ack
  let s ← get
  match result with
  | .terminal | .retryScheduled => return ()
  | .keepInFlight => insertInFlight ⟨entry, s.deadlineAfter, s.nowMs, false⟩
  | .awaitDurable => insertAwaiting ⟨entry, s.deadlineAfter⟩

def ackOrphan (ack : SendAck) : OutboxM Unit := do
  if (acceptedFromAck ack).isSome ∨ (errorMessageFromAck ack).isSome then
    let _ ← attempt (applyOrphanDurableAck ack)
    publish (.sendAck ack)

def handleAckReceived (ack : SendAck) : OutboxM Unit := do
  modify fun s => { s with history := .acked ack :: s.history }
  let s ← get
  match s.inFlight.find? ack.clientMsgId, s.awaitingDurable.find? ack.clientMsgId with
  | some x, _ => ackInFlight x ack
  | none, some x => ackAwaiting x ack
  | none, none =>
    match ← pendingGet ack.clientMsgId with
    | some entry => ackQueued entry ack
    | none => ackOrphan ack
  trySendNext

/-! ### Enqueue and finished attempts -/

variable (s : QueueState)

def nextEnqueueMs : ℕ := max s.nowMs (satAddU64 s.lastEnqueuedAtMs 1)

omit codes tasks in
theorem nextEnqueueMs_le : nextEnqueueMs s ≤ maxU64 :=
  max_le s.nowMs_le (min_le_right _ _)

def optimisticMessage (m : IMMessage) (enqueuedAtMs : ℕ) : IMMessage :=
  { m with
    serverId := m.clientMsgId
    localState := { sending := true, isLocal := true, sortTs := enqueuedAtMs } }

def handleEnqueue (m : IMMessage) : OutboxM Unit := do
  let s ← get
  let enqueuedAtMs := nextEnqueueMs s
  modify fun t =>
    { t with lastEnqueuedAtMs := enqueuedAtMs, lastEnqueuedAtMs_le := nextEnqueueMs_le s }
  let optimistic := optimisticMessage m enqueuedAtMs
  let entry : PendingSendVo := ⟨m.clientMsgId, m.conversationId, m, enqueuedAtMs, rfl, nextEnqueueMs_le s⟩
  match ← attempt (saveMessage optimistic) with
  | .error e => answer (.enqueue (.error e))
  | .ok () =>
    match ← attempt (pendingPush entry) with
    | .error e => answer (.enqueue (.error e))
    | .ok () =>
      let _ ← attempt (pendingListOldestExcluding [] 100)
      let _ ← attempt (updateConversationLastMessage optimistic)
      publish (.receivedBatch [optimistic])
      answer (.enqueue (.ok ()))
      trySendNext

/-- The record of an attempt that did not leave the client. -/
def unsentInFlight (entry : PendingSendVo) : InFlightSend :=
  ⟨entry, s.deadlineAfter, s.nowMs, true⟩

def handleSendAttemptFinished (entry : PendingSendVo) (retries : ℕ) (result : Except FlareError Unit) :
    OutboxM Unit := do
  match result with
  | .ok () => return ()
  | .error _ =>
    let s ← get
    if s.retryCount entry.clientMsgId ≠ retries then return ()
    match s.inFlight.find? entry.clientMsgId with
    | none => return ()
    | some x =>
      removeInFlight entry.clientMsgId
      if s.isPaused then
        insertInFlight (unsentInFlight s x.entry)
      else
        noteSendCongestion
        match decideSendAttemptFailure retries s.config.maxRetries with
        | .retry nextRetryCount =>
          setRetryCount x.entry.clientMsgId nextRetryCount
          insertInFlight (unsentInFlight s x.entry)
        | .fail reason =>
          failEntry x.entry reason
          trySendNext

/-! ### Login reset, pause and stale expiry -/

def sortDedup (ids : List String) : List String := (ids.insertionSort (· ≤ ·)).dedup

def droppedPendingReason : String := "pending queue dropped during login session reset"

def droppedAcceptedReason : String := "server accepted queue dropped during login session reset"

def pendingExpiredBeforeResume : String := "pending send expired before reconnect"

def failEntries (reason : String) (entries : List PendingSendVo) (dropped : List String) : OutboxM (List String) :=
  entries.foldlM (fun dropped entry => do
    markSendFailedAndPublish entry reason
    return dropped ++ [entry.clientMsgId]) dropped

def drainInFlight : List PendingSendVo :=
  (s.iterate s.inFlight.keys).filterMap (fun k => (s.inFlight.find? k).map InFlightSend.entry)

def drainAwaiting : List PendingSendVo :=
  (s.iterate s.awaitingDurable.keys).filterMap (fun k => (s.awaitingDurable.find? k).map AwaitingDurableAck.entry)

def resetPendingOnLogin : OutboxM (List String) := do
  bumpDispatchGeneration
  modify fun s => { s with retryBackoff := empty }
  let s ← get
  modify fun s => { s with inFlight := empty }
  let dropped ← failEntries droppedPendingReason (drainInFlight s) []
  let s ← get
  modify fun s => { s with awaitingDurable := empty }
  let dropped ← failEntries droppedAcceptedReason (drainAwaiting s) dropped
  let pendingEntries ← pendingList
  let dropped ← failEntries droppedPendingReason pendingEntries dropped
  return sortDedup dropped

def pauseQueue : QueueState :=
  if s.pausedSinceMs.isNone then { s with pausedSinceMs := some s.nowMs } else s

def expireStalePending (maxAgeMs : ℕ) : OutboxM (List String) := do
  let s ← get
  let cutoff := s.nowMs - maxAgeMs
  let entries ← pendingList
  entries.foldlM (fun expired entry => do
    if entry.enqueuedAtMs ≥ cutoff then return expired
    removeInFlight entry.clientMsgId
    removeAwaiting entry.clientMsgId
    removeBackoff entry.clientMsgId
    markSendFailedAndPublish entry pendingExpiredBeforeResume
    return expired ++ [entry.clientMsgId]) []

/-! ### Resume and recovery -/

section

variable (entries : List PendingSendVo)

def latestEnqueueMs (lastEnqueuedAtMs : ℕ) : ℕ :=
  (entries.map PendingSendVo.enqueuedAtMs).foldl max lastEnqueuedAtMs

omit codes tasks in
theorem latestEnqueueMs_le {last : ℕ} (h : last ≤ maxU64) : latestEnqueueMs entries last ≤ maxU64 := by
  induction entries generalizing last with
  | nil => exact h
  | cons e entries ih => exact ih (max_le h e.enqueuedAtMs_le)

/-- The latest enqueue time already persisted counts for the enqueue clock. -/
def notePersistedEnqueueTimes (s : QueueState) : QueueState :=
  { s with
    lastEnqueuedAtMs := latestEnqueueMs entries s.lastEnqueuedAtMs
    lastEnqueuedAtMs_le := latestEnqueueMs_le entries s.lastEnqueuedAtMs_le }

end

/-- Forget the entries of another account and tell the application. The maps of entries in
flight and of entries that wait for a durable acknowledgement are left as they are. -/
def dropCrossAccountIds (ids : List String) : OutboxM Unit :=
  ids.foldlM (fun _ clientMsgId => do
    let _ ← pendingPop clientMsgId
    clearRetryCount clientMsgId
    removeBackoff clientMsgId
    publish (.sendFailed clientMsgId reasonPendingAnotherAccount)) ()

def publishOrphans (ids : List String) : OutboxM Unit :=
  ids.foldlM (fun _ clientMsgId => publish (.sendFailed clientMsgId reasonOrphanRecovered)) ()

def recoverPendingForCurrentUser : OutboxM (List String) := do
  modify fun s => { s with stallProbeGate := .onNewConnection s.nowMs }
  let s ← get
  if isBlank s.currentUserId then return []
  let pendingEntries ← pendingList
  modify (notePersistedEnqueueTimes pendingEntries)
  let crossAccountIds ← healCrossAccountPendingMessages s.currentUserId
    (pendingEntries.map PendingSendVo.clientMsgId)
  dropCrossAccountIds crossAccountIds
  let remainingEntries ← pendingList
  let orphanIds ← healOrphanSendingMessages s.currentUserId (remainingEntries.map PendingSendVo.clientMsgId)
  publishOrphans orphanIds
  modify fun s => { s with inFlight := s.inFlight.filter (fun x => !x.sendFailed) }
  trySendNext
  return sortDedup (crossAccountIds ++ orphanIds)

variable (pausedFor : ℕ)

def postponeInFlight (x : InFlightSend) : InFlightSend :=
  { x with deadlineMs := satAddU64 x.deadlineMs pausedFor }

def postponeAwaiting (x : AwaitingDurableAck) : AwaitingDurableAck :=
  { x with deadlineMs := satAddU64 x.deadlineMs pausedFor }

omit codes tasks in
theorem postponeInFlight_clientMsgId (x : InFlightSend) :
    (postponeInFlight pausedFor x).clientMsgId = x.clientMsgId := rfl

omit codes tasks in
theorem postponeAwaiting_clientMsgId (x : AwaitingDurableAck) :
    (postponeAwaiting pausedFor x).clientMsgId = x.clientMsgId := rfl

/-- Timers stood still while paused; on a new connection everything in flight is sent again
with its retry count unchanged. -/
def thaw (resendInFlight : Bool) (s : QueueState) : QueueState :=
  let pausedFor := (s.pausedSinceMs.map (fun since => s.nowMs - since)).getD 0
  let t := { s with
    pausedSinceMs := none
    awaitingDurable := s.awaitingDurable.mapValues (postponeAwaiting pausedFor)
      (postponeAwaiting_clientMsgId pausedFor) }
  if resendInFlight then
    { t with
      dispatchGeneration := (t.dispatchGeneration + 1) % 2 ^ 64
      inFlight := empty
      resumes := t.resumes + 1 }
  else { t with
    inFlight := t.inFlight.mapValues (postponeInFlight pausedFor) (postponeInFlight_clientMsgId pausedFor) }

def resumeQueue (resendInFlight : Bool) : OutboxM (List String) := do
  modify (thaw resendInFlight)
  recoverPendingForCurrentUser

/-! ### Reconciliation with the local rows -/

/-- Drop an entry whose local row is final: its row is not written again. -/
def settleReconciled (entry : PendingSendVo) (event : SdkEvent) : OutboxM Unit := do
  let _ ← pendingPop entry.clientMsgId
  clearRetryCount entry.clientMsgId
  publish event

/-- What the application is told about an entry found final, if it is. -/
def reconciledEvent (rows : List IMMessage) (clientMsgId : String) : Option SdkEvent :=
  match reconcileInFlight (snapshotOf rows clientMsgId) clientMsgId with
  | .keepWaiting => none
  | .markFailed reason => some (.sendFailed clientMsgId reason)
  | .synthesizeAck snapshot => some (.sendAck (syntheticAck clientMsgId snapshot))

def reconcileInFlightEntry (rows : List IMMessage) (progressed : Bool) (clientMsgId : String) :
    OutboxM Bool := do
  let s ← get
  match s.inFlight.find? clientMsgId with
  | none => return progressed
  | some x =>
    removeInFlight clientMsgId
    match reconciledEvent rows x.entry.clientMsgId with
    | none =>
      insertInFlight x
      return progressed
    | some event =>
      settleReconciled x.entry event
      return true

def reconcileInFlightTerminalStates : OutboxM Bool := do
  let s ← get
  let ids := s.iterate s.inFlight.keys
  if ids.isEmpty then return false
  let rows ← getByClientMsgIds ids
  ids.foldlM (reconcileInFlightEntry rows) false

def reconcileAwaitingEntry (rows : List IMMessage) (progressed : Bool) (clientMsgId : String) :
    OutboxM Bool := do
  let s ← get
  match s.awaitingDurable.find? clientMsgId with
  | none => return progressed
  | some x =>
    removeAwaiting clientMsgId
    match reconciledEvent rows x.entry.clientMsgId with
    | none =>
      insertAwaiting x
      return progressed
    | some event =>
      settleReconciled x.entry event
      return true

def reconcileAwaitingDurableTerminalStates : OutboxM Bool := do
  let s ← get
  let ids := s.iterate s.awaitingDurable.keys
  if ids.isEmpty then return false
  let rows ← getByClientMsgIds ids
  ids.foldlM (reconcileAwaitingEntry rows) false

/-! ### Timers -/

/-- An entry whose timer ran out is sent again without asking who is connected, or failed. -/
def expireTimer (entry : PendingSendVo) : OutboxM Unit := do
  noteSendCongestion
  let s ← get
  match decideTimeoutExpiry (s.retryCount entry.clientMsgId) s.config.maxRetries with
  | .retry nextRetryCount =>
    setRetryCount entry.clientMsgId nextRetryCount
    dispatchSendAttempt entry nextRetryCount
  | .fail reason => failEntry entry reason

def checkAwaitingEntry (clientMsgId : String) : OutboxM Unit := do
  let s ← get
  match s.awaitingDurable.find? clientMsgId with
  | none => return ()
  | some x =>
    removeAwaiting clientMsgId
    if s.isDeadlineElapsed x.deadlineMs then expireTimer x.entry
    else insertAwaiting x

def checkAwaitingDurableTimeout : OutboxM Unit := do
  let s ← get
  (s.iterate s.awaitingDurable.keys).foldlM (fun _ id => checkAwaitingEntry id) ()

def checkInFlightEntry (clientMsgId : String) : OutboxM Unit := do
  let s ← get
  match s.inFlight.find? clientMsgId with
  | none => return ()
  | some x =>
    removeInFlight clientMsgId
    if s.isDeadlineElapsed x.deadlineMs then expireTimer x.entry
    else insertInFlight x

def checkInFlightTimeout : OutboxM Unit := do
  let s ← get
  (s.iterate s.inFlight.keys).foldlM (fun _ id => checkInFlightEntry id) ()

def checkTimeout : OutboxM Unit := do
  let s ← get
  if s.isPaused then
    let _ ← reconcileInFlightTerminalStates
    let _ ← reconcileAwaitingDurableTerminalStates
    return ()
  if ← reconcileInFlightTerminalStates then
    trySendNext
    return ()
  if ← reconcileAwaitingDurableTerminalStates then
    trySendNext
    return ()
  checkAwaitingDurableTimeout
  checkInFlightTimeout
  trySendNext

/-- Ask for one probe of the connection; no timer, retry or window changes. -/
def probeLinkIfSendStalled (s : QueueState) : QueueState :=
  let unanswered := (s.inFlight.items.filter (fun x => !x.sendFailed)).map InFlightSend.sentAtMs
  if s.isPaused || !s.config.hasLinkProbe || !s.stallProbeGate.shouldProbe s.nowMs unanswered then s
  else { s with
    stallProbeGate := .recordProbe s.nowMs
    probeRequests := s.probeRequests + 1 }

/-! ### Commands -/

def handleRetryBackoffElapsed (clientMsgId : String) (retries : ℕ) : OutboxM Unit := do
  let s ← get
  if (s.retryBackoff.find? clientMsgId).map Prod.snd = some retries then removeBackoff clientMsgId
  trySendNext

def handleCommand : QueueCommand → OutboxM Unit
  | .enqueue m => handleEnqueue m
  | .ackReceived ack => handleAckReceived ack
  | .sendAttemptFinished entry retries result _ => handleSendAttemptFinished entry retries result
  | .resetPendingOnLogin => do
    let result ← attempt resetPendingOnLogin
    answer (.resetPendingOnLogin result)
  | .pause => do
    modify pauseQueue
    answer .pause
  | .resume resendInFlight => do
    let result ← attempt (resumeQueue resendInFlight)
    answer (.resume result)
  | .expireStalePending maxAgeMs => do
    let result ← attempt (expireStalePending maxAgeMs)
    answer (.expireStalePending result)
  | .retryBackoffElapsed clientMsgId retries => handleRetryBackoffElapsed clientMsgId retries

end FlareIm.Outbox
