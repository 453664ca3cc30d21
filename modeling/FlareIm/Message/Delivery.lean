import FlareIm.Message.Model

/-! The delivery policy (`MessageDeliveryService`): what to do with a pending entry
that is about to be sent, after a failed attempt, after a retryable rejection, when an
acknowledgement does not come, and when the local copy of an in-flight message has
already reached a final state; and the local rows that these decisions write. Each of
the three retry decisions compares the retry count with `max_retries` in its own way. -/

namespace FlareIm.Message

variable [codes : ProtoCodes]

def reasonPendingAnotherAccount : String := "pending message belongs to another account"
def reasonMaxRetriesExceeded : String := "max retries exceeded"
def reasonTimeoutAfterRetries : String := "timeout after retries"
def reasonReconciledFailed : String := "in-flight reconciled to failed by local terminal state"
def reasonSendFailedBeforeAckMaxRetries : String := "send failed before ack; max retries exceeded"
def reasonOrphanRecovered : String := "orphan sending message reconciled during queue recovery"
def tenantUnavailableReason : String := "TENANT_UNAVAILABLE"

/-! ### Decisions -/

/-- What the queue reads of the local copy of a message. -/
structure DeliveryLocalSnapshot where
  status : ℤ
  serverId : String
  seq : ℕ
  conversationId : String
  deriving DecidableEq, Repr

variable (m : IMMessage)

def IMMessage.snapshot : DeliveryLocalSnapshot :=
  ⟨m.status, m.serverId, m.conversationSeq, m.conversationId⟩

inductive PendingDispatchDecision
  | dropAsCrossAccount (reason : String)
  | dropAsTerminal
  | failMaxRetries (reason : String)
  | sendNow
  deriving DecidableEq, Repr

inductive RetryDecision
  | retry (nextRetryCount : ℕ)
  | fail (reason : String)
  deriving DecidableEq, Repr

inductive InFlightReconcileDecision
  | keepWaiting
  | markFailed (reason : String)
  | synthesizeAck (snapshot : DeliveryLocalSnapshot)
  deriving DecidableEq, Repr

/-- The entry is not one the connected user may send. -/
def isCrossAccount (connectedUserId entrySenderId : String) : Bool :=
  connectedUserId ≠ "" && (isBlank entrySenderId || entrySenderId ≠ connectedUserId)

/-- The local copy carries a server id of its own and the server's final status. -/
def DeliveryLocalSnapshot.isFinalSuccess (l : DeliveryLocalSnapshot) (clientMsgId : String) : Bool :=
  codes.statusSent ≤ l.status && !isBlank l.serverId && l.serverId ≠ clientMsgId

def decidePendingDispatch (connectedUserId clientMsgId entrySenderId : String)
    (localSnapshot : Option DeliveryLocalSnapshot) (retries maxRetries : ℕ) :
    PendingDispatchDecision :=
  if isCrossAccount connectedUserId entrySenderId then
    .dropAsCrossAccount reasonPendingAnotherAccount
  else if localSnapshot.any (fun l => l.isFinalSuccess clientMsgId || l.status == codes.statusFailed) then
    .dropAsTerminal
  else if retries ≥ maxRetries then .failMaxRetries reasonMaxRetriesExceeded
  else .sendNow

variable (retries maxRetries : ℕ)

def decideSendAttemptFailure : RetryDecision :=
  let nextRetryCount := satAddU32 retries 1
  if nextRetryCount ≥ maxRetries then .fail reasonSendFailedBeforeAckMaxRetries
  else .retry nextRetryCount

/-- A retryable rejection draws on the same budget as a failed attempt. -/
def decideRetryableAckError : RetryDecision :=
  decideSendAttemptFailure retries maxRetries

/-- Unlike a failed attempt, an expired timer compares the count before it is raised. -/
def decideTimeoutExpiry : RetryDecision :=
  if retries ≥ maxRetries then .fail reasonTimeoutAfterRetries
  else .retry (satAddU32 retries 1)

def reconcileInFlight (localSnapshot : Option DeliveryLocalSnapshot) (clientMsgId : String) :
    InFlightReconcileDecision :=
  match localSnapshot with
  | none => .keepWaiting
  | some l =>
    if l.status = codes.statusFailed then .markFailed reasonReconciledFailed
    else if l.isFinalSuccess clientMsgId then .synthesizeAck l
    else .keepWaiting

/-! ### Local rows written by the decisions -/

def applySendAckState : IMMessage :=
  { m with
    localState := { sortTs := m.localState.sortTs }
    status := codes.statusSent
    isRead := false }

def markFailed : IMMessage :=
  { m with
    serverId := m.clientMsgId
    localState := { failed := true, isLocal := true, sortTs := m.localState.sortTs }
    status := codes.statusFailed }

variable (ack : SendAck)

def acceptedFromAck : Option SendAccepted :=
  match ack.result with
  | some (.accepted a) => some a
  | _ => none

/-- Only a persisted acceptance is final. -/
def durableAcceptedFromAck : Option SendAccepted :=
  (acceptedFromAck ack).filter (fun a => a.durability = .persisted)

def markSentFromAck : IMMessage :=
  match durableAcceptedFromAck ack with
  | none => m
  | some a =>
    let time := if a.serverTime > 0 then some a.serverTime.toNat else none
    applySendAckState
      { m with
        serverId := if a.serverMsgId = "" then m.serverId else a.serverMsgId
        conversationSeq := a.conversationSeq
        createdAt := time.getD m.createdAt
        clientCreatedAt := time.getD m.clientCreatedAt }

def sanitizeSendAckMessage : IMMessage := applySendAckState m

def isRetryableAckError : Bool :=
  match ack.result with
  | some (.error e) =>
    !(containsText e.reason tenantUnavailableReason || containsText e.message tenantUnavailableReason) &&
      (e.code == codes.errorUnavailable || e.code == codes.errorTimeout ||
        e.code == codes.errorRateLimited || e.code == codes.errorSlowDown ||
        e.code == codes.errorNeedsRetry)
  | _ => false

def errorMessageFromAck : Option String :=
  match ack.result with
  | some (.error e) => some (if isBlank e.message then toString e.code else e.message)
  | _ => none

def syntheticAck (clientMsgId : String) (snapshot : DeliveryLocalSnapshot) : SendAck :=
  { clientMsgId := clientMsgId
    conversationId := snapshot.conversationId
    result := some (.accepted
      { serverMsgId := snapshot.serverId
        conversationSeq := snapshot.seq
        serverTime := 0
        durability := .persisted }) }

/-! ### Messages coming in -/

inductive IncomingMessageConvergenceDecision
  | emitReceived
  | mergePendingAndAck
  | dropDuplicate
  deriving DecidableEq, Repr

/-- A message that the server has numbered is sent, whatever its wire status says. -/
def normalizeIncomingServerState : IMMessage :=
  if !isBlank m.serverId ∧ 0 < m.conversationSeq ∧ m.status ≤ codes.statusCreated then
    { m with status := codes.statusSent }
  else m

def decideIncomingMessageConvergence (currentUserId : String) (incoming : IMMessage)
    (localByClient localByServer : Option IMMessage) : IncomingMessageConvergenceDecision :=
  if localByServer.isSome then .dropDuplicate
  else if currentUserId = "" ∨ isBlank incoming.clientMsgId ∨ isBlank incoming.senderId ∨
      incoming.senderId ≠ currentUserId then .emitReceived
  else match localByClient with
    | none => .emitReceived
    | some l =>
      if l.serverId = l.clientMsgId ∨ l.localState.isLocal ∨ l.localState.sending ∨
          l.status < codes.statusSent then .mergePendingAndAck
      else .emitReceived

def mergeIncomingAsSent (localMessage : Option IMMessage) (incoming : IMMessage) : IMMessage :=
  applySendAckState
    { incoming with
      localState :=
        { sortTs := match localMessage with
            | some l => l.localState.sortTs
            | none => max incoming.localState.sortTs incoming.createdAt } }

def syntheticAckFromIncoming (incoming : IMMessage) : SendAck :=
  { clientMsgId := incoming.clientMsgId
    conversationId := incoming.conversationId
    result := some (.accepted
      { serverMsgId := incoming.serverId
        conversationSeq := incoming.conversationSeq
        serverTime := incoming.createdAt
        durability := .persisted }) }

/-! ### Facts about the decisions -/

variable {l : Option DeliveryLocalSnapshot} {cid sender user : String} {maxRetries next retries : ℕ}

/-- The message is sent only for its own account, and only within the retry budget. -/
theorem decidePendingDispatch_sendNow
    (h : decidePendingDispatch user cid sender l retries maxRetries = .sendNow) :
    isCrossAccount user sender = false ∧ retries < maxRetries := by
  unfold decidePendingDispatch at h
  split at h
  · cases h
  · rename_i hcross
    split at h
    · cases h
    · split at h
      · cases h
      · exact ⟨by simpa using hcross, by omega⟩

omit codes in
theorem isCrossAccount_eq_false_iff (user sender : String) :
    isCrossAccount user sender = false ↔ user = "" ∨ (isBlank sender = false ∧ sender = user) := by
  by_cases hu : user = "" <;> simp [isCrossAccount, hu]

omit codes in
theorem decideSendAttemptFailure_retry
    (h : decideSendAttemptFailure retries maxRetries = .retry next) :
    next = satAddU32 retries 1 ∧ next < maxRetries := by
  unfold decideSendAttemptFailure at h
  dsimp only at h
  split at h
  · cases h
  · cases h
    exact ⟨rfl, by omega⟩

omit codes in
theorem decideTimeoutExpiry_retry
    (h : decideTimeoutExpiry retries maxRetries = .retry next) :
    next = satAddU32 retries 1 ∧ retries < maxRetries := by
  unfold decideTimeoutExpiry at h
  split at h
  · cases h
  · cases h
    exact ⟨rfl, by omega⟩

variable (m : IMMessage)

@[simp] theorem markFailed_clientMsgId : (markFailed m).clientMsgId = m.clientMsgId :=
  rfl

@[simp] theorem applySendAckState_clientMsgId : (applySendAckState m).clientMsgId = m.clientMsgId := rfl

@[simp] theorem normalizeIncomingServerState_serverId : (normalizeIncomingServerState m).serverId = m.serverId := by
  unfold normalizeIncomingServerState
  split <;> rfl

@[simp] theorem normalizeIncomingServerState_clientMsgId :
    (normalizeIncomingServerState m).clientMsgId = m.clientMsgId := by
  unfold normalizeIncomingServerState
  split <;> rfl

/-- Duplicates are told by the server id alone. -/
theorem decideIncomingMessageConvergence_eq_dropDuplicate {m : IMMessage}
    {localByClient localByServer : Option IMMessage} :
    decideIncomingMessageConvergence user m localByClient localByServer = .dropDuplicate ↔
    localByServer.isSome := by
  unfold decideIncomingMessageConvergence
  split
  · next hsome => exact iff_of_true rfl hsome
  · next hnone =>
    refine iff_of_false ?_ hnone
    repeat' split
    all_goals simp

theorem decideIncomingMessageConvergence_of_none (user : String) (m : IMMessage) :
    decideIncomingMessageConvergence user m none none = .emitReceived := by
  unfold decideIncomingMessageConvergence
  rw [if_neg (by simp)]
  split <;> rfl

theorem markSentFromAck_clientMsgId (ack : SendAck) : (markSentFromAck m ack).clientMsgId = m.clientMsgId := by
  unfold markSentFromAck
  split <;> rfl

end FlareIm.Message
