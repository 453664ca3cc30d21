import Mathlib.Data.String.Basic
import FlareIm.Outbox.State

/-! The handlers of the reliable send queue, one definition per function of the actor.
Store calls go through `storeCall`, which fails without effect when the failure script
says so; a call whose error the source ignores or only logs is wrapped in `attempt`.
While the actor waits for a store, other tasks may run.
Maps are iterated over a list of their keys taken before the loop, as in the source. -/

namespace FlareIm.Outbox

open Lib Message Store Prog

variable [codes : ProtoCodes] {α : Type}

abbrev OutboxM := Prog QueueState FlareError

/-! ### Store calls -/

/-- What the other tasks do to the state while the actor waits. -/
class Tasks where
  meanwhile : QueueState → QueueState

/-- A handler that no other task interrupts. -/
instance alone : Tasks := ⟨id⟩

def callStore (f : QueueState → α × QueueState) (s : QueueState) : Except FlareError α × QueueState :=
  match s.faults with
  | [] => (.ok (f s).1, (f s).2)
  | none :: rest => (.ok (f { s with faults := rest }).1, (f { s with faults := rest }).2)
  | some e :: rest => (.error e, { s with faults := rest })

variable [tasks : Tasks]

/-- The actor waits for the store, and other tasks may run before and after the call. -/
def storeCall (f : QueueState → α × QueueState) : OutboxM α := ⟨fun s =>
  ((callStore f (tasks.meanwhile s)).1, tasks.meanwhile (callStore f (tasks.meanwhile s)).2)⟩

variable (clientMsgId : String)

def pendingGet : OutboxM (Option PendingSendVo) :=
  storeCall fun s => (s.pending.get clientMsgId, s)

def pendingList : OutboxM (List PendingSendVo) := storeCall fun s => (s.pending.list, s)

def pendingListOldestExcluding (excluded : List String) (limit : ℕ) : OutboxM (List PendingSendVo) :=
  storeCall fun s => (s.pending.listOldestExcluding excluded limit, s)

variable (entry : PendingSendVo)

def pendingPush : OutboxM Unit := storeCall fun s =>
  ((), { s with pending := s.pending.push entry, history := .pushed entry :: s.history })

def pendingPop : OutboxM (Option PendingSendVo) := storeCall fun s =>
  (s.pending.get clientMsgId,
    { s with pending := s.pending.pop clientMsgId, history := .popped clientMsgId :: s.history })

variable (m : IMMessage)

/-- `save_batch(&[message])`. -/
def saveMessage : OutboxM Unit := storeCall fun s =>
  ((), { s with messages := s.messages.saveBatch s.nowMs [m] })

def updateAfterAck : OutboxM Unit := storeCall fun s =>
  ((), { s with messages := s.messages.updateAfterAck s.nowMs clientMsgId m })

def getByClientMsgId : OutboxM (Option IMMessage) :=
  storeCall fun s => (s.messages.getByClientMsgId clientMsgId, s)

def getByClientMsgIds (clientMsgIds : List String) : OutboxM (List IMMessage) :=
  storeCall fun s => (s.messages.getByClientMsgIds clientMsgIds, s)

def healOrphanSendingMessages (userId : String) (pendingIds : List String) : OutboxM (List String) :=
  storeCall fun s =>
    let ids := s.messages.orphanSendingIds userId pendingIds
    (ids, { s with messages := s.messages.failAll s.nowMs ids })

/-- Marks the rows failed and deletes the pending entries in one transaction. -/
def healCrossAccountPendingMessages (userId : String) (pendingIds : List String) : OutboxM (List String) :=
  if pendingIds.isEmpty then pure []
  else storeCall fun s =>
    let ids := s.messages.crossAccountIds userId pendingIds
    (ids, { s with
      messages := s.messages.failAll s.nowMs ids
      pending := s.pending.deleteAll ids
      history := ids.map Action.popped ++ s.history })

def conversationProjectionTs : ℕ :=
  if m.conversationSeq > 0 ∧ m.createdAt > 0 then m.createdAt
  else if m.conversationSeq > 0 ∧ m.clientCreatedAt > 0 then m.clientCreatedAt
  else m.timelineSortTs

/-- The arguments of `update_last_message` for a message. -/
def lastMessageUpdate : LastMessageUpdate where
  conversationId := trim m.conversationId
  lastMessageId := if isBlank m.serverId then trim m.clientMsgId else trim m.serverId
  senderId := m.senderId
  timestamp := conversationProjectionTs m
  preview := m.textForStorage
  conversationSeq := m.conversationSeq

def updateConversationLastMessage : OutboxM Unit :=
  let update := lastMessageUpdate m
  if update.conversationId = "" ∨ update.lastMessageId = "" then pure ()
  else storeCall fun s => ((), { s with lastMessageUpdates := update :: s.lastMessageUpdates })

/-! ### Small state changes -/

def publish (e : SdkEvent) : OutboxM Unit := modify fun s => { s with bus := e :: s.bus }

def answer (a : Answer) : OutboxM Unit := modify fun s => { s with answers := a :: s.answers }

def clearRetryCount : OutboxM Unit := modify fun s =>
  { s with retryCount := Function.update s.retryCount clientMsgId 0 }

def setRetryCount (retries : ℕ) : OutboxM Unit := modify fun s =>
  { s with retryCount := Function.update s.retryCount clientMsgId retries }

def noteSendSuccess : OutboxM Unit := modify fun s =>
  { s with adaptiveWindow := s.adaptiveWindow.noteSuccess }

def noteSendCongestion : OutboxM Unit := modify fun s =>
  { s with adaptiveWindow := s.adaptiveWindow.noteCongestion }

def removeInFlight : OutboxM Unit := modify fun s =>
  { s with inFlight := s.inFlight.erase clientMsgId }

def insertInFlight (x : InFlightSend) : OutboxM Unit := modify fun s =>
  { s with inFlight := s.inFlight.insert x }

def removeAwaiting : OutboxM Unit := modify fun s =>
  { s with awaitingDurable := s.awaitingDurable.erase clientMsgId }

def insertAwaiting (x : AwaitingDurableAck) : OutboxM Unit := modify fun s =>
  { s with awaitingDurable := s.awaitingDurable.insert x }

def removeBackoff : OutboxM Unit := modify fun s =>
  { s with retryBackoff := s.retryBackoff.erase clientMsgId }

def noteWriterFull (s : QueueState) : QueueState :=
  if s.nowMs - s.writerFullWarnedAtMs ≥ writerFullWarnIntervalMs then
    { s with writerFullWarnedAtMs := s.nowMs }
  else s

def bumpDispatchGeneration : OutboxM Unit := modify fun s =>
  { s with dispatchGeneration := (s.dispatchGeneration + 1) % 2 ^ 64 }

/-- Put the entry in flight and hand the attempt to the writer unless its queue is full. -/
def dispatchSendAttempt (retries : ℕ) : OutboxM Unit := modify fun s =>
  let job : SendJob := ⟨entry, retries, s.dispatchGeneration, s.resumes⟩
  let t := { s with inFlight := s.inFlight.insert ⟨entry, s.deadlineAfter, s.nowMs, false⟩ }
  if s.writerCapacity = 0 then noteWriterFull t
  else { t with
    writerJobs := t.writerJobs ++ [job]
    history := .handed job s.currentUserId :: t.history }

/-! ### Failing an entry -/

def markSendFailedAndPublish (reason : String) : OutboxM Unit := do
  let _ ← pendingPop entry.clientMsgId
  clearRetryCount entry.clientMsgId
  saveMessage (markFailed entry.message)
  publish (.sendFailed entry.clientMsgId reason)

/-- The failing branch that the attempt, timeout and dispatch handlers share: the errors of
the two store calls are ignored. -/
def failEntry (reason : String) : OutboxM Unit := do
  let _ ← attempt (pendingPop entry.clientMsgId)
  clearRetryCount entry.clientMsgId
  let _ ← attempt (saveMessage (markFailed entry.message))
  publish (.sendFailed entry.clientMsgId reason)

/-! ### The dispatch loop -/

def snapshotOf (rows : List IMMessage) (clientMsgId : String) : Option DeliveryLocalSnapshot :=
  (rows.find? (fun r => r.clientMsgId = clientMsgId)).map IMMessage.snapshot

/-- The `for entry in entries` loop of one round. `none` when the round ends the whole
dispatch, otherwise whether it made progress. -/
def dispatchEntries (connectedUserId : String) (rows : List IMMessage) :
    List PendingSendVo → Bool → OutboxM (Option Bool)
  | [], madeProgress => pure (some madeProgress)
  | entry :: entries, _ => do
    let s ← get
    if s.inFlight.size ≥ s.adaptiveWindow.current then return none
    let retries := s.retryCount entry.clientMsgId
    match decidePendingDispatch connectedUserId entry.clientMsgId entry.message.senderId
        (snapshotOf rows entry.clientMsgId) retries s.config.maxRetries with
    | .dropAsCrossAccount reason =>
      failEntry entry reason
      dispatchEntries connectedUserId rows entries true
    | .dropAsTerminal =>
      let _ ← attempt (pendingPop entry.clientMsgId)
      clearRetryCount entry.clientMsgId
      dispatchEntries connectedUserId rows entries true
    | .failMaxRetries reason =>
      failEntry entry reason
      dispatchEntries connectedUserId rows entries true
    | .sendNow =>
      if s.writerCapacity = 0 then
        modify noteWriterFull
        return none
      dispatchSendAttempt entry retries
      dispatchEntries connectedUserId rows entries true

def excludedIds (s : QueueState) : List String :=
  s.iterate s.inFlight.keys ++ s.iterate s.awaitingDurable.keys ++ s.iterate s.retryBackoff.keys

/-- The rows of the picked entries; a failed read counts as no rows. -/
def loadLocalRows (ids : List String) : OutboxM (List IMMessage) := do
  match ← attempt (getByClientMsgIds ids) with
  | .ok rows => return rows
  | .error _ => return []

/-- What one round does with the entries it has picked; `next` are the rounds after it. -/
def trySendRound (next : OutboxM Unit) (entries : List PendingSendVo) : OutboxM Unit := do
  let connectedUserId := (← get).currentUserId
  let rows ← loadLocalRows (entries.map PendingSendVo.clientMsgId)
  match ← dispatchEntries connectedUserId rows entries false with
  | some true => next
  | _ => return ()

/-- The `loop` of `try_send_next`, for at most `fuel` rounds. -/
def trySendLoop : ℕ → OutboxM Unit
  | 0 => pure ()
  | fuel + 1 => do
    let s ← get
    let available := s.adaptiveWindow.current - s.inFlight.size
    if available = 0 then return ()
    let entries ← pendingListOldestExcluding (excludedIds s) available
    if entries.isEmpty then return ()
    trySendRound (trySendLoop fuel) entries

/-- Every round that goes on removes a candidate or uses up a scripted failure. -/
def dispatchRounds (s : QueueState) : ℕ := s.pending.byId.size + s.faults.length + 1

def trySendNext : OutboxM Unit := do
  let s ← get
  if s.isPaused then return ()
  trySendLoop (dispatchRounds s)

/-! ### What the dispatch loop keeps -/

/-- The relation allows what happens in a call of a store. -/
structure AllowsCalls (R : QueueState → QueueState → Prop) : Prop where
  meanwhile : ∀ s, R s (tasks.meanwhile s)
  faults : ∀ (s : QueueState) faults, R s { s with faults := faults }
  stores : ∀ (s : QueueState) pending messages acts,
    (∀ job user, .handed job user ∉ acts) →
    R s { s with pending := pending, messages := messages, history := acts ++ s.history }

/-- The relation allows what failing an entry changes. -/
structure AllowsFailing (R : QueueState → QueueState → Prop) : Prop extends AllowsCalls R where
  counts : ∀ (s : QueueState) retryCount, R s { s with retryCount := retryCount }
  bus : ∀ (s : QueueState) e, R s { s with bus := e :: s.bus }

/-- The relation allows what the dispatch loop does for `user`. -/
structure AllowsDispatch (R : QueueState → QueueState → Prop) (user : String) : Prop extends AllowsFailing R where
  writerFull : ∀ s, R s (noteWriterFull s)
  send : ∀ (s : QueueState) e retries, s.inFlight.size < s.adaptiveWindow.current →
    isCrossAccount user e.message.senderId = false → R s ((dispatchSendAttempt e retries).run s).2

section Keeps

variable {R : QueueState → QueueState → Prop} [IsTrans QueueState R]

namespace AllowsCalls

variable (h : AllowsCalls R)

include h

omit codes in
theorem storeCall {f : QueueState → α × QueueState} (hf : ∀ s, R s (f s).2) : Within R (storeCall f) := by
  intro s
  refine trans_of R (h.meanwhile s) (trans_of R (show R _ (callStore f _).2 from ?_) (h.meanwhile _))
  unfold callStore
  split
  · exact hf _
  · exact trans_of R (h.faults _ _) (hf _)
  · exact h.faults _ _

omit codes in
theorem pendingPop (clientMsgId : String) : Within R (pendingPop clientMsgId) :=
  h.storeCall fun s => h.stores s _ s.messages [.popped clientMsgId] (by simp)

omit codes in
theorem saveMessage (m : IMMessage) : Within R (saveMessage m) :=
  h.storeCall fun s => h.stores s s.pending _ [] (by simp)

theorem failEntry (entry : PendingSendVo) (reason : String) (hcount : Within R (clearRetryCount entry.clientMsgId))
    (hbus : ∀ e, Within R (publish e)) : Within R (failEntry entry reason) :=
  .bind (.attempt (h.pendingPop _)) fun _ => .bind hcount fun _ =>
    .bind (.attempt (h.saveMessage _)) fun _ => hbus _

end AllowsCalls

theorem AllowsFailing.failEntry (h : AllowsFailing R) (entry : PendingSendVo) (reason : String) :
    Within R (failEntry entry reason) :=
  h.toAllowsCalls.failEntry entry reason (.modify fun s => h.counts s _) fun _ => .modify fun s => h.bus s _

variable [Std.Refl R]

theorem AllowsDispatch.dispatchEntries {user : String} (h : AllowsDispatch R user) (rows : List IMMessage) :
    ∀ (entries : List PendingSendVo) (progress : Bool), Within R (dispatchEntries user rows entries progress)
  | [], _ => .pure _
  | e :: entries, _ => by
    have next := h.dispatchEntries rows entries true
    have hfail (reason : String) := Within.bind (h.failEntry e reason) fun _ => next
    intro s
    rw [Outbox.dispatchEntries, get_bind]
    split
    · exact refl_of R s
    · rename_i hroom
      dsimp only
      split
      · exact hfail _ s
      · exact Within.bind (.attempt (h.pendingPop _))
          (fun _ => .bind (.modify fun s => h.counts s _) fun _ => next) s
      · exact hfail _ s
      · rename_i hdecide
        split
        · exact h.writerFull s
        · exact trans_of R (h.send s e _ (not_le.mp hroom) (decidePendingDispatch_sendNow hdecide).1) (next _)

theorem AllowsDispatch.trySendRound {s : QueueState} (h : AllowsDispatch R s.currentUserId) {next : OutboxM Unit}
    (hnext : Within R next) (entries : List PendingSendVo) : R s ((trySendRound next entries).run s).2 := by
  rw [Outbox.trySendRound, get_bind]
  refine Within.bind ?_ (fun rows => .bind (h.dispatchEntries rows entries false) fun progress => ?_) s
  · refine .bind (.attempt (h.storeCall fun s => refl_of R s)) fun result => ?_
    cases result <;> exact .pure _
  · split
    · exact hnext
    · exact .pure _

/-- What every round allows, the whole loop allows. -/
theorem trySendLoop_within (hcalls : AllowsCalls R) (h : ∀ {next}, Within R next → ∀ entries,
    Within R (trySendRound next entries)) : ∀ fuel, Within R (trySendLoop fuel)
  | 0 => .pure _
  | fuel + 1 => by
    refine .get_bind fun s => ?_
    dsimp only
    split
    · exact .pure _
    refine .bind (hcalls.storeCall fun s => refl_of R s) fun entries => ?_
    split
    · exact .pure _
    · exact h (trySendLoop_within hcalls h fuel) entries

theorem trySendNext_within (h : ∀ user, AllowsDispatch R user) : Within R trySendNext := by
  refine .get_bind fun s => ?_
  split
  · exact .pure _
  · exact trySendLoop_within (h "").toAllowsCalls (fun hnext entries s => (h _).trySendRound hnext entries) _

end Keeps

end FlareIm.Outbox
