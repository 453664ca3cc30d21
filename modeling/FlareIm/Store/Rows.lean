import FlareIm.Store.Attributes
import FlareIm.Store.Messages

/-! The message table with what operation events write: content, flags, retention and the
attribute map of a row, and the reactions kept in a table of their own. `Store.Messages` is
this table without those columns; saving a batch here is saving it there, row by row, with
the attributes of a stored row merged into the saved one. Every event operation addresses
its target by `server_id` or `client_msg_id`, so it can meet several rows. -/

namespace FlareIm.Store

open Lib Message List KeyedMap MessageTable

/-! ### Rows -/

abbrev Content := List UInt8

inductive ContentVisibility
  | visible
  | hidden
  | redacted
  | purged
  | unspecified
  deriving DecidableEq, Repr

structure MessageRetentionPolicy where
  bytes : List UInt8
  deriving DecidableEq, Repr

structure MessageRetentionState where
  contentVisibility : ContentVisibility
  bytes : List UInt8 := []
  deriving DecidableEq, Repr

structure MessageRow extends IMMessage where
  encodedContent : Content := []
  isRecalled : Bool := false
  isEdited : Bool := false
  retentionPolicy : Option MessageRetentionPolicy := none
  retentionState : Option MessageRetentionState := none
  attributes : Attributes := ∅
  deriving DecidableEq

structure ReactionEntry where
  emoji : String
  userIds : List String
  count : ℕ
  deriving DecidableEq, Repr

/-- A message on its way into the table: its row, and the reactions it carries. -/
structure InboundMessage extends MessageRow where
  reactions : List ReactionEntry := []
  deriving DecidableEq

structure ReactionRow where
  messageServerId : String
  conversationId : String
  emoji : String
  userId : String
  createdAt : ℕ
  updatedAt : ℕ
  deriving DecidableEq, Repr

/-- The primary key of `message_reactions`. -/
def ReactionRow.key (r : ReactionRow) : String × String × String := (r.messageServerId, r.emoji, r.userId)

/-- The codes of the wire schema that event operations use, and the text of a reaction list. -/
class RowCodes extends ProtoCodes where
  statusRecalled : ℤ
  statusPersisted : ℤ
  reactionAdd : ℤ
  reactionRemove : ℤ
  reactionsJson : List ReactionEntry → String

structure RowTable where
  rows : KeyedMap String MessageRow (fun r => r.serverId)
  reactions : KeyedMap (String × String × String) ReactionRow ReactionRow.key
  clearedFloor : String → ℕ

inductive ApplyResult
  | applied
  | ignoredStale
  | notFound
  deriving DecidableEq, Repr

namespace RowTable

def empty : RowTable := { rows := .empty, reactions := .empty, clearedFloor := fun _ => 0 }

/-- The table without the columns of event operations. -/
def base (t : RowTable) : MessageTable :=
  ⟨t.rows.mapTo MessageRow.toIMMessage (fun _ => rfl), t.clearedFloor⟩

/-- `WHERE server_id = ? OR client_msg_id = ?`. -/
def answersTo (id : String) (r : MessageRow) : Bool := r.serverId = id || r.clientMsgId = id

section

variable (t : RowTable)

/-- `get`: by primary key only. -/
def get (id : String) : Option MessageRow := t.rows.find? id

/-- `SELECT ... LIMIT 1`. -/
def firstAnswering (id : String) : Option MessageRow := t.rows.items.find? (answersTo id)

/-- `UPDATE messages SET ... WHERE`; the primary key is never among the columns set. -/
def updateWhere (p : MessageRow → Bool) (f : MessageRow → MessageRow)
    (hf : ∀ r, (f r).serverId = r.serverId) : RowTable :=
  { t with
    rows := t.rows.mapValues (fun r => if p r then f r else r) fun r => by
      split
      · exact hf r
      · rfl }

def deleteRows (p : MessageRow → Bool) : RowTable :=
  { t with rows := t.rows.filter (fun r => !p r) }

def deleteReactions (p : ReactionRow → Bool) : RowTable :=
  { t with reactions := t.reactions.filter (fun r => !p r) }

/-- `INSERT OR REPLACE INTO message_reactions`. -/
def insertReaction (r : ReactionRow) : RowTable :=
  { t with reactions := t.reactions.insert r }

end

/-! ### Saving -/

def chunks {α : Type} (size : ℕ) (xs : List α) : List (List α) :=
  (List.range ((xs.length + (size - 1)) / size)).map fun i => (xs.drop (i * size)).take size

def messageSaveBatchInsertChunkSize : ℕ := 20

def isPersistable (t : RowTable) (m : InboundMessage) : Bool := t.base.isPersistable m.toIMMessage

def removeConflictingLocalClientMsgRows (t : RowTable) (clientMsgId targetServerId : String) : RowTable :=
  if isBlank clientMsgId || isBlank targetServerId then t
  else t.deleteRows (fun r => r.clientMsgId = trim clientMsgId && r.serverId ≠ trim targetServerId &&
    isLocalSending r.toIMMessage)

/-- Queue a row of a batch; it replaces a queued row with the same non-blank server id. -/
def queueRow (rows : List InboundMessage) (m : InboundMessage) : List InboundMessage :=
  (if isBlank m.serverId then rows else rows.filter (fun r => trim r.serverId ≠ trim m.serverId)) ++ [m]

/-- The row whose attributes a saved message is merged with. -/
def existingRow (t : RowTable) (m : InboundMessage) : Option MessageRow :=
  let serverId := trim m.serverId
  let clientMsgId := trim m.clientMsgId
  if !isBlank m.serverId && !isBlank m.clientMsgId then
    t.rows.items.find? (fun r => r.serverId = serverId || r.clientMsgId = clientMsgId)
  else if !isBlank m.serverId then t.rows.items.find? (fun r => r.serverId = serverId)
  else if !isBlank m.clientMsgId then t.rows.items.find? (fun r => r.clientMsgId = clientMsgId)
  else none

/-- The row a message is stored as at `now`. -/
def storedRow (t : RowTable) (now : ℕ) (m : InboundMessage) : MessageRow :=
  { m.toMessageRow with
    toIMMessage := persisted now m.toIMMessage
    attributes := match t.existingRow m with
      | some existing => mergeMessageEventAttributes m.attributes existing.attributes
      | none => m.attributes }

/-- The attributes of a chunk are merged before any of its rows is written. -/
def insertMessageRows (t : RowTable) (now : ℕ) (chunk : List InboundMessage) : RowTable :=
  { t with rows := (chunk.map (t.storedRow now)).foldl insert t.rows }

def carriesReactionSnapshot (m : InboundMessage) : Bool :=
  m.serverId ≠ "" && (m.attributes.contains "reactionsJson" || !m.reactions.isEmpty)

def snapshotReactions (now : ℕ) (m : InboundMessage) : List ReactionRow :=
  (m.reactions.filter (fun entry => !isBlank entry.emoji)).flatMap fun entry =>
    (entry.userIds.filter (fun userId => !isBlank userId)).map fun userId =>
      ⟨m.serverId, m.conversationId, entry.emoji, userId, now, now⟩

def replaceReactionSnapshotRows (t : RowTable) (now : ℕ) (chunk : List InboundMessage) : RowTable :=
  let snapshots := chunk.filter carriesReactionSnapshot
  let cleared := t.deleteReactions (fun r => r.messageServerId ∈ snapshots.map (·.serverId))
  (snapshots.flatMap (snapshotReactions now)).foldl insertReaction cleared

def saveChunk (now : ℕ) (t : RowTable) (chunk : List InboundMessage) : RowTable :=
  (t.insertMessageRows now chunk).replaceReactionSnapshotRows now chunk

def saveBatch (t : RowTable) (now : ℕ) (messages : List InboundMessage) : RowTable :=
  let persistable := messages.filter t.isPersistable
  let cleaned := persistable.foldl (fun u m => u.removeConflictingLocalClientMsgRows m.clientMsgId m.serverId) t
  (chunks messageSaveBatchInsertChunkSize (persistable.foldl queueRow [])).foldl (saveChunk now) cleaned

/-! ### Event operations -/

/-- The number of an event that takes part in the ordering of its kind. -/
def isStaleOperation (attributes : Attributes) (seqKey : String) (eventSeq : Option ℕ) : Bool :=
  match eventSeq.filter (0 < ·) with
  | none => false
  | some seq =>
    let current := messageAttributeSeq attributes seqKey
    current > 0 && seq ≤ current

/-- What an edit leaves in the attributes. -/
def editedAttributes (attributes : Attributes) (now : ℕ) (eventSeq : Option ℕ) : Attributes :=
  let attributes := match eventSeq with
    | some seq => attributes.insert "lastEditEventSeq" (toString seq)
    | none => attributes
  let version := (attributes["currentEditVersion"]?.bind parseI32).getD 0
  ((attributes.insert "currentEditVersion" (toString (version + 1))).insert "messageFsmState"
    "EDITED").insert "lastEditedAt" (toString now)

def editedRow (content : Content) (now : ℕ) (attributes : Attributes) (r : MessageRow) : MessageRow :=
  { r with encodedContent := content, isEdited := true, updatedAt := now, attributes := attributes }

def applyEditEvent (t : RowTable) (now : ℕ) (id : String) (newContent : Content)
    (eventSeq : Option ℕ) : ApplyResult × RowTable :=
  match t.firstAnswering id with
  | none => (.notFound, t)
  | some row =>
    if eventSeq.any (· ≤ messageAttributeSeq row.attributes "lastEditEventSeq") then (.ignoredStale, t)
    else (.applied, t.updateWhere (answersTo id)
      (editedRow newContent now (editedAttributes row.attributes now eventSeq)) fun _ => rfl)

/-- Change the attributes of every answering row for which the event is not out of date. -/
def applyMessageExtraWithSeq (t : RowTable) (id seqKey : String) (eventSeq : Option ℕ)
    (apply : Attributes → Attributes) : ApplyResult × RowTable :=
  let isFresh := fun r : MessageRow => !isStaleOperation r.attributes seqKey eventSeq
  let numbered := fun attributes : Attributes => match eventSeq.filter (0 < ·) with
    | some seq => attributes.insert seqKey (toString seq)
    | none => attributes
  let answering := t.rows.items.filter (answersTo id)
  if answering.isEmpty then (.notFound, t)
  else
    (if answering.any isFresh then .applied else .ignoredStale, t.updateWhere (fun r => answersTo id r && isFresh r)
        (fun r => { r with attributes := apply (numbered r.attributes) }) fun _ => rfl)

def applyPinEvent (t : RowTable) (id : String) (enabled : Bool) (eventSeq : Option ℕ) : ApplyResult × RowTable :=
  t.applyMessageExtraWithSeq id "lastPinEventSeq" eventSeq fun attributes =>
    attributes.insert "pinned" (if enabled then "true" else "false")

def applyMarkEvent (t : RowTable) (id : String) (markType : ℤ) (color : Option String) (setMark : Bool)
    (eventSeq : Option ℕ) : ApplyResult × RowTable :=
  t.applyMessageExtraWithSeq id ("lastMarkEventSeq:" ++ toString markType) eventSeq fun attributes =>
    if setMark then
      let attributes := attributes.insert "markType" (toString markType)
      match color with
      | some c => if isBlank c then attributes.erase "markColor" else attributes.insert "markColor" (trim c)
      | none => attributes.erase "markColor"
    else (attributes.erase "markType").erase "markColor"

/-- The reactions of a message by emoji, users and emojis in order. -/
def groupReactions (entries : List (String × String)) : List ReactionEntry :=
  let named := (entries.filter (fun e => !isBlank e.1 && !isBlank e.2)).map (fun e => (trim e.1, trim e.2))
  ((named.map Prod.fst).insertionSort (· ≤ ·)).dedup.map fun emoji =>
    let userIds := (((named.filter (fun e => e.1 = emoji)).map Prod.snd).insertionSort (· ≤ ·)).dedup
    ⟨emoji, userIds, userIds.length⟩

def refreshReactionsJsonSnapshot [codes : RowCodes] (t : RowTable) (id : String) : RowTable :=
  if isBlank id then t
  else match t.firstAnswering (trim id) with
    | none => t
    | some row =>
      if isBlank row.serverId then t
      else
        let stored := t.reactions.items.filter (fun r => r.messageServerId = trim row.serverId)
        let reactions := groupReactions
          ((stored.insertionSort (fun a b => a.updatedAt ≤ b.updatedAt)).map fun r => (r.emoji, r.userId))
        let attributes := if reactions.isEmpty then row.attributes.erase "reactionsJson"
          else row.attributes.insert "reactionsJson" (codes.reactionsJson reactions)
        t.updateWhere (fun r => r.serverId = row.serverId)
        (fun r => { r with attributes := attributes }) fun _ => rfl

@[simp] theorem reactions_refresh [RowCodes] (t : RowTable) (id : String) :
    (t.refreshReactionsJsonSnapshot id).reactions = t.reactions := by
  unfold refreshReactionsJsonSnapshot
  split
  · rfl
  · split
    · rfl
    · split <;> rfl

/-- A missing message does not stop a reaction: it is stored under the message's id. -/
def applyReactionEvent [codes : RowCodes] (t : RowTable) (now : ℕ) (conversationId id userId emoji : String)
    (action : ℤ) (eventSeq : Option ℕ) : ApplyResult × RowTable :=
  if id = "" ∨ userId = "" ∨ emoji = "" then (.notFound, t)
  else if action ≠ codes.reactionAdd ∧ action ≠ codes.reactionRemove then (.notFound, t)
  else
    let (result, marked) := t.applyMessageExtraWithSeq id
      ("lastReactionEventSeq:" ++ userId ++ ":" ++ emoji) eventSeq fun attributes => attributes
    if result = .ignoredStale then (.ignoredStale, marked)
    else if action = codes.reactionRemove then
      let removed := marked.deleteReactions (fun r => r.key = (id, emoji, userId))
      (.applied, removed.refreshReactionsJsonSnapshot id)
    else
      let added := marked.insertReaction ⟨id, conversationId, emoji, userId, now, now⟩
      (.applied, added.refreshReactionsJsonSnapshot id)

def delete (t : RowTable) (id : String) : RowTable :=
  let answering := (t.rows.items.filter (answersTo id)).map (fun r => r.serverId)
  (t.deleteReactions (fun r => r.messageServerId = id || r.messageServerId ∈ answering)).deleteRows (answersTo id)

def applyDeleteEvent (t : RowTable) (id : String) (eventSeq : Option ℕ) : ApplyResult × RowTable :=
  match t.firstAnswering id with
  | none => (.notFound, t)
  | some row =>
    if isStaleOperation row.attributes "lastDeleteEventSeq" eventSeq then (.ignoredStale, t)
    else (.applied, t.delete id)

def retentionHidesContent (state : MessageRetentionState) : Bool :=
  state.contentVisibility = .hidden || state.contentVisibility = .redacted || state.contentVisibility = .purged

/-- The second half of a retention event, for a message whose attributes took the event. -/
def retainRows (outcome : ApplyResult × RowTable) (id : String) (f : MessageRow → MessageRow)
    (hf : ∀ r, (f r).serverId = r.serverId) : ApplyResult × RowTable :=
  match outcome with
  | (.applied, t) => (.applied, t.updateWhere (answersTo id) f hf)
  | other => other

def applyRetentionScheduledEvent (t : RowTable) (id : String) (policy : MessageRetentionPolicy)
    (state : MessageRetentionState) (scheduledAt : ℤ) (eventSeq : Option ℕ) : ApplyResult × RowTable :=
  retainRows (t.applyMessageExtraWithSeq id "lastRetentionScheduledEventSeq" eventSeq fun attributes =>
      attributes.insert "retention_event" "scheduled") id
    (fun r => { r with
      retentionPolicy := some policy, retentionState := some state, updatedAt := scheduledAt.toNat }) fun _ => rfl

section

variable (t : RowTable) (now : ℕ) (id : String) (state : MessageRetentionState)

def applyRetentionExpiredEvent
    (expiredAt : ℤ) (eventSeq : Option ℕ) : ApplyResult × RowTable :=
  retainRows (t.applyMessageExtraWithSeq id "lastRetentionExpiredEventSeq" eventSeq fun attributes =>
      (attributes.insert "retention_event" "expired").insert "retention_placeholder" "该消息已过期") id
    (fun r => { r with
      retentionState := some state
      encodedContent := if retentionHidesContent state then [] else r.encodedContent
      updatedAt := (max (now : ℤ) expiredAt).toNat }) fun _ => rfl

def applyRetentionPurgedEvent
    (purgedAt : ℤ) (eventSeq : Option ℕ) : ApplyResult × RowTable :=
  retainRows (t.applyMessageExtraWithSeq id "lastRetentionPurgedEventSeq" eventSeq fun attributes =>
      (attributes.insert "retention_event" "purged").insert "retention_placeholder" "该消息已清理") id
    (fun r => { r with
      retentionState := some state
      encodedContent := []
      updatedAt := (max (now : ℤ) purgedAt).toNat }) fun _ => rfl

end

/-- `update_status`; returns how many rows matched. -/
def updateStatus [codes : RowCodes] (t : RowTable) (id : String) (status : ℤ) : ℕ × RowTable :=
  ((t.rows.items.filter (answersTo id)).length,
    t.updateWhere (answersTo id) (fun r => { r with
      status := status
      isRecalled := if status = codes.statusRecalled then true else r.isRecalled }) fun _ => rfl)

/-- An own message of the conversation that a read receipt up to `readSeq` covers. The bound is a
signed column value, which a number above its range does not reach. -/
def isReadBy [codes : RowCodes] (conversationId senderUserId : String) (readSeq : ℕ) (r : MessageRow) : Bool :=
  r.conversationId = conversationId && r.senderId = senderUserId && 0 < r.conversationSeq &&
    r.conversationSeq ≤ readSeq && readSeq ≤ maxI64 &&
    (r.status = codes.statusCreated || r.status = codes.statusSent || r.status = codes.statusPersisted)

def markOutgoingReadUptoSeq [codes : RowCodes] (t : RowTable) (conversationId senderUserId : String)
    (readSeq : ℕ) : RowTable :=
  if isBlank conversationId || isBlank senderUserId || readSeq = 0 then t
  else t.updateWhere (isReadBy conversationId senderUserId readSeq) (fun r => { r with
    status := if r.status = codes.statusCreated then codes.statusSent else r.status
    isRead := true }) fun _ => rfl

/-- The message part of deleting a conversation. -/
def deleteConversation (t : RowTable) (conversationId : String) : RowTable :=
  (t.deleteReactions (fun r => r.conversationId = conversationId)).deleteRows
    (fun r => r.conversationId = conversationId)

@[simp] theorem get_updateWhere (t : RowTable) (p : MessageRow → Bool) (f : MessageRow → MessageRow)
    (hf : ∀ r, (f r).serverId = r.serverId) (id : String) :
    (t.updateWhere p f hf).get id = (t.get id).map (fun r => if p r then f r else r) :=
  t.rows.find?_mapValues _ (fun r => by split <;> [exact hf r; rfl]) id

/-! ### The table of `Store.Messages` underneath -/

theorem base_removeConflicting (t : RowTable) (cid sid : String) :
    (t.removeConflictingLocalClientMsgRows cid sid).base = t.base.removeConflictingLocalClientMsgRows cid sid := by
  unfold removeConflictingLocalClientMsgRows MessageTable.removeConflictingLocalClientMsgRows
  split
  · rfl
  · exact congrArg (MessageTable.mk · t.clearedFloor) (t.rows.mapTo_filter (fun _ => rfl) fun r =>
      !(r.clientMsgId = trim cid && r.serverId ≠ trim sid && isLocalSending r))

theorem foldl_insertReaction (entries : List ReactionRow) (t : RowTable) :
    entries.foldl insertReaction t = { t with reactions := entries.foldl insert t.reactions } := by
  induction entries generalizing t with
  | nil => rfl
  | cons entry entries ih => exact ih (t.insertReaction entry)

@[simp] theorem rows_replaceReactionSnapshotRows (t : RowTable) (now : ℕ) (chunk : List InboundMessage) :
    (t.replaceReactionSnapshotRows now chunk).rows = t.rows := by
  rw [replaceReactionSnapshotRows, foldl_insertReaction]
  rfl

theorem base_saveChunk (now : ℕ) (t : RowTable) (chunk : List InboundMessage) : (saveChunk now t chunk).base =
      chunk.foldl (fun u m => u.insertRow now m.toIMMessage) t.base := by
  have hrows : ∀ (stored : List MessageRow) (u : RowTable),
      ({ u with rows := stored.foldl insert u.rows } : RowTable).base =
        stored.foldl (fun v r => { v with rows := v.rows.insert r.toIMMessage }) u.base := by
    intro stored
    induction stored with
    | nil => intro u; rfl
    | cons r stored ih =>
      intro u
      refine (ih { u with rows := u.rows.insert r }).trans ?_
      rw [foldl_cons, base, mapTo_insert]
      rfl
  rw [saveChunk, replaceReactionSnapshotRows, foldl_insertReaction]
  refine (hrows (chunk.map (t.storedRow now)) t).trans ?_
  rw [foldl_map]
  rfl

theorem flatten_chunks {α : Type} {size : ℕ} (h : 0 < size) (xs : List α) : (chunks size xs).flatten = xs := by
  have htake : ∀ k, ((range k).map fun i => (xs.drop (i * size)).take size).flatten = xs.take (k * size) := by
    intro k
    induction k with
    | zero => simp
    | succ k ih =>
      rw [range_succ, map_append, flatten_append, ih, Nat.succ_mul, take_add]
      simp
  rw [chunks, htake, take_of_length_le]
  have hdiv := Nat.div_add_mod (xs.length + (size - 1)) size
  have hmod := Nat.mod_lt (xs.length + (size - 1)) h
  rw [Nat.mul_comm size] at hdiv
  omega

theorem map_queueRow (rows : List InboundMessage) (m : InboundMessage) : (queueRow rows m).map (·.toIMMessage) =
      MessageTable.queueRow (rows.map (·.toIMMessage)) m.toIMMessage := by
  unfold queueRow MessageTable.queueRow
  rw [map_append]
  split
  · rfl
  · rw [filter_map]
    rfl

theorem base_saveBatch (t : RowTable) (now : ℕ) (messages : List InboundMessage) :
    (t.saveBatch now messages).base = t.base.saveBatch now (messages.map (·.toIMMessage)) := by
  have hcleaned : ∀ (ms : List InboundMessage) (u : RowTable),
      (ms.foldl (fun v m => v.removeConflictingLocalClientMsgRows m.clientMsgId m.serverId) u).base =
        (ms.map (·.toIMMessage)).foldl
          (fun v m => v.removeConflictingLocalClientMsgRows m.clientMsgId m.serverId) u.base := by
    intro ms
    induction ms with
    | nil => intro u; rfl
    | cons m ms ih =>
      intro u
      rw [foldl_cons, ih, base_removeConflicting, map_cons, foldl_cons]
  have hqueued : ∀ (ms queued : List InboundMessage), (ms.foldl queueRow queued).map (·.toIMMessage) =
        (ms.map (·.toIMMessage)).foldl MessageTable.queueRow (queued.map (·.toIMMessage)) := by
    intro ms
    induction ms with
    | nil => intro queued; rfl
    | cons m ms ih =>
      intro queued
      rw [foldl_cons, ih, map_queueRow, map_cons, foldl_cons]
  have hchunks : ∀ (css : List (List InboundMessage)) (u : RowTable), (css.foldl (saveChunk now) u).base =
        css.flatten.foldl (fun v m => v.insertRow now m.toIMMessage) u.base := by
    intro css
    induction css with
    | nil => intro u; rfl
    | cons chunk css ih =>
      intro u
      rw [foldl_cons, ih, base_saveChunk, flatten_cons, foldl_append]
  have hpersistable : (messages.filter t.isPersistable).map (·.toIMMessage) =
      (messages.map (·.toIMMessage)).filter t.base.isPersistable := by
    rw [filter_map]
    rfl
  unfold saveBatch MessageTable.saveBatch
  rw [hchunks, flatten_chunks (by decide), hcleaned, ← hpersistable, ← foldl_map, hqueued]
  rfl

end RowTable

/-! ### A small instance, for concrete runs -/

theorem sample_created_lt_sent : (1 : ℤ) < 2 := by decide

theorem sample_failed_ne_sent : (5 : ℤ) ≠ 2 := by decide

@[reducible] def sampleRowCodes : RowCodes where
  statusCreated := 1
  statusSent := 2
  statusFailed := 5
  created_lt_sent := sample_created_lt_sent
  failed_ne_sent := sample_failed_ne_sent
  errorUnavailable := 13
  errorTimeout := 14
  errorRateLimited := 15
  errorSlowDown := 16
  errorNeedsRetry := 17
  statusRecalled := 4
  statusPersisted := 3
  reactionAdd := 1
  reactionRemove := 2
  reactionsJson _ := "[]"

end FlareIm.Store
