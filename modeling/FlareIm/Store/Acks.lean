import Mathlib.Data.List.Destutter
import FlareIm.Store.NewRows

/-! Operations of the message table that reach several rows at once: moving a conversation to another
id, and writing the row of an acknowledged message. The acknowledged row replaces every copy that was
kept under the same client id; their reactions move to it and it takes their plugin state, but no
other attribute of theirs. -/

namespace FlareIm.Store.RowTable

open Lib Message MessageTable

def rewriteConversationId (t : RowTable) (fromId toId : String) : RowTable :=
  if isBlank fromId || isBlank toId || trim fromId = trim toId then t
  else
    { t.updateWhere (fun r => r.conversationId = trim fromId) (fun r => { r with conversationId := trim toId })
        fun _ => rfl with
      reactions := t.reactions.mapValues (fun r =>
        { r with conversationId := if r.conversationId = trim fromId then trim toId else r.conversationId })
        fun _ => rfl }

def mergeReactionsToServerId (t : RowTable) (now : ℕ) (oldServerId targetServerId conversationId : String) :
    RowTable :=
  let old := trim oldServerId
  let target := trim targetServerId
  if isBlank oldServerId || isBlank targetServerId || old = target then t
  else
    let moved := (t.reactions.items.filter (fun r => r.messageServerId = old)).map fun r =>
      { r with messageServerId := target, conversationId := conversationId, updatedAt := now }
    (moved.foldl insertReaction t).deleteReactions (fun r => r.messageServerId = old)

def removeConflictingClientMsgRows (t : RowTable) (now : ℕ)
    (clientMsgId targetServerId conversationId : String) : RowTable :=
  if isBlank clientMsgId || isBlank targetServerId then t
  else
    let conflicts := fun r : MessageRow => r.clientMsgId = trim clientMsgId && r.serverId ≠ trim targetServerId
    ((t.rows.items.filter conflicts).foldl
      (fun u r => u.mergeReactionsToServerId now r.serverId targetServerId conversationId) t).deleteRows conflicts

/-- The acknowledged row takes the plugin state of the rows it replaces. -/
def updateAfterAck [RowCodes] (t : RowTable) (now : ℕ) (clientMsgId : String) (m : InboundMessage) : RowTable :=
  let acked := { m with toIMMessage := ackedRow clientMsgId m.toIMMessage }
  let lookupIds := ([trim acked.serverId, trim clientMsgId, trim acked.clientMsgId].filter
    (fun id => id ≠ "")).destutter (fun a b => a ≠ b)
  let replaced := lookupIds.flatMap fun id => t.rows.items.filter (answersTo id)
  let carried := { acked with
    attributes := replaced.foldl (fun attributes r => carryPluginMessageState attributes r.attributes)
      acked.attributes }
  let t₁ := t.removeConflictingClientMsgRows now clientMsgId carried.serverId carried.conversationId
  let t₂ := if trim carried.clientMsgId ≠ trim clientMsgId then
      t₁.removeConflictingClientMsgRows now carried.clientMsgId carried.serverId carried.conversationId
    else t₁
  ({ t₂ with rows := t₂.rows.insert (newRow now carried) }).replaceReactionSnapshotRows now [carried]

/-! ### The rows after an acknowledgement -/

theorem rows_mergeReactionsToServerId (t : RowTable) (now : ℕ) (old target conversationId : String) :
    (t.mergeReactionsToServerId now old target conversationId).rows = t.rows := by
  unfold mergeReactionsToServerId
  dsimp only
  split
  · rfl
  · rw [foldl_insertReaction]
    rfl

variable {cid : String} {now : ℕ} {r : MessageRow} {t : RowTable}

/-- The copies under the client id are gone, the others are as they were. -/
theorem mem_removeConflictingClientMsgRows {sid conversationId : String} :
    r ∈ (t.removeConflictingClientMsgRows now cid sid conversationId).rows.items ↔
      r ∈ t.rows.items ∧ (isBlank cid || isBlank sid || !(r.clientMsgId = trim cid && r.serverId ≠ trim sid)) := by
  have hmerged : ∀ (moved : List MessageRow) (u : RowTable),
      (moved.foldl (fun u r => u.mergeReactionsToServerId now r.serverId sid conversationId) u).rows = u.rows := by
    intro moved
    induction moved with
    | nil => exact fun _ => rfl
    | cons r moved ih =>
      intro u
      rw [List.foldl_cons, ih, rows_mergeReactionsToServerId]
  unfold removeConflictingClientMsgRows
  split
  · next hblank => simp [hblank]
  · next hnamed =>
    rw [Bool.not_eq_true] at hnamed
    rw [hnamed, deleteRows]
    rw [hmerged, KeyedMap.filter, List.mem_filter, Bool.false_or]

section Acked

variable [RowCodes] {m : InboundMessage}

def ackedMessage (clientMsgId : String) (m : InboundMessage) : InboundMessage :=
  { m with toIMMessage := ackedRow clientMsgId m.toIMMessage }

section

variable (t : RowTable) (clientMsgId : String) (m : InboundMessage)

/-- The rows whose plugin state the acknowledged row takes. -/
def ackedCopies : List MessageRow :=
  let acked := ackedMessage clientMsgId m
  (([trim acked.serverId, trim clientMsgId, trim acked.clientMsgId].filter (fun id => id ≠ "")).destutter
    (fun a b => a ≠ b)).flatMap fun id => t.rows.items.filter (answersTo id)

def carriedMessage : InboundMessage :=
  { ackedMessage clientMsgId m with
    attributes := (t.ackedCopies clientMsgId m).foldl
      (fun attributes r => carryPluginMessageState attributes r.attributes) m.attributes }

end

@[simp] theorem ackedRow_serverId (cid : String) (m : IMMessage) : (ackedRow cid m).serverId = m.serverId := by
  unfold ackedRow
  dsimp only
  split <;> rfl

@[simp] theorem carriedMessage_serverId : (t.carriedMessage cid m).serverId = m.serverId := ackedRow_serverId _ _

section

variable (t : RowTable) (now : ℕ) (cid : String) (m : InboundMessage)

/-- An acknowledgement writes one row and removes others. -/
theorem exists_rows_updateAfterAck : ∃ kept : RowTable, (∀ r ∈ kept.rows.items, r ∈ t.rows.items) ∧
      (t.updateAfterAck now cid m).rows = kept.rows.insert (newRow now (t.carriedMessage cid m)) := by
  refine ⟨_, ?_, rows_replaceReactionSnapshotRows _ _ _⟩
  intro r hr
  split at hr
  · exact (mem_removeConflictingClientMsgRows.mp (mem_removeConflictingClientMsgRows.mp hr).1).1
  · exact (mem_removeConflictingClientMsgRows.mp hr).1

theorem get_updateAfterAck :
    (t.updateAfterAck now cid m).get m.serverId = some (newRow now (t.carriedMessage cid m)) := by
  obtain ⟨kept, -, hrows⟩ := exists_rows_updateAfterAck t now cid m
  have hkey : m.serverId = (newRow now (t.carriedMessage cid m)).serverId := carriedMessage_serverId.symm
  rw [get, hrows, hkey]
  exact KeyedMap.find?_insert_self _ _

end

theorem mem_updateAfterAck (h : r ∈ (t.updateAfterAck now cid m).rows.items) :
    r = newRow now (t.carriedMessage cid m) ∨ (r ∈ t.rows.items ∧ r.serverId ≠ m.serverId) := by
  obtain ⟨kept, hkept, hrows⟩ := exists_rows_updateAfterAck t now cid m
  rw [hrows] at h
  refine ((KeyedMap.mem_insert _ _ _).mp h).imp_right fun hold => ⟨hkept r hold.1, ?_⟩
  exact fun hkey => hold.2 (hkey.trans carriedMessage_serverId.symm)

theorem clearedFloor_updateAfterAck (t : RowTable) (now : ℕ) (cid : String) (m : InboundMessage) :
    (t.updateAfterAck now cid m).clearedFloor = t.clearedFloor := by
  have hmerged : ∀ (old target conversationId : String) (u : RowTable),
      (u.mergeReactionsToServerId now old target conversationId).clearedFloor = u.clearedFloor := by
    intro old target conversationId u
    unfold mergeReactionsToServerId
    dsimp only
    split
    · rfl
    · rw [foldl_insertReaction]
      rfl
  have hremoved : ∀ (cid sid conversationId : String) (u : RowTable),
      (u.removeConflictingClientMsgRows now cid sid conversationId).clearedFloor = u.clearedFloor := by
    intro cid sid conversationId u
    have hfold : ∀ (moved : List MessageRow) (u : RowTable), (moved.foldl (fun u r =>
        u.mergeReactionsToServerId now r.serverId sid conversationId) u).clearedFloor = u.clearedFloor := by
      intro moved
      induction moved with
      | nil => exact fun _ => rfl
      | cons r moved ih => exact fun u => (ih _).trans (hmerged ..)
    unfold removeConflictingClientMsgRows
    split
    · rfl
    · exact hfold _ u
  unfold updateAfterAck replaceReactionSnapshotRows
  rw [foldl_insertReaction]
  dsimp only [deleteReactions]
  split
  · rw [hremoved, hremoved]
  · rw [hremoved]

end Acked

end FlareIm.Store.RowTable
