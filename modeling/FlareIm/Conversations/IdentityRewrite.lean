import FlareIm.Conversations.MemoryStore
import FlareIm.Store.Acks

/-! Giving a conversation another id in the SQLite store. The messages are moved first; then the conversation's
row is merged into that of the new id, and all other rows under the old id are deleted, sends that are still
pending among them. -/

namespace FlareIm.Conversations

open Lib Message Store MemoryConversationStore

structure ConversationTables where
  conversations : String → Option Conversation
  participants : List (String × String)

structure SqliteTables extends ConversationTables where
  messages : RowTable
  /-- The conversation and the text of each indexed message. -/
  messagesFts : List (String × String)
  cursors : String → Option ℕ
  pendingSends : KeyedMap String PendingSendVo PendingSendVo.clientMsgId

/-- As in the memory store, but a last message of the same seq and a later time counts as newer, and more
fields are taken over. -/
def mergeIdentityConversation (target source : Conversation) : Conversation :=
  let merged := { mergeIdentityRows target source with
    businessType := fillBlank target.businessType source.businessType
    createdAt := if target.createdAt = 0 then source.createdAt
      else if source.createdAt = 0 then target.createdAt else min target.createdAt source.createdAt
    mentionCount := max target.mentionCount source.mentionCount
    mentionMe := target.mentionMe || source.mentionMe }
  if source.maxSeq > target.maxSeq ∨
      source.maxSeq = target.maxSeq ∧ source.lastMessageAt.getD 0 > target.lastMessageAt.getD 0 then
    { merged with
      lastMessageId := source.lastMessageId
      lastSenderId := source.lastSenderId
      lastMessageAt := source.lastMessageAt
      lastMessagePreview := source.lastMessagePreview
      lastMessage := source.lastMessage
      lastSenderNickname := source.lastSenderNickname
      lastSenderAvatarUrl := source.lastSenderAvatarUrl
      maxSeq := max target.maxSeq source.maxSeq }
  else merged

namespace SqliteTables

variable (saveOne : Conversation → ConversationTables → Option ConversationTables)
    (s : SqliteTables) (fromId toId : String)

def rewriteConversationId : SqliteTables :=
  if isBlank fromId || isBlank toId || trim fromId = trim toId then s
  else
    { s with
      messages := s.messages.rewriteConversationId fromId toId
      messagesFts := s.messagesFts.map fun row => if row.1 = trim fromId then (trim toId, row.2) else row }

/-- The rows under the old id go away, with the tables of conversations as they were saved. -/
def deleteIdentity (saved : ConversationTables) : SqliteTables :=
  { s with
    conversations := Function.update saved.conversations fromId none
    participants := saved.participants.filter (·.1 ≠ fromId)
    cursors := Function.update s.cursors fromId none
    pendingSends := s.pendingSends.filter (·.conversationId ≠ fromId) }

/-- The conversation under its new id, merged into the one that has this id already. -/
def mergedIdentity (source : Conversation) : Conversation :=
  let source := renamed source (trim fromId) (trim toId)
  (s.conversations (trim toId)).elim source (mergeIdentityConversation · source)

/-- `saveOne` is the save of a summary; when it fails, nothing has changed. -/
def mergeConversationIdentity : SqliteTables :=
  if isBlank fromId || isBlank toId || trim fromId = trim toId then s
  else
    match s.conversations (trim fromId) with
    | none => s
    | some source =>
      match saveOne (s.mergedIdentity fromId toId source) s.toConversationTables with
      | none => s
      | some saved => s.deleteIdentity (trim fromId) saved

def applyConversationIdentityRewrite : SqliteTables :=
  if fromId = toId then s else (s.rewriteConversationId fromId toId).mergeConversationIdentity saveOne fromId toId

theorem rewriteConversationId_frame :
    (s.rewriteConversationId fromId toId).toConversationTables = s.toConversationTables ∧
      (s.rewriteConversationId fromId toId).pendingSends = s.pendingSends := by
  unfold rewriteConversationId
  split <;> exact ⟨rfl, rfl⟩

/-- Nothing is merged: an id is blank, the two are one, the old conversation has no row, or the save fails. -/
def LeavesIdentity : Prop :=
  isBlank fromId ∨ isBlank toId ∨ trim fromId = trim toId ∨
    ∀ source ∈ s.conversations (trim fromId),
      saveOne (s.mergedIdentity fromId toId source) s.toConversationTables = none

theorem pendingSends_mergeConversationIdentity :
    (LeavesIdentity saveOne s fromId toId ∧
      (s.mergeConversationIdentity saveOne fromId toId).pendingSends = s.pendingSends) ∨
      ¬LeavesIdentity saveOne s fromId toId ∧ (s.mergeConversationIdentity saveOne fromId toId).pendingSends =
        s.pendingSends.filter (·.conversationId ≠ trim fromId) := by
  unfold mergeConversationIdentity LeavesIdentity
  split
  · next hids => exact .inl ⟨by simp only [Bool.or_eq_true, decide_eq_true_eq] at hids; tauto, rfl⟩
  · next hids =>
    simp only [Bool.or_eq_true, decide_eq_true_eq, not_or] at hids
    split
    · next hnone => exact .inl ⟨by simp [hnone], rfl⟩
    · next source hsource =>
      split
      · next hfailed => exact .inl ⟨by simp [hsource, hfailed], rfl⟩
      · next hsaved => exact .inr ⟨by simp [hids, hsource, hsaved], rfl⟩

/-- All sends stay pending exactly when nothing is merged or none of them is in the old conversation. -/
theorem mem_pendingSends_applyConversationIdentityRewrite :
    (∀ p ∈ s.pendingSends.items, p ∈ (s.applyConversationIdentityRewrite saveOne fromId toId).pendingSends.items) ↔
      LeavesIdentity saveOne s fromId toId ∨ ∀ p ∈ s.pendingSends.items, p.conversationId ≠ trim fromId := by
  unfold applyConversationIdentityRewrite
  split
  · next hsame => exact iff_of_true (fun _ => id) (.inl (.inr (.inr (.inl (congrArg trim hsame)))))
  · obtain ⟨htables, hpending⟩ := rewriteConversationId_frame s fromId toId
    have hleaves : LeavesIdentity saveOne (s.rewriteConversationId fromId toId) fromId toId ↔
        LeavesIdentity saveOne s fromId toId := by
      simp only [LeavesIdentity, mergedIdentity, htables]
    rcases pendingSends_mergeConversationIdentity saveOne (s.rewriteConversationId fromId toId) fromId toId with
      ⟨hkept, heq⟩ | ⟨hmerged, heq⟩
    · rw [heq, hpending]
      exact iff_of_true (fun _ => id) (.inl (hleaves.mp hkept))
    · rw [heq, hpending, or_iff_right (hleaves.not.mp hmerged)]
      exact forall₂_congr fun p hp => List.mem_filter.trans ((and_iff_right hp).trans decide_eq_true_iff)

def sampleSave (c : Conversation) (t : ConversationTables) : Option ConversationTables :=
  some { t with conversations := Function.update t.conversations c.conversationId (some c) }

def sampleSend (conversationId : String) : PendingSendVo :=
  ⟨"c1", conversationId, { clientMsgId := "c1", conversationId, senderId := "u1", status := 1 },
    0, rfl, Nat.zero_le _⟩

def sampleTables (conversationId : String) : SqliteTables where
  conversations := Function.update (fun _ => none) "old" (some { conversationId := "old" })
  participants := []
  messages := .empty
  messagesFts := []
  cursors := fun _ => none
  pendingSends := KeyedMap.empty.insert (sampleSend conversationId)

/-- The send that is pending in the old conversation is lost. -/
theorem not_mem_pendingSends_of_old_conversation : sampleSend "old" ∈ (sampleTables "old").pendingSends.items ∧
    ((sampleTables "old").applyConversationIdentityRewrite sampleSave "old" "new").pendingSends.items = [] := by
  decide

end SqliteTables

end FlareIm.Conversations
