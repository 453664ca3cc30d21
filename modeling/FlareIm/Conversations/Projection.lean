import FlareIm.Conversations.MemoryStore
import FlareIm.Lib.Prog
import FlareIm.Message.Timeline

/-! The projection of a batch of messages into the rows of their conversations. For every conversation
of the batch it makes sure that there is a row, moves the last message, and counts the messages that
are not read: those above the read position and above the unread messages already counted, which are
taken to be the seqs right above it. A realtime message at the end of a row without unread messages
is counted too, because summaries may have moved the read position over messages the client never saw. -/

namespace FlareIm.Conversations

open Lib Message Store Prog

/-- A message with the fields that only the projection reads. Its type is already mapped from the wire. -/
structure ProjectedMessage extends IMMessage where
  conversationType : ConversationType := .unspecified
  channelId : String := ""
  messageType : ℤ := 0
  isRecalled : Bool := false
  mentionAll : Bool := false
  mentionUsers : List String := []
  deriving DecidableEq

inductive UnreadApplyMode
  | realtimePush | syncReplay
  deriving DecidableEq, Repr

/-- The store of conversations, and the unread counts published on the event bus. -/
structure ProjectionState where
  conversations : MemoryConversationStore := {}
  published : List (String × ℕ) := []

abbrev ProjectionM := Prog ProjectionState FlareError

def displayTimeMs (m : IMMessage) : ℕ :=
  if m.conversationSeq > 0 ∧ m.createdAt > 0 then m.createdAt
  else if m.localState.sortTs > 0 then m.localState.sortTs
  else max m.createdAt m.clientCreatedAt

/-! ### The row of a conversation -/

def textIfPresent (text : String) : Option String := if isBlank text then none else some text

/-- The channel of a single chat is its peer. The new channel, if it has to change. -/
def repairSingleChatChannel (c : Conversation) (currentUserId : String) (peerHint : Option String) :
    Option String :=
  let me := trim currentUserId
  if !c.conversationType.isSingleChatConversation || startsWith "sync:" (trim c.conversationId) ||
    isBlank currentUserId then
    none
  else
    match (peerHint.map trim).filter fun peer => !isBlank peer && peer != me with
    | some peer => if c.channelId ≠ peer then some peer else none
    | none =>
      if !isBlank c.channelId && trim c.channelId != me then none
      else (c.lastSenderId.map trim).filter fun sender => !isBlank sender && sender != me

/-- A row for a conversation of which only a message is known. -/
def shellConversation (message : ProjectedMessage) (currentUserId : String) : Conversation :=
  let preview := message.textForStorage.getD ""
  let shell : Conversation :=
    { conversationId := trim message.conversationId
      conversationType := message.conversationType
      businessType := "chat"
      channelId := message.channelId
      lastMessageId := textIfPresent message.serverId
      lastSenderId := textIfPresent message.senderId
      lastMessageAt := some message.createdAt
      lastMessagePreview := if preview.isEmpty then none else some preview
      lastMessage := some ⟨message.serverId, message.senderId, message.messageType, preview, message.createdAt⟩
      maxSeq := message.conversationSeq
      updatedAt := message.createdAt
      createdAt := message.createdAt }
  let addressed :=
    if isBlank shell.channelId && shell.conversationType.isSingleChatConversation &&
        !isBlank message.senderId && trim message.senderId != trim currentUserId then
      { shell with channelId := trim message.senderId }
    else shell
  { addressed with channelId := (repairSingleChatChannel addressed currentUserId none).getD addressed.channelId }

variable (isSingleChatId : String → Bool)

/-- The repaired row, if the message shows that its channel is wrong. -/
def repairExistingSingleChatChannel (c : Conversation) (message : ProjectedMessage) (currentUserId : String) :
    Option Conversation :=
  let isSingle := c.conversationType.isSingleChatConversation ||
    message.conversationType.isSingleChatConversation || isSingleChatId c.conversationId
  let sender := trim message.senderId
  let me := trim currentUserId
  if !isSingle || isBlank message.senderId || (!isBlank currentUserId && sender == me) then none
  else
    (repairSingleChatChannel c currentUserId (some sender)).map fun channel =>
      { c with
        channelId := channel
        conversationType := .single
        displayName := businessName c.displayName [c.channelId, me, sender, c.conversationId] }

def saveOne (c : Conversation) : ProjectionM Unit := do
  let s ← get
  match s.conversations.saveOne c with
  | .ok saved => modify fun s => { s with conversations := saved }
  | .error e => fail e

variable (message : ProjectedMessage)

def ensureOrRepairConversationShell (currentUserId : String) : ProjectionM Unit := do
  let conversationId := trim message.conversationId
  if isBlank message.conversationId || startsWith "sync:" conversationId then pure ()
  else
    let s ← get
    match s.conversations.get conversationId with
    | some existing =>
      match repairExistingSingleChatChannel isSingleChatId existing message currentUserId with
      | some repaired => saveOne repaired
      | none => pure ()
    | none => saveOne (shellConversation message currentUserId)

/-! ### Which messages count -/

def shouldCountUnread (previousRead : ReadPosition) (mode : UnreadApplyMode) : Bool :=
  let accountedThrough := satAddU64 previousRead.lastReadSeq previousRead.unreadCount
  let isAbove : Bool := message.conversationSeq > previousRead.lastReadSeq ∧
    message.conversationSeq > accountedThrough
  match mode with
  | .syncReplay => isAbove
  | .realtimePush =>
    -- A fresh message at the end of a row without unread ones: the summary may have run ahead of it.
    isAbove || decide (previousRead.unreadCount = 0 ∧ previousRead.maxSeq > 0 ∧
      message.conversationSeq ≥ previousRead.maxSeq ∧ message.conversationSeq ≥ previousRead.lastReadSeq)

/-- The messages of the batch that are unread in the conversation. -/
def unreadMessages (messages : List ProjectedMessage) (conversationId currentUserId : String)
    (previousRead : ReadPosition) (mode : UnreadApplyMode) : List ProjectedMessage :=
  messages.filter fun m => m.conversationId == conversationId && m.senderId != currentUserId && !m.isRecalled &&
    shouldCountUnread m previousRead mode

def mentionsCurrentUser (currentUserId : String) : Bool :=
  !isBlank currentUserId &&
    (message.mentionAll || message.mentionUsers.any fun userId => trim userId == trim currentUserId)

def readSeqForUnreadWindow (previousRead : ReadPosition) (conversationMaxSeq unreadCount : ℕ) : ℕ :=
  min previousRead.lastReadSeq (conversationMaxSeq - unreadCount)

/-- Per conversation the message that sorts last. -/
def keepLatest (latest : KeyedMap String ProjectedMessage (fun m => m.conversationId))
    (message : ProjectedMessage) :
    KeyedMap String ProjectedMessage (fun m => m.conversationId) :=
  match latest.find? message.conversationId with
  | some previous =>
    if (IMMessage.compareForLatestWindowDesc previous.toIMMessage message.toIMMessage).isLE then latest
    else latest.insert message
  | none => latest.insert message

def latestPerConversation (messages : List ProjectedMessage) :
    KeyedMap String ProjectedMessage (fun m => m.conversationId) :=
  (messages.filter fun m => !isBlank m.conversationId).foldl keepLatest .empty

/-! ### One conversation of a batch -/

def previousReadPosition (previous : Option Conversation) : ReadPosition :=
  ((previous.map Conversation.readPosition).getD {}).normalizeForUnreadDelta

def updateSummary (latest : ProjectedMessage) (previous : Option Conversation) (s : ProjectionState) :
    ProjectionState :=
  if previous.isNone ∨ latest.conversationSeq ≥ s.conversations.getLocalMaxSeq latest.conversationId then
    let updated := s.conversations.updateLastMessage latest.conversationId latest.serverId latest.senderId
      (displayTimeMs latest.toIMMessage) latest.textForStorage latest.conversationSeq
    { s with conversations := updated }
  else s

/-- Add the unread messages of the batch to the count before it, and keep the read position below them. -/
def countUnread (unread : List ProjectedMessage) (latest : ProjectedMessage) (previous : Option Conversation)
    (s : ProjectionState) : ProjectionState :=
  let unreadDelta := min unread.length maxU32
  if unreadDelta > 0 then
    let previousUnread := (previous.map Conversation.unreadCount).getD 0
    let conversationMaxSeq := previous.elim latest.conversationSeq fun c => max c.maxSeq latest.conversationSeq
    let nextUnread := satAddU32 previousUnread unreadDelta
    let nextReadSeq := readSeqForUnreadWindow (previousReadPosition previous) conversationMaxSeq nextUnread
    let updated := s.conversations.updateUnread latest.conversationId nextUnread nextReadSeq
    match updated.get latest.conversationId with
    | some c =>
      if c.unreadCount ≠ previousUnread then
        { conversations := updated, published := s.published ++ [(latest.conversationId, c.unreadCount)] }
      else { s with conversations := updated }
    | none => { s with conversations := updated }
  else s

def countMentions (unread : List ProjectedMessage) (conversationId currentUserId : String) : ProjectionM Unit := do
  let mentionDelta := min (unread.filter fun m => mentionsCurrentUser m currentUserId).length maxU32
  if mentionDelta > 0 then
    let s ← get
    match s.conversations.get conversationId with
    | some c => saveOne { c with mentionMe := true, mentionCount := satAddU32 c.mentionCount mentionDelta }
    | none => pure ()
  else pure ()

/-- Without a user every new last message counts. -/
def countAnonymous (latest : ProjectedMessage) (currentUserId : String) (previous : Option Conversation)
    (s : ProjectionState) : ProjectionState :=
  let previousMaxSeq := (previous.map Conversation.maxSeq).getD 0
  if latest.conversationSeq > previousMaxSeq ∧ latest.senderId ≠ currentUserId then
    let lastReadSeq := (previous.map Conversation.lastReadSeq).getD 0
    let unreadCount := satAddU32 ((previous.map Conversation.unreadCount).getD 0) 1
    { s with conversations := s.conversations.updateUnread latest.conversationId unreadCount lastReadSeq }
  else s

variable (messages : List ProjectedMessage) (currentUserId : String)

def applyToConversation (mode : UnreadApplyMode)
    (latest : ProjectedMessage) (previous : Option Conversation) : ProjectionM Unit := do
  let unread := unreadMessages messages latest.conversationId currentUserId (previousReadPosition previous) mode
  ensureOrRepairConversationShell isSingleChatId latest currentUserId
  modify (updateSummary latest previous)
  if currentUserId ≠ "" then
    modify (countUnread unread latest previous)
    countMentions unread latest.conversationId currentUserId
  else modify (countAnonymous latest currentUserId previous)

/-- The rows before the batch are read first, then the conversations are taken one after the other. -/
def applyMessagesWithMode (mode : UnreadApplyMode) :
    ProjectionM Unit := do
  let before ← get
  (latestPerConversation messages).items.foldlM
    (fun _ latest => applyToConversation isSingleChatId messages currentUserId mode latest
      (before.conversations.get latest.conversationId)) ()

def applyMessages : ProjectionM Unit :=
  applyMessagesWithMode isSingleChatId messages currentUserId .realtimePush

end FlareIm.Conversations
