import Mathlib.Order.Lattice
import FlareIm.Store.Attributes

/-! The row of a conversation, as the server's summaries, the local projection of messages and the
local clear of its history write it. Read position and unread count are three numbers that every
writer has to keep consistent; the boundary below which history stays hidden is kept twice, as the
server's `visible_after_seq` and as the mark of a local clear among the extension entries. The
record has the fields that these writers read or write. -/

namespace FlareIm.Conversations

open Lib Message Store

inductive ConversationType
  | unspecified | single | group | ai | system | customer | temp | channel | broadcast
  deriving DecidableEq, Repr

def ConversationType.isSingleChatConversation (t : ConversationType) : Bool := t = .single

/-- The last message as the conversation list shows it. -/
structure MessagePreviewElem where
  messageId : String
  senderId : String
  type : ℤ
  text : String
  time : ℕ
  deriving DecidableEq, Repr

structure Conversation where
  conversationId : String := ""
  conversationType : ConversationType := .unspecified
  businessType : String := ""
  channelId : String := ""
  displayName : String := ""
  avatarUrl : String := ""
  remark : Option String := none
  lastMessageId : Option String := none
  lastSenderId : Option String := none
  lastMessageAt : Option ℕ := none
  lastMessagePreview : Option String := none
  lastMessage : Option MessagePreviewElem := none
  lastSenderNickname : String := ""
  lastSenderAvatarUrl : String := ""
  unreadCount : ℕ := 0
  lastReadSeq : ℕ := 0
  maxSeq : ℕ := 0
  visibleAfterSeq : ℕ := 0
  isPinned : Bool := false
  isMuted : Bool := false
  isMentionOnly : Option Bool := none
  isArchived : Bool := false
  version : ℕ := 0
  updatedAt : ℕ := 0
  createdAt : ℕ := 0
  updatedAtTs : Option ℕ := none
  ext : Attributes := ∅
  draft : Option String := none
  mentionCount : ℕ := 0
  mentionMe : Bool := false

/-! ### Read position -/

/-- `max_seq`, `last_read_seq` and `unread_count` of a conversation. -/
structure ReadPosition where
  maxSeq : ℕ := 0
  lastReadSeq : ℕ := 0
  unreadCount : ℕ := 0
  deriving DecidableEq, Repr

def Conversation.readPosition (c : Conversation) : ReadPosition :=
  ⟨c.maxSeq, c.lastReadSeq, c.unreadCount⟩

namespace ReadPosition

section

variable (pos : ReadPosition)

/-- A row that counts unread messages and was never read was read up to them. -/
def normalizeForUnreadDelta : ReadPosition :=
  if pos.maxSeq > 0 ∧ pos.lastReadSeq = 0 ∧ pos.unreadCount > 0 ∧ pos.unreadCount < pos.maxSeq then
    { pos with lastReadSeq := pos.maxSeq - pos.unreadCount }
  else pos

@[simp] theorem maxSeq_normalizeForUnreadDelta : pos.normalizeForUnreadDelta.maxSeq = pos.maxSeq := by
  unfold normalizeForUnreadDelta
  split <;> rfl

@[simp] theorem unreadCount_normalizeForUnreadDelta :
    pos.normalizeForUnreadDelta.unreadCount = pos.unreadCount := by
  unfold normalizeForUnreadDelta
  split <;> rfl

theorem le_normalizeForUnreadDelta : pos.lastReadSeq ≤ pos.normalizeForUnreadDelta.lastReadSeq := by
  unfold normalizeForUnreadDelta
  split
  · next h =>
    rw [h.2.1]
    exact Nat.zero_le _
  · exact le_rfl

/-- The number of seqs above the read position, cut to 32 bits. -/
def unreadUpperBound : ℕ := (pos.maxSeq - pos.lastReadSeq) % 2 ^ 32

end

/-- The stored position and the one of an incoming summary. -/
def mergeWithIncomingSummary (stored incoming : ReadPosition) : ReadPosition :=
  let stored := stored.normalizeForUnreadDelta
  let incoming := incoming.normalizeForUnreadDelta
  let mergedMax := max incoming.maxSeq stored.maxSeq
  let lastRead := max incoming.lastReadSeq stored.lastReadSeq
  let upper := (mergedMax - lastRead) % 2 ^ 32
  let unread :=
    if incoming.maxSeq ≤ stored.maxSeq then min stored.unreadCount upper else min incoming.unreadCount upper
  if stored.maxSeq > 0 ∧ stored.lastReadSeq ≥ mergedMax ∧ mergedMax > 0 then
    ⟨mergedMax, max stored.lastReadSeq lastRead, 0⟩
  else ⟨mergedMax, lastRead, unread⟩

variable (stored incoming : ReadPosition)

@[simp] theorem maxSeq_mergeWithIncomingSummary :
    (mergeWithIncomingSummary stored incoming).maxSeq = max incoming.maxSeq stored.maxSeq := by
  unfold mergeWithIncomingSummary
  dsimp only
  rw [maxSeq_normalizeForUnreadDelta, maxSeq_normalizeForUnreadDelta]
  split <;> rfl

@[simp] theorem lastReadSeq_mergeWithIncomingSummary : (mergeWithIncomingSummary stored incoming).lastReadSeq =
      max incoming.normalizeForUnreadDelta.lastReadSeq stored.normalizeForUnreadDelta.lastReadSeq := by
  unfold mergeWithIncomingSummary
  dsimp only
  split
  · exact max_eq_right (le_max_right _ _)
  · rfl

/-- The unread count of the position that reaches further. -/
def chosenUnread : ℕ := if incoming.maxSeq ≤ stored.maxSeq then stored.unreadCount else incoming.unreadCount

theorem unreadCount_mergeWithIncomingSummary : (mergeWithIncomingSummary stored incoming).unreadCount =
    min (chosenUnread stored incoming) (mergeWithIncomingSummary stored incoming).unreadUpperBound := by
  rw [unreadUpperBound, maxSeq_mergeWithIncomingSummary, lastReadSeq_mergeWithIncomingSummary, chosenUnread]
  unfold mergeWithIncomingSummary
  simp only [maxSeq_normalizeForUnreadDelta, unreadCount_normalizeForUnreadDelta]
  split
  · next hread =>
    -- Read to the end: nothing lies above.
    rw [Nat.sub_eq_zero_of_le (hread.2.1.trans (le_max_right _ _))]
    simp
  · split <;> rfl

/-- The number of seqs above both read positions. -/
def seqsAbove : ℕ := max incoming.maxSeq stored.maxSeq -
  max incoming.normalizeForUnreadDelta.lastReadSeq stored.normalizeForUnreadDelta.lastReadSeq

/-- The merged position is not behind either of the two, and its unread count is bounded by the seqs
above it. It is no smaller than the chosen one and that bound allow, unless the cut to 32 bits
leaves less than the chosen one of the seqs above. -/
theorem mergeWithIncomingSummary_bounds (stored incoming : ReadPosition) :
    let merged := mergeWithIncomingSummary stored incoming
    stored.lastReadSeq ≤ merged.lastReadSeq ∧ incoming.lastReadSeq ≤ merged.lastReadSeq ∧
      merged.unreadCount ≤ merged.maxSeq - merged.lastReadSeq ∧
      (min (chosenUnread stored incoming) (merged.maxSeq - merged.lastReadSeq) ≤ merged.unreadCount ↔
        seqsAbove stored incoming < 2 ^ 32 ∨
          chosenUnread stored incoming ≤ seqsAbove stored incoming % 2 ^ 32) := by
  intro merged
  have hstored := le_normalizeForUnreadDelta stored
  have hincoming := le_normalizeForUnreadDelta incoming
  have hread : merged.lastReadSeq = _ := lastReadSeq_mergeWithIncomingSummary stored incoming
  have habove : merged.maxSeq - merged.lastReadSeq = seqsAbove stored incoming := by
    rw [hread, maxSeq_mergeWithIncomingSummary, seqsAbove]
  have hunread : merged.unreadCount = _ := unreadCount_mergeWithIncomingSummary stored incoming
  rw [unreadUpperBound, habove] at hunread
  rw [habove]
  refine ⟨by omega, by omega, ?_, ?_⟩
  · rw [hunread]
    exact (min_le_right _ _).trans (Nat.mod_le _ _)
  · rw [hunread]
    omega

/-- Of 2 ^ 32 seqs above the read position none is left in 32 bits, and the unread message is gone. -/
theorem mergeWithIncomingSummary_cut : mergeWithIncomingSummary {} ⟨2 ^ 32 + 1, 1, 1⟩ = ⟨2 ^ 32 + 1, 1, 0⟩ := by
  decide

end ReadPosition

/-! ### The mark of a local clear -/

def extLocalClearedThroughSeq : String := "local_cleared_through_seq"

variable (ext : Attributes)

def localClearedThroughSeq : ℕ :=
  (ext[extLocalClearedThroughSeq]?.bind fun v => parseU64 (trim v)).getD 0

def setLocalClearedThroughSeq (seq : ℕ) : Attributes :=
  if seq = 0 then ext.erase extLocalClearedThroughSeq
  else ext.insert extLocalClearedThroughSeq (toString seq)

/-- The boundary that saving, cursors and the start of a sync all use: messages up to it are hidden. -/
def syncVisibilityFloor (c : Conversation) : ℕ := max (localClearedThroughSeq c.ext) c.visibleAfterSeq

theorem localClearedThroughSeq_le : localClearedThroughSeq ext ≤ maxU64 := by
  unfold localClearedThroughSeq
  cases hparse : ext[extLocalClearedThroughSeq]?.bind fun v => parseU64 (trim v) with
  | none => exact Nat.zero_le _
  | some n =>
    obtain ⟨text, -, htext⟩ := Option.bind_eq_some_iff.mp hparse
    exact le_of_parseUnsigned htext

theorem localClearedThroughSeq_set {seq : ℕ} (h : seq ≤ maxU64) :
    localClearedThroughSeq (setLocalClearedThroughSeq ext seq) = seq := by
  rw [localClearedThroughSeq, setLocalClearedThroughSeq]
  split
  · next hzero => simp [hzero]
  · rw [Std.ExtTreeMap.getElem?_insert_self, Option.bind_some, trim_toString, parseU64_toString h, Option.getD_some]

/-! ### Names -/

/-- A text names something if it is not blank and not one of the thing's own ids. -/
def realName (candidate : String) (ownIds : List String) : Option String :=
  let name := trim candidate
  if isBlank candidate then none
  else if ownIds.any fun id => !isBlank id && trim id == name then none
  else some name

def businessName (candidate : String) (ownIds : List String) : String := (realName candidate ownIds).getD ""

/-- `text.map(str::trim)` is there and not empty. -/
def hasText (text : Option String) : Bool := text.any fun value => !isBlank value

def hasLastMessage (c : Conversation) : Bool :=
  hasText c.lastMessageId || hasText c.lastMessagePreview || decide (c.lastMessageAt.getD 0 > 0)

end FlareIm.Conversations
