import FlareIm.Conversations.Model
import FlareIm.Lib.Run

/-! The merge of a conversation summary from the server into the stored row. The summary is a remote
projection: it may not take back what the client has confirmed, so positions only grow, the local
last message survives a summary that is not ahead, and the mark of a local clear is kept. History
below the merged boundary is then taken out of the row. That last step looks at the end of the
*incoming* summary and not of the merged row, which is where a stale summary loses the local head. -/

namespace FlareIm.Conversations

open Lib Message Store ReadPosition

/-! ### The parts of the merge -/

def preserveLocalRemark (incoming stored : Option String) : Option String :=
  match incoming with
  | some remark => if isBlank remark then none else some remark
  | none => (stored.map trim).filter fun v => !isBlank v

def preserveLocalSingleChatChannel (conversationType : ConversationType) (incomingChannel storedChannel : String) :
    String :=
  if !conversationType.isSingleChatConversation then incomingChannel
  else if !isBlank storedChannel && (isBlank incomingChannel || trim incomingChannel != trim storedChannel) then
    trim storedChannel
  else trim incomingChannel

def extUserSettingsVersion : String := "user_settings_version"
def extSettingsDirty : String := "settings_dirty"

def settingsVersion (ext : Attributes) : ℕ := (ext[extUserSettingsVersion]?.bind parseU64).getD 0

def settingsDirty (ext : Attributes) : Bool :=
  ext[extSettingsDirty]?.any fun value => value == "1" || value.toList.map Char.toLower == "true".toList

/-- The settings of the stored row, with all its extension entries. -/
def takeLocalSettings (stored merged : Conversation) : Conversation :=
  { merged with
    isPinned := stored.isPinned
    isMuted := stored.isMuted
    isMentionOnly := stored.isMentionOnly
    isArchived := stored.isArchived
    draft := stored.draft
    ext := stored.ext }

def mergeUserSettings (stored merged : Conversation) : Conversation :=
  let storedVersion := settingsVersion stored.ext
  let incomingVersion := settingsVersion merged.ext
  let storedDirty := settingsDirty stored.ext
  let merged := { merged with isMentionOnly := merged.isMentionOnly.or stored.isMentionOnly }
  if storedDirty ∧ incomingVersion ≤ storedVersion then takeLocalSettings stored merged
  else if incomingVersion ≥ storedVersion then
    -- Entries the summary does not have are kept.
    { merged with ext := (stored.ext ∪ merged.ext).insert extSettingsDirty "0" }
  else takeLocalSettings stored merged

def preserveLocalLatestMessage (stored incoming merged : Conversation) : Conversation :=
  if hasLastMessage stored ∧
      (incoming.maxSeq ≤ stored.maxSeq ∨ ¬ hasLastMessage incoming ∨ ¬ hasText incoming.lastMessagePreview) then
    { merged with
      lastMessageId := stored.lastMessageId
      lastSenderId := stored.lastSenderId
      lastMessageAt := stored.lastMessageAt
      lastMessagePreview := stored.lastMessagePreview
      lastMessage := stored.lastMessage
      lastSenderNickname := stored.lastSenderNickname
      lastSenderAvatarUrl := stored.lastSenderAvatarUrl }
  else merged

/-- What a stored row keeps of itself against a summary. -/
def preserveLocal (stored incoming merged : Conversation) : Conversation :=
  let confirmedFloor := max (localClearedThroughSeq stored.ext) (localClearedThroughSeq merged.ext)
  let merged := mergeUserSettings stored merged
  let merged := { merged with ext := setLocalClearedThroughSeq merged.ext confirmedFloor }
  let merged := preserveLocalLatestMessage stored incoming merged
  { merged with
    remark := preserveLocalRemark merged.remark stored.remark
    channelId := preserveLocalSingleChatChannel stored.conversationType merged.channelId stored.channelId }

def mergeReadPosition (stored? : Option Conversation) (incoming : Conversation) : Conversation :=
  let mergedRead := mergeWithIncomingSummary ((stored?.map Conversation.readPosition).getD {})
    incoming.readPosition
  { incoming with
    lastReadSeq := mergedRead.lastReadSeq
    unreadCount := mergedRead.unreadCount
    maxSeq := max incoming.maxSeq mergedRead.maxSeq }

/-- Take the history below the boundary out of the merged row. The last message goes, and the unread
count with it, if the incoming summary ends at or below the boundary. -/
def applyVisibilityFloor (incoming merged : Conversation) : Conversation :=
  let floor := syncVisibilityFloor merged
  let merged := { merged with visibleAfterSeq := floor }
  if floor > 0 then
    let merged := { merged with lastReadSeq := max merged.lastReadSeq floor, maxSeq := max merged.maxSeq floor }
    if incoming.maxSeq ≤ floor then
      { merged with
        lastMessageId := none
        lastSenderId := none
        lastMessageAt := none
        lastMessagePreview := none
        lastMessage := none
        unreadCount := 0 }
    else merged
  else merged

/-- The name column holds names only: not the remark, and not an id of the conversation. -/
def withBusinessName (merged : Conversation) : Conversation :=
  { merged with displayName := businessName merged.displayName [merged.channelId, merged.conversationId] }

def boundUnread (merged : Conversation) : Conversation :=
  { merged with unreadCount := min merged.unreadCount merged.readPosition.unreadUpperBound }

def mergeIncomingConversationSummary (stored? : Option Conversation) (incoming : Conversation) : Conversation :=
  let merged := mergeReadPosition stored? incoming
  let merged := stored?.elim merged fun stored => preserveLocal stored incoming merged
  boundUnread (applyVisibilityFloor incoming (withBusinessName merged))

/-! ### What the parts change -/

variable (stored incoming merged : Conversation)

/-- The fields of a row that settings, names and marks do not reach. -/
structure SameHead (c d : Conversation) : Prop where
  conversationId : c.conversationId = d.conversationId
  readPosition : c.readPosition = d.readPosition
  visibleAfterSeq : c.visibleAfterSeq = d.visibleAfterSeq

theorem sameHead_mergeUserSettings : SameHead (mergeUserSettings stored merged) merged := by
  unfold mergeUserSettings
  dsimp only
  split
  · exact ⟨rfl, rfl, rfl⟩
  · split <;> exact ⟨rfl, rfl, rfl⟩

theorem sameHead_preserveLocalLatestMessage :
    SameHead (preserveLocalLatestMessage stored incoming merged) merged := by
  unfold preserveLocalLatestMessage
  split <;> exact ⟨rfl, rfl, rfl⟩

theorem sameHead_preserveLocal : SameHead (preserveLocal stored incoming merged) merged := by
  have hsettings := sameHead_mergeUserSettings stored merged
  have hlatest := sameHead_preserveLocalLatestMessage stored incoming
    { mergeUserSettings stored merged with
      ext := setLocalClearedThroughSeq (mergeUserSettings stored merged).ext
        (max (localClearedThroughSeq stored.ext) (localClearedThroughSeq merged.ext)) }
  exact ⟨hlatest.conversationId.trans hsettings.conversationId, hlatest.readPosition.trans hsettings.readPosition,
    hlatest.visibleAfterSeq.trans hsettings.visibleAfterSeq⟩

theorem ext_preserveLocalLatestMessage : (preserveLocalLatestMessage stored incoming merged).ext = merged.ext := by
  unfold preserveLocalLatestMessage
  split <;> rfl

/-- The mark of a local clear is the larger of the two, whichever settings win. -/
theorem localClearedThroughSeq_preserveLocal : localClearedThroughSeq (preserveLocal stored incoming merged).ext =
      max (localClearedThroughSeq stored.ext) (localClearedThroughSeq merged.ext) := by
  have hext : (preserveLocal stored incoming merged).ext =
      setLocalClearedThroughSeq (mergeUserSettings stored merged).ext
        (max (localClearedThroughSeq stored.ext) (localClearedThroughSeq merged.ext)) :=
    ext_preserveLocalLatestMessage _ _ _
  rw [hext]
  exact localClearedThroughSeq_set _ (max_le (localClearedThroughSeq_le _) (localClearedThroughSeq_le _))

/-! ### The last message -/

structure SameLastMessage (c d : Conversation) : Prop where
  lastMessageId : c.lastMessageId = d.lastMessageId
  lastSenderId : c.lastSenderId = d.lastSenderId
  lastMessageAt : c.lastMessageAt = d.lastMessageAt
  lastMessagePreview : c.lastMessagePreview = d.lastMessagePreview
  lastMessage : c.lastMessage = d.lastMessage
  lastSenderNickname : c.lastSenderNickname = d.lastSenderNickname
  lastSenderAvatarUrl : c.lastSenderAvatarUrl = d.lastSenderAvatarUrl

theorem SameLastMessage.trans {c d e : Conversation} (h : SameLastMessage c d) (h' : SameLastMessage d e) :
    SameLastMessage c e :=
  ⟨h.1.trans h'.1, h.2.trans h'.2, h.3.trans h'.3, h.4.trans h'.4, h.5.trans h'.5, h.6.trans h'.6, h.7.trans h'.7⟩

theorem sameLastMessage_boundUnread : SameLastMessage (boundUnread merged) merged :=
  ⟨rfl, rfl, rfl, rfl, rfl, rfl, rfl⟩

theorem SameLastMessage.hasLastMessage_eq {c d : Conversation} (h : SameLastMessage c d) :
    hasLastMessage c = hasLastMessage d := by
  rw [hasLastMessage, h.lastMessageId, h.lastMessagePreview, h.lastMessageAt, hasLastMessage]

/-! ### The boundary -/

def Conversation.userSettings (c : Conversation) : Bool × Bool × Bool × Option String :=
  (c.isPinned, c.isMuted, c.isArchived, c.draft)

/-- What the cut at a boundary leaves alone and what it raises. -/
structure CutAt (floor : ℕ) (c d : Conversation) : Prop where
  conversationId : d.conversationId = c.conversationId
  ext : d.ext = c.ext
  userSettings : d.userSettings = c.userSettings
  visibleAfterSeq : d.visibleAfterSeq = floor
  lastReadSeq : d.lastReadSeq = max c.lastReadSeq floor
  maxSeq : d.maxSeq = max c.maxSeq floor

theorem cutAt_applyVisibilityFloor :
    CutAt (syncVisibilityFloor merged) merged (applyVisibilityFloor incoming merged) := by
  unfold applyVisibilityFloor
  dsimp only
  split
  · split <;> exact ⟨rfl, rfl, rfl, rfl, rfl, rfl⟩
  · next hzero =>
    have hfloor : syncVisibilityFloor merged = 0 := by omega
    exact ⟨rfl, rfl, rfl, rfl, by simp [hfloor], by simp [hfloor]⟩

/-- The incoming summary ends at or below a boundary: the row is emptied. -/
def EndsBelow (incoming : Conversation) (floor : ℕ) : Prop := 0 < floor ∧ incoming.maxSeq ≤ floor

variable {incoming merged} in
theorem applyVisibilityFloor_of_endsBelow (h : EndsBelow incoming (syncVisibilityFloor merged)) :
    hasLastMessage (applyVisibilityFloor incoming merged) = false ∧
      (applyVisibilityFloor incoming merged).unreadCount = 0 := by
  unfold applyVisibilityFloor
  rw [if_pos h.1, if_pos h.2]
  exact ⟨rfl, rfl⟩

variable {incoming merged} in
theorem applyVisibilityFloor_of_not_endsBelow (h : ¬ EndsBelow incoming (syncVisibilityFloor merged)) :
    SameLastMessage (applyVisibilityFloor incoming merged) merged ∧
      (applyVisibilityFloor incoming merged).unreadCount = merged.unreadCount := by
  unfold applyVisibilityFloor
  dsimp only
  split
  · next hpos =>
    rw [if_neg fun hle => h ⟨hpos, hle⟩]
    exact ⟨⟨rfl, rfl, rfl, rfl, rfl, rfl, rfl⟩, rfl⟩
  · exact ⟨⟨rfl, rfl, rfl, rfl, rfl, rfl, rfl⟩, rfl⟩

/-! ### The merge into a stored row -/

/-- The boundary after a merge: the local clear of either side, and the server's boundary in the summary. -/
def mergedFloor (stored incoming : Conversation) : ℕ :=
  max (localClearedThroughSeq stored.ext) (syncVisibilityFloor incoming)

/-- The merged row before its history is cut at the boundary. -/
def mergedRow (stored incoming : Conversation) : Conversation :=
  withBusinessName (preserveLocal stored incoming (mergeReadPosition (some stored) incoming))

theorem merge_some : mergeIncomingConversationSummary (some stored) incoming =
    boundUnread (applyVisibilityFloor incoming (mergedRow stored incoming)) := rfl

theorem merge_none : mergeIncomingConversationSummary none incoming =
    boundUnread (applyVisibilityFloor incoming (withBusinessName (mergeReadPosition none incoming))) := rfl

theorem sameHead_mergedRow : SameHead (mergedRow stored incoming) (mergeReadPosition (some stored) incoming) :=
  have h := sameHead_preserveLocal stored incoming (mergeReadPosition (some stored) incoming)
  ⟨h.conversationId, h.readPosition, h.visibleAfterSeq⟩

theorem localClearedThroughSeq_mergedRow : localClearedThroughSeq (mergedRow stored incoming).ext =
      max (localClearedThroughSeq stored.ext) (localClearedThroughSeq incoming.ext) :=
  localClearedThroughSeq_preserveLocal stored incoming (mergeReadPosition (some stored) incoming)

theorem syncVisibilityFloor_mergedRow :
    syncVisibilityFloor (mergedRow stored incoming) = mergedFloor stored incoming := by
  rw [syncVisibilityFloor, localClearedThroughSeq_mergedRow, (sameHead_mergedRow stored incoming).visibleAfterSeq,
    mergedFloor, syncVisibilityFloor, max_assoc]
  rfl

variable {stored incoming} in
theorem sameLastMessage_mergedRow (hlast : hasLastMessage stored = true)
    (hstale : incoming.maxSeq ≤ stored.maxSeq) : SameLastMessage (mergedRow stored incoming) stored := by
  simp only [mergedRow, withBusinessName, preserveLocal, preserveLocalLatestMessage]
  rw [if_pos ⟨hlast, .inl hstale⟩]
  exact ⟨rfl, rfl, rfl, rfl, rfl, rfl, rfl⟩

/-- The later of the two read positions; a row that counts unread messages and was never read was
read up to them. -/
def laterReadSeq (stored incoming : Conversation) : ℕ :=
  max incoming.readPosition.normalizeForUnreadDelta.lastReadSeq
    stored.readPosition.normalizeForUnreadDelta.lastReadSeq

theorem lastReadSeq_mergedRow : (mergedRow stored incoming).lastReadSeq = laterReadSeq stored incoming := by
  have hread := congrArg lastReadSeq (sameHead_mergedRow stored incoming).readPosition
  exact hread.trans (lastReadSeq_mergeWithIncomingSummary _ _)

section Stale
variable {stored incoming} (hstale : incoming.maxSeq ≤ stored.maxSeq)
include hstale

theorem maxSeq_mergedRow : (mergedRow stored incoming).maxSeq = stored.maxSeq := by
  have hmax := congrArg maxSeq (sameHead_mergedRow stored incoming).readPosition
  refine hmax.trans ?_
  show max incoming.maxSeq (mergeWithIncomingSummary stored.readPosition incoming.readPosition).maxSeq = _
  rw [maxSeq_mergeWithIncomingSummary]
  exact (max_eq_right (le_max_left _ _)).trans (max_eq_right hstale)

theorem unreadCount_mergedRow : (mergedRow stored incoming).unreadCount =
      min stored.unreadCount ((stored.maxSeq - laterReadSeq stored incoming) % 2 ^ 32) := by
  have hunread := congrArg unreadCount (sameHead_mergedRow stored incoming).readPosition
  refine hunread.trans ?_
  show (mergeWithIncomingSummary stored.readPosition incoming.readPosition).unreadCount = _
  have hchosen : chosenUnread stored.readPosition incoming.readPosition = stored.unreadCount := if_pos hstale
  have hmax : max incoming.readPosition.maxSeq stored.readPosition.maxSeq = stored.maxSeq := max_eq_right hstale
  rw [unreadCount_mergeWithIncomingSummary, hchosen, unreadUpperBound, maxSeq_mergeWithIncomingSummary,
    lastReadSeq_mergeWithIncomingSummary, hmax]
  rfl

theorem unreadCount_merge_of_not_endsBelow (hends : ¬ EndsBelow incoming (mergedFloor stored incoming)) :
    (mergeIncomingConversationSummary (some stored) incoming).unreadCount =
      min (min stored.unreadCount ((stored.maxSeq - laterReadSeq stored incoming) % 2 ^ 32))
        ((stored.maxSeq - max (laterReadSeq stored incoming) (mergedFloor stored incoming)) % 2 ^ 32) := by
  have hfloor := syncVisibilityFloor_mergedRow stored incoming
  have hcut := applyVisibilityFloor_of_not_endsBelow (hfloor.symm ▸ hends)
  -- The boundary lies below the end of the summary, so the end of the row stays where it was.
  have hmax : (applyVisibilityFloor incoming (mergedRow stored incoming)).maxSeq = stored.maxSeq := by
    rw [(cutAt_applyVisibilityFloor _ _).maxSeq, hfloor, maxSeq_mergedRow hstale]
    refine max_eq_left ?_
    by_contra hlt
    exact hends ⟨by omega, by omega⟩
  rw [merge_some]
  show min (applyVisibilityFloor incoming (mergedRow stored incoming)).unreadCount
    (((applyVisibilityFloor incoming (mergedRow stored incoming)).maxSeq -
      (applyVisibilityFloor incoming (mergedRow stored incoming)).lastReadSeq) % 2 ^ 32) = _
  rw [hcut.2, hmax, (cutAt_applyVisibilityFloor _ _).lastReadSeq, hfloor, unreadCount_mergedRow hstale,
    lastReadSeq_mergedRow]

theorem unreadCount_merge_le :
    (mergeIncomingConversationSummary (some stored) incoming).unreadCount ≤ stored.unreadCount := by
  by_cases hends : EndsBelow incoming (mergedFloor stored incoming)
  · have hempty := applyVisibilityFloor_of_endsBelow ((syncVisibilityFloor_mergedRow stored incoming).symm ▸ hends)
    rw [merge_some]
    exact (min_le_left _ _).trans (hempty.2.trans_le (Nat.zero_le _))
  · rw [unreadCount_merge_of_not_endsBelow hstale hends]
    exact (min_le_left _ _).trans (min_le_left _ _)

theorem maxSeq_merge_some : (mergeIncomingConversationSummary (some stored) incoming).maxSeq =
    max stored.maxSeq (mergedFloor stored incoming) := by
  rw [merge_some, ← syncVisibilityFloor_mergedRow, ← maxSeq_mergedRow hstale]
  exact (cutAt_applyVisibilityFloor _ _).maxSeq

end Stale

theorem lastReadSeq_merge_some : (mergeIncomingConversationSummary (some stored) incoming).lastReadSeq =
    max (laterReadSeq stored incoming) (mergedFloor stored incoming) := by
  rw [merge_some, ← syncVisibilityFloor_mergedRow, ← lastReadSeq_mergedRow]
  exact (cutAt_applyVisibilityFloor _ _).lastReadSeq

theorem conversationId_merge (stored? : Option Conversation) (incoming : Conversation) :
    (mergeIncomingConversationSummary stored? incoming).conversationId = incoming.conversationId := by
  refine (cutAt_applyVisibilityFloor incoming _).conversationId.trans ?_
  cases stored? with
  | none => rfl
  | some stored => exact (sameHead_mergedRow stored incoming).conversationId

theorem localClearedThroughSeq_merge_some :
    localClearedThroughSeq (mergeIncomingConversationSummary (some stored) incoming).ext =
      max (localClearedThroughSeq stored.ext) (localClearedThroughSeq incoming.ext) := by
  rw [← localClearedThroughSeq_mergedRow, merge_some]
  exact congrArg localClearedThroughSeq (cutAt_applyVisibilityFloor _ _).ext

/-- The merged row's boundary takes the server's from the summary alone: the stored one is not part of it. -/
theorem syncVisibilityFloor_merge_some :
    syncVisibilityFloor (mergeIncomingConversationSummary (some stored) incoming) =
      mergedFloor stored incoming := by
  have hvisible : (mergeIncomingConversationSummary (some stored) incoming).visibleAfterSeq =
      mergedFloor stored incoming := by
    rw [merge_some, ← syncVisibilityFloor_mergedRow]
    exact (cutAt_applyVisibilityFloor _ _).visibleAfterSeq
  rw [syncVisibilityFloor, hvisible, localClearedThroughSeq_merge_some, mergedFloor, syncVisibilityFloor]
  omega

/-! ### Stale summaries and the local head -/

/-- The merged row shows the local last message, and its unread count is reset only by reading: it is
zero if it was, or if everything up to the local head is read. -/
structure KeepsHead (stored merged : Conversation) : Prop where
  lastMessage : SameLastMessage merged stored
  unread : merged.unreadCount = 0 → stored.unreadCount = 0 ∨ stored.maxSeq ≤ merged.lastReadSeq

/-- The unread messages of a row that is not read to its end survive the cut of their bounds to 32 bits. -/
def BoundsFit (stored incoming : Conversation) : Prop :=
  0 < stored.unreadCount → max (laterReadSeq stored incoming) (mergedFloor stored incoming) < stored.maxSeq →
    ¬ 2 ^ 32 ∣ stored.maxSeq - laterReadSeq stored incoming ∧
      ¬ 2 ^ 32 ∣ stored.maxSeq - max (laterReadSeq stored incoming) (mergedFloor stored incoming)

/-- A summary that is not ahead of the row keeps the local head exactly if the boundary of the merge is
zero or lies below the end of *the summary*. A boundary between the two ends hides nothing of the local
head and still empties the row. -/
theorem keepsHead_merge_iff (stored incoming : Conversation) (hlast : hasLastMessage stored = true)
    (hstale : incoming.maxSeq ≤ stored.maxSeq) :
    KeepsHead stored (mergeIncomingConversationSummary (some stored) incoming) ↔
      (mergedFloor stored incoming = 0 ∨ mergedFloor stored incoming < incoming.maxSeq) ∧
        BoundsFit stored incoming := by
  have hfloor := syncVisibilityFloor_mergedRow stored incoming
  by_cases hends : EndsBelow incoming (mergedFloor stored incoming)
  · -- The row was emptied, so it does not show the local last message.
    have hempty := applyVisibilityFloor_of_endsBelow (hfloor.symm ▸ hends)
    constructor
    · intro hkeeps
      have hsame := hkeeps.lastMessage.hasLastMessage_eq.trans hlast
      rw [merge_some, (sameLastMessage_boundUnread _).hasLastMessage_eq, hempty.1] at hsame
      contradiction
    · rintro ⟨hzero | hbelow, -⟩
      · exact absurd hends.1 (by omega)
      · exact absurd hends.2 (by omega)
  · have hcut := applyVisibilityFloor_of_not_endsBelow (hfloor.symm ▸ hends)
    have hsame : SameLastMessage (mergeIncomingConversationSummary (some stored) incoming) stored := by
      rw [merge_some]
      exact (sameLastMessage_boundUnread _).trans (hcut.1.trans (sameLastMessage_mergedRow hlast hstale))
    have hread := lastReadSeq_merge_some stored incoming
    have hunread := unreadCount_merge_of_not_endsBelow hstale hends
    have hside : mergedFloor stored incoming = 0 ∨ mergedFloor stored incoming < incoming.maxSeq := by
      by_contra hnot
      exact hends ⟨by omega, by omega⟩
    rw [BoundsFit, Nat.dvd_iff_mod_eq_zero, Nat.dvd_iff_mod_eq_zero]
    constructor
    · intro hkeeps
      refine ⟨hside, fun hpos hbelow => ?_⟩
      have hreset := hkeeps.unread
      rw [hunread, hread] at hreset
      omega
    · rintro ⟨-, hfit⟩
      refine ⟨hsame, fun hzero => ?_⟩
      rw [hunread] at hzero
      rw [hread]
      omega

/-- A row that ends at 10, with two unread messages, whose history was cleared through 5. -/
def sampleStored : Conversation :=
  { conversationId := "c", maxSeq := 10, lastReadSeq := 8, unreadCount := 2, lastMessageId := some "m10",
    lastMessageAt := some 100, ext := setLocalClearedThroughSeq ∅ 5 }

/-- A summary from when the conversation ended at `maxSeq`. -/
def staleSummary (maxSeq : ℕ) : Conversation := { conversationId := "c", maxSeq := maxSeq }

theorem keepsHead_merge_iff_sampleStored :
    KeepsHead sampleStored (mergeIncomingConversationSummary (some sampleStored) (staleSummary 7)) :=
  (keepsHead_merge_iff sampleStored (staleSummary 7) (by decide) (by decide)).mpr
    ⟨by decide, fun _ _ => by decide⟩

/-- The boundary 5 lies below the local head 10; the summary ends at 4. -/
theorem not_keepsHead_sampleStored :
    hasLastMessage sampleStored = true ∧ (staleSummary 4).maxSeq ≤ sampleStored.maxSeq ∧
      mergedFloor sampleStored (staleSummary 4) < sampleStored.maxSeq ∧
      (mergeIncomingConversationSummary (some sampleStored) (staleSummary 4)).lastMessageId = none ∧
      (mergeIncomingConversationSummary (some sampleStored) (staleSummary 4)).unreadCount = 0 ∧
      ¬ KeepsHead sampleStored (mergeIncomingConversationSummary (some sampleStored) (staleSummary 4)) := by
  have hgone : (mergeIncomingConversationSummary (some sampleStored) (staleSummary 4)).lastMessageId = none := by
    decide
  refine ⟨by decide, by decide, by decide, hgone, by decide, fun hkeeps => ?_⟩
  exact absurd (hgone.symm.trans hkeeps.lastMessage.lastMessageId) (by decide)

/-! ### User settings over many summaries -/

/-- The version of the settings, twice, and one more while they are not sent. -/
def settingsRank (c : Conversation) : ℕ := 2 * settingsVersion c.ext + (settingsDirty c.ext).toNat

/-- The settings of the row are newer than the summary's, or as new and not sent yet. -/
def KeepsSettings (row c : Conversation) : Prop :=
  settingsVersion c.ext < settingsVersion row.ext ∨
    settingsVersion c.ext = settingsVersion row.ext ∧ settingsDirty row.ext = true

section Settings

variable {row c : Conversation} {row? : Option Conversation} {summaries : List Conversation}

theorem keepsSettings_iff : KeepsSettings row c ↔ 2 * settingsVersion c.ext < settingsRank row := by
  unfold KeepsSettings settingsRank
  cases settingsDirty row.ext <;> simp; omega

theorem getElem?_setLocalCleared {key : String} (h : extLocalClearedThroughSeq ≠ key) (ext : Attributes) (seq : ℕ) :
    (setLocalClearedThroughSeq ext seq)[key]? = ext[key]? := by
  unfold setLocalClearedThroughSeq
  split
  · rw [getElem?_erase_of_ne h]
  · rw [getElem?_insert_of_ne h]

/-- After the settings are merged, only the mark of a local clear changes among the entries. -/
theorem settings_merge_some (row c : Conversation) : ∃ seq,
    (mergeIncomingConversationSummary (some row) c).ext =
        setLocalClearedThroughSeq (mergeUserSettings row (mergeReadPosition (some row) c)).ext seq ∧
      (mergeIncomingConversationSummary (some row) c).userSettings =
        (mergeUserSettings row (mergeReadPosition (some row) c)).userSettings := by
  have hcut := cutAt_applyVisibilityFloor c (mergedRow row c)
  refine ⟨_, hcut.ext.trans (ext_preserveLocalLatestMessage ..), hcut.userSettings.trans ?_⟩
  simp only [mergedRow, withBusinessName, preserveLocal, preserveLocalLatestMessage]
  split <;> rfl

theorem merge_of_keeps (h : KeepsSettings row c) :
    (mergeIncomingConversationSummary (some row) c).userSettings = row.userSettings ∧
      settingsRank (mergeIncomingConversationSummary (some row) c) = settingsRank row := by
  obtain ⟨seq, hext, hsettings⟩ := settings_merge_some row c
  have hkept : ∃ d, mergeUserSettings row (mergeReadPosition (some row) c) = takeLocalSettings row d := by
    unfold mergeUserSettings
    dsimp only
    split_ifs with hdirty hnewer
    · exact ⟨_, rfl⟩
    · rcases h with hlt | ⟨heq, hkept⟩
      · exact absurd hnewer (not_le.mpr hlt)
      · exact absurd ⟨hkept, heq.le⟩ hdirty
    · exact ⟨_, rfl⟩
  obtain ⟨d, hd⟩ := hkept
  rw [hsettings, settingsRank, settingsVersion, settingsDirty, hext, getElem?_setLocalCleared (by decide),
    getElem?_setLocalCleared (by decide), hd]
  exact ⟨rfl, rfl⟩

theorem merge_of_not_keeps (h : ∀ row ∈ row?, ¬ KeepsSettings row c) :
    (mergeIncomingConversationSummary row? c).userSettings = c.userSettings ∧
      settingsVersion (mergeIncomingConversationSummary row? c).ext = settingsVersion c.ext := by
  cases row? with
  | none =>
    have hcut := cutAt_applyVisibilityFloor c (withBusinessName (mergeReadPosition none c))
    exact ⟨hcut.userSettings, congrArg settingsVersion hcut.ext⟩
  | some row =>
    obtain ⟨seq, hext, hsettings⟩ := settings_merge_some row c
    have hnot := h row rfl
    rw [KeepsSettings, not_or, not_lt] at hnot
    have htaken : mergeUserSettings row (mergeReadPosition (some row) c) = { mergeReadPosition (some row) c with
        isMentionOnly := c.isMentionOnly.or row.isMentionOnly
        ext := (row.ext ∪ c.ext).insert extSettingsDirty "0" } :=
      (if_neg fun hdirty => hnot.2 ⟨le_antisymm hdirty.2 hnot.1, hdirty.1⟩).trans (if_pos hnot.1)
    rw [hsettings, settingsVersion, hext, getElem?_setLocalCleared (by decide), htaken]
    refine ⟨rfl, ?_⟩
    rw [getElem?_insert_of_ne (by decide), Std.ExtTreeMap.getElem?_union, settingsVersion]
    cases hkey : c.ext[extUserSettingsVersion]? with
    | some text => simp
    | none => simpa [settingsVersion, hkey] using hnot.1

def mergeNext (row? : Option Conversation) (c : Conversation) : Option Conversation :=
  some (mergeIncomingConversationSummary row? c)

theorem userSettings_run_of_lt (h : ∀ c ∈ summaries, 2 * settingsVersion c.ext < settingsRank row) :
    (run mergeNext (some row) summaries).map Conversation.userSettings = some row.userSettings := by
  induction summaries generalizing row with
  | nil => rfl
  | cons c summaries ih =>
    rw [List.forall_mem_cons] at h
    obtain ⟨hsettings, hrank⟩ := merge_of_keeps (keepsSettings_iff.mpr h.1)
    rw [run_cons, mergeNext, ih (hrank ▸ h.2), hsettings]

/-- The highest version wins against a row that does not keep its settings from it. -/
theorem userSettings_run_of_not_keeps {top : Conversation} (hmem : top ∈ summaries)
    (hdistinct : (summaries.map fun c => settingsVersion c.ext).Nodup)
    (htop : ∀ c ∈ summaries, settingsVersion c.ext ≤ settingsVersion top.ext)
    (h : ∀ row ∈ row?, ¬ KeepsSettings row top) :
    (run mergeNext row? summaries).map Conversation.userSettings = some top.userSettings := by
  induction summaries generalizing row? with
  | nil => cases hmem
  | cons c summaries ih =>
    rw [List.map_cons, List.nodup_cons, List.mem_map] at hdistinct
    rw [List.forall_mem_cons] at htop
    have hne : ∀ d ∈ summaries, settingsVersion d.ext ≠ settingsVersion c.ext :=
      fun d hd heq => hdistinct.1 ⟨d, hd, heq⟩
    rcases List.mem_cons.mp hmem with rfl | hmem
    · obtain ⟨hsettings, hversion⟩ := merge_of_not_keeps h
      rw [run_cons, mergeNext, userSettings_run_of_lt, hsettings]
      intro d hd
      have hle := htop.2 d hd
      have hlt := hne d hd
      rw [settingsRank, hversion]
      omega
    · refine ih hmem hdistinct.2 htop.2 fun row hrow => ?_
      obtain rfl := Option.some.inj hrow
      have hlt := hne top hmem
      by_cases hkeeps : ∃ row ∈ row?, KeepsSettings row c
      · obtain ⟨row, rfl, hkeeps⟩ := hkeeps
        rw [keepsSettings_iff, (merge_of_keeps hkeeps).2, ← keepsSettings_iff]
        exact h row rfl
      · have hversion := (merge_of_not_keeps fun row hrow hkeeps' => hkeeps ⟨row, hrow, hkeeps'⟩).2
        rw [KeepsSettings, hversion]
        omega

end Settings

/-- After summaries of different versions, in any order, the settings are those of the highest version, unless
the row at the start keeps its own against that one. -/
theorem userSettings_run (row? : Option Conversation) (summaries : List Conversation) (top : Conversation)
    (hmem : top ∈ summaries) (hdistinct : (summaries.map fun c => settingsVersion c.ext).Nodup)
    (htop : ∀ c ∈ summaries, settingsVersion c.ext ≤ settingsVersion top.ext) :
    ((∀ row ∈ row?, ¬ KeepsSettings row top) →
        (run mergeNext row? summaries).map Conversation.userSettings = some top.userSettings) ∧
      ∀ row ∈ row?, KeepsSettings row top →
        (run mergeNext row? summaries).map Conversation.userSettings = some row.userSettings := by
  refine ⟨userSettings_run_of_not_keeps hmem hdistinct htop, fun row hrow hkeeps => ?_⟩
  rw [Option.mem_def.mp hrow]
  refine userSettings_run_of_lt fun c hc => ?_
  have hle := htop c hc
  rw [keepsSettings_iff] at hkeeps
  omega

def versioned (version : ℕ) (isPinned : Bool) : Conversation :=
  { isPinned := isPinned, ext := (∅ : Attributes).insert extUserSettingsVersion (toString version) }

theorem userSettings_run_two :
    (run mergeNext none [versioned 2 true, versioned 1 false]).map Conversation.userSettings =
    some (true, false, false, none) :=
  (userSettings_run none _ (versioned 2 true) List.mem_cons_self (by decide) (by decide)).1 (by simp)

end FlareIm.Conversations
