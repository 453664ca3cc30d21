import FlareIm.Conversations.SummaryMerge
import FlareIm.Lib.KeyedMap
import FlareIm.Lib.Run

/-! The memory store of conversations, and the local clear of a conversation's history that runs over
it. Rows sit under their own id. Besides them the store keeps, for each conversation, the largest seq
of a message that was really projected into it; a summary raises `max_seq` of the row and not this. -/

namespace FlareIm.Conversations

open Lib Message Store Conversation Option

/-! ### What one call writes into a row -/

variable (c : Conversation) (unreadCount lastReadSeq : ℕ)

def Conversation.withUnread : Conversation :=
  let updated := { c with unreadCount := unreadCount, lastReadSeq := lastReadSeq }
  if unreadCount = 0 then { updated with mentionCount := 0, mentionMe := false } else updated

/-- A message becomes the last one if it is not older than the last one by seq or by time. -/
def Conversation.withLastMessage (lastMessageId lastSenderId : String) (lastMessageAt : ℕ)
    (lastMessagePreview : Option String) (maxSeq : ℕ) : Conversation :=
  let replaced :=
    if maxSeq ≥ c.maxSeq ∨ lastMessageAt ≥ c.lastMessageAt.getD 0 then
      { c with
        lastMessageId := some lastMessageId
        lastSenderId := some lastSenderId
        lastMessageAt := some lastMessageAt
        lastMessagePreview := lastMessagePreview }
    else c
  { replaced with maxSeq := max c.maxSeq maxSeq }

def Conversation.withoutHistory (clearedThroughSeq : ℕ) : Conversation :=
  { c with
    lastMessageId := none
    lastMessagePreview := none
    lastMessageAt := none
    unreadCount := 0
    ext := if clearedThroughSeq > 0 then setLocalClearedThroughSeq c.ext clearedThroughSeq else c.ext }

/-- What a message or a read position changes of a row is not its boundary. -/
structure SameBoundary (c d : Conversation) : Prop where
  conversationId : c.conversationId = d.conversationId
  visibleAfterSeq : c.visibleAfterSeq = d.visibleAfterSeq
  ext : c.ext = d.ext

theorem sameBoundary_withUnread :
    SameBoundary (c.withUnread unreadCount lastReadSeq) c := by
  unfold withUnread
  split <;> exact ⟨rfl, rfl, rfl⟩

theorem sameBoundary_withLastMessage (lastMessageId lastSenderId : String) (lastMessageAt : ℕ)
    (lastMessagePreview : Option String) (maxSeq : ℕ) :
    SameBoundary (c.withLastMessage lastMessageId lastSenderId lastMessageAt lastMessagePreview maxSeq) c := by
  unfold withLastMessage
  split <;> exact ⟨rfl, rfl, rfl⟩

theorem SameBoundary.syncVisibilityFloor_eq {c d : Conversation} (h : SameBoundary c d) :
    syncVisibilityFloor c = syncVisibilityFloor d := by
  rw [syncVisibilityFloor, syncVisibilityFloor, h.ext, h.visibleAfterSeq]

theorem readPosition_withUnread :
    (c.withUnread unreadCount lastReadSeq).readPosition = ⟨c.maxSeq, lastReadSeq, unreadCount⟩ := by
  unfold withUnread
  split <;> rfl

/-! ### The store -/

structure MemoryConversationStore where
  data : KeyedMap String Conversation Conversation.conversationId := .empty
  materializedMaxSeq : Std.ExtTreeMap String ℕ := ∅

namespace MemoryConversationStore

variable (s : MemoryConversationStore) (conversationId : String)

def get : Option Conversation := s.data.find? conversationId

def getLocalMaxSeq : ℕ := s.materializedMaxSeq[conversationId]?.getD 0

def put (c : Conversation) : MemoryConversationStore := { s with data := s.data.insert c }

def mergeSummary (summary : Conversation) : MemoryConversationStore :=
  s.put (mergeIncomingConversationSummary (s.get summary.conversationId) summary)

/-- A batch with a blank id is refused before anything is merged. -/
def saveBatch (conversations : List Conversation) : Except FlareError MemoryConversationStore :=
  if conversations.any fun c => isBlank c.conversationId then .error ⟨"conversationId 不能为空"⟩
  else .ok (conversations.foldl mergeSummary s)

def saveOne (conversation : Conversation) : Except FlareError MemoryConversationStore :=
  s.saveBatch [conversation]

/-- Rewrite the row of a conversation if there is one; `f` keeps its id. -/
def update (f : Conversation → Conversation) : MemoryConversationStore :=
  (s.get conversationId).elim s fun c => s.put (f c)

theorem get_put (c : Conversation) (id : String) :
    (s.put c).get id = if id = c.conversationId then some c else s.get id := KeyedMap.find?_insert _ _ _

variable {s} in
theorem conversationId_of_get {id : String} {c : Conversation} (h : s.get id = some c) : c.conversationId = id :=
  KeyedMap.key_of_find? h

theorem get_mergeSummary (summary : Conversation) (id : String) : (s.mergeSummary summary).get id =
      if id = summary.conversationId then some (mergeIncomingConversationSummary (s.get id) summary)
      else s.get id := by
  rw [mergeSummary, get_put, conversationId_merge]
  by_cases h : id = summary.conversationId
  · rw [if_pos h, if_pos h, h]
  · rw [if_neg h, if_neg h]

section

variable (conversationId : String)

theorem get_update {f : Conversation → Conversation}
    (hf : ∀ c, (f c).conversationId = c.conversationId) (id : String) :
    (s.update conversationId f).get id = if id = conversationId then (s.get id).map f else s.get id := by
  unfold update
  cases h : s.get conversationId with
  | none =>
    rw [elim_none]
    split
    · next hid => rw [hid, h, map_none]
    · rfl
  | some c =>
    rw [elim_some, get_put, hf, conversationId_of_get h]
    split
    · next hid => rw [hid, h, map_some]
    · rfl

def updateUnread (unreadCount lastReadSeq : ℕ) : MemoryConversationStore :=
  s.update conversationId fun c => c.withUnread unreadCount lastReadSeq

def setArchived (archived : Bool) : MemoryConversationStore :=
  s.update conversationId fun c => { c with isArchived := archived }

def materialize (seq : ℕ) : MemoryConversationStore :=
  { s with
    materializedMaxSeq := s.materializedMaxSeq.insert conversationId (max (s.getLocalMaxSeq conversationId) seq) }

end

section

variable (conversationId lastMessageId lastSenderId : String) (lastMessageAt : ℕ)
    (lastMessagePreview : Option String) (maxSeq : ℕ)

def updateLastMessage : MemoryConversationStore :=
  let s := s.update conversationId fun c =>
    c.withLastMessage lastMessageId lastSenderId lastMessageAt lastMessagePreview maxSeq
  if maxSeq > 0 then s.materialize conversationId maxSeq else s

theorem get_updateLastMessage (id : String) :
    (s.updateLastMessage conversationId lastMessageId lastSenderId lastMessageAt lastMessagePreview maxSeq).get id =
      if id = conversationId then (s.get id).map fun c =>
        c.withLastMessage lastMessageId lastSenderId lastMessageAt lastMessagePreview maxSeq else s.get id := by
  rw [← get_update s conversationId (fun c => (sameBoundary_withLastMessage c _ _ _ _ _).conversationId)]
  unfold updateLastMessage
  split <;> rfl

end

theorem getLocalMaxSeq_materialize (conversationId : String) (seq : ℕ) (id : String) :
    (s.materialize conversationId seq).getLocalMaxSeq id =
      if id = conversationId then max (s.getLocalMaxSeq id) seq else s.getLocalMaxSeq id := by
  rw [getLocalMaxSeq, materialize, Std.ExtTreeMap.getElem?_insert]
  by_cases h : id = conversationId
  · simp [h]
  · have hcompare : ¬ compare conversationId id = .eq := by simpa using Ne.symm h
    rw [if_neg h, if_neg hcompare, getLocalMaxSeq]

/-! ### Runs of last messages -/

structure LastMessage where
  lastMessageId : String
  lastSenderId : String := ""
  lastMessageAt : ℕ
  lastMessagePreview : Option String := none
  maxSeq : ℕ

def updateLast (conversationId : String) (s : MemoryConversationStore) (u : LastMessage) :
    MemoryConversationStore :=
  s.updateLastMessage conversationId u.lastMessageId u.lastSenderId u.lastMessageAt u.lastMessagePreview u.maxSeq

def EndsWith (conversationId : String) (u : LastMessage) (s : MemoryConversationStore) : Prop :=
  ∃ r, s.get conversationId = some r ∧ r.lastMessageId = some u.lastMessageId ∧
    r.lastMessagePreview = u.lastMessagePreview ∧ r.lastMessageAt = some u.lastMessageAt ∧ r.maxSeq = u.maxSeq

section LastMessage

variable {s} {id : String} {r : Conversation} {u top : LastMessage}

theorem get_updateLast (h : s.get id = some r) : (s.updateLast id u).get id =
    some (r.withLastMessage u.lastMessageId u.lastSenderId u.lastMessageAt u.lastMessagePreview u.maxSeq) := by
  rw [updateLast, get_updateLastMessage, if_pos rfl, h, map_some]

theorem endsWith_updateLast (hget : s.get id = some r) (hmax : r.maxSeq ≤ u.maxSeq) :
    EndsWith id u (s.updateLast id u) := by
  refine ⟨_, get_updateLast hget, ?_⟩
  rw [withLastMessage, if_pos (.inl hmax)]
  exact ⟨rfl, rfl, rfl, max_eq_right hmax⟩

theorem EndsWith.updateLast (h : EndsWith id top s) (hseq : u.maxSeq < top.maxSeq)
    (htime : u.lastMessageAt < top.lastMessageAt) : EndsWith id top (s.updateLast id u) := by
  obtain ⟨r, hget, hid, hpreview, hat, hmax⟩ := h
  refine ⟨_, get_updateLast hget, ?_⟩
  rw [withLastMessage, if_neg (by rw [hat, hmax, getD_some]; omega)]
  exact ⟨hid, hpreview, hat, by dsimp only; omega⟩

end LastMessage

/-- After the updates of a conversation its row ends with the one of the highest seq, if what arrives after
that one is older by time as well. -/
theorem endsWith_run_updateLast (id : String) (row : Conversation) (before after : List LastMessage)
    (top : LastMessage)
    (hrow : s.get id = some row) (hmax : row.maxSeq ≤ top.maxSeq) (hbefore : ∀ u ∈ before, u.maxSeq ≤ top.maxSeq)
    (hafter : ∀ u ∈ after, u.maxSeq < top.maxSeq ∧ u.lastMessageAt < top.lastMessageAt) :
    EndsWith id top (run (updateLast id) s (before ++ top :: after)) := by
  obtain ⟨r, hget, hle⟩ : ∃ r, (run (updateLast id) s before).get id = some r ∧ r.maxSeq ≤ top.maxSeq :=
    run_invariant (I := fun s => ∃ r, s.get id = some r ∧ r.maxSeq ≤ top.maxSeq) (fun _ _ ⟨_, hget, hle⟩ hu =>
        ⟨_, get_updateLast hget, max_le hle hu⟩)
      before s ⟨row, hrow, hmax⟩ (AllSteps.of_mem hbefore)
  rw [run_append, run_cons]
  exact run_invariant (fun _ _ h hu => h.updateLast hu.1 hu.2) after _ (endsWith_updateLast hget hle)
    (AllSteps.of_mem hafter)

def emptyRow : MemoryConversationStore := put {} { conversationId := "c" }

theorem endsWith_run_updateLast_three :
    EndsWith "c" ⟨"m3", "", 9, none, 3⟩ (run (updateLast "c") emptyRow [⟨"m2", "", 20, none, 2⟩,
      ⟨"m3", "", 9, none, 3⟩,
      ⟨"m1", "", 5, none, 1⟩]) :=
  endsWith_run_updateLast emptyRow "c" _ [_] [_] _ rfl (by decide) (by decide) (by decide)

/-- A message with a lower seq and a later time takes the place of the last one and leaves its seq. -/
theorem updateLast_skewed :
    ((run (updateLast "c") emptyRow [⟨"m2", "", 1, none, 2⟩, ⟨"m1", "", 5, none, 1⟩]).get "c").map
    (fun r => (r.lastMessageId, r.lastMessageAt, r.maxSeq)) = some (some "m1", some 5, 2) := by
  decide

/-! ### Two rows of one conversation -/

/-- `target.f = source.f` where the target has none. -/
def fillBlank (target source : String) : String := if isBlank target then source else target

/-- What the row under the new id takes over from the row under the old one. -/
def mergeIdentityRows (target source : Conversation) : Conversation :=
  let filled := { target with
    channelId := fillBlank target.channelId source.channelId
    displayName := fillBlank target.displayName source.displayName
    avatarUrl := fillBlank target.avatarUrl source.avatarUrl
    remark := target.remark.or source.remark
    draft := target.draft.or source.draft }
  let headed :=
    if source.maxSeq > target.maxSeq then
      { filled with
        maxSeq := source.maxSeq
        lastMessageId := source.lastMessageId
        lastSenderId := source.lastSenderId
        lastMessageAt := source.lastMessageAt
        lastMessagePreview := source.lastMessagePreview }
    else filled
  { headed with
    unreadCount := max target.unreadCount source.unreadCount
    lastReadSeq := max target.lastReadSeq source.lastReadSeq
    visibleAfterSeq := max target.visibleAfterSeq source.visibleAfterSeq
    isPinned := target.isPinned || source.isPinned
    isMuted := target.isMuted || source.isMuted
    isArchived := target.isArchived || source.isArchived
    version := max target.version source.version
    updatedAt := max target.updatedAt source.updatedAt
    updatedAtTs := max target.updatedAtTs source.updatedAtTs
    ext := source.ext ∪ target.ext }

/-- The row of the old id as it moves to the new one. A name that is the old id is dropped: under the
new id it would no longer be recognised. -/
def renamed (source : Conversation) (fromId toId : String) : Conversation :=
  { source with
    conversationId := toId
    displayName := businessName source.displayName [source.channelId, fromId] }

/-- Take the row from the old id and put it, or what it leaves, under the new one. -/
def moveRow (source : Conversation) (fromId toId : String) : MemoryConversationStore :=
  let rest := { s with data := s.data.erase fromId }
  let source := renamed source fromId toId
  rest.put ((rest.get toId).elim source fun target => mergeIdentityRows target source)

def moveMaxSeq (fromId toId : String) : MemoryConversationStore :=
  let sourceSeq := s.getLocalMaxSeq fromId
  let forgotten := { s with materializedMaxSeq := s.materializedMaxSeq.erase fromId }
  if sourceSeq > 0 then forgotten.materialize toId sourceSeq else forgotten

def mergeConversationIdentity (fromConversationId toConversationId : String) : MemoryConversationStore :=
  let fromId := trim fromConversationId
  let toId := trim toConversationId
  if fromId.isEmpty ∨ toId.isEmpty ∨ fromId = toId then s
  else (s.get fromId).elim s fun source => (s.moveRow source fromId toId).moveMaxSeq fromId toId

theorem get_moveRow (source : Conversation) {fromId toId : String} (hne : fromId ≠ toId) (id : String) :
    (s.moveRow source fromId toId).get id =
      if id = toId then
        some ((s.get toId).elim (renamed source fromId toId) fun target =>
          mergeIdentityRows target (renamed source fromId toId))
      else if id = fromId then none
      else s.get id := by
  have hrest (k : String) : get { s with data := s.data.erase fromId } k =
      if k = fromId then none else s.get k := KeyedMap.find?_erase _ _ _
  have hid : ((s.get toId).elim (renamed source fromId toId) fun target =>
      mergeIdentityRows target (renamed source fromId toId)).conversationId = toId := by
    cases htarget : s.get toId with
    | none => rfl
    | some target =>
      have hown : target.conversationId = toId := conversationId_of_get htarget
      rw [elim_some, mergeIdentityRows]
      split <;> exact hown
  rw [moveRow, hrest, if_neg hne.symm, get_put, hid, hrest]

theorem get_moveMaxSeq (fromId toId id : String) : (s.moveMaxSeq fromId toId).get id = s.get id := by
  unfold moveMaxSeq
  dsimp only
  split <;> rfl

/-! ### Local clears -/

def clearLocalChatHistory (conversationId : String) (clearedThroughSeq : ℕ) : MemoryConversationStore :=
  let cleared := s.update conversationId fun c => c.withoutHistory clearedThroughSeq
  { cleared with materializedMaxSeq := cleared.materializedMaxSeq.erase conversationId }

end MemoryConversationStore

inductive LocalConversationVisibility
  | keep | visible | archived
  deriving DecidableEq, Repr

/-- The seq through which a clear hides the history: everything the client knows of. `cursor` is the
`last_seq` of the conversation's sync cursor, if one was read. -/
def clearWatermark (s : MemoryConversationStore) (conversation : Conversation) (cursor : Option ℕ) : ℕ :=
  let watermark := conversation.maxSeq
  let watermark := max watermark (s.getLocalMaxSeq conversation.conversationId)
  let watermark := max watermark (localClearedThroughSeq conversation.ext)
  let watermark := max watermark conversation.visibleAfterSeq
  max watermark (cursor.getD 0)

/-- The conversation part of a local clear; the sync cursor and the timeline coverage it also writes
have stores of their own. -/
def clearHistoryBoundary (s : MemoryConversationStore) (cursor : Option ℕ) (conversationId : String)
    (visibility : LocalConversationVisibility) : MemoryConversationStore :=
  match s.get conversationId with
  | none => s
  | some conversation =>
    let cleared := s.clearLocalChatHistory conversationId (clearWatermark s conversation cursor)
    match visibility with
    | .keep => cleared
    | .visible => cleared.setArchived conversationId false
    | .archived => cleared.setArchived conversationId true

end FlareIm.Conversations
