import FlareIm.Conversations.SummaryMerge
import FlareIm.Lib.KeyedMap
import FlareIm.Lib.Run
import Mathlib.Tactic.MkIffOfInductiveProp

/-! The conversations table of SQLite beside the memory store. Both merge a summary into the row that they hold,
but SQLite writes the merge out again over the columns it selects. The name and the avatar of the last sender are
not among them, and the last message has no column of its own. Only SQLite keeps the member preview of a row
against a summary without one. A number comes back from its column if the signed type of the column has it. -/

namespace FlareIm.Conversations

open Lib Message Store

/-! ### Rows -/

/-- A number that is bound as a signed integer of `w` bits and read with `.max(0)`. -/
def column (w n : ℕ) : ℕ := (BitVec.ofNat w n).toInt.toNat

theorem column_of_lt {w n : ℕ} (h : 2 * n < 2 ^ w) : column w n = n := by
  have hmod : n % 2 ^ w = n := Nat.mod_eq_of_lt (by omega)
  rw [column, BitVec.toInt_eq_toNat_of_lt (by rwa [BitVec.toNat_ofNat, hmod]), BitVec.toNat_ofNat, hmod,
    Int.toNat_natCast]

/-- What a row gives back of the record that was written. Columns that no save reads are left as they are. -/
def readRow (c : Conversation) : Conversation :=
  { c with
    lastMessageAt := c.lastMessageAt.map (column 64)
    lastMessage := none
    unreadCount := column 32 c.unreadCount
    lastReadSeq := column 64 c.lastReadSeq
    maxSeq := column 64 c.maxSeq
    visibleAfterSeq := column 64 c.visibleAfterSeq }

/-- The last message has no column. -/
def bare (c : Conversation) : Conversation := { c with lastMessage := none }

@[mk_iff] structure FitsColumns (c : Conversation) : Prop where
  lastMessageAt : ∀ t ∈ c.lastMessageAt, 2 * t < 2 ^ 64
  unreadCount : 2 * c.unreadCount < 2 ^ 32
  lastReadSeq : 2 * c.lastReadSeq < 2 ^ 64
  maxSeq : 2 * c.maxSeq < 2 ^ 64
  visibleAfterSeq : 2 * c.visibleAfterSeq < 2 ^ 64

instance (c : Conversation) : Decidable (FitsColumns c) := decidable_of_iff' _ (fitsColumns_iff c)

theorem readRow_of_fits {c : Conversation} (h : FitsColumns c) : readRow c = bare c := by
  have htime : c.lastMessageAt.map (column 64) = c.lastMessageAt := by
    cases ht : c.lastMessageAt with
    | none => rfl
    | some t => exact congrArg some (column_of_lt (h.lastMessageAt t ht))
  rw [readRow, htime, column_of_lt h.unreadCount, column_of_lt h.lastReadSeq, column_of_lt h.maxSeq,
    column_of_lt h.visibleAfterSeq]
  rfl

/-! ### The merge of SQLite -/

def KeepsLastMessage (stored incoming : Conversation) : Prop := hasLastMessage stored ∧
  (incoming.maxSeq ≤ stored.maxSeq ∨ ¬ hasLastMessage incoming ∨ ¬ hasText incoming.lastMessagePreview)
  deriving Decidable

/-- Four columns of the last message are selected; the sender's name and avatar are not. -/
def preserveLastMessageColumns (stored incoming merged : Conversation) : Conversation :=
  if KeepsLastMessage stored incoming then
    { merged with
      lastMessageId := stored.lastMessageId
      lastSenderId := stored.lastSenderId
      lastMessageAt := stored.lastMessageAt
      lastMessagePreview := stored.lastMessagePreview }
  else merged

def preserveColumns (stored incoming merged : Conversation) : Conversation :=
  let merged := mergeUserSettings stored merged
  let confirmedFloor := max (localClearedThroughSeq incoming.ext) (localClearedThroughSeq stored.ext)
  let merged := { merged with ext := setLocalClearedThroughSeq merged.ext confirmedFloor }
  let merged := preserveLastMessageColumns stored incoming merged
  { merged with
    remark := preserveLocalRemark merged.remark stored.remark
    channelId := preserveLocalSingleChatChannel stored.conversationType merged.channelId stored.channelId }

/-- The record that a save binds to the columns. -/
def mergeIntoRow (stored? : Option Conversation) (incoming : Conversation) : Conversation :=
  let merged := mergeReadPosition stored? (bare incoming)
  let merged := stored?.elim merged fun stored => preserveColumns stored incoming merged
  withBusinessName (boundUnread (applyVisibilityFloor incoming merged))

/-- The last sender goes by the same name and avatar. -/
def SameSender (c d : Conversation) : Prop :=
  c.lastSenderNickname = d.lastSenderNickname ∧ c.lastSenderAvatarUrl = d.lastSenderAvatarUrl
  deriving Decidable

section Merge

variable {stored incoming merged : Conversation}

theorem bare_mergeUserSettings : bare (mergeUserSettings stored merged) =
    mergeUserSettings (bare stored) (bare merged) := by
  unfold mergeUserSettings
  rw [apply_ite bare, apply_ite bare]
  rfl

theorem sameSender_mergeUserSettings (stored merged : Conversation) :
    SameSender (mergeUserSettings stored merged) merged := by
  unfold mergeUserSettings
  dsimp only
  split
  · exact ⟨rfl, rfl⟩
  · split <;> exact ⟨rfl, rfl⟩

theorem preserveLastMessageColumns_eq (h : KeepsLastMessage stored incoming → SameSender merged stored) :
    preserveLastMessageColumns (bare stored) incoming (bare merged) =
      bare (preserveLocalLatestMessage stored incoming merged) := by
  unfold preserveLastMessageColumns preserveLocalLatestMessage
  by_cases hkept : KeepsLastMessage stored incoming
  · obtain ⟨hnickname, havatar⟩ := h hkept
    rw [if_pos (show KeepsLastMessage (bare stored) incoming from hkept)]
    unfold KeepsLastMessage at hkept
    rw [if_pos hkept, ← hnickname, ← havatar]
    rfl
  · rw [if_neg (show ¬ KeepsLastMessage (bare stored) incoming from hkept)]
    unfold KeepsLastMessage at hkept
    rw [if_neg hkept]

/-- SQLite keeps of a row what the memory store keeps, but for the name and the avatar of the last sender. -/
theorem preserveColumns_eq (hext : merged.ext = incoming.ext)
    (h : KeepsLastMessage stored incoming → SameSender merged stored) :
    preserveColumns (bare stored) incoming (bare merged) = bare (preserveLocal stored incoming merged) := by
  obtain ⟨hnickname, havatar⟩ := sameSender_mergeUserSettings stored merged
  let settled : Conversation := { mergeUserSettings stored merged with
    ext := setLocalClearedThroughSeq (mergeUserSettings stored merged).ext
      (max (localClearedThroughSeq stored.ext) (localClearedThroughSeq incoming.ext)) }
  have hlatest : preserveLastMessageColumns (bare stored) incoming (bare settled) =
      bare (preserveLocalLatestMessage stored incoming settled) :=
    preserveLastMessageColumns_eq fun hkept => ⟨hnickname.trans (h hkept).1, havatar.trans (h hkept).2⟩
  rw [preserveColumns, preserveLocal, ← bare_mergeUserSettings, hext, max_comm]
  exact congrArg (fun c : Conversation => { c with
    remark := preserveLocalRemark c.remark stored.remark
    channelId := preserveLocalSingleChatChannel stored.conversationType c.channelId stored.channelId }) hlatest

/-- The boundary looks neither at the name nor at the last message. -/
theorem boundUnread_applyVisibilityFloor :
    bare (boundUnread (applyVisibilityFloor incoming (withBusinessName merged))) =
      withBusinessName (boundUnread (applyVisibilityFloor incoming (bare merged))) := by
  unfold applyVisibilityFloor
  rw [apply_ite boundUnread, apply_ite boundUnread, apply_ite bare, apply_ite bare,
    apply_ite boundUnread, apply_ite boundUnread, apply_ite withBusinessName, apply_ite withBusinessName]
  rfl

theorem mergeIntoRow_eq {stored? : Option Conversation}
    (h : ∀ stored ∈ stored?, KeepsLastMessage stored incoming → SameSender incoming stored) :
    mergeIntoRow (stored?.map bare) incoming = bare (mergeIncomingConversationSummary stored? incoming) := by
  rw [mergeIncomingConversationSummary, boundUnread_applyVisibilityFloor]
  refine congrArg (fun c => withBusinessName (boundUnread (applyVisibilityFloor incoming c))) ?_
  cases stored? with
  | none => rfl
  | some stored =>
    show preserveColumns (bare stored) incoming
      (bare (mergeReadPosition (some stored) incoming)) = _
    exact preserveColumns_eq rfl (h stored rfl)

end Merge

/-! ### The stores -/

/-- A summary with its member preview, which the merge hands on. -/
structure Summary (Member : Type) extends Conversation where
  memberPreview : List Member := []

variable {Member : Type}

namespace Summary

section

variable (stored? : Option (Summary Member)) (incoming : Summary Member)

def mergeInMemory : Summary Member :=
  ⟨mergeIncomingConversationSummary (stored?.map toConversation) incoming.toConversation, incoming.memberPreview⟩

def mergeInSqlite : Summary Member where
  toConversation := readRow (mergeIntoRow (stored?.map toConversation) incoming.toConversation)
  memberPreview :=
    if incoming.memberPreview.isEmpty then (stored?.map memberPreview).getD [] else incoming.memberPreview

end

/-- What a row has of a summary. -/
def row (s : Summary Member) : Summary Member := { s with toConversation := bare s.toConversation }

/-- What the two stores treat alike. The range is that of the row SQLite writes: the merged one. -/
@[mk_iff] structure SavedAlike (stored? : Option (Summary Member)) (incoming : Summary Member) : Prop where
  sender : ∀ stored ∈ stored?, KeepsLastMessage stored.toConversation incoming.toConversation →
    SameSender incoming.toConversation stored.toConversation
  members : incoming.memberPreview = [] → ∀ stored ∈ stored?, stored.memberPreview = []
  fits : FitsColumns (mergeInMemory stored? incoming).toConversation

instance [DecidableEq Member] (stored? : Option (Summary Member)) (incoming : Summary Member) :
    Decidable (SavedAlike stored? incoming) :=
  decidable_of_iff' _ (savedAlike_iff stored? incoming)

theorem mergeInSqlite_eq {stored? : Option (Summary Member)} {incoming : Summary Member}
    (h : SavedAlike stored? incoming) :
    mergeInSqlite (stored?.map row) incoming = (mergeInMemory stored? incoming).row := by
  have hrows : (stored?.map row).map toConversation = (stored?.map toConversation).map bare := by
    rw [Option.map_map, Option.map_map]
    rfl
  have hsender : ∀ stored ∈ stored?.map toConversation, KeepsLastMessage stored incoming.toConversation →
      SameSender incoming.toConversation stored := by
    intro stored hstored
    obtain ⟨s, hs, rfl⟩ := Option.mem_map.mp hstored
    exact h.sender s hs
  have hrow : (mergeInSqlite (stored?.map row) incoming).toConversation =
      bare (mergeInMemory stored? incoming).toConversation := by
    show readRow (mergeIntoRow _ _) = _
    rw [hrows, mergeIntoRow_eq hsender]
    show readRow (mergeInMemory stored? incoming).toConversation = _
    exact readRow_of_fits h.fits
  have hmembers : (mergeInSqlite (stored?.map row) incoming).memberPreview = incoming.memberPreview := by
    show ite _ _ _ = _
    split
    · next hempty =>
      rw [List.isEmpty_iff.mp hempty]
      cases stored? with
      | none => rfl
      | some stored => exact h.members (List.isEmpty_iff.mp hempty) stored rfl
    · rfl
  exact congrArg₂ Summary.mk hrow hmembers

end Summary

abbrev SummaryStore (Member : Type) := KeyedMap String (Summary Member) fun s => s.conversationId

namespace SummaryStore

open Summary

variable (merge : Option (Summary Member) → Summary Member → Summary Member)

/-- Both stores read the row of the summary's conversation and write the merged one. -/
def save (data : SummaryStore Member) (summary : Summary Member) : SummaryStore Member :=
  data.insert (merge (data.find? summary.conversationId) summary)

/-- A batch with a blank id is refused before anything is merged. -/
def saveBatch (data : SummaryStore Member) (summaries : List (Summary Member)) : SummaryStore Member :=
  if summaries.any fun s => isBlank s.conversationId then data else run (save merge) data summaries

def Mirrors (table data : SummaryStore Member) : Prop := ∀ id, table.find? id = (data.find? id).map row

variable {table data : SummaryStore Member}

/-- Every summary of a batch that is not refused is saved alike. -/
def BatchSavedAlike (data : SummaryStore Member) (summaries : List (Summary Member)) : Prop :=
  (summaries.any fun s => isBlank s.conversationId) = false →
    AllSteps (save mergeInMemory) (fun data s => SavedAlike (data.find? s.conversationId) s) data summaries

instance [DecidableEq Member] (data : SummaryStore Member) (summaries : List (Summary Member)) :
    Decidable (BatchSavedAlike data summaries) :=
  inferInstanceAs (Decidable (_ → _))

theorem mirrors_saveBatch {summaries : List (Summary Member)} (h : Mirrors table data)
    (halike : BatchSavedAlike data summaries) :
    Mirrors (saveBatch mergeInSqlite table summaries) (saveBatch mergeInMemory data summaries) := by
  unfold saveBatch
  split
  · exact h
  · next hnamed =>
    refine run_related (fun table data summary h halike id => ?_) summaries table data h
      (halike (Bool.eq_false_iff.mpr hnamed))
    rw [save, h, mergeInSqlite_eq halike, save, KeyedMap.find?_insert, KeyedMap.find?_insert, h,
      apply_ite (Option.map row)]
    rfl

/-- Over every sequence of saves the table of SQLite has the rows of the memory store. -/
theorem find?_run_saveBatch (batches : List (List (Summary Member)))
    (h : AllSteps (saveBatch mergeInMemory) BatchSavedAlike .empty batches) (id : String) :
    (run (saveBatch mergeInSqlite) .empty batches).find? id =
      ((run (saveBatch mergeInMemory) .empty batches).find? id).map row := by
  have hmirrors : Mirrors (run (saveBatch mergeInSqlite) .empty batches)
      (run (saveBatch mergeInMemory) .empty batches) :=
    run_related (fun _ _ _ => mirrors_saveBatch) batches _ _ (fun _ => rfl) h
  exact hmirrors id

/-- A summary of `conv` that ends at seq 5. -/
def sampleSummary (lastMessageId : Option String) (lastSenderNickname : String) : Summary String where
  conversationId := "conv"
  maxSeq := 5
  lastMessageId := lastMessageId
  lastSenderNickname := lastSenderNickname

theorem find?_run_saveBatch_repeated : (run (saveBatch mergeInSqlite) .empty
      [[sampleSummary (some "m") "Ann"], [sampleSummary none "Ann"]]).find? "conv" =
    ((run (saveBatch mergeInMemory) .empty
      [[sampleSummary (some "m") "Ann"], [sampleSummary none "Ann"]]).find? "conv").map row :=
  find?_run_saveBatch _ (by decide) "conv"

/-- The summary does not name the sender: SQLite forgets the name, the memory store keeps it. -/
theorem lastSenderNickname_not_kept : ((run (saveBatch mergeInSqlite) .empty
      [[sampleSummary (some "m") "Ann"], [sampleSummary none ""]]).find? "conv").map
        (·.lastSenderNickname) = some "" ∧
    ((run (saveBatch mergeInMemory) .empty
      [[sampleSummary (some "m") "Ann"], [sampleSummary none ""]]).find? "conv").map (·.lastSenderNickname) =
        some "Ann" := by
  decide

end SummaryStore

end FlareIm.Conversations
