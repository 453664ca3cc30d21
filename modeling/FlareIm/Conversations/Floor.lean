import FlareIm.Conversations.MemoryStore
import FlareIm.Lib.Run

/-! The visibility floor of a conversation over whole runs of the store. It is the larger of the mark
of a clear and of the boundary of the latest summary, and a summary of the server brings its boundary
as a mark too. Where two rows of one conversation become one, the row that stays keeps its own mark,
however small: the history that was cleared under the other id comes back at once, or, if the boundary
of the other row still hides it, with the next summary. -/

namespace FlareIm.Conversations

open Lib Message Store List Std.ExtTreeMap MemoryConversationStore ReadPosition Option MemoryConversationStore

/-- The seqs of a row are 64-bit numbers. -/
structure Conversation.Fits (c : Conversation) : Prop where
  maxSeq : c.maxSeq ≤ maxU64
  visibleAfterSeq : c.visibleAfterSeq ≤ maxU64

/-- The calls that write rows. A clear finds `cursor` in the cursor store. -/
inductive Call
  | saveBatch (summaries : List {c : Conversation // c.Fits})
  | updateUnread (conversationId : String) (unreadCount lastReadSeq : ℕ)
  | updateLastMessage (conversationId lastMessageId lastSenderId : String) (lastMessageAt : ℕ)
      (lastMessagePreview : Option String) (maxSeq : UInt64)
  | mergeConversationIdentity (fromConversationId toConversationId : String)
  | clearHistoryBoundary (cursor : Option UInt64) (conversationId : String)
      (visibility : LocalConversationVisibility)

/-- A batch that is refused leaves the store as it was. -/
def step (s : MemoryConversationStore) : Call → MemoryConversationStore
  | .saveBatch summaries => (s.saveBatch (summaries.map Subtype.val)).toOption.getD s
  | .updateUnread conversationId unreadCount lastReadSeq => s.updateUnread conversationId unreadCount lastReadSeq
  | .updateLastMessage conversationId lastMessageId lastSenderId lastMessageAt lastMessagePreview maxSeq =>
    s.updateLastMessage conversationId lastMessageId lastSenderId lastMessageAt lastMessagePreview maxSeq.toNat
  | .mergeConversationIdentity fromConversationId toConversationId =>
    s.mergeConversationIdentity fromConversationId toConversationId
  | .clearHistoryBoundary cursor conversationId visibility =>
    clearHistoryBoundary s (cursor.map UInt64.toNat) conversationId visibility

/-! ### Seqs stay in range -/

variable {c d source : Conversation} {cursor : Option ℕ}

theorem Conversation.Fits.syncVisibilityFloor_le (h : c.Fits) : syncVisibilityFloor c ≤ maxU64 :=
  max_le (localClearedThroughSeq_le _) h.visibleAfterSeq

theorem fits_applyVisibilityFloor (incoming : Conversation) {merged : Conversation} (h : merged.Fits) :
    (applyVisibilityFloor incoming merged).Fits where
  maxSeq := by
    rw [(cutAt_applyVisibilityFloor _ _).maxSeq]
    exact max_le h.maxSeq h.syncVisibilityFloor_le
  visibleAfterSeq := by
    rw [(cutAt_applyVisibilityFloor _ _).visibleAfterSeq]
    exact h.syncVisibilityFloor_le

section

variable {stored? : Option Conversation} {incoming : Conversation} (hstored : ∀ stored ∈ stored?, stored.Fits)
    (hincoming : incoming.Fits)

include hstored hincoming

theorem fits_mergeReadPosition : (mergeReadPosition stored? incoming).Fits where
  maxSeq := by
    have hlocal : ((stored?.map Conversation.readPosition).getD {}).maxSeq ≤ maxU64 := by
      cases stored? with
      | none => exact Nat.zero_le _
      | some stored => exact (hstored stored rfl).maxSeq
    show max incoming.maxSeq (mergeWithIncomingSummary _ _).maxSeq ≤ _
    rw [maxSeq_mergeWithIncomingSummary]
    exact max_le hincoming.maxSeq (max_le hincoming.maxSeq hlocal)
  visibleAfterSeq := hincoming.visibleAfterSeq

theorem fits_merge : (mergeIncomingConversationSummary stored? incoming).Fits := by
  have hread := fits_mergeReadPosition hstored hincoming
  cases stored? with
  | none =>
    have hnamed : (withBusinessName (mergeReadPosition none incoming)).Fits := ⟨hread.maxSeq, hread.visibleAfterSeq⟩
    have hcut := fits_applyVisibilityFloor incoming hnamed
    rw [merge_none]
    exact ⟨hcut.maxSeq, hcut.visibleAfterSeq⟩
  | some stored =>
    have hhead := sameHead_mergedRow stored incoming
    have hrow : (mergedRow stored incoming).Fits :=
      ⟨(congrArg maxSeq hhead.readPosition).trans_le hread.maxSeq,
        hhead.visibleAfterSeq.trans_le hread.visibleAfterSeq⟩
    have hcut := fits_applyVisibilityFloor incoming hrow
    rw [merge_some]
    exact ⟨hcut.maxSeq, hcut.visibleAfterSeq⟩

end

structure StoreFits (s : MemoryConversationStore) : Prop where
  rows : ∀ {id c}, s.get id = some c → c.Fits
  materialized : ∀ id, s.getLocalMaxSeq id ≤ maxU64

variable {summaries : List Conversation} {conversationId : String} {row : Conversation}
    {f : Conversation → Conversation}
  {s : MemoryConversationStore}

namespace StoreFits

variable (hs : StoreFits s)
include hs

theorem put (hc : c.Fits) : StoreFits (s.put c) where
  rows {id d} h := by
    rw [get_put] at h
    split at h
    · exact some.inj h ▸ hc
    · exact hs.rows h
  materialized := hs.materialized

theorem update (hf : ∀ c, c.Fits → (f c).Fits) : StoreFits (s.update conversationId f) := by
  unfold MemoryConversationStore.update
  cases h : s.get conversationId with
  | none => exact hs
  | some c => exact hs.put (hf c (hs.rows h))

theorem materialize {seq : ℕ} (hseq : seq ≤ maxU64) : StoreFits (s.materialize conversationId seq) where
  rows := hs.rows
  materialized id := by
    rw [getLocalMaxSeq_materialize]
    split
    · exact max_le (hs.materialized id) hseq
    · exact hs.materialized id

theorem forget (conversationId : String) :
    StoreFits { s with materializedMaxSeq := s.materializedMaxSeq.erase conversationId } where
  rows := hs.rows
  materialized id := by
    show ((s.materializedMaxSeq.erase conversationId)[id]?).getD 0 ≤ maxU64
    rw [getElem?_erase]
    split
    · exact Nat.zero_le _
    · exact hs.materialized id

theorem erase (conversationId : String) : StoreFits { s with data := s.data.erase conversationId } where
  rows {id c} h := by
    have hfind : (s.data.erase conversationId).find? id = some c := h
    rw [KeyedMap.find?_erase] at hfind
    split at hfind
    · contradiction
    · exact hs.rows hfind
  materialized := hs.materialized

theorem foldl_mergeSummary (hsummaries : ∀ c ∈ summaries, c.Fits) : StoreFits (summaries.foldl mergeSummary s) := by
  induction summaries generalizing s with
  | nil => exact hs
  | cons c summaries ih =>
    have hmerge : StoreFits (s.mergeSummary c) :=
      hs.put (fits_merge (fun stored hstored => hs.rows hstored) (hsummaries c mem_cons_self))
    exact ih hmerge fun d hd => hsummaries d (mem_cons_of_mem c hd)

theorem clearHistoryBoundary (cursor : Option ℕ) (conversationId : String)
    (visibility : LocalConversationVisibility) :
    StoreFits (clearHistoryBoundary s cursor conversationId visibility) := by
  unfold Conversations.clearHistoryBoundary
  cases s.get conversationId with
  | none => exact hs
  | some conversation =>
    have hcleared : StoreFits (s.clearLocalChatHistory conversationId (clearWatermark s conversation cursor)) := by
      refine forget ?_ conversationId
      exact hs.update fun c hc => ⟨hc.maxSeq, hc.visibleAfterSeq⟩
    have harchived (archived : Bool) : StoreFits (setArchived
        (s.clearLocalChatHistory conversationId (clearWatermark s conversation cursor)) conversationId archived) :=
      hcleared.update fun c hc => ⟨hc.maxSeq, hc.visibleAfterSeq⟩
    cases visibility with
    | keep => exact hcleared
    | visible => exact harchived false
    | archived => exact harchived true

theorem updateUnread (conversationId : String) (unreadCount lastReadSeq : ℕ) :
    StoreFits (s.updateUnread conversationId unreadCount lastReadSeq) := by
  refine hs.update fun c hc => ?_
  unfold Conversation.withUnread
  split <;> exact ⟨hc.maxSeq, hc.visibleAfterSeq⟩

theorem updateLastMessage (conversationId lastMessageId lastSenderId : String) (lastMessageAt : ℕ)
    (lastMessagePreview : Option String) {maxSeq : ℕ} (hmax : maxSeq ≤ maxU64) :
    StoreFits (s.updateLastMessage conversationId lastMessageId lastSenderId lastMessageAt
    lastMessagePreview maxSeq) := by
  have hrow : StoreFits (s.update conversationId fun c =>
      c.withLastMessage lastMessageId lastSenderId lastMessageAt lastMessagePreview maxSeq) := by
    refine hs.update fun c hc => ⟨max_le hc.maxSeq hmax, ?_⟩
    rw [(sameBoundary_withLastMessage c _ _ _ _ _).visibleAfterSeq]
    exact hc.visibleAfterSeq
  unfold MemoryConversationStore.updateLastMessage
  split
  · exact hrow.materialize hmax
  · exact hrow

end StoreFits

theorem fits_mergeIdentityRows {target : Conversation} (htarget : target.Fits) (hsource : source.Fits) :
    (mergeIdentityRows target source).Fits := by
  refine ⟨?_, max_le htarget.visibleAfterSeq hsource.visibleAfterSeq⟩
  unfold mergeIdentityRows
  split
  · exact hsource.maxSeq
  · exact htarget.maxSeq

section

variable (hs : StoreFits s)

include hs

theorem StoreFits.moveRow
    (hsource : source.Fits) (fromId toId : String) : StoreFits (s.moveRow source fromId toId) := by
  have hrest := hs.erase fromId
  have hrenamed : (renamed source fromId toId).Fits := ⟨hsource.maxSeq, hsource.visibleAfterSeq⟩
  refine hrest.put ?_
  cases htarget : get { s with data := s.data.erase fromId } toId with
  | none => exact hrenamed
  | some target => exact fits_mergeIdentityRows (hrest.rows htarget) hrenamed

theorem StoreFits.mergeConversationIdentity (fromConversationId toConversationId : String) :
    StoreFits (s.mergeConversationIdentity fromConversationId toConversationId) := by
  unfold MemoryConversationStore.mergeConversationIdentity
  dsimp only
  split
  · exact hs
  · cases hsource : s.get (trim fromConversationId) with
    | none => exact hs
    | some source =>
      have hmoved := hs.moveRow (hs.rows hsource) (trim fromConversationId) (trim toConversationId)
      rw [elim_some, moveMaxSeq]
      split
      · exact (hmoved.forget _).materialize (hmoved.materialized _)
      · exact hmoved.forget _

theorem storeFits_step (call : Call) : StoreFits (step s call) := by
  cases call with
  | saveBatch summaries =>
    have hfold : StoreFits ((summaries.map Subtype.val).foldl mergeSummary s) := by
      refine hs.foldl_mergeSummary fun c hc => ?_
      obtain ⟨summary, -, rfl⟩ := mem_map.mp hc
      exact summary.2
    unfold step saveBatch
    dsimp only
    split
    · exact hs
    · exact hfold
  | updateUnread conversationId unreadCount lastReadSeq =>
      exact hs.updateUnread conversationId unreadCount lastReadSeq
  | updateLastMessage conversationId lastMessageId lastSenderId lastMessageAt lastMessagePreview maxSeq =>
    exact hs.updateLastMessage _ _ _ _ _ (uint64_le_maxU64 maxSeq)
  | mergeConversationIdentity fromId toId => exact hs.mergeConversationIdentity fromId toId
  | clearHistoryBoundary cursor conversationId visibility =>
      exact hs.clearHistoryBoundary _ conversationId visibility

end

theorem storeFits_empty : StoreFits {} where
  rows h := by
    rw [MemoryConversationStore.get, KeyedMap.find?_empty] at h
    contradiction
  materialized id := by
    rw [getLocalMaxSeq, getElem?_empty]
    exact Nat.zero_le _

theorem storeFits_run (calls : List Call) : StoreFits (run step {} calls) :=
  run_invariant (I := StoreFits) (c := fun _ _ => True) (fun _ call hs _ => storeFits_step hs call) calls {}
    storeFits_empty (AllSteps.intro fun _ _ => trivial)

/-! ### The floor over one call -/

/-- Every row is still there, under the id that `move` gives it, with a floor that is not lower. -/
def FloorsKept (s t : MemoryConversationStore) (move : String → String) : Prop :=
  ∀ id row, s.get id = some row → ∃ row', t.get (move id) = some row' ∧
  syncVisibilityFloor row ≤ syncVisibilityFloor row'

theorem FloorsKept.refl (s : MemoryConversationStore) : FloorsKept s s id := fun _ row hrow => ⟨row, hrow, le_rfl⟩

theorem FloorsKept.trans {s t u : MemoryConversationStore} (h : FloorsKept s t id) (h' : FloorsKept t u id) :
    FloorsKept s u id := by
  intro k row hrow
  obtain ⟨row', hrow', hle⟩ := h k row hrow
  obtain ⟨row'', hrow'', hle'⟩ := h' k row' hrow'
  exact ⟨row'', hrow'', hle.trans hle'⟩

theorem floorsKept_update (hid : ∀ c, (f c).conversationId = c.conversationId)
    (hf : ∀ c, s.get conversationId = some c → syncVisibilityFloor c ≤ syncVisibilityFloor (f c)) :
    FloorsKept s (s.update conversationId f) id := by
  intro k row hrow
  rw [id_eq, get_update s conversationId hid]
  split
  · next hk => exact ⟨f row, by rw [hrow, map_some], hf row (hk ▸ hrow)⟩
  · exact ⟨row, hrow, le_rfl⟩

theorem floorsKept_updateLastMessage (conversationId lastMessageId lastSenderId : String) (lastMessageAt : ℕ)
    (lastMessagePreview : Option String) (maxSeq : ℕ) : FloorsKept s
      (s.updateLastMessage conversationId lastMessageId lastSenderId lastMessageAt
        lastMessagePreview maxSeq) id := by
  have hsame (c : Conversation) :=
    sameBoundary_withLastMessage c lastMessageId lastSenderId lastMessageAt lastMessagePreview maxSeq
  have h : FloorsKept s (s.update conversationId _) id :=
    floorsKept_update (fun c => (hsame c).conversationId) fun c _ => (hsame c).syncVisibilityFloor_eq.ge
  unfold updateLastMessage
  dsimp only
  split <;> exact h

/-- Clearing moves the mark to a watermark that is not below it. -/
theorem syncVisibilityFloor_le_withoutHistory {watermark : ℕ} (hmark : localClearedThroughSeq row.ext ≤ watermark)
    (hle : watermark ≤ maxU64) : syncVisibilityFloor row ≤ syncVisibilityFloor (row.withoutHistory watermark) := by
  refine max_le_max ?_ le_rfl
  show _ ≤ localClearedThroughSeq (if watermark > 0 then setLocalClearedThroughSeq row.ext watermark else row.ext)
  split
  · rw [localClearedThroughSeq_set _ hle]
    exact hmark
  · exact le_rfl

theorem clearWatermark_le (hs : StoreFits s) (hrow : row.Fits) (hcursor : cursor.getD 0 ≤ maxU64) :
    clearWatermark s row cursor ≤ maxU64 := by
  have hmaterialized := hs.materialized row.conversationId
  have hmark := localClearedThroughSeq_le row.ext
  have hmax := hrow.maxSeq
  have hvisible := hrow.visibleAfterSeq
  unfold clearWatermark
  dsimp only
  omega

theorem floorsKept_clearHistoryBoundary (hs : StoreFits s) (hcursor : cursor.getD 0 ≤ maxU64)
    (conversationId : String) (visibility : LocalConversationVisibility) :
    FloorsKept s (clearHistoryBoundary s cursor conversationId visibility) id := by
  unfold clearHistoryBoundary
  cases hrow : s.get conversationId with
  | none => exact .refl s
  | some conversation =>
    have hcleared : FloorsKept s
      (s.clearLocalChatHistory conversationId (clearWatermark s conversation cursor)) id := by
      refine floorsKept_update (fun _ => rfl) fun c hc => ?_
      obtain rfl : conversation = c := some.inj (hrow.symm.trans hc)
      exact syncVisibilityFloor_le_withoutHistory (by unfold clearWatermark; grind)
        (clearWatermark_le hs (hs.rows hrow) hcursor)
    have harchived (archived : Bool) : FloorsKept s (setArchived
        (s.clearLocalChatHistory conversationId (clearWatermark s conversation cursor))
          conversationId archived) id :=
      hcleared.trans (floorsKept_update (fun _ => rfl) fun _ _ => le_rfl)
    cases visibility with
    | keep => exact hcleared
    | visible => exact harchived false
    | archived => exact harchived true

/-! ### Summaries of one conversation -/

section

variable (row : Conversation) {own : List Conversation} {n : ℕ}

def mergeAll (own : List Conversation) : Conversation :=
  own.foldl (fun row summary => mergeIncomingConversationSummary (some row) summary) row

theorem get_foldl_mergeSummary {id : String} {row : Conversation} (hrow : s.get id = some row) :
    (summaries.foldl mergeSummary s).get id = some (mergeAll row (summaries.filter (·.conversationId = id))) := by
  induction summaries generalizing s row with
  | nil => exact hrow
  | cons summary summaries ih =>
    have hget := get_mergeSummary s summary id
    rw [hrow] at hget
    rw [foldl_cons]
    by_cases hid : id = summary.conversationId
    · rw [filter_cons_of_pos (by simpa using hid.symm)]
      exact ih (hget.trans (if_pos hid))
    · rw [filter_cons_of_neg (by simpa using Ne.symm hid)]
      exact ih (hget.trans (if_neg hid))

theorem le_localClearedThroughSeq_mergeAll : n ≤ localClearedThroughSeq (mergeAll row own).ext ↔
    n ≤ localClearedThroughSeq row.ext ∨ ∃ summary ∈ own, n ≤ localClearedThroughSeq summary.ext := by
  induction own generalizing row with
  | nil => simp [mergeAll]
  | cons summary own ih =>
    rw [mergeAll, foldl_cons, ← mergeAll, ih, localClearedThroughSeq_merge_some, le_max_iff]
    simp only [mem_cons, exists_eq_or_imp]
    tauto

/-- The mark is the largest there was; the boundary is the one of the last summary. -/
theorem le_syncVisibilityFloor_mergeAll {last : Conversation} :
    n ≤ syncVisibilityFloor (mergeAll row (own ++ [last])) ↔
    n ≤ localClearedThroughSeq row.ext ∨ n ≤ last.visibleAfterSeq ∨
      ∃ summary ∈ own ++ [last], n ≤ localClearedThroughSeq summary.ext := by
  have happend : mergeAll row (own ++ [last]) = mergeIncomingConversationSummary (some (mergeAll row own)) last :=
    foldl_append
  rw [happend, syncVisibilityFloor_merge_some, mergedFloor, syncVisibilityFloor, le_max_iff, le_max_iff,
    le_localClearedThroughSeq_mergeAll]
  simp only [mem_append, mem_singleton, or_and_right, exists_or, exists_eq_left]
  grind

end

/-! ### Two rows of one conversation -/

/-- The row under the new id keeps its mark if it has one, and takes the larger boundary. -/
theorem syncVisibilityFloor_mergeIdentityRows (target source : Conversation) :
    syncVisibilityFloor (mergeIdentityRows target source) = max
      (if target.ext[extLocalClearedThroughSeq]? = none then localClearedThroughSeq source.ext
        else localClearedThroughSeq target.ext) (max target.visibleAfterSeq source.visibleAfterSeq) := by
  show max (localClearedThroughSeq (source.ext ∪ target.ext)) _ = _
  congr 1
  unfold localClearedThroughSeq
  rw [getElem?_union]
  cases target.ext[extLocalClearedThroughSeq]? with
  | none => rfl
  | some text => rfl

/-! ### The floor over runs -/

/-- The id under which a conversation is found after a call. -/
def Call.idAfter (call : Call) (id : String) : String :=
  match call with
  | .mergeConversationIdentity fromId toId =>
    if trim fromId ≠ "" ∧ trim toId ≠ "" ∧ id = trim fromId then trim toId else id
  | _ => id

/-- What a call has to find for no floor to fall. A saved batch must not replace a boundary that no mark
covers by a smaller one, and the row that takes over another must not have a mark that is too small. -/
def SparesFloors (s : MemoryConversationStore) : Call → Prop
  | .saveBatch summaries => (∀ summary ∈ summaries, ¬isBlank summary.1.conversationId) →
    ∀ id row own last, s.get id = some row →
      (summaries.map Subtype.val).filter (·.conversationId = id) = own ++ [last] →
        row.visibleAfterSeq ≤ localClearedThroughSeq row.ext ∨ row.visibleAfterSeq ≤ last.visibleAfterSeq ∨
          ∃ summary ∈ own ++ [last], row.visibleAfterSeq ≤ localClearedThroughSeq summary.ext
  | .mergeConversationIdentity fromId toId => trim fromId ≠ "" → trim toId ≠ "" → trim fromId ≠ trim toId →
    ∀ source target, s.get (trim fromId) = some source → s.get (trim toId) = some target →
      target.ext[extLocalClearedThroughSeq]? = none ∨
        localClearedThroughSeq source.ext ≤ max (syncVisibilityFloor target) source.visibleAfterSeq
  | _ => True

theorem floorsKept_saveBatch_iff (s : MemoryConversationStore) (summaries : List {c : Conversation // c.Fits}) :
    FloorsKept s (step s (.saveBatch summaries)) id ↔ SparesFloors s (.saveBatch summaries) := by
  unfold SparesFloors step saveBatch
  dsimp only
  split
  · next hblank =>
    refine iff_of_true (.refl s) fun hids => ?_
    obtain ⟨c, hc, hblank⟩ := any_eq_true.mp hblank
    obtain ⟨summary, hsummary, rfl⟩ := mem_map.mp hc
    exact absurd hblank (hids summary hsummary)
  · next hids =>
    have hids : ∀ summary ∈ summaries, ¬isBlank summary.1.conversationId := by simpa using hids
    refine ⟨fun h _ id row own last hrow hown => ?_, fun h k row hrow => ⟨_, get_foldl_mergeSummary hrow, ?_⟩⟩
    · obtain ⟨row', hrow', hle⟩ := h id row hrow
      obtain rfl := some.inj ((get_foldl_mergeSummary hrow).symm.trans hrow')
      rw [hown] at hle
      exact (le_syncVisibilityFloor_mergeAll row).mp ((le_max_right _ _).trans hle)
    · rw [id_eq]
      obtain hown | ⟨own, last, hown⟩ :=
        eq_nil_or_concat' ((summaries.map Subtype.val).filter (·.conversationId = k))
      · rw [hown]
        exact le_rfl
      · rw [hown]
        exact Nat.max_le.mpr ⟨(le_syncVisibilityFloor_mergeAll row).mpr (.inl le_rfl),
          (le_syncVisibilityFloor_mergeAll row).mpr (h hids k row own last hrow hown)⟩

/-- The row that moves goes under the new id; its floor is lost where the row there has a mark that is too small. -/
theorem floorsKept_moveRow_iff {fromId toId : String} (hne : fromId ≠ toId) (hsource : s.get fromId = some source) :
    FloorsKept s ((s.moveRow source fromId toId).moveMaxSeq fromId toId)
      (fun id => if id = fromId then toId else id) ↔
      ∀ target, s.get toId = some target → target.ext[extLocalClearedThroughSeq]? = none ∨
        localClearedThroughSeq source.ext ≤ max (syncVisibilityFloor target) source.visibleAfterSeq := by
  have hget (id : String) := (get_moveMaxSeq (s.moveRow source fromId toId) fromId toId id).trans
    (get_moveRow s source hne id)
  have hmoved := (hget toId).trans (if_pos rfl)
  have hfloor (target : Conversation) : syncVisibilityFloor source ≤
      syncVisibilityFloor (mergeIdentityRows target (renamed source fromId toId)) ↔
        target.ext[extLocalClearedThroughSeq]? = none ∨
          localClearedThroughSeq source.ext ≤ max (syncVisibilityFloor target) source.visibleAfterSeq := by
    rw [syncVisibilityFloor_mergeIdentityRows]
    unfold renamed syncVisibilityFloor
    grind
  constructor
  · intro h target htarget
    obtain ⟨row', hrow', hle⟩ := h fromId source hsource
    dsimp only at hrow'
    rw [if_pos rfl, hmoved, htarget, elim_some] at hrow'
    exact (hfloor target).mp (some.inj hrow' ▸ hle)
  · intro h id row hrow
    by_cases hid : id = fromId
    · obtain rfl : source = row := some.inj (hsource.symm.trans (hid ▸ hrow))
      refine ⟨_, (congrArg _ (if_pos hid)).trans hmoved, ?_⟩
      cases htarget : s.get toId with
      | none => exact le_rfl
      | some target => exact (hfloor target).mpr (h target htarget)
    · dsimp only
      rw [if_neg hid]
      by_cases hid' : id = toId
      · subst hid'
        rw [hrow, elim_some] at hmoved
        refine ⟨_, hmoved, ?_⟩
        rw [syncVisibilityFloor_mergeIdentityRows]
        unfold syncVisibilityFloor localClearedThroughSeq
        grind
      · rw [hget, if_neg hid', if_neg hid]
        exact ⟨row, hrow, le_rfl⟩

theorem floorsKept_mergeConversationIdentity_iff (s : MemoryConversationStore) (fromId toId : String) :
    FloorsKept s (step s (.mergeConversationIdentity fromId toId))
      (Call.mergeConversationIdentity fromId toId).idAfter ↔
      SparesFloors s (.mergeConversationIdentity fromId toId) := by
  unfold SparesFloors step mergeConversationIdentity
  dsimp only
  by_cases hids : trim fromId ≠ "" ∧ trim toId ≠ "" ∧ trim fromId ≠ trim toId
  · obtain ⟨hfrom, hto, hne⟩ := hids
    have hmove : (Call.mergeConversationIdentity fromId toId).idAfter = fun id =>
        if id = trim fromId then trim toId else id := by
      funext id
      simp [Call.idAfter, hfrom, hto]
    rw [if_neg (by simp [hfrom, hto, hne]), hmove]
    cases hsource : s.get (trim fromId) with
    | none =>
      refine iff_of_true (fun id row hrow => ⟨row, ?_, le_rfl⟩) fun _ _ _ _ _ hsource => by contradiction
      have hid : id ≠ trim fromId := fun hid => by simp [hid, hsource] at hrow
      dsimp only
      rwa [if_neg hid]
    | some source =>
      rw [elim_some, floorsKept_moveRow_iff hne hsource]
      exact ⟨fun h _ _ _ _ target hs => some.inj hs ▸ h target, fun h target => h hfrom hto hne source target rfl⟩
  · rw [if_pos (by simpa [or_iff_not_imp_left] using hids)]
    refine iff_of_true (fun id row hrow => ⟨row, ?_, le_rfl⟩) fun hfrom hto hne => absurd ⟨hfrom, hto, hne⟩ hids
    unfold Call.idAfter
    dsimp only
    split
    · next h => rw [← not_not.mp fun hne => hids ⟨h.1, h.2.1, hne⟩, ← h.2.2, hrow]
    · exact hrow

/-- After every run, a call keeps the floors of all conversations exactly when it spares them. -/
theorem floorsKept_run_iff (calls : List Call) (call : Call) :
    FloorsKept (run step {} calls) (step (run step {} calls) call) call.idAfter ↔
      SparesFloors (run step {} calls) call := by
  have hs := storeFits_run calls
  generalize run step {} calls = s at hs
  cases call with
  | saveBatch summaries => exact floorsKept_saveBatch_iff s summaries
  | updateUnread conversationId unreadCount lastReadSeq =>
    have hsame (c : Conversation) := sameBoundary_withUnread c unreadCount lastReadSeq
    exact iff_of_true (floorsKept_update (fun c => (hsame c).conversationId) fun c _ =>
      (hsame c).syncVisibilityFloor_eq.ge) trivial
  | updateLastMessage conversationId lastMessageId lastSenderId lastMessageAt lastMessagePreview maxSeq =>
    exact iff_of_true (floorsKept_updateLastMessage _ _ _ _ _ _) trivial
  | mergeConversationIdentity fromId toId => exact floorsKept_mergeConversationIdentity_iff s fromId toId
  | clearHistoryBoundary cursor conversationId visibility =>
    have hcursor : (cursor.map UInt64.toNat).getD 0 ≤ maxU64 := by
      cases cursor with
      | none => exact Nat.zero_le _
      | some seq => exact uint64_le_maxU64 seq
    exact iff_of_true (floorsKept_clearHistoryBoundary hs hcursor conversationId visibility) trivial

/-- A summary whose history starts after `visibleAfterSeq`; the mark says the same. -/
def summaryFrom (conversationId : String) (visibleAfterSeq : UInt64) : {c : Conversation // c.Fits} :=
  ⟨{ conversationId := conversationId, maxSeq := 20, visibleAfterSeq := visibleAfterSeq.toNat
     ext := setLocalClearedThroughSeq ∅ visibleAfterSeq.toNat },
    ⟨Nat.le_of_ble_eq_true rfl, uint64_le_maxU64 visibleAfterSeq⟩⟩

/-- Under its old id the conversation is cleared through 20; the server's row under the new id starts after 5. -/
def clearedRuns : List Call :=
  [.saveBatch [summaryFrom "new" 5, summaryFrom "old" 0], .clearHistoryBoundary none "old" .keep]

/-- The rows become one, and its floor is 5. -/
theorem floor_falls_with_identity :
    ((run step {} clearedRuns).get "old").map syncVisibilityFloor = some 20 ∧
      ((run step {} (clearedRuns ++ [.mergeConversationIdentity "old" "new"])).get "new").map syncVisibilityFloor =
        some 5 := by
  decide

end FlareIm.Conversations
