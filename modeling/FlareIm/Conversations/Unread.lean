import Mathlib.Data.Finset.Card
import Mathlib.Order.Interval.Finset.Nat
import FlareIm.Conversations.Projection
import FlareIm.Lib.Run

/-! Realtime batches of one conversation and its unread count. The count is kept as a number above the
read position, so the projection takes the counted messages to be the seqs right above it: a message
below that window is taken for counted and one above it for new. The count is the number of distinct
unread messages as long as every batch meets the window so: new messages above it, repeats inside it,
and no message twice in one batch. -/

namespace FlareIm.Conversations

open Lib Message Store List Prog MemoryConversationStore ReadPosition IMMessage

/-! ### Distinct seqs above a position -/

def countAbove (position : ℕ) (seqs : List ℕ) : ℕ := (seqs.toFinset.filter (position < ·)).card

variable {seqs : List ℕ} {isSingleChatId : String → Bool} {me : String} {n position : ℕ} {r : Conversation}
  {d : Conversation} {message p : ProjectedMessage} {pos : ReadPosition} {top : ℕ} {previous : Option Conversation}

theorem countAbove_le (position : ℕ) (h : ∀ q ∈ seqs, q ≤ top) :
    countAbove position seqs ≤ top - position := by
  have hsubset : seqs.toFinset.filter (position < ·) ⊆ Finset.Ioc position top := by
    intro q hq
    rw [Finset.mem_filter, mem_toFinset] at hq
    exact Finset.mem_Ioc.mpr ⟨hq.2, h q hq.1⟩
  calc countAbove position seqs ≤ (Finset.Ioc position top).card := Finset.card_le_card hsubset
    _ = top - position := Nat.card_Ioc position top

theorem countAbove_nil (position : ℕ) : countAbove position [] = 0 := by
  rw [countAbove, toFinset_nil, Finset.filter_empty, Finset.card_empty]

theorem countAbove_pos {q : ℕ} (hq : q ∈ seqs) (habove : position < q) : 0 < countAbove position seqs :=
  Finset.card_pos.mpr ⟨q, Finset.mem_filter.mpr ⟨mem_toFinset.mpr hq, habove⟩⟩

/-- More seqs, none of them twice, add those that are above the position and new. -/
theorem countAbove_append (position : ℕ) (seen seqs : List ℕ) (hnodup : seqs.Nodup) :
    countAbove position (seen ++ seqs) =
      countAbove position seen + (seqs.filter fun q => position < q ∧ q ∉ seen).length := by
  have hunion : (seen ++ seqs).toFinset.filter (position < ·) =
      seen.toFinset.filter (position < ·) ∪ (seqs.filter fun q => position < q ∧ q ∉ seen).toFinset := by
    ext q
    simp only [Finset.mem_filter, mem_toFinset, mem_append, Finset.mem_union, mem_filter,
      decide_eq_true_eq]
    tauto
  have hdisjoint : Disjoint (seen.toFinset.filter (position < ·))
      (seqs.filter fun q => position < q ∧ q ∉ seen).toFinset := by
    rw [Finset.disjoint_left]
    intro q hq hnew
    rw [mem_toFinset, mem_filter, decide_eq_true_eq] at hnew
    exact hnew.2.2 (mem_toFinset.mp (Finset.mem_filter.mp hq).1)
  rw [countAbove, hunion, Finset.card_union_of_disjoint hdisjoint, toFinset_card_of_nodup (hnodup.filter _)]
  rfl

/-! ### Rows that count right -/

/-- The row counts `n` unread messages, all of them above `position`, which is read and visible from. -/
structure Counts (position n : ℕ) (r : Conversation) : Prop where
  unread : r.unreadCount = n
  read : position ≤ r.lastReadSeq
  window : 0 < n → r.lastReadSeq + n ≤ r.maxSeq
  floor : syncVisibilityFloor r ≤ position
  near : r.maxSeq < position + 2 ^ 32

theorem Counts.of_readPosition (hpos : r.readPosition = pos)
    (hunread : pos.unreadCount = n) (hread : position ≤ pos.lastReadSeq)
    (hwindow : 0 < n → pos.lastReadSeq + n ≤ pos.maxSeq) (hfloor : syncVisibilityFloor r ≤ position)
    (hnear : pos.maxSeq < position + 2 ^ 32) : Counts position n r := by
  subst hpos
  exact ⟨hunread, hread, hwindow, hfloor, hnear⟩

/-- Rows that differ in names, channels and mentions only. -/
structure SameCounts (c d : Conversation) : Prop where
  conversationId : c.conversationId = d.conversationId
  readPosition : c.readPosition = d.readPosition
  visibleAfterSeq : c.visibleAfterSeq = d.visibleAfterSeq
  ext : c.ext = d.ext

theorem ReadPosition.normalizeForUnreadDelta_add_le
    (h : pos.lastReadSeq + pos.unreadCount ≤ pos.maxSeq) :
    pos.normalizeForUnreadDelta.lastReadSeq + pos.unreadCount ≤ pos.maxSeq := by
  unfold normalizeForUnreadDelta
  split
  · next hpos =>
    show pos.maxSeq - pos.unreadCount + pos.unreadCount ≤ pos.maxSeq
    omega
  · exact h

/-- Saving a row over itself keeps its count. -/
theorem Counts.merge (hr : Counts position n r) (hd : SameCounts d r) :
    Counts position n (mergeIncomingConversationSummary (some r) d) ∧
      r.maxSeq ≤ (mergeIncomingConversationSummary (some r) d).maxSeq := by
  have hmaxEq : d.maxSeq = r.maxSeq := congrArg maxSeq hd.readPosition
  have hstale : d.maxSeq ≤ r.maxSeq := hmaxEq.le
  have hfloorEq : syncVisibilityFloor d = syncVisibilityFloor r := by
    rw [syncVisibilityFloor, hd.ext, hd.visibleAfterSeq, syncVisibilityFloor]
  have hmerged : mergedFloor r d = syncVisibilityFloor r := by
    rw [mergedFloor, hfloorEq]
    exact max_eq_right (le_max_left _ _)
  have hlater : laterReadSeq r d = r.readPosition.normalizeForUnreadDelta.lastReadSeq := by
    rw [laterReadSeq, hd.readPosition, max_self]
  have hfloorMerge : syncVisibilityFloor (mergeIncomingConversationSummary (some r) d) = syncVisibilityFloor r := by
    rw [syncVisibilityFloor_merge_some, hmerged]
  have hmax := maxSeq_merge_some hstale
  have hnorm := le_normalizeForUnreadDelta r.readPosition
  have hbase : r.readPosition.lastReadSeq = r.lastReadSeq := rfl
  have hpos := hr.read
  have hfloor := hr.floor
  have hnear := hr.near
  have hreadEq : (mergeIncomingConversationSummary (some r) d).lastReadSeq =
      r.readPosition.normalizeForUnreadDelta.lastReadSeq := by
    rw [lastReadSeq_merge_some, hlater, hmerged]
    omega
  -- With unread messages the row ends above the position and the window lies below its end.
  have hwindow : 0 < n → r.readPosition.normalizeForUnreadDelta.lastReadSeq + n ≤ r.maxSeq := by
    intro hn
    have hold := hr.window hn
    rw [← hr.unread] at hold ⊢
    exact normalizeForUnreadDelta_add_le hold
  refine ⟨⟨?_, ?_, ?_, ?_, ?_⟩, ?_⟩
  · rcases Nat.eq_zero_or_pos n with hzero | hn
    · have hle := unreadCount_merge_le hstale
      rw [hr.unread] at hle
      omega
    · have hw := hwindow hn
      have hends : ¬ EndsBelow d (mergedFloor r d) := by
        rintro ⟨-, hle⟩
        rw [hmerged, hmaxEq] at hle
        omega
      rw [unreadCount_merge_of_not_endsBelow hstale hends, hlater, hmerged, hr.unread,
        max_eq_left (by omega), Nat.mod_eq_of_lt (by omega)]
      omega
  · rw [hreadEq]
    omega
  · intro hn
    rw [hreadEq, hmax]
    omega
  · rw [hfloorMerge]
    exact hfloor
  · rw [hmax, hmerged]
    omega
  · rw [hmax]
    exact le_max_left _ _

/-! ### The steps of the projection -/

variable {c : String}

/-- The row of a conversation counts right, and nothing of `tops` lies above its end. -/
def Tracks (c : String) (position n : ℕ) (tops : List ℕ) (s : ProjectionState) : Prop :=
  ∃ r, s.conversations.get c = some r ∧ Counts position n r ∧ (∀ q ∈ tops, q ≤ r.maxSeq) ∧
    s.conversations.getLocalMaxSeq c ≤ r.maxSeq

/-- An id under which rows are kept as it is: trimmed, and no id of a sync inbox. -/
structure RowId (c : String) : Prop where
  trimmed : trim c = c
  named : isBlank c = false
  notReserved : startsWith "sync:" c = false

theorem saveOne_run (hd : isBlank d.conversationId = false) (s : ProjectionState) :
    (saveOne d).run s = (.ok (), { s with conversations := s.conversations.mergeSummary d }) := by
  have hsaved : s.conversations.saveOne d = .ok (s.conversations.mergeSummary d) := by
    rw [MemoryConversationStore.saveOne, MemoryConversationStore.saveBatch, if_neg (by simp [hd])]
    rfl
  rw [saveOne, get_bind, hsaved]
  rfl

variable {s : ProjectionState} {tops : List ℕ}

theorem Tracks.saveOne (hc : RowId c)
    (hget : s.conversations.get c = some r) (hr : Counts position n r) (htops : ∀ q ∈ tops, q ≤ r.maxSeq)
    (hlocal : s.conversations.getLocalMaxSeq c ≤ r.maxSeq) (hd : SameCounts d r) :
    (saveOne d).Ensures s fun _ t => Tracks c position n tops t := by
  have hid : d.conversationId = c := hd.conversationId.trans (conversationId_of_get hget)
  obtain ⟨hcounts, hle⟩ := hr.merge hd
  refine .intro (saveOne_run (hid ▸ hc.named) s) ⟨_, ?_, hcounts, fun q hq => (htops q hq).trans hle,
    hlocal.trans hle⟩
  rw [get_mergeSummary, if_pos hid.symm, hget]

theorem sameCounts_of_repair (h : repairExistingSingleChatChannel isSingleChatId r message me = some d) :
    SameCounts d r := by
  unfold repairExistingSingleChatChannel at h
  dsimp only at h
  split at h
  · contradiction
  · obtain ⟨channel, -, rfl⟩ := Option.map_eq_some_iff.mp h
    exact ⟨rfl, rfl, rfl, rfl⟩

theorem sameCounts_shellConversation (message : ProjectedMessage) (me : String) :
    SameCounts (shellConversation message me)
      { conversationId := trim message.conversationId, maxSeq := message.conversationSeq } := by
  unfold shellConversation
  dsimp only
  split <;> exact ⟨rfl, rfl, rfl, rfl⟩

/-- A new row counts nothing and ends with the message it was made for. -/
theorem counts_shell (me : String) (hnear : message.conversationSeq < 2 ^ 32) :
    Counts 0 0 (mergeIncomingConversationSummary none (shellConversation message me)) ∧
      (mergeIncomingConversationSummary none (shellConversation message me)).maxSeq = message.conversationSeq := by
  have hshell := sameCounts_shellConversation message me
  have hread : mergeWithIncomingSummary {} (shellConversation message me).readPosition =
      ⟨message.conversationSeq, 0, 0⟩ := by
    rw [hshell.readPosition]
    simp [mergeWithIncomingSummary, normalizeForUnreadDelta, Conversation.readPosition]
  have hmax : (shellConversation message me).maxSeq = message.conversationSeq :=
    congrArg maxSeq hshell.readPosition
  generalize hrow : withBusinessName (mergeReadPosition none (shellConversation message me)) = row
  have hposition : row.readPosition = ⟨message.conversationSeq, 0, 0⟩ := by
    rw [← hrow]
    show (⟨max (shellConversation message me).maxSeq
        (mergeWithIncomingSummary {} (shellConversation message me).readPosition).maxSeq,
      (mergeWithIncomingSummary {} (shellConversation message me).readPosition).lastReadSeq,
      (mergeWithIncomingSummary {} (shellConversation message me).readPosition).unreadCount⟩ :
        ReadPosition) = _
    rw [hread, hmax, max_self]
  have hfloor : syncVisibilityFloor row = 0 := by
    rw [← hrow]
    show max (localClearedThroughSeq (shellConversation message me).ext)
      (shellConversation message me).visibleAfterSeq = 0
    rw [hshell.ext, hshell.visibleAfterSeq]
    rfl
  have hcut : applyVisibilityFloor (shellConversation message me) row = { row with visibleAfterSeq := 0 } := by
    rw [applyVisibilityFloor, hfloor]
    rfl
  have hbounded : (boundUnread { row with visibleAfterSeq := 0 }).readPosition =
    ⟨message.conversationSeq, 0, 0⟩ := by
    have hunread : row.unreadCount = 0 := congrArg unreadCount hposition
    rw [← hposition]
    show (⟨row.maxSeq, row.lastReadSeq, min row.unreadCount _⟩ : ReadPosition) =
      ⟨row.maxSeq, row.lastReadSeq, row.unreadCount⟩
    rw [hunread, Nat.zero_min]
  have hmark : localClearedThroughSeq row.ext ≤ 0 := (le_max_left _ _).trans hfloor.le
  rw [merge_none, hrow, hcut]
  refine ⟨Counts.of_readPosition hbounded rfl le_rfl (fun h => absurd h (lt_irrefl 0)) (max_le hmark le_rfl) ?_,
    congrArg maxSeq hbounded⟩
  rw [Nat.zero_add]
  exact hnear

variable {latest : ProjectedMessage}

/-- What is there before a batch: a row that counts right, or no row and nothing to count. -/
def Ready (c : String) (position n : ℕ) (tops : List ℕ) (s : ProjectionState) : Prop :=
  Tracks c position n tops s ∨
    s.conversations.get c = none ∧ position = 0 ∧ n = 0 ∧ tops = [] ∧ s.conversations.getLocalMaxSeq c = 0

theorem Ready.ensureShell (hc : RowId c) (h : Ready c position n tops s)
    (hlatest : latest.conversationId = c) (hnear : latest.conversationSeq < position + 2 ^ 32) :
    (ensureOrRepairConversationShell isSingleChatId latest me).Ensures s fun _ t => Tracks c position n tops t := by
  have hblank : (isBlank latest.conversationId || startsWith "sync:" (trim latest.conversationId)) = false := by
    rw [hlatest, hc.trimmed, hc.named, hc.notReserved]
    rfl
  unfold ensureOrRepairConversationShell
  rw [if_neg (by rw [hblank]; exact Bool.false_ne_true)]
  refine .bind_of_run (get_run s) ?_
  rw [hlatest, hc.trimmed]
  rcases h with ⟨r, hget, hr, htops, hlocal⟩ | ⟨hget, rfl, rfl, rfl, hlocal⟩
  · rw [hget]
    dsimp only
    cases hrepair : repairExistingSingleChatChannel isSingleChatId r latest me with
    | none => exact .intro rfl ⟨r, hget, hr, htops, hlocal⟩
    | some d => exact Tracks.saveOne hc hget hr htops hlocal (sameCounts_of_repair hrepair)
  · rw [hget]
    obtain ⟨hcounts, hmax⟩ := counts_shell me (by omega : latest.conversationSeq < 2 ^ 32)
    have hid : (shellConversation latest me).conversationId = c := by
      rw [(sameCounts_shellConversation latest me).conversationId, hlatest]
      exact hc.trimmed
    refine .intro (saveOne_run (hid ▸ hc.named) s) ⟨_, ?_, hcounts, by simp, ?_⟩
    · show (s.conversations.mergeSummary _).get c = _
      rw [get_mergeSummary, if_pos hid.symm, hget]
    · exact hlocal.trans_le (Nat.zero_le _)

theorem Tracks.updateLastMessage (h : Tracks c position n tops s)
    (lastMessageId lastSenderId : String) (lastMessageAt : ℕ) (lastMessagePreview : Option String) {seq : ℕ}
    (hnear : seq < position + 2 ^ 32) :
    Tracks c position n (seq :: tops) ⟨s.conversations.updateLastMessage c lastMessageId lastSenderId lastMessageAt
      lastMessagePreview seq, s.published⟩ := by
  obtain ⟨r, hget, hr, htops, hlocal⟩ := h
  have hboundary := sameBoundary_withLastMessage r lastMessageId lastSenderId lastMessageAt lastMessagePreview seq
  set row := r.withLastMessage lastMessageId lastSenderId lastMessageAt lastMessagePreview seq with hrow
  have hposition : row.readPosition = ⟨max r.maxSeq seq, r.lastReadSeq, r.unreadCount⟩ := by
    rw [hrow, Conversation.withLastMessage]
    split <;> rfl
  have hmax : row.maxSeq = max r.maxSeq seq := congrArg maxSeq hposition
  refine ⟨row, ?_, ?_, ?_, ?_⟩
  · show (s.conversations.updateLastMessage _ _ _ _ _ _).get c = _
    rw [get_updateLastMessage, if_pos rfl, hget, Option.map_some]
  · refine .of_readPosition hposition hr.unread hr.read (fun hn => (hr.window hn).trans (le_max_left _ _)) ?_
      (max_lt hr.near hnear)
    rw [hboundary.syncVisibilityFloor_eq]
    exact hr.floor
  · rw [forall_mem_cons, hmax]
    exact ⟨le_max_right _ _, fun q hq => (htops q hq).trans (le_max_left _ _)⟩
  · have hupdated : (s.conversations.update c fun d => d.withLastMessage lastMessageId lastSenderId lastMessageAt
        lastMessagePreview seq).getLocalMaxSeq c = s.conversations.getLocalMaxSeq c := by
      rw [MemoryConversationStore.update, hget]
      rfl
    rw [hmax]
    unfold MemoryConversationStore.updateLastMessage
    split
    · rw [getLocalMaxSeq_materialize, if_pos rfl, hupdated]
      exact max_le_max hlocal le_rfl
    · rw [hupdated]
      exact hlocal.trans (le_max_left _ _)

theorem Tracks.updateSummary
    (h : Tracks c position n tops s) (hlatest : latest.conversationId = c)
    (hnear : latest.conversationSeq < position + 2 ^ 32) :
    Tracks c position n (latest.conversationSeq :: tops) (updateSummary latest previous s) := by
  unfold Conversations.updateSummary
  split
  · rw [hlatest]
    exact h.updateLastMessage _ _ _ _ hnear
  · next hskip =>
    -- The row already ends above the batch.
    obtain ⟨r, hget, hr, htops, hlocal⟩ := h
    rw [hlatest] at hskip
    refine ⟨r, hget, hr, ?_, hlocal⟩
    rw [forall_mem_cons]
    exact ⟨by omega, htops⟩

theorem Tracks.updateUnread (h : Tracks c position n tops s)
    (unreadCount lastReadSeq : ℕ) (htop : top ∈ tops) (hread : position ≤ lastReadSeq)
    (hwindow : lastReadSeq + unreadCount ≤ top) (published : List (String × ℕ)) :
    Tracks c position unreadCount tops ⟨s.conversations.updateUnread c unreadCount lastReadSeq, published⟩ := by
  obtain ⟨r, hget, hr, htops, hlocal⟩ := h
  have hposition := readPosition_withUnread r unreadCount lastReadSeq
  have hmax : (r.withUnread unreadCount lastReadSeq).maxSeq = r.maxSeq := congrArg maxSeq hposition
  have hupdated : (s.conversations.updateUnread c unreadCount lastReadSeq).getLocalMaxSeq c =
      s.conversations.getLocalMaxSeq c := by
    rw [MemoryConversationStore.updateUnread, MemoryConversationStore.update, hget]
    rfl
  refine ⟨r.withUnread unreadCount lastReadSeq, ?_, ?_, hmax ▸ htops, ?_⟩
  · have hupdate := get_update s.conversations c
      (fun d => (sameBoundary_withUnread d unreadCount lastReadSeq).conversationId) c
    rw [if_pos rfl, hget, Option.map_some] at hupdate
    exact hupdate
  · refine .of_readPosition hposition rfl hread (fun _ => hwindow.trans (htops top htop)) ?_ hr.near
    rw [(sameBoundary_withUnread r unreadCount lastReadSeq).syncVisibilityFloor_eq]
    exact hr.floor
  · rw [hmax, hupdated]
    exact hlocal

/-- The count grows by the unread messages of the batch, if they fit between the position and the end of
the row. -/
theorem Tracks.countUnread
    {unread : List ProjectedMessage} (h : Tracks c position n tops s) (hlatest : latest.conversationId = c)
    (hprevious : (previous.map Conversation.unreadCount).getD 0 = n)
    (hread : position ≤ (previousReadPosition previous).lastReadSeq)
    (htop : previous.elim latest.conversationSeq (fun d => max d.maxSeq latest.conversationSeq) ∈ tops)
    (hbound : n + unread.length ≤ maxU32)
    (hfits : 0 < unread.length → position + (n + unread.length) ≤
      previous.elim latest.conversationSeq fun d => max d.maxSeq latest.conversationSeq) :
    Tracks c position (n + unread.length) tops (countUnread unread latest previous s) := by
  unfold Conversations.countUnread
  have hdelta : min unread.length maxU32 = unread.length := min_eq_left (by omega)
  dsimp only
  rw [hdelta, hprevious, hlatest]
  split
  · next hpos =>
    have hunread : satAddU32 n unread.length = n + unread.length := min_eq_left hbound
    have hupdated := h.updateUnread (n + unread.length) (readSeqForUnreadWindow (previousReadPosition previous)
      (previous.elim latest.conversationSeq fun d => max d.maxSeq latest.conversationSeq) (n + unread.length)) htop
      (le_min hread (by omega)) (by rw [readSeqForUnreadWindow]; omega)
    rw [hunread]
    split
    · split
      · exact hupdated _
      · exact hupdated _
    · exact hupdated _
  · next hzero =>
    rw [show unread.length = 0 by omega, Nat.add_zero]
    exact h

theorem Tracks.countMentions (hc : RowId c) (h : Tracks c position n tops s)
    (unread : List ProjectedMessage) :
      (countMentions unread c me).Ensures s fun _ t => Tracks c position n tops t := by
  obtain ⟨r, hget, hr, htops, hlocal⟩ := h
  unfold Conversations.countMentions
  dsimp only
  split
  · refine .bind_of_run (get_run s) ?_
    rw [hget]
    exact Tracks.saveOne hc hget hr htops hlocal ⟨rfl, rfl, rfl, rfl⟩
  · exact .intro rfl ⟨r, hget, hr, htops, hlocal⟩

/-! ### The last message of a batch -/

section

variable {a b : IMMessage} (ha : 0 < a.conversationSeq) (hb : 0 < b.conversationSeq)

include ha hb

theorem seq_le_of_isLE
    (h : (compareForTimelineAsc a b).isLE = true) : a.conversationSeq ≤ b.conversationSeq := by
  rw [compare_eq_bySeq ha hb] at h
  by_contra hlt
  have hgt : compare a.conversationSeq b.conversationSeq = .gt := Nat.compare_eq_gt.mpr (by omega)
  simp [bySeq, compareLex, compareOn, hgt] at h

theorem seq_le_of_not_isLE
    (h : ¬ (compareForTimelineAsc a b).isLE = true) : b.conversationSeq ≤ a.conversationSeq := by
  rw [compare_eq_bySeq ha hb] at h
  by_contra hlt
  have hless : compare a.conversationSeq b.conversationSeq = .lt := Nat.compare_eq_lt.mpr (by omega)
  simp [bySeq, compareLex, compareOn, hless] at h

end

structure Numbered (c : String) (m : ProjectedMessage) : Prop where
  conversationId : m.conversationId = c
  seq_pos : 0 < m.conversationSeq

section

variable {latest : KeyedMap String ProjectedMessage (fun m => m.conversationId)}

theorem items_keepLatest
    {m : ProjectedMessage} (hlatest : latest.items = [p]) (hp : Numbered c p) (hm : Numbered c m) :
    (keepLatest latest m).items = [p] ∧ m.conversationSeq ≤ p.conversationSeq ∨
      (keepLatest latest m).items = [m] ∧ p.conversationSeq ≤ m.conversationSeq := by
  have hfind : latest.find? m.conversationId = some p := by
    rw [KeyedMap.find?, hlatest, find?_cons_of_pos]
    exact decide_eq_true (hp.conversationId.trans hm.conversationId.symm)
  unfold keepLatest
  rw [hfind]
  dsimp only
  split
  · next hle => exact .inl ⟨hlatest, seq_le_of_isLE hm.seq_pos hp.seq_pos hle⟩
  · next hgt =>
    refine .inr ⟨?_, seq_le_of_not_isLE hm.seq_pos hp.seq_pos hgt⟩
    show m :: (latest.items.filter fun v => v.conversationId ≠ m.conversationId) = [m]
    rw [hlatest, filter_cons_of_neg]
    · rfl
    · simp [hp.conversationId, hm.conversationId]

theorem items_foldl_keepLatest {ms : List ProjectedMessage} (hlatest : latest.items = [p]) (hp : Numbered c p)
    (hms : ∀ m ∈ ms, Numbered c m) :
    ∃ q, (ms.foldl keepLatest latest).items = [q] ∧ q ∈ p :: ms ∧
    ∀ m ∈ p :: ms, m.conversationSeq ≤ q.conversationSeq := by
  induction ms generalizing latest p with
  | nil => exact ⟨p, hlatest, mem_singleton_self p, fun m hm => (mem_singleton.mp hm ▸ le_rfl)⟩
  | cons m ms ih =>
    have hm := hms m mem_cons_self
    have hrest : ∀ m' ∈ ms, Numbered c m' := fun m' h => hms m' (mem_cons_of_mem m h)
    rcases items_keepLatest hlatest hp hm with ⟨hitems, hle⟩ | ⟨hitems, hle⟩
    · obtain ⟨q, hq, hmem, htop⟩ := ih hitems hp hrest
      rw [forall_mem_cons] at htop
      refine ⟨q, hq, ?_, forall_mem_cons.mpr ⟨htop.1, forall_mem_cons.mpr ⟨hle.trans htop.1, htop.2⟩⟩⟩
      rcases mem_cons.mp hmem with rfl | hmem
      · exact mem_cons_self
      · exact mem_cons_of_mem p (mem_cons_of_mem m hmem)
    · obtain ⟨q, hq, hmem, htop⟩ := ih hitems hm hrest
      refine ⟨q, hq, mem_cons_of_mem p hmem, forall_mem_cons.mpr ⟨?_, htop⟩⟩
      exact hle.trans (htop m mem_cons_self)

end

variable {batch : List ProjectedMessage}

/-- Of a batch of one conversation, the message with the largest seq. -/
theorem items_latestPerConversation (hc : RowId c) (hne : batch ≠ []) (hbatch : ∀ m ∈ batch, Numbered c m) :
    ∃ q, (latestPerConversation batch).items = [q] ∧ q ∈ batch ∧
    ∀ m ∈ batch, m.conversationSeq ≤ q.conversationSeq := by
  have hfilter : (batch.filter fun m => !isBlank m.conversationId) = batch := by
    refine filter_eq_self.mpr fun m hm => ?_
    rw [(hbatch m hm).conversationId, hc.named]
    rfl
  rw [latestPerConversation, hfilter]
  cases batch with
  | nil => exact absurd rfl hne
  | cons p ms =>
    refine items_foldl_keepLatest ?_ (hbatch p mem_cons_self) fun m hm => hbatch m (mem_cons_of_mem p hm)
    rfl

/-! ### Batches that meet the window -/

structure PeerMessage (c me : String) (m : ProjectedMessage) : Prop extends Numbered c m where
  not_me : m.senderId ≠ me
  not_recalled : m.isRecalled = false

def seqsOf (batch : List ProjectedMessage) : List ℕ := batch.map fun m => m.conversationSeq

/-- How a message meets the unread window above `pos`; `seen` are the seqs applied so far. A message above
`position` lies above the window if it is new and inside it if it was seen. Another message does not sit
at the end of a row without unread messages, where a fresh one is expected. -/
def MessageMeetsWindow (position : ℕ) (pos : ReadPosition) (seen : List ℕ) (seq : ℕ) : Prop :=
  (position < seq → seq ∉ seen → pos.lastReadSeq < seq ∧ satAddU64 pos.lastReadSeq pos.unreadCount < seq) ∧
    (position < seq → seq ∈ seen → seq ≤ satAddU64 pos.lastReadSeq pos.unreadCount) ∧
    (seq ≤ position → ¬ (pos.unreadCount = 0 ∧ 0 < pos.maxSeq ∧ pos.maxSeq ≤ seq ∧ pos.lastReadSeq ≤ seq))
  deriving Decidable

/-- The batch meets the window of the row before it: each of its messages does, no seq comes twice, and the
numbers fit their types. -/
def MeetsWindow (c : String) (position : ℕ) (s : ProjectionState) (seen : List ℕ) (batch : List ProjectedMessage) :
    Prop :=
  (seqsOf batch).Nodup ∧ (previousReadPosition (s.conversations.get c)).unreadCount + batch.length ≤ maxU32 ∧
    ∀ m ∈ batch, m.conversationSeq < position + 2 ^ 32 ∧
      MessageMeetsWindow position (previousReadPosition (s.conversations.get c)) seen m.conversationSeq
  deriving Decidable

theorem Ready.previousRead (h : Ready c position n tops s) :
    ((s.conversations.get c).map Conversation.unreadCount).getD 0 = n ∧
      (previousReadPosition (s.conversations.get c)).unreadCount = n ∧
      position ≤ (previousReadPosition (s.conversations.get c)).lastReadSeq := by
  unfold previousReadPosition
  rcases h with ⟨r, hget, hr, -, -⟩ | ⟨hget, rfl, rfl, -, -⟩
  · rw [hget, unreadCount_normalizeForUnreadDelta]
    exact ⟨hr.unread, hr.unread, hr.read.trans (le_normalizeForUnreadDelta r.readPosition)⟩
  · rw [hget]
    exact ⟨rfl, rfl, Nat.zero_le _⟩

variable {seen : List ℕ}

/-- The projection counts the messages above the position that are new. -/
theorem unreadMessages_eq
    (hready : Ready c position (countAbove position seen) seen s) (hpeers : ∀ m ∈ batch, PeerMessage c me m)
    (hmeets : MeetsWindow c position s seen batch) :
    unreadMessages batch c me (previousReadPosition (s.conversations.get c)) .realtimePush =
      batch.filter fun m => position < m.conversationSeq ∧ m.conversationSeq ∉ seen := by
  obtain ⟨-, hunread, hread⟩ := hready.previousRead
  refine filter_congr fun m hm => ?_
  have hpeer := hpeers m hm
  have hwindow := (hmeets.2.2 m hm).2
  have hnotMe : (m.senderId != me) = true := bne_iff_ne.mpr hpeer.not_me
  rw [hpeer.conversationId, hnotMe, hpeer.not_recalled, beq_self_eq_true, Bool.not_false, Bool.true_and,
    Bool.true_and, Bool.true_and, shouldCountUnread, ← Bool.decide_or]
  refine decide_eq_decide.mpr ?_
  obtain ⟨hnew, hrepeat, hend⟩ := hwindow
  by_cases habove : position < m.conversationSeq
  · by_cases hseen : m.conversationSeq ∈ seen
    · -- A repeat lies inside the window, and the row has unread messages.
      have hpos := countAbove_pos hseen habove
      have hinside := hrepeat habove hseen
      constructor
      · rintro (hcounted | hfresh)
        · omega
        · omega
      · rintro ⟨-, hnot⟩
        exact absurd hseen hnot
    · exact ⟨fun _ => ⟨habove, hseen⟩, fun _ => .inl (hnew habove hseen)⟩
  · constructor
    · rintro (hcounted | hfresh)
      · omega
      · exact absurd hfresh (hend (Nat.le_of_not_lt habove))
    · rintro ⟨hlt, -⟩
      exact absurd hlt habove

theorem Tracks.mono {tops' : List ℕ} (h : Tracks c position n tops s)
    (hle : ∀ q ∈ tops', ∃ p ∈ tops, q ≤ p) : Tracks c position n tops' s := by
  obtain ⟨r, hget, hr, htops, hlocal⟩ := h
  refine ⟨r, hget, hr, fun q hq => ?_, hlocal⟩
  obtain ⟨p, hp, hqp⟩ := hle q hq
  exact hqp.trans (htops p hp)

theorem Ready.withEnd (h : Ready c position n seen s) :
    Ready c position n ((s.conversations.get c).toList.map Conversation.maxSeq ++ seen) s := by
  rcases h with ⟨r, hget, hr, hseen, hlocal⟩ | ⟨hget, rfl, rfl, rfl, hlocal⟩
  · refine .inl ⟨r, hget, hr, ?_, hlocal⟩
    rw [hget]
    exact forall_mem_cons.mpr ⟨le_rfl, hseen⟩
  · refine .inr ⟨hget, rfl, rfl, ?_, hlocal⟩
    rw [hget]
    rfl

/-- The end of the row that the projection works with: the old one or the last message of the batch. -/
def endAfter (previous : Option Conversation) (latest : ProjectedMessage) : ℕ :=
  previous.elim latest.conversationSeq fun d => max d.maxSeq latest.conversationSeq

section

variable (previous : Option Conversation) (latest : ProjectedMessage)

theorem endAfter_mem (seen : List ℕ) :
    endAfter previous latest ∈ latest.conversationSeq :: (previous.toList.map Conversation.maxSeq ++ seen) := by
  cases previous with
  | none => exact mem_cons_self
  | some d =>
    rcases max_choice d.maxSeq latest.conversationSeq with h | h
    · exact mem_cons_of_mem _ (mem_cons.mpr (.inl h))
    · exact mem_cons.mpr (.inl h)

theorem le_endAfter : latest.conversationSeq ≤ endAfter previous latest := by
  cases previous with
  | none => exact le_rfl
  | some d => exact le_max_right _ _

end

theorem Ready.le_endAfter (h : Ready c position n seen s)
    (latest : ProjectedMessage) : ∀ q ∈ seen, q ≤ endAfter (s.conversations.get c) latest := by
  intro q hq
  rcases h with ⟨r, hget, -, hseen, -⟩ | ⟨-, -, -, rfl, -⟩
  · rw [hget]
    exact (hseen q hq).trans (le_max_left _ _)
  · contradiction

variable (isSingleChatId) in
/-- A batch that meets the window leaves a row that counts right. -/
theorem ready_applyMessages (hc : RowId c) (hme : me ≠ "")
    (hready : Ready c position (countAbove position seen) seen s)
    (hpeers : ∀ m ∈ batch, PeerMessage c me m) (hmeets : MeetsWindow c position s seen batch) :
    (applyMessages isSingleChatId batch me).Ensures s fun _ t =>
      Ready c position (countAbove position (seen ++ seqsOf batch)) (seen ++ seqsOf batch) t := by
  rcases eq_nil_or_concat batch with rfl | ⟨_, _, hconcat⟩
  · rw [seqsOf, map_nil, append_nil]
    exact .intro rfl hready
  have hne : batch ≠ [] := by
    rw [hconcat]
    simp
  obtain ⟨latest, hitems, hmem, hlast⟩ := items_latestPerConversation hc hne fun m hm => (hpeers m hm).toNumbered
  have hid : latest.conversationId = c := (hpeers latest hmem).conversationId
  have hnear := (hmeets.2.2 latest hmem).1
  obtain ⟨hprevious, hunread, hread⟩ := hready.previousRead
  have hcounted := unreadMessages_eq hready hpeers hmeets
  generalize hlist : (batch.filter fun m => position < m.conversationSeq ∧
    m.conversationSeq ∉ seen) = unread at hcounted
  have hlength : unread.length = ((seqsOf batch).filter fun q => position < q ∧ q ∉ seen).length := by
    rw [seqsOf, filter_map, length_map, ← hlist]
    rfl
  have hcount : countAbove position seen + unread.length = countAbove position (seen ++ seqsOf batch) := by
    rw [countAbove_append position seen _ hmeets.1, hlength]
  have hbound : countAbove position seen + unread.length ≤ maxU32 := by
    have hle : unread.length ≤ batch.length := hlist ▸ length_filter_le _ _
    have hfits := hmeets.2.1
    omega
  have hseqs : ∀ q ∈ seqsOf batch, q ≤ latest.conversationSeq := by
    intro q hq
    obtain ⟨m, hm, rfl⟩ := mem_map.mp hq
    exact hlast m hm
  have hroom : 0 < unread.length → position + (countAbove position seen + unread.length) ≤
      endAfter (s.conversations.get c) latest := by
    intro hpos
    have hle := countAbove_le position fun q hq => (mem_append.mp hq).elim (hready.le_endAfter latest q)
      fun hq => (hseqs q hq).trans (le_endAfter (s.conversations.get c) latest)
    omega
  refine .bind_of_run (get_run s) ?_
  rw [hitems, foldlM_cons, hid]
  refine .bind (Q := fun _ t => Ready c position (countAbove position (seen ++ seqsOf batch))
    (seen ++ seqsOf batch) t) ?_ fun _ t ht => Ensures.intro rfl ht
  unfold applyToConversation
  rw [hid, hcounted]
  refine .bind (hready.withEnd.ensureShell hc hid hnear) fun _ t htracks => ?_
  refine .bind_of_run (modify_run _ t) ?_
  rw [if_pos hme]
  refine .bind_of_run (modify_run _ _) ?_
  have hsummary : Tracks c position (countAbove position seen) _ (updateSummary latest (s.conversations.get c) t) :=
    htracks.updateSummary hid hnear
  have hcounts := hsummary.countUnread hid hprevious hread (endAfter_mem _ _ _) hbound hroom
  refine (hcounts.countMentions hc unread).mono fun _ u hu => .inl ?_
  rw [hcount] at hu
  refine hu.mono fun q hq => ?_
  rcases mem_append.mp hq with hq | hq
  · exact ⟨q, mem_cons_of_mem _ (mem_append_right _ hq), le_rfl⟩
  · exact ⟨_, mem_cons_self, hseqs q hq⟩

/-! ### Runs of batches -/

/-- Apply a batch; the seqs of the messages applied so far are kept beside the state. -/
def applyBatch (isSingleChatId : String → Bool) (me : String) (st : ProjectionState × List ℕ)
    (batch : List ProjectedMessage) : ProjectionState × List ℕ :=
  (((applyMessages isSingleChatId batch me).run st.1).2, st.2 ++ seqsOf batch)

/-- The conversation before the first batch: read up to `position`, without unread messages, and with no
history hidden above that. -/
def Start (c : String) (position : ℕ) (s : ProjectionState) : Prop :=
  (∃ r, s.conversations.get c = some r ∧ r.unreadCount = 0 ∧ r.lastReadSeq = position ∧
      syncVisibilityFloor r ≤ position ∧ r.maxSeq < position + 2 ^ 32 ∧
      s.conversations.getLocalMaxSeq c ≤ r.maxSeq) ∨
    s.conversations.get c = none ∧ position = 0 ∧ s.conversations.getLocalMaxSeq c = 0

theorem Start.ready (h : Start c position s) : Ready c position 0 [] s := by
  rcases h with ⟨r, hget, hunread, hread, hfloor, hnear, hlocal⟩ | ⟨hget, hposition, hlocal⟩
  · exact .inl ⟨r, hget, ⟨hunread, hread.ge, fun h => absurd h (lt_irrefl 0), hfloor, hnear⟩, by simp, hlocal⟩
  · exact .inr ⟨hget, hposition, rfl, rfl, hlocal⟩

/-- The unread count of a conversation; one without a row has none. -/
def unreadCountOf (s : ProjectionState) (c : String) : ℕ :=
  ((s.conversations.get c).map Conversation.unreadCount).getD 0

theorem snd_run_applyBatch (batches : List (List ProjectedMessage)) (st : ProjectionState × List ℕ) :
    (run (applyBatch isSingleChatId me) st batches).2 = st.2 ++ seqsOf batches.flatten := by
  induction batches generalizing st with
  | nil => exact (append_nil _).symm
  | cons batch batches ih =>
    rw [run_cons, ih, applyBatch, flatten_cons, seqsOf, seqsOf, seqsOf, map_append, append_assoc]

def CountsSeen (c : String) (position : ℕ) (st : ProjectionState × List ℕ) : Prop :=
  Ready c position (countAbove position st.2) st.2 st.1

theorem Start.countsSeen (h : Start c position s) : CountsSeen c position (s, []) := by
  unfold CountsSeen
  rw [countAbove_nil]
  exact h.ready

/-- In every run of batches of peer messages that all meet the window, the unread count is the number of
distinct messages above the read position. -/
theorem unreadCount_run (isSingleChatId : String → Bool) (me c : String) (position : ℕ) (s : ProjectionState)
    (batches : List (List ProjectedMessage)) (hc : RowId c) (hme : me ≠ "") (hstart : Start c position s)
    (hpeers : ∀ batch ∈ batches, ∀ m ∈ batch, PeerMessage c me m)
    (hmeets : AllSteps (applyBatch isSingleChatId me)
      (fun st batch => MeetsWindow c position st.1 st.2 batch) (s, []) batches) :
    unreadCountOf (run (applyBatch isSingleChatId me) (s, []) batches).1 c =
      countAbove position (seqsOf batches.flatten) := by
  have hcounts : CountsSeen c position (run (applyBatch isSingleChatId me) (s, []) batches) := by
    refine run_invariant (fun st batch hst hstep => ?_) batches _ hstart.countsSeen
      (hmeets.and (AllSteps.of_mem hpeers))
    obtain ⟨_, ht⟩ := (ready_applyMessages isSingleChatId hc hme hst hstep.2 hstep.1).final
    exact ht
  rw [unreadCountOf, hcounts.previousRead.1, snd_run_applyBatch, nil_append]

def peerMessage (seq : ℕ) : ProjectedMessage :=
  { clientMsgId := "", conversationId := "c", senderId := "bob", status := 0, conversationSeq := seq }

def readThroughFive : ProjectionState :=
  { conversations := { data := KeyedMap.empty.insert { conversationId := "c", maxSeq := 5, lastReadSeq := 5 } } }

def sampleBatches : List (List ProjectedMessage) :=
  [[peerMessage 6], [peerMessage 7, peerMessage 6], [peerMessage 4], [peerMessage 8]]

theorem unreadCount_run_sampleBatches :
    unreadCountOf (run (applyBatch (fun _ => false) "alice") (readThroughFive, []) sampleBatches).1 "c" =
      countAbove 5 [6, 7, 6, 4, 8] := by
  refine unreadCount_run (fun _ => false) "alice" "c" 5 readThroughFive sampleBatches
    ⟨by decide, by decide, by decide⟩
    (by decide) ?_ ?_ (by decide)
  · exact .inl ⟨_, rfl, rfl, rfl, by decide, by decide, by decide⟩
  · intro batch hbatch m hm
    have hm' : m ∈ sampleBatches.flatten := mem_flatten.mpr ⟨batch, hbatch, hm⟩
    simp only [sampleBatches, flatten_cons, flatten_nil, cons_append, nil_append,
      mem_cons, not_mem_nil, or_false] at hm'
    rcases hm' with rfl | rfl | rfl | rfl | rfl <;> exact ⟨⟨rfl, by decide⟩, by decide, rfl⟩

/-- A late message below the window is not counted, and a repeat above it is counted again, in one batch or
in two. -/
theorem unreadCount_run_not_countAbove :
    unreadCountOf (run (applyBatch (fun _ => false) "alice") (readThroughFive, [])
      [[peerMessage 7], [peerMessage 6]]).1
        "c" = 1 ∧ countAbove 5 [7, 6] = 2 ∧
      unreadCountOf (run (applyBatch (fun _ => false) "alice") (readThroughFive, [])
        [[peerMessage 7], [peerMessage 7]]).1 "c" = 2 ∧
      unreadCountOf (run (applyBatch (fun _ => false) "alice") (readThroughFive, [])
        [[peerMessage 7, peerMessage 7]]).1
        "c" = 2 ∧ countAbove 5 [7, 7] = 1 := by
  decide

end FlareIm.Conversations
