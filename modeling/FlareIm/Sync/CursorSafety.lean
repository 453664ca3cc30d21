import FlareIm.Sync.Pull

/-! What the cursor of a conversation may pass. Every save of it is logged with the message table of
that moment, so a seq between the cursor before a run and the cursor after it belongs to one of the
saves of the run, and that save answers for it. The cursor can also fall on the way, when an event
deletes the conversation or a merge drops it; the seqs above are then passed once more. -/

namespace FlareIm.Sync

open Lib Message Store Events Dispatcher List

namespace CursorMove

def Passes (move : CursorMove) (seq : ℕ) : Prop := move.before < seq ∧ seq ≤ move.after

variable (conversationId : String)

/-- When the cursor was saved, the seq was a row of the conversation. -/
def HasRow (move : CursorMove) (seq : ℕ) : Prop :=
  ∃ r ∈ move.messages.rows.items, r.conversationId = conversationId ∧ r.conversationSeq = seq

/-- The history of the conversation was cleared through the seq, or starts above it. -/
def Hidden (move : CursorMove) (seq : ℕ) : Prop :=
  seq ≤ move.messages.clearedFloor conversationId

def Justified (pages : List SingleConversationSyncRes) (move : CursorMove) (seq : ℕ) : Prop :=
  match move.reason with
  | .contiguous _ => move.HasRow conversationId seq ∨ (∃ page ∈ pages, page.DeclaresAbsent seq) ∨
      move.Hidden conversationId seq
  | .coldStartTail requestedAfterSeq requestedCursor => requestedAfterSeq = 0 ∧ isBlank requestedCursor ∧
      ∃ page ∈ pages, seq ≤ page.maxConversationSeq
  | .snapshot => ∃ page ∈ pages, page.snapshotCutover

end CursorMove

section Advances

variable (conversationId : String) (pages : List SingleConversationSyncRes)

/-- The saves between the two states answer for every seq that the cursor passed. -/
def Advances (s t : SyncState) : Prop :=
  t.userId = s.userId ∧ ∃ moves, t.moves = s.moves ++ moves ∧
    ∀ seq, s.cursorSeq s.userId conversationId < seq → seq ≤ t.cursorSeq s.userId conversationId →
      ∃ move ∈ moves, move.Passes seq ∧ move.Justified conversationId pages seq

variable {conversationId pages}

variable {lastSeq : ℕ} {reason : CursorReason} {s : SyncState} {userId : String}

theorem Lowered.advances {t : SyncState} (h : Lowered s t) : Advances conversationId pages s t := by
  refine ⟨h.userId, [], by rw [h.moves, append_nil], fun seq hlow hhigh => ?_⟩
  have := h.cursors s.userId conversationId
  omega

instance : Std.Refl (Advances conversationId pages) := ⟨fun s => (refl_of Lowered s).advances⟩

instance : IsTrans SyncState (Advances conversationId pages) where
  trans s t u := by
    rintro ⟨huser, moves, hmoves, hanswer⟩ ⟨huser', moves', hmoves', hanswer'⟩
    refine ⟨huser'.trans huser, moves ++ moves', by rw [hmoves', hmoves, append_assoc], ?_⟩
    intro seq hlow hhigh
    rw [huser] at hanswer'
    -- The seq was passed before `t`, or is still ahead there.
    by_cases hmid : seq ≤ t.cursorSeq s.userId conversationId
    · obtain ⟨move, hmem, hmove⟩ := hanswer seq hlow hmid
      exact ⟨move, mem_append_left _ hmem, hmove⟩
    · obtain ⟨move, hmem, hmove⟩ := hanswer' seq (not_le.mp hmid) hhigh
      exact ⟨move, mem_append_right _ hmem, hmove⟩

/-- A save for another user leaves the cursor of this one alone. -/
theorem advances_withCursor
    (h : ∀ before after seq, s.cursorSeq userId conversationId < seq → seq ≤ storedSeq lastSeq →
      CursorMove.Justified conversationId pages ⟨reason, before, after, s.messages⟩ seq) :
    Advances conversationId pages s (s.withCursor userId conversationId lastSeq reason) := by
  refine ⟨rfl, _, rfl, fun seq hlow hhigh => ⟨_, mem_singleton_self _, ?_⟩⟩
  by_cases huser : userId = s.userId
  · subst huser
    rw [SyncState.cursorSeq_withCursor] at hhigh
    exact ⟨⟨hlow, hhigh⟩, h _ _ seq hlow (by omega)⟩
  · have hsame : (s.withCursor userId conversationId lastSeq reason).cursorSeq s.userId conversationId =
        s.cursorSeq s.userId conversationId := by
      simp [SyncState.withCursor, SyncState.cursorSeq, Function.update_of_ne (Ne.symm huser)]
    omega

theorem advances_saveWatermark
    (h : ∀ before after messages, ∀ seq ≤ lastSeq,
      CursorMove.Justified conversationId pages ⟨reason, before, after, messages⟩ seq) :
    (saveWatermark userId conversationId lastSeq reason).Within (Advances conversationId pages) := by
  refine .ite (.pure _) (.bind (lowered_storeCall.mono fun _ _ => Lowered.advances) fun _ => .modify fun s => ?_)
  refine advances_withCursor fun before after seq _ hseq => ?_
  exact h before after s.messages seq (hseq.trans (storedSeq_le _))

variable {ctx : SyncContext}

/-- The count starts at the cursor or at the floor, whichever is higher. -/
theorem justified_of_le_materialized {t : RowTable} {cursorSeq seq before after : ℕ} {absentSeqs : List ℕ}
    (habsent : ∀ seq ∈ absentSeqs, ∃ page ∈ pages, page.DeclaresAbsent seq) (hlow : cursorSeq < seq)
    (h : seq ≤ materializedContiguousSeq t conversationId lastSeq (max cursorSeq (t.clearedFloor conversationId))
      absentSeqs) :
    CursorMove.Justified conversationId pages ⟨.contiguous absentSeqs, before, after, t⟩ seq := by
  by_cases hfloor : max cursorSeq (t.clearedFloor conversationId) < seq
  · rcases covered_of_le_materialized hfloor h with hmem | hrow
    · exact .inr (.inl (habsent seq hmem))
    · exact .inl hrow
  · exact .inr (.inr (show seq ≤ t.clearedFloor conversationId by omega))

variable {advancesCursor : Bool}

theorem advances_settleCursor {page : SingleConversationSyncRes} (hpage : page ∈ pages) (knownSeq : ℕ)
    (report : List (ℕ × Bool)) (requestedAfterSeq : ℕ) (requestedCursor : String) (cursorSeq : ℕ) :
    (settleCursor ctx advancesCursor conversationId requestedAfterSeq requestedCursor cursorSeq
      (appliedPage page knownSeq report)).Within (Advances conversationId pages) := by
  refine .get_bind fun s => ?_
  split
  · next htail =>
    simp only [isColdStartTailSnapshot, Bool.and_eq_true, decide_eq_true_eq] at htail
    obtain ⟨⟨⟨⟨hzero, hblank⟩, -⟩, -⟩, -⟩ := htail
    refine .bind (.ite (advances_saveWatermark fun _ _ _ seq hseq => ?_) (.pure _)) fun _ => .pure _
    exact ⟨hzero, hblank, page, hpage, hseq⟩
  · refine .bind (.ite (within_saveCursor (fun _ _ h _ => h.advances) fun s => advances_withCursor ?_) (.pure _))
      fun _ => .pure _
    intro before after seq hlow hseq
    exact justified_of_le_materialized (fun _ hmem => ⟨page, hpage, declaresAbsent_of_mem hmem⟩) hlow
      (hseq.trans (storedSeq_le _))

variable [EventCodes]

theorem advances_absorbPage (page : SingleConversationSyncRes) (requestedAfterSeq : ℕ) :
    (absorbPage ctx advancesCursor conversationId page requestedAfterSeq).Within
      (Advances conversationId pages) := by
  intro s
  rcases absorbPage_leads ctx advancesCursor conversationId page requestedAfterSeq s with
    ⟨hlowered, -⟩ | ⟨report, -, hlowered, -⟩
  · exact hlowered.advances
  · -- Reporting the events touches neither cursors nor moves.
    exact (Lowered.advances hlowered : Advances conversationId pages (s.withReport report) _)

theorem advances_resync (snapshot : Except FlareError (List SnapshotConversationRow))
    (h : ∃ page ∈ pages, page.snapshotCutover) :
    (resyncConversationFromSnapshot ctx conversationId snapshot).Within (Advances conversationId pages) := by
  refine .get_bind fun s => ?_
  split
  · exact .fail _
  · refine .foldlM (fun _ row => ?_) _ _
    refine .bind ((lowered_persistConvergedMessages ctx _ _ _).mono fun _ _ => Lowered.advances) fun _ => ?_
    exact .bind (.ite (advances_saveWatermark fun _ _ _ _ _ => h) (.pure _)) fun _ => .pure _

theorem advances_requestSinglePage {reply : ServerReply} (hreply : ∀ page ∈ reply.page?, page ∈ pages)
    (lastSeq : ℕ) (cursor : String) :
    (requestSinglePage ctx advancesCursor conversationId reply lastSeq cursor).Within
      (Advances conversationId pages) := by
  unfold requestSinglePage
  split
  · exact .fail _
  · next response hresponse =>
    unfold applySyncResSingle
    split
    · exact .pure _
    · next page =>
      have hpage : page ∈ pages := hreply page (by rw [ServerReply.page?, hresponse]; rfl)
      split
      · next hcutover =>
        exact .bind (advances_resync _ ⟨page, hpage, (Bool.and_eq_true_iff.mp hcutover).2⟩) fun _ => .pure _
      · refine .bind_of (advances_absorbPage page lastSeq) fun s absorbed t habsorbed => ?_
        obtain ⟨report, rfl⟩ := exists_report_of_absorbPage habsorbed
        exact advances_settleCursor hpage _ report lastSeq cursor _ t

theorem advances_syncConversationLoop (startSeq : ℕ) {replies : List ServerReply}
    (hreplies : ∀ reply ∈ replies, ∀ page ∈ reply.page?, page ∈ pages) (fromSeq : ℕ) (cursor : String) :
    (syncConversationLoop ctx advancesCursor conversationId startSeq replies fromSeq cursor).Within
      (Advances conversationId pages) := by
  induction replies generalizing fromSeq cursor with
  | nil => exact .fail _
  | cons reply replies ih =>
    have hrest : ∀ reply ∈ replies, ∀ page ∈ reply.page?, page ∈ pages :=
      fun reply hreply => hreplies reply (mem_cons_of_mem _ hreply)
    refine .bind (advances_requestSinglePage (hreplies reply mem_cons_self) fromSeq cursor) fun next => ?_
    refine .ite (.ite ?_ (.pure _)) (.ite (ih hrest next.1 next.2.2) (.pure _))
    cases replies with
    | nil => exact .fail _
    | cons reply replies =>
      exact .bind (advances_requestSinglePage (hrest reply mem_cons_self) 0 "") fun _ => .pure _

variable (ctx advancesCursor conversationId) in
theorem advances_syncConversation (fromSeq? : Option ℕ) (replies : List ServerReply) :
    (syncConversation ctx advancesCursor conversationId fromSeq? replies).Within
      (Advances conversationId (sentPages replies)) := by
  have hreplies : ∀ reply ∈ replies, ∀ page ∈ reply.page?, page ∈ sentPages replies :=
    fun reply hreply page hpage => mem_filterMap.mpr ⟨reply, hreply, hpage⟩
  have hcall : storeCall.Within (Advances conversationId (sentPages replies)) :=
    lowered_storeCall.mono fun _ _ => Lowered.advances
  unfold syncConversation
  split
  · exact advances_syncConversationLoop _ hreplies _ _
  · refine .bind hcall fun _ => .bind hcall fun _ => .bind hcall fun _ => .get_bind fun s => ?_
    exact advances_syncConversationLoop _ hreplies _ _

end Advances

section Safety

variable [EventCodes] (ctx : SyncContext) (advancesCursor : Bool) (conversationId : String)

/-- Without a snapshot cutover, a seq that the cursor passed in a run was a stored row, a seq that one
of the pages declared absent or a hidden one when it was passed, or the watermark of a page that was
taken for the tail of a cold start carried the cursor over it. -/
theorem covered_of_passed (fromSeq? : Option ℕ) (replies : List ServerReply) (s : SyncState)
    (hcutover : ∀ page ∈ sentPages replies, page.snapshotCutover = false) {seq : ℕ}
    (hlow : s.cursorSeq s.userId conversationId < seq)
    (hhigh : seq ≤ ((syncConversation ctx advancesCursor conversationId fromSeq? replies).run s).2.cursorSeq
      s.userId conversationId) :
    ∃ move ∈ ((syncConversation ctx advancesCursor conversationId fromSeq? replies).run s).2.moves.drop
    s.moves.length,
      move.Passes seq ∧ (move.HasRow conversationId seq ∨ (∃ page ∈ sentPages replies, page.DeclaresAbsent seq) ∨
          move.Hidden conversationId seq ∨
          (∃ requestedCursor, move.reason = .coldStartTail 0 requestedCursor ∧ isBlank requestedCursor ∧
            ∃ page ∈ sentPages replies, seq ≤ page.maxConversationSeq)) := by
  obtain ⟨-, moves, hmoves, hanswer⟩ := advances_syncConversation conversationId ctx
    advancesCursor fromSeq? replies s
  obtain ⟨move, hmem, hpasses, hjustified⟩ := hanswer seq hlow hhigh
  refine ⟨move, by rwa [hmoves, drop_left], hpasses, ?_⟩
  unfold CursorMove.Justified at hjustified
  split at hjustified
  · rcases hjustified with hrow | habsent | hhidden
    · exact .inl hrow
    · exact .inr (.inl habsent)
    · exact .inr (.inr (.inl hhidden))
  · next htail =>
    obtain ⟨rfl, hblank, hwatermark⟩ := hjustified
    exact .inr (.inr (.inr ⟨_, htail, hblank, hwatermark⟩))
  · obtain ⟨page, hpage, hasks⟩ := hjustified
    exact absurd hasks (by rw [hcutover page hpage]; simp)

end Safety

/-! ### Three runs -/

/-- The history was cleared through 10, which the cursor had not reached; message 11 comes in. -/
def clearedReplies : List ServerReply := [sampleReply [⟨11, some (.message (sampleMessage "m11" 11))⟩] 11]

/-- Nothing above 5, and then the repair from 0, by which time message 20 is the newest one. -/
def repairReplies : List ServerReply :=
  [sampleReply [] 5, sampleReply [⟨20, some (.message (sampleMessage "m20" 20))⟩] 20]

/-- Message 6, and on the next page its deletion. -/
def deletedReplies : List ServerReply :=
  [sampleReply [⟨6, some (.message (sampleMessage "m6" 6))⟩] 7,
    sampleReply [sampleEvent "e7" 3 7 (.delete "m6" none none)] 7]

theorem covered_of_passed_cleared :
    ∃ move ∈ ((@syncConversation sampleEventCodes sampleContext true "conv" none clearedReplies).run
        (sampleState 10)).2.moves.drop 0,
      move.Passes 6 ∧ (move.HasRow "conv" 6 ∨ (∃ page ∈ sentPages clearedReplies, page.DeclaresAbsent 6) ∨
          move.Hidden "conv" 6 ∨
          (∃ requestedCursor, move.reason = .coldStartTail 0 requestedCursor ∧ isBlank requestedCursor ∧
            ∃ page ∈ sentPages clearedReplies, 6 ≤ page.maxConversationSeq)) :=
  @covered_of_passed sampleEventCodes sampleContext true "conv" none clearedReplies (sampleState 10)
    (by decide) 6 (by decide) (by decide)

/-- The cursor passes seq 6, which is nowhere: no row, no event that was applied, not declared absent. -/
def LosesSix (clearedFloor : ℕ) (replies : List ServerReply) : Prop :=
  let t := ((@syncConversation sampleEventCodes sampleContext true "conv" none replies).run
    (sampleState clearedFloor)).2
  (sampleState clearedFloor).cursorSeq "alice" "conv" = 5 ∧ 6 ≤ t.cursorSeq "alice" "conv" ∧
    (∀ page ∈ sentPages replies, page.snapshotCutover = false ∧ ¬ page.DeclaresAbsent 6) ∧
    (∀ r ∈ t.messages.rows.items, ¬ (r.conversationId = "conv" ∧ r.conversationSeq = 6)) ∧
    ∀ report ∈ t.reports, (6, true) ∉ report

theorem not_covered_of_passed : LosesSix 10 clearedReplies ∧ LosesSix 0 repairReplies ∧
    LosesSix 0 deletedReplies := by
  unfold LosesSix
  decide

end FlareIm.Sync
