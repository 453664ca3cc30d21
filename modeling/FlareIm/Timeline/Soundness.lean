import Mathlib.Data.Fintype.EquivFin
import FlareIm.Timeline.Accounts

/-! Coverage is recorded soundly. Whatever a sync has recorded, and in whichever order pages, tails,
snapshots and older history came in, a covered seq lies in a range that was accounted for, seq by seq, when
it was recorded. Later changes of the rows leave the ranges as they are. The pages have to keep to what the
server promises: a message stands at the seq of its item, and messages and rows that share an id are at one
seq. -/

namespace FlareIm.Timeline

open Lib Message Store Events Dispatcher Sync List

/-! ### What is kept -/

variable {conversationId : String} {ctx : SyncContext} {s : RecordingState}

variable {all : List InboundMessage} {knownSeq : ℕ} {range? : Option SeqRange} {source : RangeSource}

section Backed

variable [RowCodes]

/-- Every covered seq lies in a range that was accounted for. -/
def Backed (ctx : SyncContext) (s : RecordingState) : Prop :=
  ∀ conversationId seq, (s.coverage.coverage conversationId).Covers seq →
    ∃ record ∈ s.records, record.conversationId = conversationId ∧ Span.Contains record.range seq ∧
    record.Accounts ctx seq

theorem Backed.recordRange (hs : Backed ctx s)
    (hrange : ∀ range ∈ range?, ∀ seq, Span.Contains range seq → s.moment.Accounts ctx conversationId source seq) :
    Backed ctx (s.recordRange conversationId source range?) := by
  unfold RecordingState.recordRange
  split
  · exact hs
  · next range =>
    split
    · exact hs
    · intro c seq hcovers
      have hold : (s.coverage.coverage c).Covers seq →
      ∃ record ∈ s.records ++ [⟨conversationId, range, source, s.moment⟩],
          record.conversationId = c ∧ Span.Contains record.range seq ∧ record.Accounts ctx seq := by
        intro h
        obtain ⟨record, hmem, hrecord⟩ := hs c seq h
        exact ⟨record, mem_append_left _ hmem, hrecord⟩
      rw [MemoryTimelineCoverageStore.coverage_add] at hcovers
      split at hcovers
      · next heq =>
        rcases TimelineCoverage.covers_insert.mp hcovers with hnew | hcovered
        · exact ⟨_, mem_append_right _ (mem_singleton.mpr rfl), heq.symm, hnew, hrange range rfl seq hnew⟩
        · exact hold hcovered
      · exact hold hcovers

/-- What the sync does by itself touches no range. -/
theorem guards_onSync {α : Type} {x : SyncM α} {Q : α → SyncState → Prop} (hs : Backed ctx s)
    (h : x.Yields s.sync Q) :
    (onSync x).Guards (Backed ctx) s fun a t => ∃ u, t = s.withSync u ∧ Q a u :=
  ⟨hs, .onPart (h.mono fun _ u hu => ⟨u, rfl, hu⟩)⟩

theorem guards_recordCoverage (hs : Backed ctx s)
    (hrange : ∀ range ∈ range?, ∀ seq, Span.Contains range seq → s.moment.Accounts ctx conversationId source seq) :
    (recordCoverage conversationId source range?).Guards (Backed ctx) s fun _ t => t.sync = s.sync ∧
      t.moment = s.moment :=
  .modify (hs.recordRange hrange) ⟨s.sync_recordRange _ _ _, s.moment_recordRange _ _ _⟩

end Backed

/-! ### Pages -/

section Cursors

variable (userId conversationId : String) (lastSeq : ℕ) (reason : CursorReason) (s : SyncState)

theorem persistCursor_yields : (persistCursor userId conversationId lastSeq reason).Yields s fun _ t =>
    t.userId = s.userId ∧ t.messages = s.messages := by
  refine (storeCall_leads s).yields.bind ?_
  rintro _ _ ⟨faults, rfl⟩
  exact .of_run rfl ⟨rfl, rfl⟩

end Cursors

section Pages

variable [EventCodes]

theorem applyEvents_yields (userId : String) (events : List Event) (s : SyncState) :
    (applyEvents userId events).Yields s fun outcomes t => outcomes.length = events.length ∧ t.userId = s.userId ∧
      ∀ r ∈ t.messages.rows.items, ∃ q ∈ s.messages.rows.items, RowTable.place q = RowTable.place r := by
  -- Seen from a conversation that none of the events is about, nothing moves.
  obtain ⟨other, hother⟩ := Infinite.exists_notMem_finset (events.map (·.conversationId)).toFinset
  have hwithin : (applyEvents userId events).Within (Unmoved other) := unmoved_applyEvents userId
    fun ev hev _ heq => hother (mem_toFinset.mpr (mem_map.mpr ⟨ev, hev, heq⟩))
  intro outcomes t hrun
  have hunmoved := hwithin s
  rw [hrun] at hunmoved
  obtain ⟨_, _, hrun', -, hlength⟩ := applyEvents_ensures userId events s
  rw [hrun] at hrun'
  cases hrun'
  exact ⟨hlength, hunmoved.userId, hunmoved.rows⟩

/-- A page as the server promises to send it. -/
structure PageSent (ctx : SyncContext) (conversationId : String) (page : SingleConversationSyncRes) (knownSeq : ℕ)
    (s : SyncState) : Prop where
  counted : knownSeq < maxU64
  carried : ∀ item ∈ page.items, ∀ seq m, decodeItem item = .message seq m → m.conversationSeq = seq
  sent : Sent ctx s.userId conversationId (decodeSingleConversationItems page knownSeq).messages s.messages

/-- A reply with such a page, or with a snapshot of the conversation in its place. -/
structure ReplySent (ctx : SyncContext) (advancesCursor : Bool) (conversationId : String) (reply : ServerReply)
    (page : SingleConversationSyncRes) (requestedAfterSeq : ℕ) (s : SyncState) : Prop where
  items : (advancesCursor && page.snapshotCutover) = false →
    PageSent ctx conversationId page (decodeAfterSeq advancesCursor conversationId s requestedAfterSeq) s
  snapshot : (advancesCursor && page.snapshotCutover) = true → ∀ rows, reply.snapshot = .ok rows →
    Sent ctx s.userId conversationId
      ((rows.filter fun row => row.conversationId = conversationId).flatMap (·.messages))
      s.messages

theorem guards_persistMessages (hqueue : Defers ctx.converger) (hs : Backed ctx s) {ms : List InboundMessage}
    (hsent : Sent ctx s.sync.userId conversationId all s.sync.messages) (hms : ms ⊆ all) :
    (persistMessages ctx s.sync.userId conversationId ms).Guards (Backed ctx) s fun _ t =>
      t.sync.userId = s.sync.userId ∧ Sent ctx s.sync.userId conversationId all t.sync.messages ∧
        t.moment.Kept ctx conversationId ms := by
  refine .get_bind ((guards_onSync hs (persistConvergedMessages_yields hqueue hsent hms)).bind ?_)
  rintro _ _ ht ⟨t, rfl, hkeeps, huser, hstored⟩
  refine .modify ht ⟨huser, ⟨hsent.named, hsent.trimmed, hsent.canonical, hkeeps.agrees⟩, fun m hm hpos => ?_⟩
  refine (hstored m hm hpos).imp_left fun hunkept => ?_
  rcases hunkept with hephemeral | hhidden | hhands
  · exact .inl (by rwa [← huser] at hephemeral)
  · exact .inr (.inl (by rwa [← hkeeps.floor] at hhidden))
  · refine .inr (.inr (mem_append_right _ ?_))
    rw [handedOver, ctx.converger.rewrites_of_canonical fun m hm => hsent.canonical m (hms hm), foldl_nil]
    exact mem_filter.mpr ⟨hm, hhands⟩

variable {page : SingleConversationSyncRes}

theorem guards_applySingleConversationPage (hqueue : Defers ctx.converger) (hs : Backed ctx s)
    (hpage : PageSent ctx conversationId page knownSeq s.sync) :
    (applySingleConversationPage ctx conversationId s.sync.userId knownSeq page).Guards
      (Backed ctx) s fun recorded t =>
      ∃ report, report.map Prod.fst = page.operationSeqs ∧ recorded = recordedPage page knownSeq report ∧
        t.moment.Kept ctx conversationId (decodeSingleConversationItems page knownSeq).messages := by
  refine (guards_onSync hs (applyEvents_yields s.sync.userId _ s.sync)).bind ?_
  rintro outcomes _ ht ⟨t, rfl, hlength, huser, hrows⟩
  have hreport : (eventReport page knownSeq outcomes).map Prod.fst = page.operationSeqs := by
    rw [eventReport, map_fst_zip (by rw [hlength, length_map, length_map])]
    rfl
  refine (guards_onSync ht (.modify _ _)).bind ?_
  rintro _ _ hu ⟨u, rfl, rfl⟩
  have hsent : Sent ctx t.userId conversationId
    (decodeSingleConversationItems page knownSeq).messages t.messages := by
    obtain ⟨hnamed, htrimmed, hcanonical, hagrees⟩ := hpage.sent
    rw [huser]
    exact ⟨hnamed, htrimmed, hcanonical, hagrees.of_rows hrows⟩
  rw [← huser]
  refine (guards_persistMessages hqueue hu hsent (List.Subset.refl _)).bind ?_
  rintro _ v hv ⟨-, -, hkept⟩
  refine (guards_recordCoverage hv ?_).bind ?_
  · intro range hrange seq hseq
    obtain ⟨hlow, hhigh⟩ := (SeqRange.contains_of_new_after hpage.counted hrange).mp hseq
    exact Moment.accounts_contiguousPage hpage.carried hkept hlow hhigh
  · rintro _ w hw ⟨-, hmoment⟩
    exact .pure hw ⟨_, hreport, rfl, hmoment ▸ hkept⟩

variable {requestedAfterSeq : ℕ} {advancesCursor : Bool}

theorem guards_absorbPage (hqueue : Defers ctx.converger) (hs : Backed ctx s)
    (hpage : PageSent ctx conversationId page
      (decodeAfterSeq advancesCursor conversationId s.sync requestedAfterSeq) s.sync) :
    (absorbPage ctx advancesCursor conversationId page requestedAfterSeq).Guards (Backed ctx) s fun absorbed t =>
      ∃ knownSeq report, report.map Prod.fst = page.operationSeqs ∧ absorbed.2 = recordedPage page knownSeq report ∧
        t.moment.Kept ctx conversationId (decodeSingleConversationItems page knownSeq).messages := by
  have hread : (if s.sync.userId = "" then pure () else storeCall : SyncM Unit).Yields s.sync fun _ t =>
      ∃ faults, t = { s.sync with faults := faults } := by
    split
    · exact .pure ⟨_, rfl⟩
    · exact (storeCall_leads s.sync).yields
  refine .get_bind ((guards_onSync hs hread).bind ?_)
  rintro _ _ ht ⟨_, rfl, faults, rfl⟩
  refine (guards_onSync ht (storeCall_leads _).yields).bind ?_
  rintro _ _ hu ⟨_, rfl, faults', rfl⟩
  refine (guards_applySingleConversationPage hqueue hu ⟨hpage.counted, hpage.carried, hpage.sent⟩).bind ?_
  rintro recorded v hv ⟨report, hreport, rfl, hkept⟩
  exact .pure hv ⟨_, report, hreport, rfl, hkept⟩

theorem guards_saveCursor (hs : Backed ctx s) (userId : String) (lastSeq : ℕ)
    {absentSeqs : List ℕ} (habsent : ∀ seq ∈ absentSeqs, page.DeclaresAbsent seq) :
    (saveCursor ctx page userId conversationId lastSeq absentSeqs).Guards (Backed ctx) s fun _ _ => True := by
  refine (guards_onSync hs (storeCall_leads _).yields).bind fun _ t ht _ => ?_
  refine (guards_onSync ht (storeCall_leads _).yields).bind fun _ u hu _ => .get_bind ?_
  dsimp only
  split
  · exact .pure hu trivial
  · next hpast =>
    refine (guards_onSync hu
      (localMaterializedContiguousSeq_leads ctx conversationId _ absentSeqs (by omega) _).yields).bind ?_
    rintro safeLastSeq _ hv ⟨v, rfl, -, -, hcounted⟩
    obtain ⟨-, hsafe⟩ := hcounted safeLastSeq rfl
    split
    · exact .pure hv trivial
    · next hmoves =>
      refine (guards_onSync hv (persistCursor_yields _ _ _ _ _)).bind ?_
      rintro _ _ hw ⟨w, rfl, -, hmessages⟩
      refine (guards_recordCoverage hw fun range hrange seq hseq => ?_).mono fun _ _ _ => trivial
      have hbound := SeqRange.le_maxU64_of_new hrange
      obtain ⟨hlow, hhigh⟩ := (SeqRange.contains_of_new_after (by omega) hrange).mp hseq
      have hsame : v.messages = w.messages := hmessages.symm
      rw [hsame] at hsafe
      -- the seqs that the cursor passes are stored, or the page declares them absent
      rcases covered_of_le_materialized hlow (hhigh.trans_eq hsafe) with hmem | hrow
      · exact .inr (.inr (.inl (habsent seq hmem)))
      · exact .inl hrow

theorem guards_settleCursor (hs : Backed ctx s) (advancesCursor : Bool) {report : List (ℕ × Bool)}
    (hreport : report.map Prod.fst = page.operationSeqs)
    (hcarried : ∀ item ∈ page.items, ∀ seq m, decodeItem item = .message seq m → m.conversationSeq = seq)
    (hkept : s.moment.Kept ctx conversationId (decodeSingleConversationItems page knownSeq).messages)
    (requestedAfterSeq : ℕ) (requestedCursor : String) (cursorSeq : ℕ) :
    (settleCursor ctx advancesCursor conversationId page requestedAfterSeq requestedCursor cursorSeq
      (recordedPage page knownSeq report)).Guards (Backed ctx) s fun _ _ => True := by
  refine .get_bind ?_
  dsimp only
  split
  · next htail =>
    simp only [isColdStartTailSnapshot, Bool.and_eq_true, decide_eq_true_eq] at htail
    obtain ⟨⟨-, hzero⟩, -⟩ := htail
    -- A tail is only taken for one where nothing was known.
    obtain rfl : knownSeq = 0 := by
      have hle : knownSeq ≤ (appliedPage page knownSeq report).maxSeq :=
        le_maxContiguousSeq_iff.mpr fun seq hlow hhigh => absurd hlow (by omega)
      exact Nat.le_zero.mp (hle.trans_eq hzero)
    refine (guards_recordCoverage hs fun range _ seq hseq => ?_).bind fun _ t ht _ => ?_
    · exact Moment.accounts_tailPage hreport hcarried hkept (range.one_le.trans hseq.1)
    · exact (guards_onSync (Q := fun _ _ => True) ht fun _ _ _ => trivial).bind fun _ u hu _ => .pure hu trivial
  · refine .bind (Q := fun _ _ => True) ?_ fun _ t ht _ => .pure ht trivial
    split
    · exact guards_saveCursor hs _ _ fun seq hseq => declaresAbsent_of_mem hseq
    · exact .pure hs trivial

theorem guards_applySnapshotRow (hqueue : Defers ctx.converger) (hs : Backed ctx s)
    {row : SnapshotConversationRow} (hsent : Sent ctx s.sync.userId row.conversationId all s.sync.messages)
    (hmessages : row.messages ⊆ all) :
    (applySnapshotRow ctx s.sync.userId row).Guards (Backed ctx) s fun _ t =>
      t.sync.userId = s.sync.userId ∧ Sent ctx s.sync.userId row.conversationId all t.sync.messages := by
  refine (guards_persistMessages hqueue hs hsent hmessages).bind ?_
  rintro _ t ht ⟨huser, hsent', hkept⟩
  refine (guards_recordCoverage ht fun range _ seq hseq => ?_).bind ?_
  · by_cases hlisted : seq ∈ row.messages.map (·.conversationSeq)
    · obtain ⟨m, hm, rfl⟩ := mem_map.mp hlisted
      exact Moment.accounts_of_message hkept hm (range.one_le.trans hseq.1)
        (mem_filter.mpr ⟨hm, decide_eq_true rfl⟩)
    · exact .inr (.inr (.inl hlisted))
  · rintro _ u hu ⟨hsync, -⟩
    rw [← hsync] at huser hsent'
    exact .pure hu ⟨huser, hsent'⟩

theorem guards_resyncConversationFromSnapshot (hqueue : Defers ctx.converger) (hs : Backed ctx s)
    {snapshot : Except FlareError (List SnapshotConversationRow)}
    (hsent : ∀ rows, snapshot = .ok rows → Sent ctx s.sync.userId conversationId
      ((rows.filter fun row => row.conversationId = conversationId).flatMap (·.messages)) s.sync.messages) :
    (resyncConversationFromSnapshot ctx conversationId snapshot).Guards (Backed ctx) s fun _ _ => True := by
  refine .get_bind ?_
  cases snapshot with
  | error e => exact .fail e hs
  | ok rows =>
    have hall := hsent rows rfl
    dsimp only
    generalize hkept : (rows.filter fun row => row.conversationId = conversationId) = kept at hall ⊢
    refine (Prog.Guards.foldlM (J := fun rest _ t => rest ⊆ kept ∧ t.sync.userId = s.sync.userId ∧
      Sent ctx s.sync.userId conversationId (kept.flatMap (·.messages)) t.sync.messages) ?_ kept 0 s hs
      ⟨List.Subset.refl _, rfl, hall⟩).mono fun _ _ _ => trivial
    rintro row rest _ t ht ⟨hrest, huser, hsent⟩
    obtain ⟨hrow, hrest⟩ := cons_subset.mp hrest
    obtain rfl : row.conversationId = conversationId := by
      rw [← hkept] at hrow
      exact of_decide_eq_true (mem_filter.mp hrow).2
    rw [← huser] at hsent ⊢
    refine (guards_applySnapshotRow hqueue ht hsent fun m hm => mem_flatMap.mpr ⟨row, hrow, hm⟩).bind ?_
    rintro lastSeq u hu ⟨huser', hsent'⟩
    have hsave :
      (if 0 < lastSeq && t.sync.userId ≠ "" then saveWatermark t.sync.userId row.conversationId lastSeq .snapshot
        else pure () : SyncM Unit).Yields u.sync fun _ v => v.userId = u.sync.userId ∧
        v.messages = u.sync.messages := by
      split
      · unfold saveWatermark
        split
        · exact .pure ⟨rfl, rfl⟩
        · exact persistCursor_yields _ _ _ _ _
      · exact .pure ⟨rfl, rfl⟩
    refine (guards_onSync hu hsave).bind ?_
    rintro _ _ hv ⟨v, rfl, huser'', hmessages⟩
    refine .pure hv ⟨hrest, huser''.trans huser', ?_⟩
    exact hmessages ▸ hsent'

variable {response : Option SingleConversationSyncRes}

variable (hqueue : Defers ctx.converger) (hs : Backed ctx s)

include hqueue hs

section

variable {reply : ServerReply} (requestedCursor : String)

theorem guards_applySyncResSingle
    (hreply : ∀ page ∈ response, ReplySent ctx advancesCursor conversationId reply page requestedAfterSeq s.sync) :
    (applySyncResSingle ctx advancesCursor conversationId reply response requestedAfterSeq requestedCursor).Guards
      (Backed ctx) s fun _ _ => True := by
  cases response with
  | none => exact .pure hs trivial
  | some page =>
    unfold applySyncResSingle
    dsimp only
    split
    · next hcutover =>
      exact (guards_resyncConversationFromSnapshot hqueue hs ((hreply page rfl).snapshot hcutover)).bind
        fun _ t ht _ =>
        .pure ht trivial
    · next hcutover =>
      have hsent := (hreply page rfl).items (Bool.eq_false_iff.mpr hcutover)
      refine (guards_absorbPage hqueue hs hsent).bind ?_
      rintro ⟨cursorSeq, _⟩ t ht ⟨knownSeq, report, hreport, rfl, hkept⟩
      exact guards_settleCursor ht advancesCursor hreport hsent.carried hkept requestedAfterSeq
        requestedCursor cursorSeq

theorem guards_requestSinglePage
    (hreply : ∀ page ∈ reply.page?,
      ReplySent ctx advancesCursor conversationId reply page requestedAfterSeq s.sync) :
    (requestSinglePage ctx advancesCursor conversationId reply requestedAfterSeq requestedCursor).Guards
      (Backed ctx) s
      fun _ _ => True := by
  unfold requestSinglePage
  cases hpage : reply.page with
  | error e => exact .fail e hs
  | ok response =>
    have hresponse : reply.page? = response := by rw [ServerReply.page?, hpage]
    exact guards_applySyncResSingle hqueue hs requestedCursor (hresponse ▸ hreply)

end

theorem guards_syncConversationBackfillBeforeSeq (beforeSeq : ℕ)
    (hpage : ∀ page ∈ response, PageSent ctx conversationId page 0 s.sync) :
    (syncConversationBackfillBeforeSeq ctx conversationId beforeSeq response).Guards
      (Backed ctx) s fun _ _ => True := by
  unfold syncConversationBackfillBeforeSeq
  split
  · exact .pure hs trivial
  · cases response with
    | none => exact .pure hs trivial
    | some page =>
      refine .get_bind ((guards_applySingleConversationPage hqueue hs (hpage page rfl)).bind ?_)
      rintro _ t ht ⟨report, hreport, rfl, hkept⟩
      refine (guards_recordCoverage ht fun range _ seq hseq => ?_).bind fun _ u hu _ => .pure hu trivial
      exact Moment.accounts_tailPage hreport (hpage page rfl).carried hkept (range.one_le.trans hseq.1)

end Pages

/-! ### Runs -/

inductive CoverageEvent
  | page (advancesCursor : Bool) (conversationId : String) (reply : ServerReply) (requestedAfterSeq : ℕ)
      (requestedCursor : String)
  | snapshot (row : SnapshotConversationRow)
  | backfill (conversationId : String) (beforeSeq : ℕ) (response : Option SingleConversationSyncRes)
  /-- Whatever else is done to the stores, and which of the next writes of ranges will fail. -/
  | elsewhere (sync : SyncState) (faults : List Bool)
  /-- The ranges of the conversation are given up. -/
  | clear (conversationId : String)

section Runs

variable [EventCodes] (ctx : SyncContext)

def step (s : RecordingState) : CoverageEvent → RecordingState
  | .page advancesCursor conversationId reply requestedAfterSeq requestedCursor =>
    ((requestSinglePage ctx advancesCursor conversationId reply requestedAfterSeq requestedCursor).run s).2
  | .snapshot row => ((applySnapshotRow ctx s.sync.userId row).run s).2
  | .backfill conversationId beforeSeq response =>
    ((syncConversationBackfillBeforeSeq ctx conversationId beforeSeq response).run s).2
  | .elsewhere sync faults => { s with sync := sync, faults := faults }
  | .clear conversationId => { s with coverage := s.coverage.clear conversationId }

/-- What comes in is as the server promises to send it. -/
def Promised (s : RecordingState) : CoverageEvent → Prop
  | .page advancesCursor conversationId reply requestedAfterSeq _ =>
    ∀ page ∈ reply.page?, ReplySent ctx advancesCursor conversationId reply page requestedAfterSeq s.sync
  | .snapshot row => Sent ctx s.sync.userId row.conversationId row.messages s.sync.messages
  | .backfill conversationId _ response => ∀ page ∈ response, PageSent ctx conversationId page 0 s.sync
  | .elsewhere _ _ => True
  | .clear _ => True

variable {ctx}

theorem Backed.step (hqueue : Defers ctx.converger) (hs : Backed ctx s) {event : CoverageEvent}
    (hevent : Promised ctx s event) : Backed ctx (step ctx s event) := by
  cases event with
  | page advancesCursor conversationId reply requestedAfterSeq requestedCursor =>
    exact (guards_requestSinglePage hqueue hs requestedCursor hevent).1
  | snapshot row => exact (guards_applySnapshotRow hqueue hs hevent (List.Subset.refl _)).1
  | backfill conversationId beforeSeq response =>
    exact (guards_syncConversationBackfillBeforeSeq hqueue hs beforeSeq hevent).1
  | elsewhere sync faults => exact hs
  | clear conversationId =>
    intro c seq hcovers
    have hcleared : ((s.coverage.clear conversationId).coverage c).Covers seq := hcovers
    rw [MemoryTimelineCoverageStore.coverage_clear] at hcleared
    split at hcleared
    · exact absurd hcleared (TimelineCoverage.not_covers_empty seq)
    · exact hs c seq hcleared

/-- A seq that is covered after a run lies in a range that the run recorded, and when it was recorded the
seq had a row, or an event of the page was applied there, or the server had shown it to be absent, or the
message there is one that gets no row, or the page was taken as a whole with an item there that could not be
applied. -/
theorem accounted_of_covered (hqueue : Defers ctx.converger) (sync : SyncState) (faults : List Bool)
    (events : List CoverageEvent)
    (hevents : AllSteps (step ctx) (Promised ctx) { sync := sync, faults := faults } events)
    {conversationId : String} {seq : ℕ}
    (hcovers : ((run (step ctx) { sync := sync, faults := faults } events).coverage.coverage
      conversationId).Covers seq) :
    ∃ record ∈ (run (step ctx) { sync := sync, faults := faults } events).records,
      record.conversationId = conversationId ∧ Span.Contains record.range seq ∧
        (record.moment.messages.HasSeq conversationId seq ∨ (seq, true) ∈ record.source.report ∨
          record.source.ProvesAbsent seq ∨
          (∃ m ∈ record.source.messagesAt seq, record.moment.Unkept ctx conversationId m) ∨
          record.source.LeavesOut seq) := by
  have hstart : Backed ctx { sync := sync, faults := faults } := by
    intro c seq hcovers
    have hempty : (({} : MemoryTimelineCoverageStore).coverage c).Covers seq := hcovers
    rw [MemoryTimelineCoverageStore.coverage_empty] at hempty
    exact absurd hempty (TimelineCoverage.not_covers_empty seq)
  have hbacked := run_invariant (I := Backed ctx)
    (fun s event hs hevent => hs.step hqueue hevent) events _ hstart hevents
  obtain ⟨record, hmem, rfl, hcontains, haccounts⟩ := hbacked conversationId seq hcovers
  exact ⟨record, hmem, rfl, hcontains, haccounts⟩

end Runs

/-! ### Runs from message 5 -/

def olderPage : SingleConversationSyncRes where
  items := [⟨3, some (.message (sampleMessage "m3" 3))⟩]
  maxConversationSeq := 8

/-- The page after message 5, and then all that lies before it. -/
def sampleEvents : List CoverageEvent :=
  [.page true "conv" ⟨.ok (some keptPage), .ok []⟩ 5 "", .backfill "conv" 5 (some olderPage)]

theorem sampleEvents_promised :
    AllSteps (@step sampleEventCodes sampleContext) (@Promised sampleEventCodes sampleContext)
    { sync := sampleState 0 } sampleEvents := by
  let _ := sampleEventCodes
  refine ⟨fun page hpage => ⟨fun _ => ?_, fun hcutover => ?_⟩, fun page hpage => ?_, trivial⟩
  · obtain rfl := Option.some.inj hpage
    refine ⟨by decide, fun item hitem seq m hdecoded => (keptPage_messages hitem hdecoded).1, ?_⟩
    exact ⟨by decide, by decide, by decide, by decide⟩
  · obtain rfl := Option.some.inj hpage
    exact absurd hcutover (by decide)
  · obtain rfl := Option.some.inj hpage
    refine ⟨by decide, fun item hitem seq m hdecoded => ?_, ?_⟩
    · rw [mem_singleton.mp hitem] at hdecoded
      obtain ⟨rfl, rfl⟩ := DecodedItem.message.inj hdecoded
      rfl
    · exact ⟨by decide, by decide, by decide, by decide⟩

theorem accounted_of_covered_sampleEvents :
    ((run (@step sampleEventCodes sampleContext) { sync := sampleState 0 } sampleEvents).coverage.coverage
      "conv").Covers 2 ∧
    ∃ record ∈ (run (@step sampleEventCodes sampleContext) { sync := sampleState 0 } sampleEvents).records,
      record.conversationId = "conv" ∧ Span.Contains record.range 2 ∧
        (record.moment.messages.HasSeq "conv" 2 ∨ (2, true) ∈ record.source.report ∨ record.source.ProvesAbsent 2 ∨
          (∃ m ∈ record.source.messagesAt 2,
            @Moment.Unkept sampleEventCodes.toRowCodes sampleContext record.moment "conv" m) ∨
          record.source.LeavesOut 2) :=
  have hcovers : ((run (@step sampleEventCodes sampleContext)
    { sync := sampleState 0 } sampleEvents).coverage.coverage
    "conv").Covers 2 := by decide
  ⟨hcovers, @accounted_of_covered sampleEventCodes sampleContext (fun _ h => absurd h (Option.not_mem_none _))
  (sampleState 0)
    [] sampleEvents sampleEvents_promised "conv" 2 hcovers⟩

def pageAfter (requestedAfterSeq : ℕ) (items : List SyncSliceItem) (maxConversationSeq : ℕ) : CoverageEvent :=
  .page true "conv" (sampleReply items maxConversationSeq) requestedAfterSeq ""

def messageSix : SyncSliceItem := ⟨6, some (.message (sampleMessage "m6" 6))⟩

/-- Seq 6 of a page that is asked for before 8. -/
def hiddenSix : CoverageEvent :=
  .backfill "conv" 8 (some { items := [messageSix], maxConversationSeq := 6, hasMore := true })

/-- Message 6 is being sent from here, and comes in before its acknowledgement. -/
def pendingSix : InboundMessage := { sampleMessage "c6" 0 with senderId := "alice", status := 0 }

def echoOfSix : SyncSliceItem :=
  ⟨6, some (.message { sampleMessage "m6" 6 with clientMsgId := "c6", senderId := "alice" })⟩

def deletionOfSix : SyncSliceItem := sampleEvent "e7" 3 7 (.delete "m6" none none)

/-- Of message 3, which is not here. -/
def editOfThree : SyncSliceItem := sampleEvent "e7" 2 7 (.edit "m3" (some [7]))

/-- The seq is covered, and is nowhere: no row, no event that was applied, not shown to be absent. -/
def Unaccounted (ctx : SyncContext) (sync : SyncState) (events : List CoverageEvent) (seq : ℕ) : Prop :=
  let t := run (@step sampleEventCodes ctx) { sync := sync } events
  (t.coverage.coverage "conv").Covers seq ∧ ¬ t.sync.messages.HasSeq "conv" seq ∧
    (∀ report ∈ t.sync.reports, (seq, true) ∉ report) ∧ ∀ record ∈ t.records, ¬ record.source.ProvesAbsent seq

/-- A message that is not kept, a hidden one, an echo that the sending queue takes, a message that is deleted
later, and an event on the tail of a cold start that could not be applied. -/
theorem not_accounted_of_covered :
    Unaccounted { sampleContext with isEphemeral := fun _ => true } (sampleState 0) [pageAfter 5 [messageSix] 6] 6 ∧
    Unaccounted sampleContext (sampleState 10) [hiddenSix] 6 ∧
    Unaccounted { sampleContext with converger := ⟨fun _ _ => none, fun _ floor => floor, some fun _ t => t⟩ }
      { sampleState 0 with messages := (sampleState 0).messages.saveBatch 9 [pendingSix] }
        [pageAfter 5 [echoOfSix] 6] 6 ∧
    Unaccounted sampleContext (sampleState 0) [pageAfter 5 [messageSix] 6, pageAfter 6 [deletionOfSix] 7] 6 ∧
    Unaccounted sampleContext { sampleState 0 with cursors := fun _ _ => none }
      [pageAfter 0 [messageSix, editOfThree] 7] 7 := by
  unfold Unaccounted
  decide

end FlareIm.Timeline
