import FlareIm.Sync.StoredMessages
import FlareIm.Timeline.Stores

/-! A conversation sync with the ranges that it records. A page records the seqs it counts up without a
hole, a save of the cursor those it passes, the tail of a cold start everything from its first item to the
watermark, a snapshot what lies between its messages, and a page of older history everything before the seq
it was asked for. A range that cannot be written is only logged. Every range is kept with what it was taken
from and the messages stored at that moment. Without the ranges, this is the sync of `Sync.Pull`. -/

namespace FlareIm.Timeline

open Lib Message Store Events Dispatcher Sync Prog

/-! ### State -/

/-- What a range was taken from. The report of a page has the seqs of its events, and whether they were applied. -/
inductive RangeSource
  | contiguousPage (page : SingleConversationSyncRes) (report : List (ℕ × Bool))
  | cursorAdvance (page : SingleConversationSyncRes)
  | tailPage (page : SingleConversationSyncRes) (report : List (ℕ × Bool))
  | snapshotRow (messages : List InboundMessage)
  | backfillPage (page : SingleConversationSyncRes) (report : List (ℕ × Bool))

/-- What was stored at the time that a range was recorded. -/
structure Moment where
  userId : String
  messages : RowTable
  /-- The messages that were handed to the sending queue as acknowledgements. -/
  handedOver : List InboundMessage

structure CoverageRecord where
  conversationId : String
  range : SeqRange
  source : RangeSource
  moment : Moment

structure RecordingState where
  sync : SyncState
  coverage : MemoryTimelineCoverageStore := {}
  /-- Whether the next writes of ranges fail. -/
  faults : List Bool := []
  handedOver : List InboundMessage := []
  /-- The ranges written so far. -/
  records : List CoverageRecord := []

abbrev RecordM := Prog RecordingState FlareError

namespace RecordingState

def withSync (t : SyncState) (s : RecordingState) : RecordingState := { s with sync := t }

def handOver (ms : List InboundMessage) (s : RecordingState) : RecordingState :=
  { s with handedOver := s.handedOver ++ ms }

def moment (s : RecordingState) : Moment := ⟨s.sync.userId, s.sync.messages, s.handedOver⟩

def recordRange (s : RecordingState) (conversationId : String) (source : RangeSource) :
    Option SeqRange → RecordingState
  | none => s
  | some range =>
    if s.faults.headD false then { s with faults := s.faults.tail }
    else
      { s with
        faults := s.faults.tail
        coverage := s.coverage.add conversationId range
        records := s.records ++ [⟨conversationId, range, source, s.moment⟩] }

variable (s : RecordingState) (conversationId : String) (source : RangeSource) (range : Option SeqRange)

@[simp] theorem sync_recordRange : (s.recordRange conversationId source range).sync = s.sync := by
  unfold recordRange
  split
  · rfl
  · split <;> rfl

@[simp] theorem moment_recordRange : (s.recordRange conversationId source range).moment = s.moment := by
  unfold recordRange
  split
  · rfl
  · split <;> rfl

end RecordingState

def onSync {α : Type} (x : SyncM α) : RecordM α := x.onPart RecordingState.sync RecordingState.withSync

def recordCoverage (conversationId : String) (source : RangeSource) (range : Option SeqRange) : RecordM Unit :=
  modify (·.recordRange conversationId source range)

/-! ### Pages -/

/-- The least and the greatest positive seq, 0 without one. -/
def seqBounds (seqs : List ℕ) : ℕ × ℕ :=
  (((seqs.filter (0 < ·)).min?).getD 0, ((seqs.filter (0 < ·)).max?).getD 0)

/-- The page as it was applied, with the bounds of its items and what became of its events. -/
structure RecordedPage where
  applied : AppliedSingleConversationPage
  minItemSeq : ℕ
  maxItemSeq : ℕ
  report : List (ℕ × Bool)

def recordedPage (page : SingleConversationSyncRes) (knownSeq : ℕ) (report : List (ℕ × Bool)) : RecordedPage where
  applied := appliedPage page knownSeq report
  minItemSeq := (seqBounds (appliedItemSeqs page knownSeq report)).1
  maxItemSeq := (seqBounds (appliedItemSeqs page knownSeq report)).2
  report := report

section Pages

variable [EventCodes] (ctx : SyncContext)

/-- The messages that are handed to the sending queue, which is told by the rows found when they came in. -/
def handedOver (userId : String) (t : RowTable) (ms : List InboundMessage) : List InboundMessage :=
  let found := (ctx.converger.canonicalizeIncomingMessages userId ms).2.foldl ctx.converger.applyIdentityRewrite t
  ms.filter fun m => handsOver ctx.converger userId found (ctx.converger.received userId m)

/-- `persist_converged_messages`, and what it hands over. -/
def persistMessages (userId conversationId : String) (ms : List InboundMessage) : RecordM Unit := do
  let s ← get
  onSync (persistConvergedMessages ctx userId conversationId ms)
  modify (·.handOver (handedOver ctx userId s.sync.messages ms))

def applySingleConversationPage (conversationId userId : String) (knownSeq : ℕ) (page : SingleConversationSyncRes) :
    RecordM RecordedPage := do
  let decoded := decodeSingleConversationItems page knownSeq
  let outcomes ← onSync (applyEvents userId (decoded.operations.map Prod.snd))
  let report := eventReport page knownSeq outcomes
  onSync (modify (·.withReport report))
  persistMessages ctx userId conversationId decoded.messages
  let applied := appliedPage page knownSeq report
  recordCoverage conversationId (.contiguousPage page report)
    (TimelineCoverage.contiguousPageRange knownSeq applied.maxSeq)
  pure (recordedPage page knownSeq report)

/-- Unread counts are kept with the conversation. -/
def applySnapshotRow (userId : String) (row : SnapshotConversationRow) : RecordM ℕ := do
  persistMessages ctx userId row.conversationId row.messages
  recordCoverage row.conversationId (.snapshotRow row.messages)
    (TimelineCoverage.snapshotRowsRange (row.messages.map (·.conversationSeq)))
  pure row.lastConversationSeq

/-- `save_cursor_with_remote`, for the absent seqs of a page. -/
def saveCursor (page : SingleConversationSyncRes) (userId conversationId : String) (lastSeq : ℕ)
    (absentSeqs : List ℕ) :
    RecordM Unit := do
  onSync storeCall
  onSync storeCall
  let s ← get
  let floorSeq := max (s.sync.cursorSeq userId conversationId) (s.sync.messages.clearedFloor conversationId)
  if lastSeq ≤ floorSeq then
    pure ()
  else
    let safeLastSeq ← onSync (localMaterializedContiguousSeq ctx conversationId lastSeq floorSeq absentSeqs)
    if safeLastSeq ≤ floorSeq then
      pure ()
    else
      onSync (persistCursor userId conversationId safeLastSeq (.contiguous absentSeqs))
      recordCoverage conversationId (.cursorAdvance page) (TimelineCoverage.cursorAdvanceRange floorSeq safeLastSeq)

def resyncConversationFromSnapshot (conversationId : String)
    (snapshot : Except FlareError (List SnapshotConversationRow)) : RecordM ℕ := do
  let s ← get
  match snapshot with
  | .error e => fail e
  | .ok rows =>
    (rows.filter (fun row => row.conversationId = conversationId)).foldlM (fun _ row => do
      let lastSeq ← applySnapshotRow ctx s.sync.userId row
      onSync (if 0 < lastSeq && s.sync.userId ≠ "" then
          saveWatermark s.sync.userId conversationId lastSeq .snapshot
        else pure ())
      pure lastSeq) 0

variable (advancesCursor : Bool) (conversationId : String)

section

variable (page : SingleConversationSyncRes) (requestedAfterSeq : ℕ)

def absorbPage :
    RecordM (ℕ × RecordedPage) := do
  let s ← get
  onSync (if s.sync.userId = "" then pure () else storeCall)
  onSync storeCall
  let knownSeq := decodeAfterSeq advancesCursor conversationId s.sync requestedAfterSeq
  let applied ← applySingleConversationPage ctx conversationId s.sync.userId knownSeq page
  pure (s.sync.knownCursorSeq conversationId, applied)

def settleCursor (requestedCursor : String) (cursorSeq : ℕ)
    (recorded : RecordedPage) : RecordM (ℕ × Bool × String) := do
  let s ← get
  let applied := recorded.applied
  if isColdStartTailSnapshot requestedAfterSeq requestedCursor applied then
    recordCoverage conversationId (.tailPage page recorded.report)
      (TimelineCoverage.tailPageRange recorded.minItemSeq (max applied.remoteMaxSeq recorded.maxItemSeq))
    onSync (if s.sync.userId ≠ "" && advancesCursor then
        saveWatermark s.sync.userId conversationId applied.remoteMaxSeq
          (.coldStartTail requestedAfterSeq requestedCursor)
      else pure ())
    pure (applied.remoteMaxSeq, false, "")
  else
    (if cursorSeq < applied.maxSeq && s.sync.userId ≠ "" && advancesCursor then
      saveCursor ctx page s.sync.userId conversationId applied.maxSeq applied.absentSeqs
    else pure ())
    pure (applied.maxSeq, applied.hasMore, applied.nextCursor)

end

def applySyncResSingle (reply : ServerReply) (response : Option SingleConversationSyncRes) (requestedAfterSeq : ℕ)
    (requestedCursor : String) : RecordM (ℕ × Bool × String) :=
  match response with
  | none => pure (0, false, "")
  | some page =>
    if advancesCursor && page.snapshotCutover then do
      let cutoverSeq ← resyncConversationFromSnapshot ctx conversationId reply.snapshot
      pure (cutoverSeq, false, "")
    else do
      let absorbed ← absorbPage ctx advancesCursor conversationId page requestedAfterSeq
      settleCursor ctx advancesCursor conversationId page requestedAfterSeq requestedCursor absorbed.1 absorbed.2

def requestSinglePage (reply : ServerReply) (lastSeq : ℕ) (cursor : String) : RecordM (ℕ × Bool × String) :=
  match reply.page with
  | .error e => fail e
  | .ok response => applySyncResSingle ctx advancesCursor conversationId reply response lastSeq cursor

/-! ### Older history -/

def backfillItemSeq (item : SyncSliceItem) : ℕ :=
  if 0 < item.conversationSeq then item.conversationSeq
  else match item.payload with
    | some (.message m) => m.conversationSeq
    | some (.event ev) => ev.conversationSeq
    | _ => 0

def backfillItemSeqs (page : SingleConversationSyncRes) : List ℕ := page.items.map backfillItemSeq

/-- `sync_conversation_backfill_before_seq`, from the answer on. Returns whether there is more. -/
def syncConversationBackfillBeforeSeq (beforeSeq : ℕ) (response : Option SingleConversationSyncRes) :
    RecordM Bool :=
  if beforeSeq = 0 then pure false
  else match response with
    | none => pure false
    | some page => do
      let s ← get
      let recorded ← applySingleConversationPage ctx conversationId s.sync.userId 0 page
      recordCoverage conversationId (.backfillPage page recorded.report)
        (TimelineCoverage.backfillPageRange beforeSeq (backfillItemSeqs page) page.hasMore)
      pure page.hasMore

end Pages

end FlareIm.Timeline
