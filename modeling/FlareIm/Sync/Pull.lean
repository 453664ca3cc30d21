import FlareIm.Events.Apply
import FlareIm.Sync.State

/-! A conversation sync: pages are requested upwards from a seq, each is applied, and the cursor
is saved after each. The events of a page are applied first, then its messages are converged and
saved; the page then counts as far as its items, less the events that were not applied, go up from
the known seq without a hole. A page that was requested from 0 without a page cursor and counts for
nothing is taken for the tail of a cold start. Coverage records, notifications, the remote copy of
the cursor and the sync state shown to the host follow from what is modelled and are left out. -/

namespace FlareIm.Sync

open Lib Message Store Events Dispatcher List Prog

/-! ### Events -/

/-- The events whose replay calls the message store. -/
def callsMessageStore (userId : String) (ev : Event) : Bool :=
  match ev.payload with
  | some (.recall _) => true
  | some (.edit _ newContent) => newContent.isSome
  | some (.reaction _ _ _ _) => true
  | some (.delete _ scope targetUserId) => evaluateDeleteVisibility userId (scope.getD 1) targetUserId
  | some (.read readerId readSeq) => readReceiptApplies userId readerId readSeq
  | some (.retentionScheduled _ policy state _) => policy.isSome && state.isSome
  | some (.retentionExpired _ state _) => state.isSome
  | some (.retentionPurged _ state _) => state.isSome
  | some (.pin _ scope pinnedBy) => messagePinVisibleToUser scope pinnedBy userId
  | some (.unpin _ scope unpinnedBy) => messagePinVisibleToUser scope unpinnedBy userId
  | some (.mark _ _ _) => true
  | some (.unmark _ _) => true
  | some (.pluginState id _ state) => !isBlank id && state.isSome
  | _ => false

/-- An event without its target may be passed if the conversation is past it already. -/
def missingTargetIsAlreadyCovered (userId : String) (ev : Event) : SyncM Bool := do
  if userId = "" || isBlank ev.conversationId || ev.conversationSeq = 0 then
    pure false
  else
    storeCall
    let s ← get
    if ev.conversationSeq ≤ s.cursorSeq userId ev.conversationId then
      pure true
    else
      storeCall
      if ev.conversationSeq ≤ localMaxSeq s.messages ev.conversationId then
        pure true
      else
        storeCall
        pure (ev.conversationSeq ≤ s.messages.clearedFloor ev.conversationId)

variable (conversationId : String)

def deletedConversation (s : SyncState) : SyncState :=
  { s with
    messages := { s.messages.deleteConversation conversationId with
      clearedFloor := Function.update s.messages.clearedFloor conversationId 0 } }.dropCursors
    (fun c => c = conversationId)

def deleteConversation : SyncM Unit := do
  storeCall
  modify (deletedConversation conversationId)

theorem lowered_missingTargetIsAlreadyCovered (userId : String) (ev : Event) :
    (missingTargetIsAlreadyCovered userId ev).Within Lowered := by
  refine .ite (.pure _) (.bind lowered_storeCall fun _ => .get_bind fun s => .ite (.pure _) ?_)
  exact .bind lowered_storeCall fun _ => .ite (.pure _) (.bind lowered_storeCall fun _ => .pure _)

theorem lowered_deleteConversation : (deleteConversation conversationId).Within Lowered := by
  refine .bind lowered_storeCall fun _ => .modify fun s => ⟨rfl, rfl, rfl, fun userId c => ?_⟩
  exact SyncState.cursorSeq_dropCursors_le _ _ userId c

section Apply

variable [EventCodes]

section

variable (userId : String) (ev : Event)

def replayEvent : SyncM Bool := do
  (if callsMessageStore userId ev then storeCall else pure ())
  let s ← get
  let replay := applyReplay s.messages s.nowMs userId ev
  modify fun s => { s with messages := replay.2 }
  match replay.1 with
  | .done => pure true
  | .notApplied => pure false
  | .targetMissing => missingTargetIsAlreadyCovered userId ev

/-- `apply_event`. A conversation that cannot be deleted is only logged. -/
def applyEvent : SyncM Bool :=
  if ev.payload = some .conversationDelete then do
    let _ ← attempt (deleteConversation ev.conversationId)
    pure true
  else replayEvent userId ev

/-- One event of `apply_events`: whether the cursor may pass it. -/
def applyNewEvent : SyncM Bool := do
  let s ← get
  if !(s.deduper.recordIfNew ev).1 then
    pure true
  else
    modify fun s => { s with deduper := (s.deduper.recordIfNew ev).2 }
    let result ← attempt (applyEvent userId ev)
    match result with
    | .ok true => pure true
    | _ =>
      modify fun s => { s with deduper := s.deduper.forget ev }
      pure false

end

def applyEvents (userId : String) (events : List Event) : SyncM (List Bool) :=
  events.foldlM (fun outcomes ev => do
    let applied ← applyNewEvent userId ev
    pure (outcomes ++ [applied])) []

section

variable (userId : String) (ev : Event)

theorem lowered_replayEvent : (replayEvent userId ev).Within Lowered := by
  refine .bind (.ite lowered_storeCall (.pure _)) fun _ => .get_bind fun s => ?_
  refine .bind (lowered_setMessages _) fun _ => ?_
  split
  · exact .pure _
  · exact .pure _
  · exact lowered_missingTargetIsAlreadyCovered userId ev

theorem lowered_applyEvent : (applyEvent userId ev).Within Lowered :=
  .ite (.bind (.attempt (lowered_deleteConversation _)) fun _ => .pure _) (lowered_replayEvent userId ev)

theorem lowered_applyNewEvent : (applyNewEvent userId ev).Within Lowered := by
  refine .get_bind fun s => .ite (.pure _) (.bind (.modify fun _ => ⟨rfl, rfl, rfl, fun _ _ => le_rfl⟩) fun _ => ?_)
  refine .bind (.attempt (lowered_applyEvent userId ev)) fun result => ?_
  split
  · exact .pure _
  · exact .bind (.modify fun _ => ⟨rfl, rfl, rfl, fun _ _ => le_rfl⟩) fun _ => .pure _

theorem applyNewEvent_ok (s : SyncState) : ∃ applied, ((applyNewEvent userId ev).run s).1 = .ok applied := by
  unfold applyNewEvent
  rw [get_bind]
  split
  · exact ⟨true, rfl⟩
  · rw [modify_bind, attempt_bind]
    split
    · exact ⟨true, rfl⟩
    · exact ⟨false, rfl⟩

end

/-- An event that fails is reported; none stops the others. -/
theorem applyEvents_ensures (userId : String) (events : List Event) (s : SyncState) :
    (applyEvents userId events).Ensures s fun outcomes t => Lowered s t ∧ outcomes.length = events.length := by
  refine foldlM_ensures (R := Lowered) (I := fun rest outcomes _ => outcomes.length + rest.length = events.length)
    ?_ events [] s (Nat.zero_add _) |>.mono fun _ _ h => ⟨h.1, h.2⟩
  intro ev rest outcomes s hlength
  obtain ⟨applied, hok⟩ := applyNewEvent_ok userId ev s
  have hrun : (applyNewEvent userId ev).run s = (.ok applied, ((applyNewEvent userId ev).run s).2) :=
    Prod.ext hok rfl
  refine .bind_of_run hrun ⟨_, _, rfl, lowered_applyNewEvent userId ev s, ?_⟩
  rw [length_append, length_singleton, Nat.add_assoc, Nat.add_comm 1, ← length_cons]
  exact hlength

/-! ### Messages -/

variable (ctx : SyncContext)

def convergeMessages (userId : String) (ms : List InboundMessage) : SyncM (List InboundMessage) := do
  if ms.isEmpty then
    pure []
  else
    storeCall
    let s ← get
    let converged := ctx.converger.convergeMessages s.messages s.nowMs userId ms
    let rewrites := (ctx.converger.canonicalizeIncomingMessages userId ms).2
    modify fun s => { s with messages := converged.2 }.dropCursors
      (fun c => rewrites.any fun r => ctx.mergeDropsCursors r && r.fromId = c)
    pure converged.1

def persistConvergedMessages (userId conversationId : String) (ms : List InboundMessage) : SyncM Unit := do
  storeCall
  let s ← get
  let clearedFloor := s.messages.clearedFloor conversationId
  let converged ← convergeMessages ctx userId ms
  let fresh := converged.filter fun m => MessageTable.messageVisibleAfterClear m.toIMMessage clearedFloor
  let durable := fresh.filter fun m => !ctx.isEphemeral m
  if durable.isEmpty then
    pure ()
  else
    storeCall
    modify fun s => { s with messages := s.messages.saveBatch s.nowMs durable }
    -- The conversation projection.
    storeCall

theorem lowered_convergeMessages (userId : String) (ms : List InboundMessage) :
    (convergeMessages ctx userId ms).Within Lowered := by
  refine .ite (.pure _) (.bind lowered_storeCall fun _ => .get_bind fun s => ?_)
  refine .bind (.modify fun s => ⟨rfl, rfl, rfl, fun userId c => ?_⟩) fun _ => .pure _
  exact SyncState.cursorSeq_dropCursors_le _ _ userId c

theorem lowered_persistConvergedMessages (userId conversationId : String) (ms : List InboundMessage) :
    (persistConvergedMessages ctx userId conversationId ms).Within Lowered := by
  refine .bind lowered_storeCall fun _ => .get_bind fun s => ?_
  refine .bind (lowered_convergeMessages ctx userId ms) fun converged => .ite (.pure _) ?_
  exact .bind lowered_storeCall fun _ => .bind (lowered_setMessages _) fun _ => lowered_storeCall

/-! ### Pages -/

structure AppliedSingleConversationPage where
  hasDecodedItems : Bool
  maxSeq : ℕ
  remoteMaxSeq : ℕ
  hasMore : Bool
  nextCursor : String
  absentSeqs : List ℕ

section

variable (page : SingleConversationSyncRes) (knownSeq : ℕ)

/-- `applied_item_seqs`: what a page accounts for above the known seq, given the seqs of its events
and whether each was applied. -/
def appliedItemSeqs (report : List (ℕ × Bool)) : List ℕ :=
  (decodeSingleConversationItems page knownSeq).coveredItemSeqs ++
    ((report.map fun r => (eventItemSeq knownSeq r.1, r.2)).filter fun r => 0 < r.1 && r.2).map Prod.fst

def appliedPage (report : List (ℕ × Bool)) :
    AppliedSingleConversationPage :=
  let safeMaxSeq := maxContiguousSeq knownSeq (appliedItemSeqs page knownSeq report)
  { hasDecodedItems := (decodeSingleConversationItems page knownSeq).hasDecodedItems
    maxSeq := safeMaxSeq
    remoteMaxSeq := page.maxConversationSeq
    hasMore := page.hasMore || safeMaxSeq < page.maxConversationSeq
    nextCursor := page.nextCursor
    absentSeqs := (decodeSingleConversationItems page knownSeq).absentItemSeqs }

/-- What happened to the events of the page, in the order they came in. -/
def eventReport (outcomes : List Bool) : List (ℕ × Bool) :=
  ((decodeSingleConversationItems page knownSeq).operations.map Prod.fst).zip outcomes

end

section

variable (conversationId userId : String) (knownSeq : ℕ) (page : SingleConversationSyncRes)

def applySingleConversationPage : SyncM AppliedSingleConversationPage := do
  let decoded := decodeSingleConversationItems page knownSeq
  let outcomes ← applyEvents userId (decoded.operations.map Prod.snd)
  let report := eventReport page knownSeq outcomes
  modify (·.withReport report)
  persistConvergedMessages ctx userId conversationId decoded.messages
  pure (appliedPage page knownSeq report)

/-- The events of the page are reported, and then its messages may fail to be saved. -/
theorem applySingleConversationPage_leads (s : SyncState) :
    (applySingleConversationPage ctx conversationId userId knownSeq page).Leads s fun result t =>
      ∃ report, report.map Prod.fst = page.operationSeqs ∧ Lowered (s.withReport report) t ∧
        ∀ applied, result = .ok applied → applied = appliedPage page knownSeq report := by
  obtain ⟨outcomes, u, hevents, hu, hlength⟩ := applyEvents_ensures userId
    ((decodeSingleConversationItems page knownSeq).operations.map Prod.snd) s
  have hseqs : (eventReport page knownSeq outcomes).map Prod.fst = page.operationSeqs := by
    rw [eventReport, map_fst_zip (by rw [hlength, length_map, length_map])]
    rfl
  have hmessages := lowered_persistConvergedMessages ctx userId conversationId
    (decodeSingleConversationItems page knownSeq).messages (u.withReport (eventReport page knownSeq outcomes))
  refine .bind (Q := fun r t => r = .ok outcomes ∧ t = u) ?_ ?_ ?_
  · rw [Leads, hevents]
    exact ⟨rfl, rfl⟩
  · rintro _ _ ⟨⟨⟩, rfl⟩
    refine .modify_bind (.bind (Q := fun _ => Lowered (s.withReport (eventReport page knownSeq outcomes)))
      (trans_of Lowered (hu.withReport _) hmessages) ?_ ?_)
    · intro _ t ht
      exact .pure ⟨_, hseqs, ht, fun _ happlied => (Except.ok.inj happlied).symm⟩
    · intro e t ht
      exact ⟨_, hseqs, ht, fun _ hok => absurd hok (by simp)⟩
  · rintro e _ ⟨hok, -⟩
    exact absurd hok (by simp)

end

def isColdStartTailSnapshot (requestedAfterSeq : ℕ) (requestedCursor : String)
    (applied : AppliedSingleConversationPage) : Bool :=
  requestedAfterSeq = 0 && isBlank requestedCursor && applied.hasDecodedItems && applied.maxSeq = 0 &&
    0 < applied.remoteMaxSeq

structure SnapshotConversationRow where
  conversationId : String
  messages : List InboundMessage
  lastConversationSeq : ℕ

/-- What the server answers to a request for a page, and to the request for a snapshot that the page
may ask for. A response of another kind than a single conversation is `none`. -/
structure ServerReply where
  page : Except FlareError (Option SingleConversationSyncRes)
  snapshot : Except FlareError (List SnapshotConversationRow) := .ok []

def ServerReply.page? (reply : ServerReply) : Option SingleConversationSyncRes :=
  match reply.page with
  | .ok response => response
  | .error _ => none

def sentPages (replies : List ServerReply) : List SingleConversationSyncRes := replies.filterMap (·.page?)

/-- `resync_conversation_from_snapshot`. The checkpoint of critical events is kept under another key. -/
def resyncConversationFromSnapshot (conversationId : String)
    (snapshot : Except FlareError (List SnapshotConversationRow)) : SyncM ℕ := do
  let s ← get
  match snapshot with
  | .error e => fail e
  | .ok rows =>
    (rows.filter (fun row => row.conversationId = conversationId)).foldlM (fun _ row => do
      persistConvergedMessages ctx s.userId row.conversationId row.messages
      (if 0 < row.lastConversationSeq && s.userId ≠ "" then
        saveWatermark s.userId conversationId row.lastConversationSeq .snapshot
      else pure ())
      pure row.lastConversationSeq) 0

variable (advancesCursor : Bool) (conversationId : String)

/-- The cursor that the page starts from. -/
def SyncState.knownCursorSeq (s : SyncState) : ℕ :=
  if s.userId = "" then 0 else s.cursorSeq s.userId conversationId

/-- A page that does not advance the cursor counts from where it was requested. -/
def decodeAfterSeq (s : SyncState) (requestedAfterSeq : ℕ) : ℕ :=
  max (if advancesCursor then min (s.knownCursorSeq conversationId) requestedAfterSeq else requestedAfterSeq)
    (s.messages.clearedFloor conversationId)

section

variable (page : SingleConversationSyncRes) (requestedAfterSeq : ℕ)

/-- The first half of `apply_sync_res_single`: the items of the page. Returns the cursor read before. -/
def absorbPage :
    SyncM (ℕ × AppliedSingleConversationPage) := do
  let s ← get
  (if s.userId = "" then pure () else storeCall)
  storeCall
  let knownSeq := decodeAfterSeq advancesCursor conversationId s requestedAfterSeq
  let applied ← applySingleConversationPage ctx conversationId s.userId knownSeq page
  pure (s.knownCursorSeq conversationId, applied)

/-- Either the cursor or the floor could not be read, or the events of the page are reported. -/
theorem absorbPage_leads (s : SyncState) :
    (absorbPage ctx advancesCursor conversationId page requestedAfterSeq).Leads s fun result t =>
      (Lowered s t ∧ ∃ e, result = .error e) ∨
      ∃ report, report.map Prod.fst = page.operationSeqs ∧ Lowered (s.withReport report) t ∧
        ∀ absorbed, result = .ok absorbed →
        absorbed = (s.knownCursorSeq conversationId,
          appliedPage page (decodeAfterSeq advancesCursor conversationId s requestedAfterSeq) report) := by
  have hread : (if s.userId = "" then pure () else storeCall : SyncM Unit).Within Lowered :=
    .ite (.pure _) lowered_storeCall
  refine .get_bind (.bind (Q := fun _ => Lowered s) (hread s) (fun _ t ht => ?_) fun e t ht => .inl ⟨ht, e, rfl⟩)
  refine .bind (Q := fun _ => Lowered s) (trans_of Lowered ht (lowered_storeCall t)) (fun _ u hu => ?_)
    fun e u hu => .inl ⟨hu, e, rfl⟩
  refine .bind (applySingleConversationPage_leads ctx conversationId s.userId _ page u) ?_ ?_
  · rintro applied v ⟨report, hseqs, hv, happlied⟩
    refine .pure (.inr ⟨report, hseqs, ?_, ?_⟩)
    · exact trans_of Lowered (hu.withReport report) hv
    · rintro _ ⟨⟩
      rw [happlied applied rfl]
  · rintro e v ⟨report, hseqs, hv, -⟩
    exact .inr ⟨report, hseqs, trans_of Lowered (hu.withReport report) hv, fun _ hok => absurd hok (by simp)⟩

end

theorem exists_report_of_absorbPage {ctx : SyncContext} {advancesCursor : Bool} {conversationId : String}
    {page : SingleConversationSyncRes} {requestedAfterSeq : ℕ} {s t : SyncState}
    {absorbed : ℕ × AppliedSingleConversationPage}
    (h : (absorbPage ctx advancesCursor conversationId page requestedAfterSeq).run s = (.ok absorbed, t)) :
    ∃ report, absorbed = (s.knownCursorSeq conversationId,
      appliedPage page (decodeAfterSeq advancesCursor conversationId s requestedAfterSeq) report) := by
  have hleads := absorbPage_leads ctx advancesCursor conversationId page requestedAfterSeq s
  rw [Leads, h] at hleads
  rcases hleads with ⟨-, e, herror⟩ | ⟨report, -, -, hok⟩
  · exact absurd herror (by simp)
  · exact ⟨report, hok absorbed rfl⟩

/-- The second half: the cursor. Returns the seq reached, whether there is more, and the page cursor. -/
def settleCursor (requestedAfterSeq : ℕ) (requestedCursor : String) (cursorSeq : ℕ)
    (applied : AppliedSingleConversationPage) : SyncM (ℕ × Bool × String) := do
  let s ← get
  if isColdStartTailSnapshot requestedAfterSeq requestedCursor applied then
    (if s.userId ≠ "" && advancesCursor then
      saveWatermark s.userId conversationId applied.remoteMaxSeq (.coldStartTail requestedAfterSeq requestedCursor)
    else pure ())
    pure (applied.remoteMaxSeq, false, "")
  else
    (if cursorSeq < applied.maxSeq && s.userId ≠ "" && advancesCursor then
      saveCursor ctx s.userId conversationId applied.maxSeq applied.absentSeqs
    else pure ())
    pure (applied.maxSeq, applied.hasMore, applied.nextCursor)

def applySyncResSingle (reply : ServerReply) (response : Option SingleConversationSyncRes)
    (requestedAfterSeq : ℕ) (requestedCursor : String) : SyncM (ℕ × Bool × String) :=
  match response with
  | none => pure (0, false, "")
  | some page =>
    if advancesCursor && page.snapshotCutover then do
      let cutoverSeq ← resyncConversationFromSnapshot ctx conversationId reply.snapshot
      pure (cutoverSeq, false, "")
    else do
      let absorbed ← absorbPage ctx advancesCursor conversationId page requestedAfterSeq
      settleCursor ctx advancesCursor conversationId requestedAfterSeq requestedCursor absorbed.1 absorbed.2

/-! ### The loop -/

def requestSinglePage (reply : ServerReply) (lastSeq : ℕ) (cursor : String) : SyncM (ℕ × Bool × String) :=
  match reply.page with
  | .error e => fail e
  | .ok response => applySyncResSingle ctx advancesCursor conversationId reply response lastSeq cursor

def shouldRepairOperationOnlyGap (startSeq fromSeq nextSeq : ℕ) : Bool :=
  0 < startSeq && startSeq ≤ fromSeq && nextSeq ≤ fromSeq

def noAnswer : FlareError := ⟨"no answer"⟩

/-- One more page from the start, for operations that the pages did not get past. -/
def repairOperationOnlyGap : List ServerReply → SyncM Unit
  | [] => fail noAnswer
  | reply :: _ => do
    let _ ← requestSinglePage ctx advancesCursor conversationId reply 0 ""
    pure ()

def syncConversationLoop (startSeq : ℕ) : List ServerReply → ℕ → String → SyncM Unit
  | [], _, _ => fail noAnswer
  | reply :: replies, fromSeq, cursor => do
    let ⟨nextSeq, hasMore, nextCursor⟩ ← requestSinglePage ctx advancesCursor conversationId reply fromSeq cursor
    if nextSeq ≤ fromSeq then
      if shouldRepairOperationOnlyGap startSeq fromSeq nextSeq then
        repairOperationOnlyGap ctx advancesCursor conversationId replies
      else pure ()
    else if hasMore then
      syncConversationLoop startSeq replies nextSeq nextCursor
    else pure ()

def localMessageSyncStartSeq (cursorLastSeq localMaxSeq clearedFloor : ℕ) : ℕ :=
  max (if cursorLastSeq = 0 ∨ localMaxSeq = 0 then 0 else min cursorLastSeq localMaxSeq) clearedFloor

/-- `sync_conversation_with_context`, or from a given seq `sync_conversation_from_seq_with_context`. -/
def syncConversation (fromSeq? : Option ℕ) (replies : List ServerReply) : SyncM Unit :=
  match fromSeq? with
  | some fromSeq => syncConversationLoop ctx advancesCursor conversationId fromSeq replies fromSeq ""
  | none => do
    storeCall
    storeCall
    storeCall
    let s ← get
    let startSeq := localMessageSyncStartSeq (s.cursorSeq s.userId conversationId)
      (localMaxSeq s.messages conversationId) (s.messages.clearedFloor conversationId)
    syncConversationLoop ctx advancesCursor conversationId startSeq replies startSeq ""

end Apply

/-! ### A small instance, for concrete runs -/

/-- No message is of a single chat, and every message is kept. -/
def sampleContext : SyncContext where
  converger := ⟨fun _ _ => none, fun _ floor => floor, none⟩
  isEphemeral _ := false
  channelAlias _ := none
  mergeDropsCursors _ := false

def sampleMessage (serverId : String) (seq : ℕ) : InboundMessage where
  serverId := serverId
  clientMsgId := serverId
  conversationId := "conv"
  senderId := "bob"
  conversationSeq := seq
  createdAt := 5
  status := 1

/-- The conversation with its message 5, up to which it has been synced. -/
def sampleState (clearedFloor : ℕ) : SyncState where
  userId := "alice"
  nowMs := 9
  messages := RowTable.saveBatch ⟨.empty, .empty, fun _ => clearedFloor⟩ 9 [sampleMessage "m5" 5]
  cursors _ _ := some 5

def sampleEvent (eventId : String) (type : ℤ) (seq : UInt64) (payload : Payload) : SyncSliceItem :=
  ⟨seq.toNat, some (.event ⟨eventId, "conv", type, seq.toNat, none, some payload, uint64_le_maxU64 seq⟩)⟩

def sampleReply (items : List SyncSliceItem) (maxConversationSeq : ℕ) : ServerReply where
  page := .ok (some { items := items, maxConversationSeq := maxConversationSeq })

end FlareIm.Sync
