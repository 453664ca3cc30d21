import FlareIm.Sync.PageRows
import FlareIm.Sync.SkippedEvents

/-! How far a page takes the cursor. A page that fills every seq from the cursor to its end and whose items
are all applied counts to its end, but the cursor is saved only as far as rows and absent seqs reach: an
operation event leaves no row at its seq, and a message that is not kept leaves none either, so the cursor
stops below the first of them. -/

namespace FlareIm.Sync

open Lib Message Store Events Dispatcher List DecodedItem MessageTable

/-! ### Pages without a hole -/

/-- Where an item stands; a rejected one stands nowhere. -/
def DecodedItem.seq? : DecodedItem → Option ℕ
  | .absent seq => some seq
  | .message seq _ => some seq
  | .event seq _ => some seq
  | .rejected => none

/-- Messages, operation events and absent items fill every seq above `fromSeq` up to the end of the page. -/
structure SingleConversationSyncRes.FillsTo (page : SingleConversationSyncRes) (fromSeq endSeq : ℕ) : Prop where
  filled : ∀ seq, fromSeq < seq → seq ≤ endSeq → ∃ item ∈ page.items, (decodeItem item).seq? = some seq
  last : ∀ item ∈ page.items, ∀ seq ∈ (decodeItem item).seq?, seq ≤ endSeq

variable {item : SyncSliceItem}

variable {knownSeq seq : ℕ} {page : SingleConversationSyncRes}

section Count

variable {report : List (ℕ × Bool)}

/-- A page whose events were all applied accounts for all of its items. -/
theorem mem_appliedItemSeqs (hreport : report.map Prod.fst = page.operationSeqs)
    (happlied : ∀ r ∈ report, r.2 = true)
    (hknown : knownSeq < seq) (hitem : item ∈ page.items)
    (hseq : (decodeItem item).seq? = some seq) : seq ∈ appliedItemSeqs page knownSeq report := by
  have hmem : decodeItem item ∈ page.items.map decodeItem := mem_map_of_mem hitem
  cases hdecoded : decodeItem item with
  | event n ev =>
    rw [hdecoded] at hseq hmem
    obtain rfl := Option.some.inj hseq
    have hoperation : n ∈ page.operationSeqs :=
      mem_map.mpr ⟨(n, ev), mem_filterMap.mpr ⟨_, hmem, rfl⟩, rfl⟩
    rw [← hreport] at hoperation
    obtain ⟨⟨itemSeq, applied⟩, hr, rfl⟩ := mem_map.mp hoperation
    obtain rfl : applied = true := happlied _ hr
    have hitemSeq : eventItemSeq knownSeq itemSeq = itemSeq := if_pos hknown
    refine mem_append_right _ (mem_map.mpr ⟨(itemSeq, true), mem_filter.mpr ⟨?_, ?_⟩, rfl⟩)
    · exact mem_map.mpr ⟨(itemSeq, true), hr, by rw [hitemSeq]⟩
    · have hpos : 0 < itemSeq := (Nat.zero_le knownSeq).trans_lt hknown
      simp [hpos]
  | rejected => rw [hdecoded] at hseq; exact absurd hseq (by simp [seq?])
  | _ =>
    rw [hdecoded] at hseq hmem
    obtain rfl := Option.some.inj hseq
    exact mem_append_left _ (mem_filterMap.mpr ⟨_, hmem, if_pos hknown⟩)

theorem exists_item_of_mem_appliedItemSeqs (hreport : report.map Prod.fst = page.operationSeqs)
    (h : seq ∈ appliedItemSeqs page knownSeq report) : ∃ item ∈ page.items, (decodeItem item).seq? = some seq := by
  rcases mem_report_or_covers_of_mem_appliedItemSeqs h with happlied | ⟨item, hitem, hcovers⟩
  · have hoperation : seq ∈ page.operationSeqs := hreport ▸ mem_map.mpr ⟨_, happlied, rfl⟩
    obtain ⟨op, hop, rfl⟩ := mem_map.mp hoperation
    obtain ⟨decoded, hdecoded, hsome⟩ := mem_filterMap.mp hop
    obtain ⟨item, hitem, rfl⟩ := mem_map.mp hdecoded
    refine ⟨item, hitem, ?_⟩
    cases hitem' : decodeItem item with
    | event n ev => rw [hitem'] at hsome; rw [← Option.some.inj hsome]; rfl
    | _ => simp [hitem', operation] at hsome
  · refine ⟨item, hitem, ?_⟩
    cases hitem' : decodeItem item with
    | event n ev => simp [hitem', covers] at hcovers
    | rejected => simp [hitem', covers] at hcovers
    | _ => rw [hitem'] at hcovers; exact congrArg some (of_decide_eq_true hcovers)

/-- The page counts to its end, or to where it started if that is above. -/
theorem maxSeq_of_fillsTo {fromSeq endSeq : ℕ} (hpage : page.FillsTo fromSeq endSeq) (hfrom : fromSeq ≤ knownSeq)
    (hreport : report.map Prod.fst = page.operationSeqs) (happlied : ∀ r ∈ report, r.2 = true) :
    (appliedPage page knownSeq report).maxSeq = max knownSeq endSeq := by
  refine le_antisymm ?_ ?_
  · by_contra hpast
    have hpast : max knownSeq endSeq < (appliedPage page knownSeq report).maxSeq := not_le.mp hpast
    have hmem := le_maxContiguousSeq_iff.mp (le_refl (appliedPage page knownSeq report).maxSeq) _
      ((le_max_left _ _).trans_lt hpast) le_rfl
    obtain ⟨item, hitem, hseq⟩ := exists_item_of_mem_appliedItemSeqs hreport hmem
    have hlast := hpage.last item hitem _ hseq
    omega
  · refine le_maxContiguousSeq_iff.mpr fun seq hknown hseq => ?_
    obtain ⟨item, hitem, hstands⟩ := hpage.filled seq (by omega) (by omega)
    exact mem_appliedItemSeqs hreport happlied hknown hitem hstands

end Count

/-! ### The save -/

variable {lastSeq requestedAfterSeq : ℕ} {requestedCursor : String} {result : ℕ × Bool × String}

section Save

variable (ctx : SyncContext) {userId conversationId : String}

/-- How a save that goes through ends: the cursor is at the seq asked for, or something is missing below it. -/
structure Saved (ctx : SyncContext) (userId conversationId : String) (lastSeq : ℕ)
    (absentSeqs : List ℕ) (s t : SyncState) :
    Prop where
  messages : s.messages.clearedFloor conversationId < lastSeq →
    t.messages = repairAlias ctx conversationId s.messages
  cursor : t.cursorSeq userId conversationId = lastSeq ↔ s.messages.clearedFloor conversationId < lastSeq ∧
    ∀ seq, s.cursorSeq userId conversationId < seq → s.messages.clearedFloor conversationId < seq → seq ≤ lastSeq →
      seq ∈ absentSeqs ∨ t.messages.HasSeq conversationId seq

theorem saveCursor_leads (absentSeqs : List ℕ) (s : SyncState)
    (hbehind : s.cursorSeq userId conversationId < lastSeq) (hcolumn : lastSeq + 1 < maxI64) :
    (saveCursor ctx userId conversationId lastSeq absentSeqs).Leads s fun result t => ∀ v, result = .ok v →
      Saved ctx userId conversationId lastSeq absentSeqs s t := by
  refine .bind (storeCall_leads s) ?_ (fun _ _ _ _ hok => absurd hok (by simp))
  rintro _ _ ⟨faults, rfl⟩
  refine .bind (storeCall_leads _) ?_ (fun _ _ _ _ hok => absurd hok (by simp))
  rintro _ _ ⟨faults', rfl⟩
  refine .get_bind ?_
  have hcursor : (({ s with faults := faults' } : SyncState).cursorSeq userId conversationId) =
    s.cursorSeq userId conversationId := rfl
  dsimp only at hcursor ⊢
  rw [hcursor]
  split
  · next hcovered =>
    exact .pure fun _ _ => ⟨fun hfloor => by omega, iff_of_false hbehind.ne fun h => by omega⟩
  · next hpast =>
    refine .bind (localMaterializedContiguousSeq_leads ctx conversationId _ absentSeqs (by omega) _) ?_
      (fun _ _ _ _ hok => absurd hok (by simp))
    rintro safeLastSeq t ⟨hlow, hcursors, hcounted⟩
    obtain ⟨hmessages, hsafe⟩ := hcounted safeLastSeq rfl
    have hsame : t.cursorSeq userId conversationId = s.cursorSeq userId conversationId := by
      rw [SyncState.cursorSeq, hcursors, SyncState.cursorSeq]
    have hfloor : t.messages.clearedFloor conversationId = s.messages.clearedFloor conversationId := by
      rw [hmessages, clearedFloor_repairAlias]
    have hreach : safeLastSeq = lastSeq ↔ s.messages.clearedFloor conversationId < lastSeq ∧
        ∀ seq, s.cursorSeq userId conversationId < seq → s.messages.clearedFloor conversationId < seq →
        seq ≤ lastSeq →
          seq ∈ absentSeqs ∨ t.messages.HasSeq conversationId seq := by
      rw [hsafe, materializedContiguousSeq_eq_iff (by omega) hcolumn]
      constructor
      · exact fun h => ⟨by omega, fun seq hlow hvisible => h seq (by omega)⟩
      · exact fun h seq hlow => h.2 seq (by omega) (by omega)
    split
    · next hstuck =>
      refine .pure fun _ _ => ⟨fun _ => hmessages, ?_⟩
      rw [hsame, ← hreach]
      exact iff_of_false hbehind.ne (by omega)
    · next hmoves =>
      have hle : safeLastSeq ≤ lastSeq := hsafe ▸ (materializedContiguousSeq_spec _ _).1.1
      have hstored : storedSeq safeLastSeq = safeLastSeq := by rw [storedSeq_eq, if_pos (by omega)]
      refine .bind (storeCall_leads t) ?_ (fun _ _ _ _ hok => absurd hok (by simp))
      rintro _ _ ⟨faults'', rfl⟩
      refine fun _ _ => ⟨fun _ => hmessages, ?_⟩
      have hafter : (({ t with faults := faults'' } : SyncState).withCursor userId conversationId safeLastSeq
          (.contiguous absentSeqs)).cursorSeq userId conversationId = safeLastSeq := by
        rw [SyncState.cursorSeq_withCursor, hstored, max_eq_right]
        exact (hsame.trans_le (by omega) : t.cursorSeq userId conversationId ≤ safeLastSeq)
      exact (iff_of_eq (congrArg (· = lastSeq) hafter)).trans hreach

/-- With pages of any size the scan ends, and the cursor that is saved neither passes the target nor falls. What the
scan gives is the greatest seq up to the target that nothing is missing below, exactly when each seq that nothing is
missing up to is declared absent or has a row that pages list. -/
theorem scan_isGreatest_and_cursor_kept (t : RowTable) (conversationId : String) (limit fuel targetSeq floorSeq : ℕ)
    (absentSeqs : List ℕ) (hlimit : 0 < limit) (hfuel : targetSeq < fuel) :
    ∃ counted, pagedContiguousSeq t conversationId limit fuel targetSeq floorSeq absentSeqs = some counted ∧
      (IsGreatest {c | c ≤ targetSeq ∧ NoneMissing t conversationId floorSeq absentSeqs c} counted ↔
        ∀ seq, floorSeq < seq → seq ≤ targetSeq → NoneMissing t conversationId floorSeq absentSeqs seq →
          seq ∈ absentSeqs ∨ seq ∈ scannedSeqs t conversationId limit targetSeq) ∧
      ∀ ctx userId s, let saved := ((saveCursor ctx userId conversationId targetSeq absentSeqs).run s).2
        s.cursorSeq userId conversationId ≤ saved.cursorSeq userId conversationId ∧
          saved.cursorSeq userId conversationId ≤ max (s.cursorSeq userId conversationId) targetSeq := by
  obtain ⟨counted, hcounted, hgreatest⟩ := pagedContiguousSeq_spec t conversationId floorSeq absentSeqs hlimit hfuel
  refine ⟨counted, hcounted, isGreatest_noneMissing_iff hgreatest, fun ctx userId s => ⟨?_, ?_⟩⟩
  · refine within_saveCursor (R := Order.Preimage (·.cursorSeq userId conversationId) (· ≤ ·)) ?_ ?_ s
    · exact fun s t _ hcursors => (congrArg (fun cursors => (cursors userId conversationId).getD 0) hcursors).ge
    · exact fun s => (le_max_left _ _).trans_eq (s.cursorSeq_withCursor ..).symm
  · exact (raisedTo_saveCursor ctx conversationId userId absentSeqs le_rfl s).cursors userId conversationId

theorem scan_of_one_row : pagedContiguousSeq (sampleState 0).messages "conv" 1 7 6 4 [] = some 5 ∧
    IsGreatest {c | c ≤ 6 ∧ NoneMissing (sampleState 0).messages "conv" 4 [] c} 5 := by
  obtain ⟨counted, hcounted, hgreatest, -⟩ :=
    scan_isGreatest_and_cursor_kept (sampleState 0).messages "conv" 1 7 6 4 [] (by decide) (by decide)
  obtain rfl : 5 = counted := Option.some.inj ((by decide : _ = some 5).symm.trans hcounted)
  refine ⟨hcounted, hgreatest.mpr fun seq hlow hseq hnone => .inr ?_⟩
  obtain rfl | rfl : seq = 5 ∨ seq = 6 := by omega
  · decide
  · exact absurd (hnone 6 hlow le_rfl) (by decide)

/-- The last number of a column is not read. -/
theorem scan_short_of_last_column :
    let t := RowTable.saveBatch ⟨.empty, .empty, fun _ => 0⟩ 9 [sampleMessage "m" maxI64]
    NoneMissing t "conv" (maxI64 - 1) [] maxI64 ∧
      pagedContiguousSeq t "conv" scanPageLimit 2 maxI64 (maxI64 - 1) [] = some (maxI64 - 1) := by
  refine ⟨fun seq hlow hseq => .inr ?_, by decide⟩
  obtain rfl : seq = maxI64 := by omega
  decide

/-- Where each seq has at most one row, the read upwards ends, and it gives the rows above `afterSeq`,
oldest first, cut
to the limit, exactly when none of these has one of the last two numbers of the column. -/
theorem getByConversationAfter_eq (t : RowTable) (conversationId : String) (fuel afterSeq limit : ℕ)
    (hunique : (visibleSeqs t conversationId).Nodup) (hsize : (visibleSeqs t conversationId).length ≤ maxU32)
    (hfuel : ∀ seq ∈ visibleSeqs t conversationId, seq < fuel) :
    let rows := ((visibleSeqs t conversationId).filter (afterSeq < ·)).take limit
    (getByConversationAfter t conversationId fuel afterSeq limit).isSome ∧
      (getByConversationAfter t conversationId fuel afterSeq limit = some rows ↔
        ∀ seq ∈ rows, seq + 1 < maxI64) := by
  have hread := getByConversationAfter_run afterSeq limit hunique hsize hfuel
  intro rows
  rw [hread, filter_comm, Option.some.injEq, take_filter_eq_iff]
  simp only [decide_eq_true_eq, Option.isSome_some, true_and, rows]

theorem upwards_of_one_row : getByConversationAfter (sampleState 0).messages "conv" 6 4 1 = some [5] :=
  (getByConversationAfter_eq (sampleState 0).messages "conv" 6 4 1 (by decide) (by decide)
    (by decide)).2.mpr (by decide)

/-- The newest row is looked for below the last two numbers of the column. -/
theorem upwards_short_of_last_rows :
    let t := RowTable.saveBatch ⟨.empty, .empty, fun _ => 0⟩ 9 [sampleMessage "m" (maxI64 - 1)]
    visibleSeqs t "conv" = [maxI64 - 1] ∧ ∀ fuel, getByConversationAfter t "conv" fuel 0 1 = some [] :=
  ⟨by decide, fun _ => by rfl⟩

/-- Hidden history is not counted: the cursor stays where it is. -/
theorem saveCursor_leads_of_le (userId : String) (absentSeqs : List ℕ) (s : SyncState)
    (hhidden : lastSeq ≤ s.messages.clearedFloor conversationId) :
    (saveCursor ctx userId conversationId lastSeq absentSeqs).Leads s fun _ t =>
      t.cursorSeq userId conversationId = s.cursorSeq userId conversationId := by
  refine .bind (storeCall_leads s) ?_ (by rintro _ _ ⟨faults, rfl⟩; rfl)
  rintro _ _ ⟨faults, rfl⟩
  refine .bind (storeCall_leads _) ?_ (by rintro _ _ ⟨faults', rfl⟩; rfl)
  rintro _ _ ⟨faults', rfl⟩
  refine .get_bind ?_
  rw [if_pos (hhidden.trans (le_max_right _ _))]
  exact .pure rfl

/-- Rows that the conversation counts as its own. -/
def Belongs (ctx : SyncContext) (conversationId : String) (r : MessageRow) : Prop :=
  r.conversationId = conversationId ∨
    ∃ channelId, ctx.channelAlias (trim conversationId) = some channelId ∧ r.conversationId = trim channelId

variable {ctx}

theorem exists_belongs_of_mem_repairAlias {t : RowTable} {r : MessageRow}
    (hr : r ∈ (repairAlias ctx conversationId t).rows.items) (hconversation : r.conversationId = conversationId) :
    ∃ q ∈ t.rows.items, Belongs ctx conversationId q ∧ q.conversationSeq = r.conversationSeq := by
  unfold repairAlias at hr
  split at hr
  · next channelId halias =>
    unfold RowTable.rewriteConversationId at hr
    split at hr
    · exact ⟨r, hr, .inl hconversation, rfl⟩
    · obtain ⟨q, hq, rfl⟩ := mem_map.mp hr
      refine ⟨q, hq, ?_⟩
      split at hconversation
      · next hchannel =>
        rw [if_pos hchannel]
        exact ⟨.inr ⟨channelId, halias, of_decide_eq_true hchannel⟩, rfl⟩
      · next hother =>
        rw [if_neg hother]
        exact ⟨.inl hconversation, rfl⟩
  · exact ⟨r, hr, .inl hconversation, rfl⟩

end Save

/-! ### Progress -/

/-- An absent item or a message that is kept stands at the seq. -/
def DecodedItem.keeps [RowCodes] (ctx : SyncContext) (userId : String) (seq : ℕ) : DecodedItem → Bool
  | .absent n => n = seq
  | .message n m => n = seq && !ctx.isEphemeral (ctx.converger.received userId m)
  | _ => false

def SingleConversationSyncRes.Keeps [RowCodes] (ctx : SyncContext) (userId : String)
    (page : SingleConversationSyncRes)
    (seq : ℕ) : Prop :=
  ∃ item ∈ page.items, (decodeItem item).keeps ctx userId seq
  deriving Decidable

variable {m : InboundMessage}

section Progress

variable [EventCodes] (ctx : SyncContext) (conversationId : String) (page : SingleConversationSyncRes)

/-- Every event of the page was applied, and every message that is kept has its row. -/
structure AllApplied (s t : SyncState) : Prop where
  events : ∃ report, t.reports = report :: s.reports ∧ ∀ r ∈ report, r.2 = true
  messages : ∀ item ∈ page.items, ∀ seq m, decodeItem item = .message seq m →
    ctx.isEphemeral (ctx.converger.received s.userId m) = false → s.cursorSeq s.userId conversationId < seq →
    s.messages.clearedFloor conversationId < seq → t.messages.HasSeq conversationId seq

/-- A seq is given to one message or one event: what the page has at a seq, the stored rows do not contradict. -/
structure SeqsGivenOnce (s : SyncState) : Prop where
  carried : ∀ item ∈ page.items, ∀ seq m, decodeItem item = .message seq m → m.conversationSeq = seq
  stored : ∀ r ∈ s.messages.rows.items, Belongs ctx conversationId r →
    (∃ item ∈ page.items, (decodeItem item).seq? = some r.conversationSeq) →
    page.Keeps ctx s.userId r.conversationSeq
  unkept : ∀ item ∈ page.items, ∀ seq m, decodeItem item = .message seq m →
    ctx.isEphemeral (ctx.converger.received s.userId m) = true → s.messages.NewTo m.toIMMessage

variable {ctx conversationId page} {s t : SyncState}

omit [EventCodes] in
theorem mem_absentItemSeqs_iff : seq ∈ (decodeSingleConversationItems page knownSeq).absentItemSeqs ↔
    knownSeq < seq ∧ ∃ item ∈ page.items, decodeItem item = .absent seq := by
  have hitem : ∀ d : DecodedItem, d.absentSeq knownSeq = some seq ↔ knownSeq < seq ∧ d = .absent seq := by
    rintro (n | _ | _ | _) <;> simp [absentSeq]
    rintro rfl
    rfl
  simp only [decodeSingleConversationItems, mem_filterMap, mem_map, exists_exists_and_eq_and, hitem]
  tauto

omit [EventCodes] in
theorem mem_messages_iff : m ∈ (decodeSingleConversationItems page knownSeq).messages ↔
      ∃ seq, knownSeq < seq ∧ ∃ item ∈ page.items, decodeItem item = .message seq m := by
  have hitem : ∀ d : DecodedItem, d.freshMessage knownSeq = some m ↔
    ∃ seq, knownSeq < seq ∧ d = .message seq m := by
    rintro (_ | ⟨n, _⟩ | _ | _) <;> simp [freshMessage]
  simp only [decodeSingleConversationItems, mem_filterMap, mem_map, exists_exists_and_eq_and, hitem]
  tauto

theorem exists_absorbed_of_run {reply : ServerReply} (hcutover : page.snapshotCutover = false)
    (hrun : (applySyncResSingle ctx true conversationId reply (some page) requestedAfterSeq requestedCursor).run s =
      (.ok result, t)) :
    ∃ report v, (absorbPage ctx true conversationId page requestedAfterSeq).run s =
        (.ok (s.knownCursorSeq conversationId,
          appliedPage page (decodeAfterSeq true conversationId s requestedAfterSeq) report), v) ∧
      report.map Prod.fst = page.operationSeqs ∧ t.reports = report :: s.reports ∧
      (settleCursor ctx true conversationId requestedAfterSeq requestedCursor (s.knownCursorSeq conversationId)
        (appliedPage page (decodeAfterSeq true conversationId s requestedAfterSeq) report)).run v =
          (.ok result, t) := by
  unfold applySyncResSingle at hrun
  dsimp only at hrun
  rw [hcutover, Bool.and_false, if_neg Bool.false_ne_true] at hrun
  obtain ⟨absorbed, v, habsorb, hsettle⟩ := Prog.exists_of_bind_ok hrun
  have hleads := absorbPage_leads ctx true conversationId page requestedAfterSeq s
  rw [Prog.Leads, habsorb] at hleads
  rcases hleads with ⟨-, e, herror⟩ | ⟨report, hseqs, hlowered, hok⟩
  · exact absurd herror (by simp)
  · rw [hok absorbed rfl] at habsorb hsettle
    have hkept := congrArg (fun run => run.2.reports) hsettle
    rw [(raisedTo_settleCursor ctx conversationId true _ (fun _ => le_rfl) v).reports] at hkept
    exact ⟨report, v, habsorb, hseqs, hkept.symm.trans hlowered.reports, hsettle⟩

omit [EventCodes] in
theorem saveCursor_run_of_settleCursor {cursorSeq : ℕ}
    {applied : AppliedSingleConversationPage} (huser : s.userId ≠ "")
    (hmax : cursorSeq < applied.maxSeq)
    (hrun : (settleCursor ctx true conversationId requestedAfterSeq requestedCursor cursorSeq applied).run s =
      (.ok result, t)) :
    (saveCursor ctx s.userId conversationId applied.maxSeq applied.absentSeqs).run s = (.ok (), t) := by
  have htail : isColdStartTailSnapshot requestedAfterSeq requestedCursor applied = false := by
    have hne : applied.maxSeq ≠ 0 := by omega
    simp [isColdStartTailSnapshot, hne]
  unfold settleCursor at hrun
  rw [Prog.get_bind, htail, if_neg Bool.false_ne_true, if_pos (by simp [hmax, huser])] at hrun
  obtain ⟨_, u, hsave, hpure⟩ := Prog.exists_of_bind_ok hrun
  rw [hsave, (Prod.mk.inj hpure).2]

variable {requestedAfterSeq endSeq : ℕ}

/-- Above cursor and floor, a seq that the page keeps is stored or declared absent after the page. -/
theorem AllApplied.mem_absentItemSeqs_or_hasRow (happlied : AllApplied ctx conversationId page s t)
    (hkeeps : page.Keeps ctx s.userId seq) (hknown : knownSeq < seq)
    (hcursor : s.cursorSeq s.userId conversationId < seq) (hfloor : s.messages.clearedFloor conversationId < seq) :
    seq ∈ (decodeSingleConversationItems page knownSeq).absentItemSeqs ∨ t.messages.HasSeq conversationId seq := by
  obtain ⟨item, hitem, hkeeps⟩ := hkeeps
  cases hdecoded : decodeItem item with
  | absent n =>
    rw [hdecoded] at hkeeps
    obtain rfl : n = seq := of_decide_eq_true hkeeps
    exact .inl (mem_absentItemSeqs_iff.mpr ⟨hknown, item, hitem, hdecoded⟩)
  | message n m =>
    rw [hdecoded] at hkeeps
    obtain ⟨hseq, hdurable⟩ := Bool.and_eq_true_iff.mp hkeeps
    obtain rfl : n = seq := of_decide_eq_true hseq
    exact .inr (happlied.messages item hitem n m hdecoded (by simpa using hdurable) hcursor hfloor)
  | _ => rw [hdecoded] at hkeeps; exact absurd hkeeps Bool.false_ne_true

theorem SeqsGivenOnce.keeps_of_message (honce : SeqsGivenOnce ctx conversationId page s)
    (hm : m ∈ (decodeSingleConversationItems page knownSeq).messages)
    (hor : ctx.isEphemeral (ctx.converger.received s.userId m) = false ∨ ¬ s.messages.NewTo m.toIMMessage) :
    page.Keeps ctx s.userId m.conversationSeq := by
  obtain ⟨seq, -, item, hitem, hdecoded⟩ := mem_messages_iff.mp hm
  have hdurable : ctx.isEphemeral (ctx.converger.received s.userId m) = false := by
    rcases hor with hdurable | hold
    · exact hdurable
    · by_contra hephemeral
      exact hold (honce.unkept item hitem seq m hdecoded (Bool.not_eq_false _ ▸ hephemeral))
  have hseq := honce.carried item hitem seq m hdecoded
  exact ⟨item, hitem, by rw [hdecoded]; simp [keeps, hseq, hdurable]⟩

/-- A seq of the page that has a row after the save is one that the page keeps. -/
theorem SeqsGivenOnce.keeps_of_hasRow (honce : SeqsGivenOnce ctx conversationId page s) {v : SyncState}
    (hleaves : PageLeaves conversationId (page.Keeps ctx s.userId) s v)
    (hsaved : t.messages = repairAlias ctx conversationId v.messages)
    (hstands : ∃ item ∈ page.items, (decodeItem item).seq? = some seq)
      (hrow : t.messages.HasSeq conversationId seq) :
    page.Keeps ctx s.userId seq := by
  obtain ⟨r, hr, hconversation, rfl⟩ := hrow
  rw [hsaved] at hr
  obtain ⟨q, hq, hbelongs, hseq⟩ := exists_belongs_of_mem_repairAlias hr hconversation
  rw [← hseq] at hstands ⊢
  rcases hleaves.rows q hq with ⟨q', hq', hconversation', hseq'⟩ | hkeeps
  · rw [← hseq'] at hstands ⊢
    refine honce.stored q' hq' ?_ hstands
    rw [Belongs, hconversation']
    exact hbelongs
  · exact hkeeps

variable (ctx conversationId page) in
/-- The page ends above the visibility floor, and keeps every seq above cursor and floor. -/
def KeepsTo (s : SyncState) (endSeq : ℕ) : Prop :=
  s.messages.clearedFloor conversationId < endSeq ∧ ∀ seq, s.cursorSeq s.userId conversationId < seq →
    s.messages.clearedFloor conversationId < seq → seq ≤ endSeq → page.Keeps ctx s.userId seq

/-- A page without a hole whose items are all applied takes the cursor to its end when it keeps every seq. Where
seqs are given once, it does so only then. -/
theorem cursorSeq_eq_end (reply : ServerReply) (requestedCursor : String) {result : ℕ × Bool × String}
    (huser : s.userId ≠ "") (hcutover : page.snapshotCutover = false)
    (hcursor : s.cursorSeq s.userId conversationId < endSeq)
    (hpage : page.FillsTo (min (s.cursorSeq s.userId conversationId) requestedAfterSeq) endSeq)
    (hput : StaysPut ctx s.userId conversationId page (decodeAfterSeq true conversationId s requestedAfterSeq))
    (hcolumn : endSeq + 1 < maxI64)
    (hrun : (applySyncResSingle ctx true conversationId reply (some page) requestedAfterSeq requestedCursor).run s =
      (.ok result, t))
    (happlied : AllApplied ctx conversationId page s t) :
    (KeepsTo ctx conversationId page s endSeq → t.cursorSeq s.userId conversationId = endSeq) ∧
      (SeqsGivenOnce ctx conversationId page s → t.cursorSeq s.userId conversationId = endSeq →
        KeepsTo ctx conversationId page s endSeq) := by
  obtain ⟨report, v, habsorb, hseqs, hreports, hsettle⟩ := exists_absorbed_of_run hcutover hrun
  -- Rows come only from messages, and neither cursor nor floor moves before the save.
  have hleaves : ∀ {new : ℕ → Prop}, (∀ m ∈ (decodeSingleConversationItems page
        (decodeAfterSeq true conversationId s requestedAfterSeq)).messages,
      ctx.isEphemeral (ctx.converger.received s.userId m) = false ∨ ¬ s.messages.NewTo m.toIMMessage →
        new m.conversationSeq) → PageLeaves conversationId new s v := by
    intro new hnew
    have hleads := absorbPage_leaves s hput hnew
    rwa [Prog.Leads, habsorb] at hleads
  have hv : PageLeaves conversationId (fun _ => True) s v := hleaves fun _ _ _ => trivial
  have hevents : ∀ r ∈ report, r.2 = true := by
    obtain ⟨report', hreport', htrue⟩ := happlied.events
    rw [hreports] at hreport'
    rwa [(List.cons.inj hreport').1]
  have hknownCursor : s.knownCursorSeq conversationId = s.cursorSeq s.userId conversationId := if_neg huser
  have hknown : decodeAfterSeq true conversationId s requestedAfterSeq =
      max (min (s.cursorSeq s.userId conversationId) requestedAfterSeq)
        (s.messages.clearedFloor conversationId) := by
    rw [decodeAfterSeq, if_pos rfl, hknownCursor]
  have hmax := maxSeq_of_fillsTo hpage (hknown ▸ le_max_left _ _) hseqs hevents
  have hsave := saveCursor_run_of_settleCursor (hv.userId ▸ huser) (by rw [hmax, hknownCursor]; omega) hsettle
  rw [hmax, hv.userId] at hsave
  rcases lt_or_ge (s.messages.clearedFloor conversationId) endSeq with hvisible | hhidden
  · rw [max_eq_right (by omega)] at hsave
    have hsaved := saveCursor_leads ctx (appliedPage page (decodeAfterSeq true conversationId s requestedAfterSeq)
      report).absentSeqs v ((hv.cursor s.userId).trans_lt hcursor) hcolumn
    rw [Prog.Leads, hsave] at hsaved
    obtain ⟨hmessages, hiff⟩ := hsaved () rfl
    rw [hv.cursor, hv.floor] at hiff
    rw [hv.floor] at hmessages
    constructor
    · intro hkeeps
      refine hiff.mpr ⟨hvisible, fun seq hpast hfloor hseq => ?_⟩
      exact happlied.mem_absentItemSeqs_or_hasRow (hkeeps.2 seq hpast hfloor hseq) (by omega) hpast hfloor
    · intro honce hend
      refine ⟨hvisible, fun seq hpast hfloor hseq => ?_⟩
      rcases (hiff.mp hend).2 seq hpast hfloor hseq with habsent | hrow
      · obtain ⟨-, item, hitem, hdecoded⟩ := mem_absentItemSeqs_iff.mp habsent
        exact ⟨item, hitem, by rw [hdecoded]; exact decide_eq_true rfl⟩
      · exact honce.keeps_of_hasRow (hleaves fun m hm hor => honce.keeps_of_message hm hor) (hmessages hvisible)
          (hpage.filled seq (by omega) hseq) hrow
  · have hend : max (decodeAfterSeq true conversationId s requestedAfterSeq) endSeq =
      s.messages.clearedFloor conversationId := by omega
    have hstays := saveCursor_leads_of_le ctx s.userId (appliedPage page (decodeAfterSeq true conversationId s
      requestedAfterSeq) report).absentSeqs v hv.floor.ge
    rw [hend] at hsave
    rw [Prog.Leads, hsave, hv.cursor] at hstays
    exact ⟨fun hkeeps => absurd hkeeps.1 hhidden.not_gt,
      fun _ hreached => absurd (hstays.symm.trans hreached) hcursor.ne⟩

end Progress

/-! ### Pages after message 5 -/

def keptPage : SingleConversationSyncRes where
  items := [⟨6, some (.message (sampleMessage "m6" 6))⟩, ⟨7, some .skip⟩,
    ⟨8, some (.message (sampleMessage "m8" 8))⟩]
  maxConversationSeq := 8

theorem keptPage_fillsTo : keptPage.FillsTo 5 8 := by
  refine ⟨fun seq hfrom hend => ?_, by decide⟩
  obtain rfl | rfl | rfl : seq = 6 ∨ seq = 7 ∨ seq = 8 := by omega
  all_goals decide

theorem keptPage_messages (hitem : item ∈ keptPage.items)
    (hdecoded : decodeItem item = .message seq m) : m.conversationSeq = seq ∧ (seq = 6 ∨ seq = 8) := by
  simp only [keptPage, mem_cons, not_mem_nil, or_false] at hitem
  obtain rfl | rfl | rfl := hitem
  · obtain ⟨rfl, rfl⟩ := message.inj hdecoded
    exact ⟨rfl, .inl rfl⟩
  · exact absurd hdecoded (by simp [decodeItem])
  · obtain ⟨rfl, rfl⟩ := message.inj hdecoded
    exact ⟨rfl, .inr rfl⟩

theorem keptPage_applied :
    @AllApplied sampleEventCodes sampleContext "conv" keptPage (sampleState 0) (appliedFrom 0 5 keptPage) := by
  refine @AllApplied.mk sampleEventCodes _ _ _ _ _ ⟨[], by decide, by decide⟩ ?_
  intro item hitem seq m hdecoded _ _ _
  obtain rfl | rfl := (keptPage_messages hitem hdecoded).2
  all_goals decide

theorem keptPage_seqsGivenOnce : @SeqsGivenOnce sampleEventCodes sampleContext "conv" keptPage (sampleState 0) := by
  have hstored : ∀ r ∈ (sampleState 0).messages.rows.items, r.conversationSeq = 5 := by decide
  have hpast : ¬ ∃ item ∈ keptPage.items, (decodeItem item).seq? = some 5 := by decide
  refine @SeqsGivenOnce.mk sampleEventCodes _ _ _ _
    (fun item hitem seq m hdecoded => (keptPage_messages hitem hdecoded).1)
    (fun r hr _ hstands => ?_) fun item hitem seq m hdecoded hephemeral => absurd hephemeral Bool.false_ne_true
  exact absurd (hstored r hr ▸ hstands) hpast

theorem keptPage_keepsTo : @KeepsTo sampleEventCodes sampleContext "conv" keptPage (sampleState 0) 8 := by
  refine ⟨by decide, fun seq hcursor _ hend => ?_⟩
  have hfrom : 5 < seq := hcursor
  obtain rfl | rfl | rfl : seq = 6 ∨ seq = 7 ∨ seq = 8 := by omega
  all_goals decide

theorem cursorSeq_eq_end_keptPage : @SeqsGivenOnce sampleEventCodes sampleContext "conv" keptPage (sampleState 0) ∧
      (appliedFrom 0 5 keptPage).cursorSeq "alice" "conv" = 8 :=
  ⟨keptPage_seqsGivenOnce, (@cursorSeq_eq_end sampleEventCodes sampleContext "conv" keptPage (sampleState 0)
    (appliedFrom 0 5 keptPage) 5 8 ⟨.ok (some keptPage), .ok []⟩ "" (8, false, "") (by decide) rfl (by decide)
    keptPage_fillsTo ⟨by decide, by decide, fun _ hqueue => absurd hqueue (Option.not_mem_none _)⟩
    (by decide) (Prod.ext (by decide) rfl) keptPage_applied).1 keptPage_keepsTo⟩

/-- Message 5 gets new content at seq 6. -/
def editAtSix : SingleConversationSyncRes where
  items := [sampleEvent "e6" 2 6 (.edit "m5" (some [7]))]
  maxConversationSeq := 6

def messageAtSix : SingleConversationSyncRes where
  items := [⟨6, some (.message (sampleMessage "m6" 6))⟩]
  maxConversationSeq := 6

/-- The page ends at 6 without a hole and is applied as a whole, and the cursor stays at 5. -/
def StopsAtFive (ctx : SyncContext) (page : SingleConversationSyncRes) : Prop :=
  ∃ result t, (@applySyncResSingle sampleEventCodes ctx true "conv" ⟨.ok (some page), .ok []⟩ (some page) 5 "").run
      (sampleState 0) = (.ok result, t) ∧
    page.FillsTo 5 6 ∧ @AllApplied sampleEventCodes ctx "conv" page (sampleState 0) t ∧
    t.cursorSeq "alice" "conv" = 5

theorem fillsTo_six (hitems : page.items = [item])
    (hseq : (decodeItem item).seq? = some 6) : page.FillsTo 5 6 := by
  refine ⟨fun seq hfrom hend => ?_, fun item' hitem' seq hseq' => ?_⟩
  · obtain rfl : seq = 6 := by omega
    exact ⟨item, by simp [hitems], hseq⟩
  · rw [hitems, mem_singleton] at hitem'
    rw [hitem', hseq] at hseq'
    exact (Option.some.inj hseq').ge

/-- An edit that was applied, and a message that is not kept. -/
theorem not_cursorSeq_eq_end :
    StopsAtFive sampleContext editAtSix ∧
    StopsAtFive { sampleContext with isEphemeral := fun _ => true } messageAtSix := by
  refine ⟨⟨(6, false, ""), _, Prod.ext (by decide) rfl, fillsTo_six rfl (by decide), ?_, by decide⟩,
    ⟨(6, false, ""), _, Prod.ext (by decide) rfl, fillsTo_six rfl (by decide), ?_, by decide⟩⟩
  · refine @AllApplied.mk sampleEventCodes _ _ _ _ _ ⟨[(6, true)], by decide, by decide⟩ ?_
    intro item hitem seq m hdecoded
    rw [mem_singleton.mp hitem] at hdecoded
    exact absurd hdecoded (by simp [sampleEvent, decodeItem, isValidSyncEvent, Event.message?])
  · refine @AllApplied.mk sampleEventCodes _ _ _ _ _ ⟨[], by decide, by decide⟩ ?_
    intro item hitem seq m hdecoded hkept
    exact absurd hkept (by simp)

end FlareIm.Sync
