import FlareIm.Sync.Pull

/-! An event that was not applied and the cursor. The seqs that a page accounts for leave the event
out, the cursor is saved no higher than they reach without a hole, and so it stays below the event.
It does not where the event is no hole to begin with, at or below the cursor or the visibility floor
or at the seq of an item that counts, nor on a page that is taken for the tail of a cold start. -/

namespace FlareIm.Sync

open Lib Message Store Events Dispatcher List DecodedItem

/-! ### Holes -/

/-- A message or an absent item stands at the seq. -/
def DecodedItem.covers (seq : ℕ) : DecodedItem → Bool
  | .absent n => n = seq
  | .message n _ => n = seq
  | _ => false

def SingleConversationSyncRes.Covers (page : SingleConversationSyncRes) (seq : ℕ) : Prop :=
  ∃ item ∈ page.items, (decodeItem item).covers seq
  deriving Decidable

variable {lastSeq : ℕ} {page : SingleConversationSyncRes}

section Holes

variable {knownSeq seq : ℕ} {report : List (ℕ × Bool)}

theorem covers_of_mem_coveredItemSeqs (h : seq ∈ (decodeSingleConversationItems page knownSeq).coveredItemSeqs) :
    page.Covers seq := by
  obtain ⟨decoded, hdecoded, hseq⟩ := mem_filterMap.mp h
  obtain ⟨item, hitem, rfl⟩ := mem_map.mp hdecoded
  refine ⟨item, hitem, ?_⟩
  cases hitem' : decodeItem item with
  | event n ev => simp [hitem', coveredSeq] at hseq
  | rejected => simp [hitem', coveredSeq] at hseq
  | _ =>
    rw [hitem', coveredSeq, Option.ite_none_right_eq_some] at hseq
    exact decide_eq_true (Option.some.inj hseq.2)

/-- What a page accounts for: its messages and absent items, and the events that were applied. -/
theorem mem_report_or_covers_of_mem_appliedItemSeqs (h : seq ∈ appliedItemSeqs page knownSeq report) :
    (seq, true) ∈ report ∨ page.Covers seq := by
  rcases mem_append.mp h with hcovered | hevent
  · exact .inr (covers_of_mem_coveredItemSeqs hcovered)
  · obtain ⟨counted, hcounted, rfl⟩ := mem_map.mp hevent
    obtain ⟨hmem, hkept⟩ := mem_filter.mp hcounted
    obtain ⟨⟨itemSeq, applied⟩, hreport, rfl⟩ := mem_map.mp hmem
    rw [Bool.and_eq_true, decide_eq_true_eq] at hkept
    obtain ⟨hpos, rfl⟩ := hkept
    -- An event at or below the known seq is counted at 0, which is dropped.
    have hitemSeq : eventItemSeq knownSeq itemSeq = itemSeq := by
      unfold eventItemSeq at hpos ⊢
      split at hpos
      · next habove => rw [if_pos habove]
      · exact absurd hpos (lt_irrefl 0)
    rw [hitemSeq]
    exact .inl hreport

theorem maxSeq_lt_of_hole (hknown : knownSeq < seq) (hreport : (seq, true) ∉ report) (hcovers : ¬ page.Covers seq) :
    (appliedPage page knownSeq report).maxSeq < seq := by
  by_contra hreached
  have hmem := le_maxContiguousSeq_iff.mp (not_lt.mp hreached) seq hknown le_rfl
  exact (mem_report_or_covers_of_mem_appliedItemSeqs hmem).elim hreport hcovers

end Holes

/-! ### The save -/

/-- The reports are kept, and no cursor rises above `bound`. -/
structure RaisedTo (bound : ℕ) (s t : SyncState) : Prop where
  reports : t.reports = s.reports
  cursors : ∀ userId conversationId,
    t.cursorSeq userId conversationId ≤ max (s.cursorSeq userId conversationId) bound

section RaisedTo

variable {bound : ℕ}

theorem Lowered.raisedTo {s t : SyncState} (h : Lowered s t) : RaisedTo bound s t :=
  ⟨h.reports, fun userId conversationId => (h.cursors userId conversationId).trans (le_max_left _ _)⟩

instance : Std.Refl (RaisedTo bound) := ⟨fun s => (refl_of Lowered s).raisedTo⟩

instance : IsTrans SyncState (RaisedTo bound) where
  trans s t u h h' := by
    refine ⟨h'.reports.trans h.reports, fun userId conversationId => ?_⟩
    have hst := h.cursors userId conversationId
    have htu := h'.cursors userId conversationId
    omega

section

variable (userId conversationId : String) (reason : CursorReason) (h : lastSeq ≤ bound)

include h

theorem raisedTo_withCursor (s : SyncState) :
    RaisedTo bound s (s.withCursor userId conversationId lastSeq reason) := by
  refine ⟨rfl, fun u c => ?_⟩
  exact (s.cursorSeq_withCursor_le userId conversationId lastSeq reason u c).trans (max_le_max le_rfl h)

end

variable (ctx : SyncContext) (conversationId : String)

theorem raisedTo_saveCursor (userId : String) (absentSeqs : List ℕ) (h : lastSeq ≤ bound) :
    (saveCursor ctx userId conversationId lastSeq absentSeqs).Within (RaisedTo bound) := by
  refine within_saveCursor (fun _ _ h _ => h.raisedTo) fun s => raisedTo_withCursor _ _ _ ?_ s
  exact (materializedContiguousSeq_spec _ _).1.1.trans h

/-- As far as a page can carry the cursor. -/
def settledSeq (requestedAfterSeq : ℕ) (requestedCursor : String) (applied : AppliedSingleConversationPage) : ℕ :=
  if isColdStartTailSnapshot requestedAfterSeq requestedCursor applied then applied.remoteMaxSeq else applied.maxSeq

variable (advancesCursor : Bool)

/-- Only the tail of a cold start is saved past the seq that the page counts up to. -/
theorem raisedTo_settleCursor {requestedAfterSeq : ℕ} {requestedCursor : String} (cursorSeq : ℕ)
    {applied : AppliedSingleConversationPage}
    (hbound : advancesCursor = true → settledSeq requestedAfterSeq requestedCursor applied ≤ bound) :
    (settleCursor ctx advancesCursor conversationId requestedAfterSeq requestedCursor cursorSeq applied).Within
      (RaisedTo bound) := by
  unfold settledSeq at hbound
  refine .get_bind fun s => ?_
  split
  · next htail =>
    rw [if_pos htail] at hbound
    refine .bind ?_ fun _ => .pure _
    split
    · next hsave =>
      have hle := hbound (Bool.and_eq_true_iff.mp hsave).2
      exact .ite (.pure _) (.bind (lowered_storeCall.mono fun _ _ => Lowered.raisedTo) fun _ =>
        .modify (raisedTo_withCursor _ _ _ hle))
    · exact .pure _
  · next htail =>
    rw [if_neg htail] at hbound
    refine .bind ?_ fun _ => .pure _
    split
    · next hsave =>
      have hle := hbound (Bool.and_eq_true_iff.mp hsave).2
      exact raisedTo_saveCursor ctx conversationId _ _ hle
    · exact .pure _

end RaisedTo

/-! ### Pages -/

section Pages

variable (advancesCursor : Bool) (conversationId : String)

theorem knownCursorSeq_le (s : SyncState) :
    s.knownCursorSeq conversationId ≤ s.cursorSeq s.userId conversationId := by
  unfold SyncState.knownCursorSeq
  split
  · exact Nat.zero_le _
  · exact le_rfl

/-- The event at the seq was not applied, and nothing else on the page that counts stands there. -/
structure FailedAlone (page : SingleConversationSyncRes) (report : List (ℕ × Bool)) (seq : ℕ) : Prop where
  failed : (seq, false) ∈ report
  notApplied : (seq, true) ∉ report
  notCovered : ¬ page.Covers seq

variable [EventCodes] (ctx : SyncContext)

/-- Either the page was not read to its events, or they are reported and the cursor was settled. -/
theorem applySyncResSingle_leads (reply : ServerReply)
    (hcutover : page.snapshotCutover = false) (requestedAfterSeq : ℕ) (requestedCursor : String) (s : SyncState) :
    (applySyncResSingle ctx advancesCursor conversationId reply
      (some page) requestedAfterSeq requestedCursor).Leads s
      fun _ t => t.reports = s.reports ∨ ∃ report, ∀ bound,
        (advancesCursor = true → settledSeq requestedAfterSeq requestedCursor (appliedPage page
          (decodeAfterSeq advancesCursor conversationId s requestedAfterSeq) report) ≤ bound) →
        RaisedTo bound (s.withReport report) t := by
  unfold applySyncResSingle
  dsimp only
  rw [hcutover, Bool.and_false, if_neg Bool.false_ne_true]
  refine .bind (absorbPage_leads ctx advancesCursor conversationId page requestedAfterSeq s) ?_ ?_
  · rintro absorbed t (⟨-, e, herror⟩ | ⟨report, -, hlowered, hok⟩)
    · exact absurd herror (by simp)
    · rw [hok absorbed rfl]
      refine .inr ⟨report, fun bound hbound => ?_⟩
      exact trans_of (RaisedTo bound) hlowered.raisedTo
        (raisedTo_settleCursor ctx conversationId advancesCursor _ hbound t)
  · rintro e t (⟨hlowered, -⟩ | ⟨report, -, hlowered, -⟩)
    · exact .inl hlowered.reports
    · exact .inr ⟨report, fun bound _ => hlowered.raisedTo⟩

/-- On a page that is not taken for the tail of a cold start, the cursor stays below an event that was
not applied, provided the event was above the cursor and the visibility floor before the page. -/
theorem cursorSeq_lt_of_failedAlone (reply : ServerReply) (page : SingleConversationSyncRes)
    (requestedAfterSeq : ℕ) (requestedCursor : String) (s : SyncState) {report : List (ℕ × Bool)} {seq : ℕ}
    (hcutover : page.snapshotCutover = false)
    (hreport : ((applySyncResSingle ctx advancesCursor conversationId reply (some page) requestedAfterSeq
      requestedCursor).run s).2.reports = report :: s.reports)
    (htail : isColdStartTailSnapshot requestedAfterSeq requestedCursor (appliedPage page
      (decodeAfterSeq advancesCursor conversationId s requestedAfterSeq) report) = false)
    (hfailed : FailedAlone page report seq) (hcursor : s.cursorSeq s.userId conversationId < seq)
    (hfloor : s.messages.clearedFloor conversationId < seq) :
    ((applySyncResSingle ctx advancesCursor conversationId reply (some page) requestedAfterSeq
      requestedCursor).run s).2.cursorSeq s.userId conversationId < seq := by
  rcases applySyncResSingle_leads advancesCursor conversationId ctx reply hcutover
    requestedAfterSeq requestedCursor s
    with hunread | ⟨report', hraised⟩
  · rw [hunread] at hreport
    exact absurd hreport (cons_ne_self report s.reports).symm
  · -- Whatever the cursor was saved at, it is this page's report.
    have hsame : report' = report := by
      have hreports := (hraised _ fun _ => le_rfl).reports
      rw [hreport] at hreports
      exact (List.cons.inj hreports).1.symm
    subst hsame
    have hbound := hraised (seq - 1) fun hadvances => by
      subst hadvances
      have hknown : decodeAfterSeq true conversationId s requestedAfterSeq < seq := by
        have hstored := knownCursorSeq_le conversationId s
        rw [decodeAfterSeq, if_pos rfl]
        omega
      have hmax := maxSeq_lt_of_hole hknown hfailed.notApplied hfailed.notCovered
      rw [settledSeq, htail, if_neg Bool.false_ne_true]
      omega
    have hle := hbound.cursors s.userId conversationId
    have hkept : (s.withReport report').cursorSeq s.userId conversationId =
      s.cursorSeq s.userId conversationId := rfl
    omega

end Pages

/-! ### Pages with an edit that carries no content -/

def emptyEdit (seq : UInt64) : SyncSliceItem := sampleEvent "" 2 seq (.edit "m5" none)

/-- The edit stands between two messages; the cursor stops at the first. -/
def editAtSeven : SingleConversationSyncRes where
  items := [⟨6, some (.message (sampleMessage "m6" 6))⟩, emptyEdit 7,
    ⟨8, some (.message (sampleMessage "m8" 8))⟩]
  maxConversationSeq := 8

def appliedFrom (clearedFloor requestedAfterSeq : ℕ) (page : SingleConversationSyncRes) : SyncState :=
  ((@applySyncResSingle sampleEventCodes sampleContext true "conv" ⟨.ok (some page), .ok []⟩ (some page)
    requestedAfterSeq "").run (sampleState clearedFloor)).2

theorem cursorSeq_lt_of_failedAlone_editAtSeven : (appliedFrom 0 5 editAtSeven).cursorSeq "alice" "conv" = 6 ∧
      (appliedFrom 0 5 editAtSeven).cursorSeq "alice" "conv" < 7 :=
  ⟨by decide, @cursorSeq_lt_of_failedAlone true "conv" sampleEventCodes sampleContext
    ⟨.ok (some editAtSeven), .ok []⟩ editAtSeven 5 "" (sampleState 0) [(7, false)] 7 rfl (by decide)
    (by decide) ⟨by decide, by decide, by decide⟩ (by decide) (by decide)⟩

/-- The edit at `seq` was not applied, and the cursor stored after the page is not below it. -/
def PassesEdit (clearedFloor requestedAfterSeq seq : ℕ) (page : SingleConversationSyncRes) : Prop :=
  (seq, false) ∈ (appliedFrom clearedFloor requestedAfterSeq page).reports.flatten ∧
    seq ≤ (appliedFrom clearedFloor requestedAfterSeq page).cursorSeq "alice" "conv"

/-- An edit below the cursor, one below the visibility floor, one at the seq of a message, and one on a
page from 0 that is taken for the tail of a cold start. -/
theorem not_cursorSeq_lt_of_failed : PassesEdit 0 5 3 ⟨[emptyEdit 3], 5, false, "", false⟩ ∧
    PassesEdit 10 10 8 ⟨[emptyEdit 8, ⟨11, some (.message (sampleMessage "m11" 11))⟩], 11, false, "",
      false⟩ ∧
    PassesEdit 0 5 6 ⟨[emptyEdit 6, ⟨6, some (.message (sampleMessage "m6" 6))⟩], 6, false, "", false⟩ ∧
    PassesEdit 0 0 19 ⟨[emptyEdit 19, ⟨20, some (.message (sampleMessage "m20" 20))⟩], 20, false, "",
      false⟩ := by
  unfold PassesEdit
  decide

end FlareIm.Sync
