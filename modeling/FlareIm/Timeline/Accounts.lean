import FlareIm.Sync.Progress
import FlareIm.Timeline.Recording

/-! What accounts for a seq of a recorded range. It had a row when the range was recorded, or an event of
the page was applied there, or the server has shown that there is no message: by an item that says so, or
because a page that lists all that can be seen between its ends has nothing at the seq. Some messages get no
row: those that are not kept, those below the visibility floor, and the echo of a message that the sending
queue still has. A tail and a page of older history are taken as a whole, with items that could not be
applied. -/

namespace FlareIm.Timeline

open Lib Message Store Events Dispatcher Sync List DecodedItem

/-! ### Items -/

def messageAt (seq : ℕ) (item : SyncSliceItem) : Option InboundMessage :=
  match decodeItem item with
  | .message n m => if n = seq then some m else none
  | _ => none

/-- The item stands at the seq, and nothing could be taken from it. -/
def rejectedAt (seq : ℕ) (item : SyncSliceItem) : Bool :=
  match decodeItem item with
  | .rejected => backfillItemSeq item = seq
  | _ => false

variable {m : InboundMessage} {seq : ℕ}

section Items

variable {item : SyncSliceItem}

theorem messageAt_of_decodeItem (h : decodeItem item = .message seq m) : messageAt seq item = some m := by
  rw [messageAt, h]
  exact if_pos rfl

/-- Decoding and the range of a page of older history place an item at one seq. -/
theorem backfillItemSeq_of_decodeItem (h : (decodeItem item).seq? = some seq) : backfillItemSeq item = seq := by
  have habsent : ∀ {n : ℕ}, (if 0 < n then n else 0) = n := fun {n} => by
    split <;> omega
  unfold backfillItemSeq
  unfold decodeItem at h
  split at h
  · next hskip => rw [hskip]; exact habsent.trans (Option.some.inj h)
  · next htombstone => rw [htombstone]; exact habsent.trans (Option.some.inj h)
  · next ev hevent =>
    rw [hevent]
    split at h
    · dsimp only at h
      split at h <;> exact Option.some.inj h
    · exact absurd h (by simp [seq?])
  · next m hmessage =>
    rw [hmessage]
    split at h
    · exact Option.some.inj h
    · exact absurd h (by simp [seq?])
  · exact absurd h (by simp [seq?])

end Items

/-! ### Sources -/

namespace RangeSource

def messagesAt (seq : ℕ) : RangeSource → List InboundMessage
  | .contiguousPage page _ => page.items.filterMap (messageAt seq)
  | .cursorAdvance _ => []
  | .tailPage page _ => page.items.filterMap (messageAt seq)
  | .snapshotRow messages => messages.filter (·.conversationSeq = seq)
  | .backfillPage page _ => page.items.filterMap (messageAt seq)

def report : RangeSource → List (ℕ × Bool)
  | .contiguousPage _ report => report
  | .cursorAdvance _ => []
  | .tailPage _ report => report
  | .snapshotRow _ => []
  | .backfillPage _ report => report

/-- The server has shown that the seq has no message. -/
def ProvesAbsent (seq : ℕ) : RangeSource → Prop
  | .contiguousPage page _ => page.DeclaresAbsent seq
  | .cursorAdvance page => page.DeclaresAbsent seq
  | .tailPage page _ => page.DeclaresAbsent seq ∨ seq ∉ backfillItemSeqs page
  | .snapshotRow messages => seq ∉ messages.map (·.conversationSeq)
  | .backfillPage page _ => page.DeclaresAbsent seq ∨ seq ∉ backfillItemSeqs page

/-- The page has an item at the seq that was rejected, or an event that was not applied. -/
def LeavesOut (seq : ℕ) : RangeSource → Prop
  | .tailPage page report => page.items.any (rejectedAt seq) = true ∨ (seq, false) ∈ report
  | .backfillPage page report => page.items.any (rejectedAt seq) = true ∨ (seq, false) ∈ report
  | _ => False

instance (seq : ℕ) : ∀ source : RangeSource, Decidable (source.ProvesAbsent seq)
  | .contiguousPage page _ => inferInstanceAs (Decidable (page.DeclaresAbsent seq))
  | .cursorAdvance page => inferInstanceAs (Decidable (page.DeclaresAbsent seq))
  | .tailPage page _ => inferInstanceAs (Decidable (page.DeclaresAbsent seq ∨ seq ∉ backfillItemSeqs page))
  | .snapshotRow messages => inferInstanceAs (Decidable (seq ∉ messages.map (·.conversationSeq)))
  | .backfillPage page _ => inferInstanceAs (Decidable (page.DeclaresAbsent seq ∨ seq ∉ backfillItemSeqs page))

end RangeSource

/-! ### Accounts -/

section Accounts

variable [RowCodes] (ctx : SyncContext)

namespace Moment

variable (moment : Moment) (conversationId : String)

/-- The message gets no row: it is not kept, or hidden, or the sending queue has been given it. -/
def Unkept (m : InboundMessage) : Prop :=
  ctx.isEphemeral (ctx.converger.received moment.userId m) = true ∨
    m.conversationSeq ≤ moment.messages.clearedFloor conversationId ∨ m ∈ moment.handedOver

/-- All other messages of the list have rows at their seqs. -/
def Kept (ms : List InboundMessage) : Prop :=
  ∀ m ∈ ms, 0 < m.conversationSeq → moment.Unkept ctx conversationId m ∨
    moment.messages.HasSeq conversationId m.conversationSeq

def Accounts (source : RangeSource) (seq : ℕ) : Prop :=
  moment.messages.HasSeq conversationId seq ∨ (seq, true) ∈ source.report ∨ source.ProvesAbsent seq ∨
    (∃ m ∈ source.messagesAt seq, moment.Unkept ctx conversationId m) ∨ source.LeavesOut seq

end Moment

def CoverageRecord.Accounts (record : CoverageRecord) (seq : ℕ) : Prop :=
  record.moment.Accounts ctx record.conversationId record.source seq

namespace Moment

variable {ctx} {moment : Moment} {conversationId : String} {page : SingleConversationSyncRes}
    {report : List (ℕ × Bool)}
  {knownSeq : ℕ}

theorem accounts_of_message {source : RangeSource} {ms : List InboundMessage}
    (hkept : moment.Kept ctx conversationId ms) (hm : m ∈ ms) (hpos : 0 < m.conversationSeq)
    (hat : m ∈ source.messagesAt m.conversationSeq) :
    moment.Accounts ctx conversationId source m.conversationSeq :=
  (hkept m hm hpos).elim (fun hunkept => .inr (.inr (.inr (.inl ⟨m, hat, hunkept⟩)))) .inl

/-- The seqs that a page counts up without a hole. -/
theorem accounts_contiguousPage
    (hcarried : ∀ item ∈ page.items, ∀ seq m, decodeItem item = .message seq m → m.conversationSeq = seq)
    (hkept : moment.Kept ctx conversationId (decodeSingleConversationItems page knownSeq).messages)
    (hlow : knownSeq < seq) (hseq : seq ≤ (appliedPage page knownSeq report).maxSeq) :
    moment.Accounts ctx conversationId (.contiguousPage page report) seq := by
  have hmem := le_maxContiguousSeq_iff.mp hseq seq hlow le_rfl
  rcases mem_report_or_covers_of_mem_appliedItemSeqs hmem with happlied | ⟨item, hitem, hcovers⟩
  · exact .inr (.inl happlied)
  · cases hdecoded : decodeItem item with
    | absent n =>
      rw [hdecoded] at hcovers
      obtain rfl := of_decide_eq_true hcovers
      exact .inr (.inr (.inl (declaresAbsent_of_mem (mem_absentItemSeqs_iff.mpr ⟨hlow, item, hitem, hdecoded⟩))))
    | message n m =>
      rw [hdecoded] at hcovers
      obtain rfl := of_decide_eq_true hcovers
      obtain rfl := hcarried item hitem n m hdecoded
      exact accounts_of_message hkept (mem_messages_iff.mpr ⟨_, hlow, item, hitem, hdecoded⟩) (by omega)
        (mem_filterMap.mpr ⟨item, hitem, messageAt_of_decodeItem hdecoded⟩)
    | event n ev => rw [hdecoded] at hcovers; exact absurd hcovers (by simp [covers])
    | rejected => rw [hdecoded] at hcovers; exact absurd hcovers (by simp [covers])

/-- The tail of a conversation is taken as a whole, and so is a page of older history. -/
theorem accounts_tailPage (hreport : report.map Prod.fst = page.operationSeqs)
    (hcarried : ∀ item ∈ page.items, ∀ seq m, decodeItem item = .message seq m → m.conversationSeq = seq)
    (hkept : moment.Kept ctx conversationId (decodeSingleConversationItems page 0).messages) (hpos : 0 < seq) :
    moment.Accounts ctx conversationId (.tailPage page report) seq := by
  by_cases hlisted : seq ∈ backfillItemSeqs page
  · obtain ⟨item, hitem, rfl⟩ := mem_map.mp hlisted
    have hat : ∀ {n : ℕ}, (decodeItem item).seq? = some n → backfillItemSeq item = n :=
      backfillItemSeq_of_decodeItem
    cases hdecoded : decodeItem item with
    | absent n =>
      rw [hat (by rw [hdecoded]; rfl)] at hpos ⊢
      exact .inr (.inr (.inl (.inl (declaresAbsent_of_mem
        (mem_absentItemSeqs_iff.mpr ⟨hpos, item, hitem, hdecoded⟩)))))
    | message n m =>
      rw [hat (by rw [hdecoded]; rfl)] at hpos ⊢
      obtain rfl := hcarried item hitem n m hdecoded
      exact accounts_of_message hkept (mem_messages_iff.mpr ⟨_, hpos, item, hitem, hdecoded⟩) hpos
        (mem_filterMap.mpr ⟨item, hitem, messageAt_of_decodeItem hdecoded⟩)
    | event n ev =>
      rw [hat (by rw [hdecoded]; rfl)]
      have hoperation : n ∈ page.operationSeqs :=
        mem_map.mpr ⟨(n, ev), mem_filterMap.mpr ⟨_, mem_map_of_mem hitem, by rw [hdecoded]; rfl⟩, rfl⟩
      rw [← hreport] at hoperation
      obtain ⟨⟨itemSeq, applied⟩, hmem, rfl⟩ := mem_map.mp hoperation
      cases applied with
      | true => exact .inr (.inl hmem)
      | false => exact .inr (.inr (.inr (.inr (.inr hmem))))
    | rejected =>
      refine .inr (.inr (.inr (.inr (.inl ?_))))
      exact any_eq_true.mpr ⟨item, hitem, by simp [rejectedAt, hdecoded]⟩
  · exact .inr (.inr (.inl (.inr hlisted)))

end Moment

end Accounts

end FlareIm.Timeline
