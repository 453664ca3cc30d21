import FlareIm.Dispatcher.Waterline
import FlareIm.Events.Apply

/-! Delivery of one operation event. Its seq is recorded as applied before the event is, so that
the waterline check that comes next does not take the event for a gap; when the event turns
out to have no target, the record and the deduper's memory of it are taken back, for a sync to
replay the event. The check has answered by then: it counted a seq that is not there, so the
pull that would bring the target and replay the event may not have been started. -/

namespace FlareIm.Dispatcher

open Lib Message Store Events

structure DispatcherStores where
  messages : RowTable
  /-- What the waterline check reads of the stores. -/
  reads : LocalStores

structure DispatcherState where
  userId : String
  nowMs : ℕ
  stores : Option DispatcherStores
  hasSync : Bool
  deduper : EventDeduper
  appliedEventSeqs : AppliedEventSeqs
  /-- The waterline pull of each conversation. -/
  pulls : String → WaterlinePull
  pulls_coherent : ∀ conversationId, (pulls conversationId).Coherent
  /-- Conversations that are being pulled for another reason than a waterline. -/
  otherPulls : String → Bool

namespace DispatcherState

section

variable (s : DispatcherState) (conversationId : String) (targetSeq : ℕ)

def localWaterlineReached : Bool :=
  localWaterlineReachedWithStores (s.stores.map (·.reads)) s.appliedEventSeqs s.userId conversationId targetSeq

def requestPull : DispatcherState :=
  { s with
    pulls := Function.update s.pulls conversationId ((s.pulls conversationId).request s.userId targetSeq)
    pulls_coherent := by
      intro c
      by_cases hc : c = conversationId
      · rw [hc, Function.update_self]
        exact (s.pulls_coherent conversationId).request s.userId targetSeq
      · rw [Function.update_of_ne hc]
        exact s.pulls_coherent c }

end

def maybeTriggerWaterlinePull (s : DispatcherState) (p : WaterlinePing) : DispatcherState :=
  if !isWaterlinePing p.kind p.attributes then s
  else match p.pingedConversation with
    | none => s
    | some conversationId =>
      if s.localWaterlineReached conversationId p.targetSeq then s
      else if !s.hasSync then s
      else s.requestPull conversationId p.targetSeq

section

variable (s : DispatcherState) (ev : Event)

def maybeTriggerEventWaterline : DispatcherState :=
  if ev.eventConversationId = "" || ev.conversationSeq = 0 then s
  else s.maybeTriggerWaterlinePull (.ofSeq ev.eventConversationId ev.conversationSeq)

/-- The seq of an operation event is taken as filled before the event is applied. -/
def recordEvent : DispatcherState :=
  { s with
    appliedEventSeqs := if ev.eventConversationId = "" then s.appliedEventSeqs
      else s.appliedEventSeqs.record s.nowMs ev.eventConversationId ev.conversationSeq }

def rollbackAppliedEvent : DispatcherState :=
  { s with
    deduper := s.deduper.forget ev
    appliedEventSeqs := if ev.eventConversationId = "" then s.appliedEventSeqs
      else s.appliedEventSeqs.unrecord ev.eventConversationId ev.conversationSeq }

end

/-- Without stores an event is only passed on, unless it lacks what it should bring. -/
def outcomeWithoutStores (ev : Event) : Outcome :=
  match ev.payload with
  | some (.edit _ none) => .rolledBack .malformed
  | some (.retentionScheduled _ (some _) (some _) _) => .applied
  | some (.retentionScheduled _ _ _ _) => .rolledBack .malformed
  | some (.retentionExpired _ none _) => .rolledBack .malformed
  | some (.retentionPurged _ none _) => .rolledBack .malformed
  | some (.pluginState _ _ _) => .ignored
  | _ => .applied

/-- A conversation update with unread messages is a ping that names no seq. -/
def afterOperation (s : DispatcherState) (ev : Event) : DispatcherState :=
  match ev.payload with
  | some (.conversation _ unreadCount _) =>
    if 0 < unreadCount then s.maybeTriggerWaterlinePull ⟨"conversation.waterline", some ev.eventConversationId, ∅⟩
    else s
  | _ => s

def storeOperation [EventCodes] (s : DispatcherState) (ev : Event) : Outcome × DispatcherState :=
  match s.stores with
  | none => (outcomeWithoutStores ev, s)
  | some stores =>
    let (outcome, messages) := applyRealtime stores.messages s.nowMs s.userId ev
    (outcome, { s with stores := some { stores with messages := messages } })

/-- The payload is applied, and what the event has recorded is taken back if that fails. -/
def applyOperation [EventCodes] (s : DispatcherState) (ev : Event) : Outcome × DispatcherState :=
  let (outcome, stored) := s.storeOperation ev
  match outcome with
  | .rolledBack cause => (.rolledBack cause, stored.rollbackAppliedEvent ev)
  | outcome => (outcome, stored.afterOperation ev)

/-- What comes before the payload: the event is remembered, its seq recorded, its waterline checked. -/
def announce (s : DispatcherState) (ev : Event) : DispatcherState :=
  ({ s with deduper := (s.deduper.recordIfNew ev).2 }.recordEvent ev).maybeTriggerEventWaterline ev

/-- `dispatch_single_event` for an operation event; no outcome for one seen before. -/
def dispatchOperation [EventCodes] (s : DispatcherState) (ev : Event) : Option Outcome × DispatcherState :=
  if (s.deduper.recordIfNew ev).1 then
    let (outcome, after) := (s.announce ev).applyOperation ev
    (some outcome, after)
  else (none, s)

/-! ### Pulls started by a delivery -/

/-- The event has a conversation and a seq, and with its own seq counted as applied the
conversation is not there yet. -/
def LacksMore (s : DispatcherState) (ev : Event) : Prop :=
  ev.eventConversationId ≠ "" ∧ ev.conversationSeq ≠ 0 ∧ s.hasSync = true ∧
    (s.recordEvent ev).localWaterlineReached ev.eventConversationId ev.conversationSeq = false
  deriving Decidable

theorem trim_eventConversationId (ev : Event) : trim ev.eventConversationId = ev.eventConversationId := by
  unfold Event.eventConversationId
  split
  · exact trim_trim _
  · split
    · exact trim_trim _
    · rfl

theorem maybeTriggerEventWaterline_eq (s : DispatcherState) (ev : Event) : s.maybeTriggerEventWaterline ev =
      if ev.eventConversationId ≠ "" ∧ ev.conversationSeq ≠ 0 ∧ s.hasSync = true ∧
          s.localWaterlineReached ev.eventConversationId ev.conversationSeq = false then
        s.requestPull ev.eventConversationId ev.conversationSeq
      else s := by
  unfold maybeTriggerEventWaterline
  by_cases hconv : ev.eventConversationId = ""
  · simp [hconv]
  by_cases hseq : ev.conversationSeq = 0
  · simp [hseq]
  have hping := WaterlinePing.isWaterlinePing_ofSeq ev.eventConversationId ev.conversationSeq
  have hconversation : (WaterlinePing.ofSeq ev.eventConversationId ev.conversationSeq).pingedConversation =
      some ev.eventConversationId := by
    simp [WaterlinePing.pingedConversation, WaterlinePing.ofSeq, trim_eventConversationId, hconv, Option.filter]
  have htarget := WaterlinePing.targetSeq_ofSeq ev.eventConversationId ev.seq_le
  simp only [hconv, hseq, decide_false, Bool.or_self, Bool.false_eq_true, if_false,
    maybeTriggerWaterlinePull, hping, Bool.not_true, hconversation, htarget, ne_eq, not_false_eq_true,
    true_and]
  cases s.localWaterlineReached ev.eventConversationId ev.conversationSeq <;> cases s.hasSync <;> rfl

/-- After the check a waterline pull of the conversation runs if one did before, or if the check
did not find the seq reached. -/
theorem isRunning_maybeTriggerEventWaterline_iff (s : DispatcherState) (ev : Event) :
    ((s.maybeTriggerEventWaterline ev).pulls ev.eventConversationId).isRunning = true ↔
      (s.pulls ev.eventConversationId).isRunning = true ∨
        (ev.eventConversationId ≠ "" ∧ ev.conversationSeq ≠ 0 ∧ s.hasSync = true ∧
          s.localWaterlineReached ev.eventConversationId ev.conversationSeq = false) := by
  rw [maybeTriggerEventWaterline_eq]
  split
  · next hstarts =>
    refine iff_of_true ?_ (.inr hstarts)
    rw [requestPull]
    dsimp only
    rw [Function.update_self]
    exact (s.pulls_coherent ev.eventConversationId).isRunning_request s.userId ev.conversationSeq
  · next hnot => exact ⟨.inl, fun h => h.resolve_right hnot⟩

section Rollback

variable [EventCodes] {s : DispatcherState} {ev : Event}

theorem pulls_storeOperation : (s.storeOperation ev).2.pulls = s.pulls := by
  unfold storeOperation
  split <;> rfl

theorem pulls_applyOperation_of_rolledBack {cause : RollbackCause}
    (h : (s.applyOperation ev).1 = .rolledBack cause) : (s.applyOperation ev).2.pulls = s.pulls := by
  have hpulls : (s.storeOperation ev).2.pulls = s.pulls := pulls_storeOperation
  unfold applyOperation at h ⊢
  generalize s.storeOperation ev = stored at h hpulls ⊢
  obtain ⟨outcome, after⟩ := stored
  cases outcome with
  | rolledBack => exact hpulls
  | _ => exact Outcome.noConfusion h

/-- When an event is rolled back for want of its target, a pull of its conversation runs exactly if
one was in flight before, or the check lacked more than the event's own seq. -/
theorem pull_runs_iff_of_target_missing (s : DispatcherState) (ev : Event)
    (hmissing : (s.dispatchOperation ev).1 = some (.rolledBack .targetMissing)) :
    ((s.dispatchOperation ev).2.pulls ev.eventConversationId).isRunning = true ∨
        s.otherPulls ev.eventConversationId = true ↔
      (s.pulls ev.eventConversationId).isRunning = true ∨ s.otherPulls ev.eventConversationId = true ∨
        s.LacksMore ev := by
  unfold dispatchOperation at hmissing ⊢
  split at hmissing
  · next hnew =>
    rw [if_pos hnew]
    rw [pulls_applyOperation_of_rolledBack (Option.some.inj hmissing), announce,
      isRunning_maybeTriggerEventWaterline_iff]
    exact or_right_comm.trans or_assoc
  · exact absurd hmissing (by simp)

end Rollback

/-- Rows and cursor are at seq 4, and no message has the id that the sample events recall. -/
def sampleState : DispatcherState where
  userId := "alice"
  nowMs := 10
  stores := some ⟨⟨.empty, .empty, fun _ => 0⟩, sampleStores 4 [4]⟩
  hasSync := true
  deduper := {}
  appliedEventSeqs := .empty
  pulls _ := {}
  pulls_coherent _ := .inl rfl
  otherPulls _ := false

def recallOfUnknown (seq : ℕ) (h : seq ≤ maxU64) : Event where
  conversationId := "conv"
  conversationSeq := seq
  payload := some (.recall "m9")
  seq_le := h

theorem pull_runs_recallOfUnknown :
    let ev := recallOfUnknown 9 (by decide)
    let after := (@dispatchOperation sampleEventCodes sampleState ev).2
    sampleState.LacksMore ev ∧
    ((after.pulls ev.eventConversationId).isRunning = true ∨ sampleState.otherPulls ev.eventConversationId = true ↔
      (sampleState.pulls ev.eventConversationId).isRunning = true ∨
      sampleState.otherPulls ev.eventConversationId = true ∨
        sampleState.LacksMore ev) :=
  ⟨by decide, @pull_runs_iff_of_target_missing sampleEventCodes sampleState
    (recallOfUnknown 9 (by decide)) (by decide)⟩

/-- The recall's own seq fills the gap after the cursor until the recall is taken back. -/
theorem not_pull_runs_recallOfUnknown :
    let r := @dispatchOperation sampleEventCodes sampleState (recallOfUnknown 5 (by decide))
    r.1 = some (.rolledBack .targetMissing) ∧
    ¬ ((r.2.pulls "conv").isRunning = true ∨ sampleState.otherPulls "conv" = true) := by
  decide

end DispatcherState

end FlareIm.Dispatcher
