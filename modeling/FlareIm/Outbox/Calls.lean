import FlareIm.Outbox.Handlers
import FlareIm.Outbox.Protocol

/-! Running the building blocks of the handlers when no store call fails: one equation for
each, with the state it leaves. -/

namespace FlareIm.Outbox

open Lib Message Store KeyedMap QueueState

variable {α : Type} {s : QueueState}

/-- The parts of the state that a handler reads and never changes on its way. -/
structure SameSurroundings (s t : QueueState) : Prop where
  config : t.config = s.config
  user : t.currentUserId = s.currentUserId
  paused : t.pausedSinceMs = s.pausedSinceMs
  faults : t.faults = s.faults
  now : t.nowMs = s.nowMs
  hashOrder : t.hashOrder = s.hashOrder
  writerFull : s.writerCapacity = 0 → t.writerCapacity = 0

namespace SameSurroundings

variable {t u : QueueState}

/-- A change of other fields. -/
theorem kept (h : (t.config, t.currentUserId, t.pausedSinceMs, t.faults, t.nowMs, t.hashOrder, t.writerCapacity) =
    (s.config, s.currentUserId, s.pausedSinceMs, s.faults, s.nowMs, s.hashOrder, s.writerCapacity)) :
    SameSurroundings s t := by
  simp only [Prod.mk.injEq] at h
  obtain ⟨hconfig, huser, hpaused, hfaults, hnow, horder, hroom⟩ := h
  exact ⟨hconfig, huser, hpaused, hfaults, hnow, horder, hroom.trans⟩

@[refl] theorem refl (s : QueueState) : SameSurroundings s s := kept rfl

variable (h : SameSurroundings s t)

include h

theorem trans (h' : SameSurroundings t u) : SameSurroundings s u :=
  ⟨h'.config.trans h.config, h'.user.trans h.user, h'.paused.trans h.paused,
    h'.faults.trans h.faults, h'.now.trans h.now, h'.hashOrder.trans h.hashOrder,
    fun hfull => h'.writerFull (h.writerFull hfull)⟩

theorem isPaused : t.isPaused = s.isPaused := by
  rw [QueueState.isPaused, h.paused]
  rfl

theorem deadlineAfter : t.deadlineAfter = s.deadlineAfter := by
  rw [QueueState.deadlineAfter, h.now, h.config]
  rfl

end SameSurroundings

theorem holds_of_inFlight {k : String} {x : InFlightSend} (h : s.inFlight.find? k = some x) :
    x.entry.clientMsgId = k ∧ s.view.Holds .inFlight x.entry := by
  have hk : x.clientMsgId = k := key_of_find? h
  refine ⟨hk, ?_⟩
  rw [View.Holds, show x.entry.clientMsgId = k from hk]
  exact lookup_of_find? _ _ h

theorem holds_of_awaiting {k : String} {x : AwaitingDurableAck} (h : s.awaitingDurable.find? k = some x) :
    x.entry.clientMsgId = k ∧ s.view.Holds .awaiting x.entry := by
  have hk : x.clientMsgId = k := key_of_find? h
  refine ⟨hk, ?_⟩
  rw [View.Holds, show x.entry.clientMsgId = k from hk]
  exact lookup_of_find? _ _ h

/-- The conversation projection is outside the queue: only its own log changes. -/
def withLastMessage (m : IMMessage) (s : QueueState) : QueueState :=
  { s with
    lastMessageUpdates :=
      if (lastMessageUpdate m).conversationId = "" ∨ (lastMessageUpdate m).lastMessageId = "" then
        s.lastMessageUpdates
      else lastMessageUpdate m :: s.lastMessageUpdates }

def failedState [ProtoCodes] (e : PendingSendVo) (reason : String) (s : QueueState) : QueueState :=
  { s with
    pending := s.pending.pop e.clientMsgId
    retryCount := Function.update s.retryCount e.clientMsgId 0
    messages := s.messages.saveBatch s.nowMs [markFailed e.message]
    bus := .sendFailed e.clientMsgId reason :: s.bus
    history := .popped e.clientMsgId :: s.history }

section Calls

variable (h : s.faults = [])

include h

theorem storeCall_run (f : QueueState → α × QueueState) : (storeCall f).run s = (.ok (f s).1, (f s).2) := by
  show callStore f s = _
  simp only [callStore, h]

theorem pendingGet_run (id : String) : (pendingGet id).run s = (.ok (s.pending.get id), s) := storeCall_run h _

theorem pendingList_run : pendingList.run s = (.ok s.pending.list, s) :=
  storeCall_run h _

theorem pendingListOldestExcluding_run (excluded : List String) (limit : ℕ) :
    (pendingListOldestExcluding excluded limit).run s =
      (.ok (s.pending.listOldestExcluding excluded limit), s) := storeCall_run h _

theorem pendingPush_run (e : PendingSendVo) : (pendingPush e).run s =
      (.ok (), { s with pending := s.pending.push e, history := .pushed e :: s.history }) :=
  storeCall_run h _

theorem pendingPop_run (id : String) : (pendingPop id).run s = (.ok (s.pending.get id),
      { s with pending := s.pending.pop id, history := .popped id :: s.history }) :=
  storeCall_run h _

theorem saveMessage_run (m : IMMessage) :
    (saveMessage m).run s = (.ok (), { s with messages := s.messages.saveBatch s.nowMs [m] }) :=
  storeCall_run h _

theorem getByClientMsgIds_run (ids : List String) :
    (getByClientMsgIds ids).run s = (.ok (s.messages.getByClientMsgIds ids), s) := storeCall_run h _

theorem loadLocalRows_run (ids : List String) :
    (loadLocalRows ids).run s = (.ok (s.messages.getByClientMsgIds ids), s) := by
  unfold loadLocalRows
  rw [Prog.attempt_bind, getByClientMsgIds_run h]
  rfl

theorem updateConversationLastMessage_run (m : IMMessage) :
    (updateConversationLastMessage m).run s = (.ok (), withLastMessage m s) := by
  unfold updateConversationLastMessage withLastMessage
  dsimp only
  split
  · rfl
  · exact storeCall_run h _

variable [codes : ProtoCodes]

theorem updateAfterAck_run (id : String) (m : IMMessage) :
    (updateAfterAck id m).run s = (.ok (), { s with messages := s.messages.updateAfterAck s.nowMs id m }) :=
  storeCall_run h _

variable (e : PendingSendVo) (reason : String)

theorem markSendFailedAndPublish_run :
    (markSendFailedAndPublish e reason).run s = (.ok (), failedState e reason s) := by
  simp [markSendFailedAndPublish, Prog.bind_run, pendingPop_run, saveMessage_run, h, clearRetryCount,
    publish, failedState]

theorem failEntry_run : (failEntry e reason).run s = (.ok (), failedState e reason s) := by
  simp [failEntry, Prog.bind_run, pendingPop_run, saveMessage_run, h, clearRetryCount, publish,
    failedState]

end Calls

theorem failedState_view [ProtoCodes] (e : PendingSendVo) (reason : String) (s : QueueState) :
    (failedState e reason s).view = (s.view.forget e.clientMsgId).record [.popped e.clientMsgId] := by
  simp [view, failedState, View.forget, View.record, PendingEntries.find?_pop_eq]
  rfl

theorem dispatchSendAttempt_run (e : PendingSendVo) (retries : ℕ) (s : QueueState) :
    ∃ t jobs, (dispatchSendAttempt e retries).run s = (.ok (), t) ∧ SameSurroundings s t ∧
      t.view = { s.view with
        inFlight := Function.update s.view.inFlight e.clientMsgId (some e)
        history := jobs.map (fun job => .handed job s.currentUserId) ++ s.history } ∧
      (jobs = [] ∨ (s.writerCapacity ≠ 0 ∧ ∃ job : SendJob, jobs = [job] ∧ job.entry = e ∧ job.retries = retries)) ∧
      (s.writerCapacity ≠ 0 → jobs ≠ []) ∧
      t.inFlight = s.inFlight.insert ⟨e, s.deadlineAfter, s.nowMs, false⟩ ∧
      t.pending = s.pending ∧ t.messages = s.messages ∧
      t.awaitingDurable = s.awaitingDurable := by
  unfold dispatchSendAttempt
  rw [Prog.modify_run]
  dsimp only
  split
  · rename_i hcap
    refine ⟨_, [], rfl, ?_, ?_, .inl rfl, fun h => absurd hcap h, ?_⟩
    · unfold noteWriterFull
      split <;> exact .kept rfl
    · unfold noteWriterFull
      split <;> simp [view, InFlightSend.clientMsgId]
    · unfold noteWriterFull
      split <;> simp
  · rename_i hcap
    refine ⟨_, [⟨e, retries, s.dispatchGeneration, s.resumes⟩], rfl,
      ⟨rfl, rfl, rfl, rfl, rfl, rfl, fun hfull => absurd hfull hcap⟩, ?_,
      .inr ⟨hcap, _, rfl, rfl, rfl⟩, fun _ => by simp, ?_⟩
    · simp [view, InFlightSend.clientMsgId]
    · simp

end FlareIm.Outbox
