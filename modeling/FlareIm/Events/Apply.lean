import FlareIm.Events.Model

/-! The two ways an operation event reaches the message store: the dispatcher applies it as it
is delivered, and the sync applier replays it from a page. Both translate the payload into one
store operation; they were written apart and differ in which events they let through and in
the conversation id they pass on. -/

namespace FlareIm.Events

open Lib Message Store

/-! ### Shared readings of a payload -/

def markColor (color : String) : Option String := if isBlank color then none else some color

/-- Another user's receipt marks the current user's own messages. -/
def readReceiptApplies (userId readerId : String) (readSeq : ℕ) : Bool :=
  userId ≠ "" && readerId ≠ "" && readerId ≠ userId && 0 < readSeq

/-! ### Realtime -/

inductive RollbackCause
  | targetMissing
  | malformed
  deriving DecidableEq, Repr

inductive Outcome
  | applied
  /-- Out of date, not for this user, or consumed without effect. -/
  | ignored
  /-- Taken out of the deduper and of the applied seqs, to be replayed by a sync. -/
  | rolledBack (cause : RollbackCause)
  deriving DecidableEq, Repr

def Outcome.ofResult : ApplyResult → Outcome
  | .applied => .applied
  | .ignoredStale => .ignored
  | .notFound => .rolledBack .targetMissing

def reported (r : ApplyResult × RowTable) : Outcome × RowTable := (.ofResult r.1, r.2)

/-- A recall that matched no row has not found its message. -/
def recallReported : ℕ × RowTable → Outcome × RowTable
  | (0, t) => (.rolledBack .targetMissing, t)
  | (_ + 1, t) => (.applied, t)

@[simp] theorem snd_recallReported (r : ℕ × RowTable) : (recallReported r).2 = r.2 := by
  rcases r with ⟨_ | n, t⟩ <;> rfl

def shouldApplyDeleteForCurrentUser (currentUserId : String) (scope : Option ℤ) (targetUserId : Option String) :
    Bool :=
  if scope.getD 1 ≠ 1 then true
  else if targetUserId.getD "" = "" then true
  else currentUserId ≠ "" && currentUserId = targetUserId.getD ""

/-- The payload match of `dispatch_single_event`, with the stores at hand. -/
def applyRealtime [codes : EventCodes] (t : RowTable) (now : ℕ) (userId : String) (ev : Event) :
    Outcome × RowTable :=
  let conversationId := ev.eventConversationId
  let seq := ev.operationSeq
  match ev.payload with
  | some (.recall id) => recallReported (t.updateStatus id codes.statusRecalled)
  | some (.edit _ none) => (.rolledBack .malformed, t)
  | some (.edit id (some newContent)) =>
    if (t.get id).any (fun stored => !inboundEditAllowed stored newContent) then (.ignored, t)
    else reported (t.applyEditEvent now id newContent seq)
  | some (.reaction id reactor emoji action) =>
    reported (t.applyReactionEvent now conversationId id reactor emoji action seq)
  | some (.delete id scope targetUserId) =>
    if shouldApplyDeleteForCurrentUser userId scope targetUserId then reported (t.applyDeleteEvent id seq)
    else (.ignored, t)
  | some (.read readerId readSeq) =>
    (.applied, if readReceiptApplies userId readerId readSeq then
      t.markOutgoingReadUptoSeq conversationId userId readSeq else t)
  | some (.retentionScheduled id (some policy) (some state) scheduledAt) =>
    reported (t.applyRetentionScheduledEvent id policy state scheduledAt seq)
  | some (.retentionScheduled _ _ _ _) => (.rolledBack .malformed, t)
  | some (.retentionExpired id (some state) expiredAt) =>
    reported (t.applyRetentionExpiredEvent now id state expiredAt seq)
  | some (.retentionExpired _ none _) => (.rolledBack .malformed, t)
  | some (.retentionPurged id (some state) purgedAt) =>
    reported (t.applyRetentionPurgedEvent now id state purgedAt seq)
  | some (.retentionPurged _ none _) => (.rolledBack .malformed, t)
  | some (.pin id _ _) => reported (t.applyPinEvent id true seq)
  | some (.unpin id _ _) => reported (t.applyPinEvent id false seq)
  | some (.mark id markType color) => reported (t.applyMarkEvent id markType (markColor color) true seq)
  | some (.unmark id markType) => reported (t.applyMarkEvent id markType none false seq)
  | some (.pluginState id pluginId state) =>
    match applyPluginSharedState t id pluginId state with
    | (.notFound, u) => (.rolledBack .targetMissing, u)
    | (.applied, u) => (.applied, u)
    | (_, u) => (.ignored, u)
  | some .conversationDelete => (.applied, t.deleteConversation conversationId)
  | some .custom => (.applied, t)
  | some (.conversation _ _ _) => (.applied, t)
  | some (.message _) => (.applied, t)
  | none => (.applied, t)

/-! ### Replay by a sync -/

inductive ReplayOutcome
  /-- The cursor may pass the event. -/
  | done
  /-- The cursor may pass it only if it is past it already. -/
  | targetMissing
  | notApplied
  deriving DecidableEq, Repr

def ReplayOutcome.ofResult : ApplyResult → ReplayOutcome
  | .applied => .done
  | .ignoredStale => .done
  | .notFound => .targetMissing

def replayed (r : ApplyResult × RowTable) : ReplayOutcome × RowTable := (.ofResult r.1, r.2)

def messagePinScopeConversation : ℤ := 0
def messagePinScopeSelf : ℤ := 1

def messagePinVisibleToUser (scope : ℤ) (actorUserId currentUserId : String) : Bool :=
  scope = messagePinScopeConversation || (scope = messagePinScopeSelf && actorUserId = currentUserId)

def evaluateDeleteVisibility (userId : String) (scope : ℤ) (targetUserId : Option String) : Bool :=
  if scope ≠ 1 then true
  else if targetUserId.getD "" = "" then true
  else userId ≠ "" && userId = targetUserId.getD ""

/-- `apply_event` of the sync applier. -/
def applyReplay [codes : EventCodes] (t : RowTable) (now : ℕ) (userId : String) (ev : Event) :
    ReplayOutcome × RowTable :=
  let conversationId := ev.conversationId
  let seq := ev.operationSeq
  match ev.payload with
  | some (.recall id) =>
    if (t.get id).isNone then (.targetMissing, t)
    else (.done, (t.updateStatus id codes.statusRecalled).2)
  | some (.edit _ none) => (.notApplied, t)
  | some (.edit id (some newContent)) =>
    if (t.get id).any (fun stored => !inboundEditAllowed stored newContent) then (.done, t)
    else replayed (t.applyEditEvent now id newContent seq)
  | some (.reaction id reactor emoji action) =>
    replayed (t.applyReactionEvent now conversationId id reactor emoji action seq)
  | some (.delete id scope targetUserId) =>
    if evaluateDeleteVisibility userId (scope.getD 1) targetUserId then replayed (t.applyDeleteEvent id seq)
    else (.done, t)
  | some (.read readerId readSeq) =>
    (.done, if readReceiptApplies userId readerId readSeq then
      t.markOutgoingReadUptoSeq conversationId userId readSeq else t)
  | some (.retentionScheduled id (some policy) (some state) scheduledAt) =>
    replayed (t.applyRetentionScheduledEvent id policy state scheduledAt seq)
  | some (.retentionScheduled _ _ _ _) => (.notApplied, t)
  | some (.retentionExpired id (some state) expiredAt) =>
    replayed (t.applyRetentionExpiredEvent now id state expiredAt seq)
  | some (.retentionExpired _ none _) => (.notApplied, t)
  | some (.retentionPurged id (some state) purgedAt) =>
    replayed (t.applyRetentionPurgedEvent now id state purgedAt seq)
  | some (.retentionPurged _ none _) => (.notApplied, t)
  | some (.pin id scope pinnedBy) =>
    if !messagePinVisibleToUser scope pinnedBy userId then (.done, t)
    else replayed (t.applyPinEvent id true seq)
  | some (.unpin id scope unpinnedBy) =>
    if !messagePinVisibleToUser scope unpinnedBy userId then (.done, t)
    else replayed (t.applyPinEvent id false seq)
  | some (.mark id markType color) => replayed (t.applyMarkEvent id markType (markColor color) true seq)
  | some (.unmark id markType) => replayed (t.applyMarkEvent id markType none false seq)
  | some (.pluginState id pluginId state) =>
    match applyPluginSharedState t id pluginId state with
    | (.notFound, u) => (.targetMissing, u)
    | (_, u) => (.done, u)
  | some .conversationDelete => (.done, t.deleteConversation conversationId)
  | some .custom => (.done, t)
  | some (.conversation _ _ _) => (.done, t)
  | some (.message _) => (.done, t)
  | none => (.done, t)

/-! ### A small instance, for concrete runs -/

@[reducible] def sampleEventCodes : EventCodes where
  toRowCodes := sampleRowCodes
  isPluginCard _ := false
  pluginMessage _ := none

end FlareIm.Events
