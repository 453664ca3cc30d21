import FlareIm.Lib.Prog
import FlareIm.Store.PendingSend
import FlareIm.Store.Messages

/-! The state of the reliable send queue: the actor's own maps and counters, the channels
to its writer task and back, the stores it shares with the rest of the client, and what it
has published and answered. Four fields describe the environment: the clock reading, the
scripts of what store calls fail and of what other tasks do, and the iteration order of hash
maps. Two fields exist for proofs only and no handler reads them: `history` lists what was
done to the pending store and the writer, newest first, and `resumes` counts the redispatching
resumes. -/

namespace FlareIm.Outbox

open Lib Message Store

/-! ### The adaptive window -/

def adaptiveInitialMaxInFlight : ℕ := 4

def adaptiveMinInFlight : ℕ := 1

structure AdaptiveInFlightWindow where
  current : ℕ
  limit : ℕ
  consecutiveSuccesses : ℕ
  min_le_current : adaptiveMinInFlight ≤ current
  current_le_limit : current ≤ limit

namespace AdaptiveInFlightWindow

def new (limit : ℕ) : AdaptiveInFlightWindow where
  current := min (max limit adaptiveMinInFlight) adaptiveInitialMaxInFlight
  limit := max limit adaptiveMinInFlight
  consecutiveSuccesses := 0
  min_le_current := by unfold adaptiveMinInFlight adaptiveInitialMaxInFlight; omega
  current_le_limit := by omega

def noteSuccess (w : AdaptiveInFlightWindow) : AdaptiveInFlightWindow :=
  if w.current ≥ w.limit then { w with consecutiveSuccesses := 0 }
  else if w.consecutiveSuccesses + 1 < w.current then
    { w with consecutiveSuccesses := w.consecutiveSuccesses + 1 }
  else
    { current := min (w.current + 1) w.limit
      limit := w.limit
      consecutiveSuccesses := 0
      min_le_current := by
        have hmin := w.min_le_current
        have hle := w.current_le_limit
        omega
      current_le_limit := by omega }

def noteCongestion (w : AdaptiveInFlightWindow) : AdaptiveInFlightWindow where
  current := max (w.current / 2) adaptiveMinInFlight
  limit := w.limit
  consecutiveSuccesses := 0
  min_le_current := by omega
  current_le_limit := by
    have hmin := w.min_le_current
    have hle := w.current_le_limit
    omega

end AdaptiveInFlightWindow

/-! ### The stall probe gate -/

def sendStallProbeAfterMs : ℕ := 1500

def sendStallProbeMinIntervalMs : ℕ := 30000

def writerFullWarnIntervalMs : ℕ := 30000

structure SendStallProbeGate where
  sinceMs : ℕ := 0
  lastProbeMs : Option ℕ := none
  deriving DecidableEq, Repr

namespace SendStallProbeGate

def shouldProbe (g : SendStallProbeGate) (nowMs : ℕ) (sentAtMs : List ℕ) : Bool :=
  !(g.lastProbeMs.any (fun last => nowMs - last < sendStallProbeMinIntervalMs)) &&
    sentAtMs.any (fun sent => g.sinceMs ≤ sent && sendStallProbeAfterMs ≤ nowMs - sent)

/-- When a probe can next be due: the earliest attempt that still counts has waited long
enough, and so has the last probe. -/
def nextDueMs (g : SendStallProbeGate) (sentAtMs : List ℕ) : Option ℕ :=
  (sentAtMs.filter (g.sinceMs ≤ ·)).min?.map fun earliest =>
    let due := satAddU64 earliest sendStallProbeAfterMs
    match g.lastProbeMs with
    | some last => max due (satAddU64 last sendStallProbeMinIntervalMs)
    | none => due

def recordProbe (nowMs : ℕ) : SendStallProbeGate := ⟨nowMs, some nowMs⟩

def onNewConnection (nowMs : ℕ) : SendStallProbeGate := ⟨nowMs, none⟩

theorem shouldProbe_iff {g : SendStallProbeGate} {nowMs : ℕ} {sentAtMs : List ℕ} :
    g.shouldProbe nowMs sentAtMs = true ↔
      (∀ last ∈ g.lastProbeMs, last + sendStallProbeMinIntervalMs ≤ nowMs) ∧
      ∃ sent ∈ sentAtMs.filter (g.sinceMs ≤ ·), sent + sendStallProbeAfterMs ≤ nowMs := by
  have hsent : ∀ sent, sendStallProbeAfterMs ≤ nowMs - sent ↔ sent + sendStallProbeAfterMs ≤ nowMs := by
    unfold sendStallProbeAfterMs
    omega
  have hlast : ∀ last, sendStallProbeMinIntervalMs ≤ nowMs - last ↔ last + sendStallProbeMinIntervalMs ≤ nowMs := by
    unfold sendStallProbeMinIntervalMs
    omega
  cases hprobe : g.lastProbeMs <;> simp [shouldProbe, hprobe, hsent, hlast, and_assoc]

/-- Without saturation the reported time is the first at which the gate probes, and there
is one exactly when it ever can. -/
theorem nextDueMs_agrees (g : SendStallProbeGate) (sentAtMs : List ℕ)
    (hsent : ∀ sent ∈ sentAtMs, sent + sendStallProbeAfterMs ≤ maxU64)
    (hlast : ∀ last ∈ g.lastProbeMs, last + sendStallProbeMinIntervalMs ≤ maxU64) :
    ((g.nextDueMs sentAtMs).isSome ↔ ∃ nowMs ≤ maxU64, g.shouldProbe nowMs sentAtMs = true) ∧
      ∀ dueMs ∈ g.nextDueMs sentAtMs, ∀ nowMs, g.shouldProbe nowMs sentAtMs = true ↔ dueMs ≤ nowMs := by
  cases hmin : (sentAtMs.filter (g.sinceMs ≤ ·)).min? with
  | none => simp [shouldProbe_iff, nextDueMs, List.min?_eq_none_iff.mp hmin]
  | some earliest =>
    obtain ⟨hmem, hleast⟩ := List.min?_eq_some_iff.mp hmin
    have hfits := hsent earliest (List.mem_of_mem_filter hmem)
    have hfirst : ∀ nowMs, g.shouldProbe nowMs sentAtMs = true ↔
        (∀ last ∈ g.lastProbeMs, last + sendStallProbeMinIntervalMs ≤ nowMs) ∧
        earliest + sendStallProbeAfterMs ≤ nowMs :=
      fun nowMs => shouldProbe_iff.trans (and_congr_right' ⟨fun ⟨sent, hsent, hle⟩ =>
        (Nat.add_le_add_right (hleast sent hsent) _).trans hle, fun h => ⟨earliest, hmem, h⟩⟩)
    obtain ⟨dueMs, hdue, hle, hprobes⟩ : ∃ dueMs, g.nextDueMs sentAtMs = some dueMs ∧ dueMs ≤ maxU64 ∧
        ∀ nowMs, g.shouldProbe nowMs sentAtMs = true ↔ dueMs ≤ nowMs := by
      refine ⟨_, congrArg _ hmin, ?_⟩
      simp only [hfirst]
      cases hprobe : g.lastProbeMs with
      | none => simp [satAddU64, hfits]
      | some last => simp [satAddU64, hfits, hlast last hprobe, and_comm]
    rw [hdue]
    exact ⟨iff_of_true rfl ⟨dueMs, hle, (hprobes dueMs).mpr le_rfl⟩, fun d hd => Option.some.inj hd ▸ hprobes⟩

/-- A message sent at 2 s, after a probe at 1 s, is not probed for before 31 s. -/
theorem nextDueMs_agrees_after_probe :
    nextDueMs (recordProbe 1000) [500, 2000] = some 31000 ∧
      ∀ nowMs, (recordProbe 1000).shouldProbe nowMs [500, 2000] = true ↔ 31000 ≤ nowMs :=
  ⟨rfl, (nextDueMs_agrees (recordProbe 1000) [500, 2000] (by decide) (by decide)).2 31000 rfl⟩

end SendStallProbeGate

/-! ### Entries, jobs and commands -/

structure InFlightSend where
  entry : PendingSendVo
  deadlineMs : ℕ
  sentAtMs : ℕ
  sendFailed : Bool
  deriving DecidableEq, Repr

def InFlightSend.clientMsgId (x : InFlightSend) : String := x.entry.clientMsgId

structure AwaitingDurableAck where
  entry : PendingSendVo
  deadlineMs : ℕ
  deriving DecidableEq, Repr

def AwaitingDurableAck.clientMsgId (x : AwaitingDurableAck) : String := x.entry.clientMsgId

structure SendJob where
  entry : PendingSendVo
  retries : ℕ
  generation : ℕ
  /-- Proof only: how many redispatching resumes came before the attempt. -/
  resumes : ℕ
  deriving DecidableEq, Repr

inductive QueueCommand
  | enqueue (message : IMMessage)
  | ackReceived (ack : SendAck)
  /-- The result of an attempt; `resumes` is copied from the job for proofs only. -/
  | sendAttemptFinished (entry : PendingSendVo) (retries : ℕ) (result : Except FlareError Unit)
      (resumes : ℕ)
  | resetPendingOnLogin
  | pause
  | resume (resendInFlight : Bool)
  | expireStalePending (maxAgeMs : ℕ)
  | retryBackoffElapsed (clientMsgId : String) (retries : ℕ)

/-- Where the writer task stands in its loop. -/
inductive WriterState
  | idle
  | writing (job : SendJob)
  | reporting (job : SendJob) (result : Except FlareError Unit)

/-! ### Outputs -/

inductive SdkEvent
  | receivedBatch (messages : List IMMessage)
  | sendAck (ack : SendAck)
  | sendFailed (clientMsgId reason : String)
  deriving DecidableEq, Repr

inductive Answer
  | enqueue (result : Except FlareError Unit)
  | resetPendingOnLogin (result : Except FlareError (List String))
  | pause
  | resume (result : Except FlareError (List String))
  | expireStalePending (result : Except FlareError (List String))

/-- One call of `update_last_message`. -/
structure LastMessageUpdate where
  conversationId : String
  lastMessageId : String
  senderId : String
  timestamp : ℕ
  preview : Option String
  conversationSeq : ℕ
  deriving DecidableEq, Repr

/-- What the queue did to the pending store and the writer and which acknowledgements it got, for proofs only. -/
inductive Action
  | pushed (entry : PendingSendVo)
  | popped (clientMsgId : String)
  | handed (job : SendJob) (connectedUserId : String)
  | acked (ack : SendAck)

/-! ### The queue -/

structure QueueConfig where
  timeoutMs : ℕ
  maxRetries : ℕ
  maxInFlight : ℕ
  hasLinkProbe : Bool
  startPaused : Bool
  maxRetries_le : maxRetries ≤ maxU32
  maxInFlight_pos : 1 ≤ maxInFlight
  maxInFlight_le : maxInFlight ≤ 1024

/-- The iteration order of the hash maps. -/
structure HashOrder where
  order : List String → List String
  perm : ∀ ids, (order ids).Perm ids

def commandCapacity : ℕ := 256

/-- One step of one of the tasks around the queue. -/
inductive Event
  | send (command : QueueCommand)
  | recv
  | tick
  | probe
  | writerRecv
  | writerDone (result : Except FlareError Unit)
  | writerAbandon
  | writerReport
  | backoffTimer (index : ℕ)
  | setUser (userId : String)
  | setClock (nowMs : UInt64)
  /-- Rows written by other components: downlink persistence, sync, deletions. -/
  | downlink (messages : MessageTable)

structure QueueState where
  config : QueueConfig
  adaptiveWindow : AdaptiveInFlightWindow
  inFlight : KeyedMap String InFlightSend InFlightSend.clientMsgId
  awaitingDurable : KeyedMap String AwaitingDurableAck AwaitingDurableAck.clientMsgId
  /-- `client_msg_id -> retries`; an absent key counts as zero. -/
  retryCount : String → ℕ
  retryBackoff : KeyedMap String (String × ℕ) Prod.fst
  stallProbeGate : SendStallProbeGate
  pausedSinceMs : Option ℕ
  lastEnqueuedAtMs : ℕ
  writerFullWarnedAtMs : ℕ
  dispatchGeneration : ℕ
  writerJobs : List SendJob
  writer : WriterState
  commands : List QueueCommand
  backoffTimers : List (String × ℕ)
  pending : PendingEntries
  messages : MessageTable
  currentUserId : String
  bus : List SdkEvent
  answers : List Answer
  lastMessageUpdates : List LastMessageUpdate
  probeRequests : ℕ
  nowMs : ℕ
  faults : List (Option FlareError)
  hashOrder : HashOrder
  history : List Action
  resumes : ℕ
  /-- What the other tasks will do each time the actor waits in the handler at hand. -/
  others : List (List Event)
  lastEnqueuedAtMs_le : lastEnqueuedAtMs ≤ maxU64
  nowMs_le : nowMs ≤ maxU64

namespace QueueState

section

variable (s : QueueState)

def deadlineAfter : ℕ := satAddU64 s.nowMs s.config.timeoutMs

def isDeadlineElapsed (deadlineMs : ℕ) : Bool := deadlineMs ≤ s.nowMs

def isPaused : Bool := s.pausedSinceMs.isSome

def writerCapacity : ℕ := s.config.maxInFlight * 2 - s.writerJobs.length

/-- The keys of a hash map in its iteration order. -/
def iterate (ids : List String) : List String := s.hashOrder.order ids

end

variable (s : QueueState)

theorem mem_iterate (ids : List String) (k : String) : k ∈ s.iterate ids ↔ k ∈ ids :=
  (s.hashOrder.perm ids).mem_iff

theorem mem_iterate_keys {ν : Type} {key : ν → String} {m : KeyedMap String ν key} {k : String}
    (h : m.find? k ≠ none) : k ∈ s.iterate m.keys :=
  (s.mem_iterate _ k).mpr ((m.mem_keys_iff_find? k).mpr h)

theorem nodup_iterate {ids : List String} (h : ids.Nodup) : (s.iterate ids).Nodup :=
  (s.hashOrder.perm ids).nodup_iff.mpr h

end QueueState

end FlareIm.Outbox
