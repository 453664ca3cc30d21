import FlareIm.Lib.Run
import FlareIm.Outbox.Handlers

/-! The send queue as a system of tasks. An event is one step of one task: a client puts
a command into the actor's channel, the actor handles the next command or a timer, the
writer takes, finishes, abandons or reports a job, a backoff timer fires; or the
environment changes the connected user, the clock or the message rows. An event that is
not possible in a state leaves it unchanged, so a list of events is one interleaving of
all tasks. A step of the actor runs a handler to its end. `Tasks` says what the others do
where it waits for a store; if it is `alone`, they wait until the handler has returned. -/

namespace FlareIm.Outbox

open Lib Message Store KeyedMap

variable [codes : ProtoCodes] [tasks : Tasks]

/-- The commands that come from outside the queue's own tasks. -/
def QueueCommand.isExternal : QueueCommand → Bool
  | .sendAttemptFinished .. => false
  | .retryBackoffElapsed .. => false
  | _ => true

variable (s : QueueState)

def pushCommand (c : QueueCommand) : QueueState :=
  { s with commands := s.commands ++ [c] }

def hasCommandCapacity : Bool := s.commands.length < commandCapacity

/-- Take the next job; one of an older generation is dropped. -/
def writerRecv : QueueState :=
  match s.writer, s.writerJobs with
  | .idle, job :: rest =>
    { s with
      writerJobs := rest
      writer := if job.generation = s.dispatchGeneration then .writing job else .idle }
  | _, _ => s

/-- The frame went out or failed; the race against a changed generation went to the send. -/
def writerDone (result : Except FlareError Unit) (s : QueueState) : QueueState :=
  match s.writer with
  | .writing job => { s with writer := .reporting job result }
  | _ => s

/-- The race against the send went to the changed generation: the attempt is dropped. -/
def writerAbandon : QueueState :=
  match s.writer with
  | .writing job => if job.generation ≠ s.dispatchGeneration then { s with writer := .idle } else s
  | _ => s

def writerReport : QueueState :=
  match s.writer with
  | .reporting job result =>
    if hasCommandCapacity s then
      pushCommand { s with writer := .idle } (.sendAttemptFinished job.entry job.retries result job.resumes)
    else s
  | _ => s

def backoffTimer (index : ℕ) (s : QueueState) : QueueState :=
  match s.backoffTimers[index]? with
  | some (clientMsgId, retries) =>
    if hasCommandCapacity s then
      pushCommand { s with backoffTimers := s.backoffTimers.eraseIdx index }
      (.retryBackoffElapsed clientMsgId retries)
    else s
  | none => s

def recvCommand : QueueState :=
  match s.commands with
  | [] => s
  | c :: rest => ((handleCommand c).run { s with commands := rest }).2

def timerTick : QueueState := probeLinkIfSendStalled (checkTimeout.run s).2

def step : Event → QueueState
  | .send c => if c.isExternal && hasCommandCapacity s then pushCommand s c else s
  | .recv => recvCommand s
  | .tick => timerTick s
  | .probe => probeLinkIfSendStalled s
  | .writerRecv => writerRecv s
  | .writerDone result => writerDone result s
  | .writerAbandon => writerAbandon s
  | .writerReport => writerReport s
  | .backoffTimer index => backoffTimer index s
  | .setUser userId => { s with currentUserId := userId }
  | .setClock nowMs => { s with nowMs := nowMs.toNat, nowMs_le := uint64_le_maxU64 nowMs }
  | .downlink messages => { s with messages := messages }

/-- The queue without its channels and the gate of the link probe. -/
def QueueState.core : QueueState :=
  { s with
    commands := [], writerJobs := [], writer := .idle, backoffTimers := [], stallProbeGate := {},
      probeRequests := 0 }

/-- The steps of the clients, the writer, the backoff timers and the link probe. -/
def Event.isBeside : Event → Bool
  | .recv | .tick | .setUser _ | .setClock _ | .downlink _ => false
  | _ => true

omit codes tasks in
theorem core_probeLinkIfSendStalled : (probeLinkIfSendStalled s).core = s.core := by
  unfold probeLinkIfSendStalled
  dsimp only
  split <;> rfl

theorem core_step {ev : Event} (h : ev.isBeside = true) : (step s ev).core = s.core := by
  cases ev with
  | recv | tick | setUser | setClock | downlink => cases h
  | send c => unfold step; dsimp only; split <;> rfl
  | probe => exact core_probeLinkIfSendStalled s
  | writerRecv => unfold step writerRecv; dsimp only; split <;> rfl
  | writerDone => unfold step writerDone; dsimp only; split <;> rfl
  | writerAbandon => unfold step writerAbandon; dsimp only; split <;> [split <;> rfl; rfl]
  | writerReport => unfold step writerReport; dsimp only; split <;> [split <;> rfl; rfl]
  | backoffTimer => unfold step backoffTimer; dsimp only; split <;> [split <;> rfl; rfl]

def seedEnqueueClock : OutboxM Unit := do
  match ← Prog.attempt pendingList with
  | .ok entries => Prog.modify (notePersistedEnqueueTimes entries)
  | .error _ => return ()

/-- What a queue finds when it starts: its configuration, the persisted stores, the connected
user, the clock, the failures to come and the order of its hash maps. -/
structure Surroundings where
  config : QueueConfig
  pending : PendingEntries
  messages : MessageTable
  currentUserId : String
  nowMs : UInt64
  faults : List (Option FlareError) := []
  hashOrder : HashOrder

/-- The history of a new queue: the stored entries count as enqueued in their order. -/
def persistedHistory (p : PendingEntries) : List Action := p.list.reverse.map .pushed

def newQueue (w : Surroundings) : QueueState where
  config := w.config
  adaptiveWindow := .new w.config.maxInFlight
  inFlight := empty
  awaitingDurable := empty
  retryCount := fun _ => 0
  retryBackoff := empty
  stallProbeGate := {}
  pausedSinceMs := if w.config.startPaused then some w.nowMs.toNat else none
  lastEnqueuedAtMs := 0
  writerFullWarnedAtMs := 0
  dispatchGeneration := 0
  writerJobs := []
  writer := .idle
  commands := []
  backoffTimers := []
  pending := w.pending
  messages := w.messages
  currentUserId := w.currentUserId
  bus := []
  answers := []
  lastMessageUpdates := []
  probeRequests := 0
  nowMs := w.nowMs.toNat
  faults := w.faults
  hashOrder := w.hashOrder
  history := persistedHistory w.pending
  resumes := 0
  others := []
  lastEnqueuedAtMs_le := Nat.zero_le _
  nowMs_le := uint64_le_maxU64 w.nowMs

/-- A started queue, with its enqueue clock seeded from the persisted entries. -/
def spawn (w : Surroundings) : QueueState := (seedEnqueueClock.run (newQueue w)).2

/-! ### A small instance, for concrete runs -/

@[reducible] def sampleCodes : ProtoCodes where
  statusCreated := 1
  statusSent := 2
  statusFailed := 5
  created_lt_sent := by decide
  failed_ne_sent := by decide
  errorUnavailable := 13
  errorTimeout := 14
  errorRateLimited := 15
  errorSlowDown := 16
  errorNeedsRetry := 17

def sampleConfig : QueueConfig where
  timeoutMs := 10000
  maxRetries := 3
  maxInFlight := 4
  hasLinkProbe := false
  startPaused := false
  maxRetries_le := by decide
  maxInFlight_pos := by decide
  maxInFlight_le := by decide

/-- Nothing is stored, the user `u1` is connected and no store call will fail. -/
def sampleSurroundings : Surroundings where
  config := sampleConfig
  pending := .empty
  messages := ⟨empty, fun _ => 0⟩
  currentUserId := "u1"
  nowMs := 1000
  hashOrder := ⟨id, fun _ => .refl _⟩

def sampleMessage (clientMsgId : String) : IMMessage :=
  { clientMsgId := clientMsgId, conversationId := "conv", senderId := "u1", status := 1 }

/-- The server took the message but has not persisted it. -/
def sampleAccept (clientMsgId : String) : SendAck :=
  { clientMsgId := clientMsgId, result := some (.accepted ⟨"s1", 1, 0, .walAccepted⟩) }

/-- What the queue stores for the message when it is enqueued at the start. -/
def sampleEntry : PendingSendVo := ⟨"c1", "conv", sampleMessage "c1", 1000, rfl, by decide⟩

/-- The clock shows `now` at the next tick of the timers. -/
def tickAt (now : UInt64) : List Event := [.setClock now, .tick]

/-- A message is enqueued and dispatched; then its timers run out at the given times. -/
def expiringRun (times : List UInt64) : List Event :=
  [.send (.enqueue (sampleMessage "c1")), .recv] ++ times.flatMap tickAt

end FlareIm.Outbox
