import FlareIm.Outbox.State

/-! The send queue seen as a protocol on single messages. A view forgets deadlines,
windows, channels and map layouts: it says for every `client_msg_id` whether it is
pending, in flight, waiting for the durable acknowledgement or backing off, how often it
was retried, and keeps the history. A move changes the standing of one message (or of all
of them, on resume and reset) and states the guard under which the queue makes it. Every
safety property of the queue is proved on moves; that the handlers only make moves is
proved in the refinement modules. -/

namespace FlareIm.Outbox

open Lib Message Store Relation List Function

/-! ### Attempts in a history -/

def Action.isPop (k : String) : Action → Bool
  | .popped id => id = k
  | _ => false

def Action.isHanding (k : String) : Action → Bool
  | .handed job _ => job.entry.clientMsgId = k
  | _ => false

/-- How often the message was handed to the writer since it last left the pending store. -/
def attempts (k : String) (history : List Action) : ℕ :=
  (history.takeWhile (fun a => !a.isPop k)).countP (Action.isHanding k)

variable {e : PendingSendVo} {k : String} {sc : Scope} {v w : View} {a : Action}

section Attempts

variable {h : List Action}

theorem attempts_cons_of_pop (ha : a.isPop k = true) : attempts k (a :: h) = 0 := by
  simp [attempts, ha]

theorem attempts_cons_of_not_pop (ha : a.isPop k = false) :
    attempts k (a :: h) = attempts k h + if a.isHanding k then 1 else 0 := by
  simp [attempts, ha, countP_cons]

theorem attempts_popped (j : String) (h : List Action) :
    attempts k (.popped j :: h) = if k = j then 0 else attempts k h := by
  split_ifs with hk
  · exact attempts_cons_of_pop (by simp [Action.isPop, hk])
  · exact attempts_cons_of_not_pop (by simpa [Action.isPop] using Ne.symm hk)

theorem attempts_map_popped (pops : List String) (h : List Action) :
    attempts k (pops.map .popped ++ h) = if k ∈ pops then 0 else attempts k h := by
  induction pops with
  | nil => rfl
  | cons j pops ih =>
    rw [map_cons, cons_append, attempts_popped, ih]
    by_cases hk : k = j <;> simp [hk]

theorem attempts_handed (job : SendJob) (user : String) (h : List Action) : attempts k (.handed job user :: h) =
      attempts k h + if job.entry.clientMsgId = k then 1 else 0 := by
  rw [attempts_cons_of_not_pop rfl]
  simp [Action.isHanding]

/-- At most one attempt of `e` was handed over. -/
theorem attempts_handed_jobs {jobs : List SendJob} (user : String)
    (hjobs : jobs = [] ∨ ∃ job : SendJob, jobs = [job] ∧ job.entry = e) :
    attempts k (jobs.map (.handed · user) ++ h) =
      attempts k h + if k = e.clientMsgId then jobs.length else 0 := by
  rcases hjobs with rfl | ⟨job, rfl, rfl⟩
  · simp
  · simp [attempts_handed, eq_comm]

end Attempts

/-! ### Views -/

structure View where
  pending : String → Option NumberedEntry
  inFlight : String → Option PendingSendVo
  awaiting : String → Option PendingSendVo
  backoff : String → Option ℕ
  retries : String → ℕ
  maxRetries : ℕ
  user : String
  nextSeq : ℕ
  lastEnqueued : ℕ
  history : List Action

def QueueState.view (s : QueueState) : View where
  pending := s.pending.byId.find?
  inFlight := s.inFlight.lookup InFlightSend.entry
  awaiting := s.awaitingDurable.lookup AwaitingDurableAck.entry
  backoff := s.retryBackoff.lookup Prod.snd
  retries := s.retryCount
  maxRetries := s.config.maxRetries
  user := s.currentUserId
  nextSeq := s.pending.nextSeq
  lastEnqueued := s.lastEnqueuedAtMs
  history := s.history

/-- The place a message is taken from. -/
inductive Source
  | inFlight
  | awaiting
  | queued
  deriving DecidableEq

namespace View

/-- `e` stands at the place `src`; a queued message is neither in flight nor awaited. -/
def Holds (v : View) (src : Source) (e : PendingSendVo) : Prop :=
  match src with
  | .inFlight => v.inFlight e.clientMsgId = some e
  | .awaiting => v.awaiting e.clientMsgId = some e
  | .queued => (∃ n, v.pending e.clientMsgId = some (n, e)) ∧ v.inFlight e.clientMsgId = none ∧
      v.awaiting e.clientMsgId = none

/-- Take the message `k` from its place. -/
def drop (v : View) (src : Source) (k : String) : View :=
  match src with
  | .inFlight => { v with inFlight := update v.inFlight k none }
  | .awaiting => { v with awaiting := update v.awaiting k none }
  | .queued => { v with backoff := update v.backoff k none }

/-- Remove the pending entry of `k` and its retry count. -/
def forget (v : View) (k : String) : View :=
  { v with
    pending := update v.pending k none
    retries := update v.retries k 0 }

def record (v : View) (acts : List Action) : View := { v with history := acts ++ v.history }

section Drop

variable (v : View) (src : Source) (k : String)

@[simp] theorem user_drop : (v.drop src k).user = v.user := by
  cases src <;> rfl

@[simp] theorem maxRetries_drop : (v.drop src k).maxRetries = v.maxRetries := by
  cases src <;> rfl

@[simp] theorem pending_drop : (v.drop src k).pending = v.pending := by
  cases src <;> rfl

@[simp] theorem nextSeq_drop : (v.drop src k).nextSeq = v.nextSeq := by
  cases src <;> rfl

@[simp] theorem lastEnqueued_drop : (v.drop src k).lastEnqueued = v.lastEnqueued := by
  cases src <;> rfl

@[simp] theorem history_drop : (v.drop src k).history = v.history := by
  cases src <;> rfl

end Drop

end View

/-! ### What one step of the queue may do -/

/-- The liberties of one step, fixed by the state it starts in. -/
structure Scope where
  /-- The timer of this entry may run out while its retry count and the number of its attempts
  are the given ones. -/
  timesOut : PendingSendVo → ℕ → ℕ → Prop
  /-- The writer can take an attempt when the step starts. -/
  writerOpen : Prop
  /-- The step may delete this pending entry although the message is still tracked. -/
  strands : String → Prop
  /-- The step handles a resume. -/
  resumes : Prop
  /-- The step handles a login reset. -/
  resets : Prop

/-! ### Moves -/

inductive Move (sc : Scope) (v : View) : View → Prop
  /-- A message is stored and appended to the pending store. -/
  | enqueue (e : PendingSendVo) (hclock : v.lastEnqueued ≤ e.enqueuedAtMs) :
      Move sc v { v with
        pending := update v.pending e.clientMsgId (some (v.nextSeq, e))
        nextSeq := v.nextSeq + 1
        lastEnqueued := e.enqueuedAtMs
        history := .pushed e :: v.history }
  /-- The enqueue clock moves forward. -/
  | clock (t : ℕ) (h : v.lastEnqueued ≤ t) : Move sc v { v with lastEnqueued := t }
  /-- An acknowledgement arrives. -/
  | hear (ack : SendAck) : Move sc v (v.record [.acked ack])
  /-- A message reaches its end: it leaves its place and the pending store. -/
  | settle (src : Source) (e : PendingSendVo) (h : v.Holds src e) :
      Move sc v (((v.drop src e.clientMsgId).forget e.clientMsgId).record [.popped e.clientMsgId])
  /-- The server took the message but has not persisted it. -/
  | accept (src : Source) (e : PendingSendVo) (ack : SendAck) (h : v.Holds src e)
      (hack : .acked ack ∈ v.history) (hid : ack.clientMsgId = e.clientMsgId) :
      Move sc v { v.drop src e.clientMsgId with
        awaiting := update (v.drop src e.clientMsgId).awaiting e.clientMsgId (some e) }
  /-- The server rejected the message for now. -/
  | retryLater (src : Source) (e : PendingSendVo) (ack : SendAck) (h : v.Holds src e)
      (hack : .acked ack ∈ v.history) (hid : ack.clientMsgId = e.clientMsgId)
      (hbudget : v.retries e.clientMsgId + 1 < v.maxRetries) :
      Move sc v { v.drop src e.clientMsgId with
        retries := update v.retries e.clientMsgId (v.retries e.clientMsgId + 1)
        backoff := update (v.drop src e.clientMsgId).backoff e.clientMsgId
          (some (v.retries e.clientMsgId + 1)) }
  /-- The oldest free entry is handed to the writer. -/
  | dispatch (n : ℕ) (job : SendJob) (hp : v.pending job.entry.clientMsgId = some (n, job.entry))
      (hfly : v.inFlight job.entry.clientMsgId = none)
      (hawait : v.awaiting job.entry.clientMsgId = none)
      (hback : v.backoff job.entry.clientMsgId = none)
      (hretries : job.retries = v.retries job.entry.clientMsgId)
      (hbudget : job.retries < v.maxRetries)
      (horder : ∀ k p, v.pending k = some p → p.before (n, job.entry) →
        v.inFlight k ≠ none ∨ v.awaiting k ≠ none ∨ v.backoff k ≠ none) :
      Move sc v { v with
        inFlight := update v.inFlight job.entry.clientMsgId (some job.entry)
        history := .handed job v.user :: v.history }
  /-- A timer ran out and the message is handed to the writer again, if that has room. -/
  | resend (src : Source) (e : PendingSendVo) (jobs : List SendJob) (hsrc : src ≠ .queued)
      (h : v.Holds src e)
      (htime : sc.timesOut e (v.retries e.clientMsgId) (attempts e.clientMsgId v.history))
      (hbudget : v.retries e.clientMsgId < v.maxRetries)
      (hjobs : jobs = [] ∨ (sc.writerOpen ∧ ∃ job : SendJob, jobs = [job] ∧ job.entry = e)) :
      Move sc v { v.drop src e.clientMsgId with
        retries := update v.retries e.clientMsgId (v.retries e.clientMsgId + 1)
        inFlight := update (v.drop src e.clientMsgId).inFlight e.clientMsgId (some e)
        history := jobs.map (fun job => .handed job v.user) ++ v.history }
  /-- An attempt did not leave the client; the message stays in flight. -/
  | attemptFailed (e : PendingSendVo) (h : v.Holds .inFlight e)
      (hbudget : v.retries e.clientMsgId + 1 < v.maxRetries) :
      Move sc v { v with
        retries := update v.retries e.clientMsgId (v.retries e.clientMsgId + 1) }
  | endBackoff (k : String) : Move sc v { v with backoff := update v.backoff k none }
  /-- An entry that waited too long fails wherever it stands. -/
  | expire (n : ℕ) (e : PendingSendVo) (h : v.pending e.clientMsgId = some (n, e)) :
      Move sc v ((({ v with
        inFlight := update v.inFlight e.clientMsgId none
        awaiting := update v.awaiting e.clientMsgId none
        backoff := update v.backoff e.clientMsgId none } : View).forget
          e.clientMsgId).record [.popped e.clientMsgId])
  /-- On resume, attempts of the old connection are forgotten. -/
  | release (inFlight' : String → Option PendingSendVo) (hres : sc.resumes)
      (h : ∀ k, inFlight' k = v.inFlight k ∨ inFlight' k = none) :
      Move sc v { v with inFlight := inFlight' }
  /-- On resume, the pending entries of another account are deleted. -/
  | heal (pops : List String) (hres : sc.resumes)
      (hpops : ∀ k ∈ pops, v.inFlight k ≠ none ∨ v.awaiting k ≠ none → sc.strands k) :
      Move sc v ({ v with
        pending := fun k => if k ∈ pops then none else v.pending k
        retries := fun k => if k ∈ pops then 0 else v.retries k
        backoff := fun k => if k ∈ pops then none else v.backoff k }.record (pops.map .popped))
  /-- A login reset empties the queue. -/
  | reset (retries' : String → ℕ) (pops : List String) (hres : sc.resets)
      (hpops : ∀ k, v.pending k ≠ none → k ∈ pops) :
      Move sc v ({ v with
        pending := fun _ => none
        inFlight := fun _ => none
        awaiting := fun _ => none
        backoff := fun _ => none
        retries := retries' }.record (pops.map .popped))

theorem Move.user_eq (h : Move sc v w) : w.user = v.user := by
  cases h <;> simp [View.forget, View.record]

theorem Move.maxRetries_eq (h : Move sc v w) : w.maxRetries = v.maxRetries := by
  cases h <;> simp [View.forget, View.record]

/-- What a step of the queue does to the view. -/
abbrev Moves (sc : Scope) : View → View → Prop := ReflTransGen (Move sc)

namespace Moves

/-- What every move keeps, every step of the queue keeps. -/
theorem invariant {I : View → Prop} (hmove : ∀ v w, Move sc v w → I v → I w) (h : Moves sc v w) (hv : I v) :
    I w := by
  induction h with
  | refl => exact hv
  | tail _ hm ih => exact hmove _ _ hm ih

theorem of_eq (h : v = w) : Moves sc v w := h ▸ ReflTransGen.refl

end Moves

end FlareIm.Outbox
