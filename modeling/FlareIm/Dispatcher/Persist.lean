import FlareIm.Dispatcher.SeqRepair

/-! Persistence of received messages. A push is handed to a queue together with the user it came
for; one worker merges jobs of the same user and stores them, and some paths store a batch in
place. Once a batch is stored, the cursors of its conversations are moved, and that step asks
again who is signed in. So a cursor belongs to the user of the batch only if no other user has
signed in between the receipt and the cursor step. -/

namespace FlareIm.Dispatcher

open Lib Message List

/-! ### One batch -/

/-- Messages, and the user that was signed in when they were received. -/
structure PersistJob where
  messages : List IMMessage
  userId : String

def byConversation (messages : List IMMessage) : List (String × List ℕ) :=
  let numbered := messages.filter fun m => !isBlank m.conversationId && m.conversationSeq ≠ 0
  (numbered.map (·.conversationId)).dedup.map fun conversationId =>
    (conversationId, sortedSeqs ((numbered.filter (·.conversationId = conversationId)).map (·.conversationSeq)))

inductive PersistPhase
  | storing
  /-- Looking at the conversations that are left, for the user who was signed in. -/
  | scanning (userId : String) (todo : List (String × List ℕ))
  /-- About to save the cursor of a conversation. -/
  | saving (userId : String) (window : PersistedWindow) (todo : List (String × List ℕ))

structure PersistTask where
  job : PersistJob
  phase : PersistPhase

open PersistTask

/-- A cursor row that was moved, and the user that the batch was received for. -/
structure CursorAdvance where
  userId : String
  conversationId : String
  fromSeq : ℕ
  toSeq : ℕ
  receivedFor : String
  deriving DecidableEq, Repr

/-- What the tasks of an engine share. -/
structure PersistStores where
  currentUserId : String
  cursors : String → String → Option ℕ
  repairs : SeqRepair
  advances : List CursorAdvance := []

inductive TaskEvent
  /-- The batch is stored and projected, or one of the two failed. -/
  | stored (ok : Bool)
  /-- The cursor and the local seqs have been read, unless the cursor could not be. -/
  | scan (cursorRead : Bool) (localTailSeqs appliedEventSeqs : List ℕ) (now : ℕ)
  | save (ok : Bool)

namespace PersistTask

/-- The task with the conversations that are left, if there are any. -/
def scanning (task : PersistTask) (userId : String) : List (String × List ℕ) → Option PersistTask
  | [] => none
  | next :: todo => some { task with phase := .scanning userId (next :: todo) }

/-- `save_conversation_cursor` keeps the larger seq. -/
def saveCursor (st : PersistStores) (userId : String) (w : PersistedWindow) (receivedFor : String) :
    PersistStores :=
  let existing := (st.cursors userId w.conversationId).getD 0
  let lastSeq := max existing w.contiguousSeq
  { st with
    cursors := Function.update st.cursors userId
      (Function.update (st.cursors userId) w.conversationId (some lastSeq))
    advances := if existing < lastSeq then
        ⟨userId, w.conversationId, existing, lastSeq, receivedFor⟩ :: st.advances
      else st.advances }

/-- `persist_durable_batch`, one await after the other; the task is gone when it is done. -/
def step (st : PersistStores) (task : PersistTask) : TaskEvent → PersistStores × Option PersistTask
  | .stored ok => match task.phase with
    | .storing =>
      if !ok || isBlank st.currentUserId then (st, none)
      else (st, task.scanning st.currentUserId (byConversation task.job.messages))
    | _ => (st, some task)
  | .scan cursorRead localTailSeqs appliedEventSeqs now => match task.phase with
    | .scanning userId ((conversationId, seqs) :: todo) =>
      if !cursorRead then (st, task.scanning userId todo)
      else
        let w : PersistedWindow := ⟨conversationId, (st.cursors userId conversationId).getD 0, localTailSeqs,
          seqs, appliedEventSeqs, now⟩
        if w.cursorSeq < w.contiguousSeq then (st, some { task with phase := .saving userId w todo })
        else ({ st with repairs := st.repairs.afterPersist w }, task.scanning userId todo)
    | _ => (st, some task)
  | .save ok => match task.phase with
    | .saving userId w todo =>
      let saved := if ok then saveCursor st userId w task.job.userId else st
      ({ saved with repairs := saved.repairs.afterPersist w }, task.scanning userId todo)
    | _ => (st, some task)

end PersistTask

/-! ### The queue and its worker -/

def persistQueueCap : ℕ := 256

def persistWorkerBatchMaxMessages : ℕ := 128

inductive PersistWorker
  | waiting
  | collecting (job : PersistJob)
  /-- Storing a batch; then the job of another user that ended it is next. -/
  | persisting (task : PersistTask) (next : Option PersistJob)

def PersistWorker.task? : PersistWorker → Option PersistTask
  | .persisting task _ => some task
  | _ => none

structure PersistSystem where
  stores : PersistStores
  queue : List PersistJob := []
  worker : PersistWorker := .waiting
  /-- Batches that are stored in place. -/
  inPlace : List PersistTask := []

namespace PersistSystem

inductive Event
  | receive (messages : List IMMessage) (throughWorker : Bool)
  | switchUser (userId : String)
  | workerRecv
  | workerTryRecv
  | workerTask (e : TaskEvent)
  | inPlaceTask (i : ℕ) (e : TaskEvent)

section

variable (s : PersistSystem)

def receive (messages : List IMMessage) (throughWorker : Bool) : PersistSystem :=
  let job : PersistJob := ⟨messages, s.stores.currentUserId⟩
  if !throughWorker then { s with inPlace := s.inPlace ++ [⟨job, .storing⟩] }
  -- A full queue holds the sender back.
  else if persistQueueCap ≤ s.queue.length then s
  else { s with queue := s.queue ++ [job] }

def workerRecv : PersistSystem :=
  match s.worker, s.queue with
  | .waiting, job :: queue => { s with worker := .collecting job, queue := queue }
  | _, _ => s

/-- The inner loop of the worker: jobs of the same user join the batch. -/
def workerTryRecv : PersistSystem :=
  match s.worker with
  | .collecting job =>
    if persistWorkerBatchMaxMessages ≤ job.messages.length then
      { s with worker := .persisting ⟨job, .storing⟩ none }
    else match s.queue with
      | [] => { s with worker := .persisting ⟨job, .storing⟩ none }
      | next :: queue =>
        if next.userId = job.userId then
          { s with worker := .collecting { job with messages := job.messages ++ next.messages }, queue := queue }
        else { s with worker := .persisting ⟨job, .storing⟩ (some next), queue := queue }
  | _ => s

def workerTask (e : TaskEvent) : PersistSystem :=
  match s.worker with
  | .persisting task next =>
    let (stores, rest) := task.step s.stores e
    { s with
      stores := stores
      worker := match rest, next with
        | some task, next => .persisting task next
        | none, some job => .collecting job
        | none, none => .waiting }
  | _ => s

def inPlaceTask (i : ℕ) (e : TaskEvent) : PersistSystem :=
  match s.inPlace[i]? with
  | none => s
  | some task =>
    let (stores, rest) := task.step s.stores e
    { s with
      stores := stores
      inPlace := match rest with
        | some task => s.inPlace.set i task
        | none => s.inPlace.eraseIdx i }

def step : Event → PersistSystem
  | .receive messages throughWorker => s.receive messages throughWorker
  | .switchUser userId => { s with stores := { s.stores with currentUserId := userId } }
  | .workerRecv => s.workerRecv
  | .workerTryRecv => s.workerTryRecv
  | .workerTask e => s.workerTask e
  | .inPlaceTask i e => s.inPlaceTask i e

end

def start (currentUserId : String) (cursors : String → String → Option ℕ) (hasSync : Bool) : PersistSystem where
  stores := { currentUserId := currentUserId, cursors := cursors, repairs := .start hasSync }

end PersistSystem

/-! ### Whose cursors are moved -/

def PersistTask.isUndecided (task : PersistTask) : Bool :=
  match task.phase with
  | .storing => true
  | _ => false

/-- A task that has looked who is signed in found the user of its job. -/
def PersistTask.Owned (task : PersistTask) : Prop :=
  match task.phase with
  | .storing => True
  | .scanning userId _ => userId = task.job.userId
  | .saving userId _ _ => userId = task.job.userId

/-- The user that the task will find signed in is the one of its job, or nobody. -/
def PersistTask.FindsOwner (st : PersistStores) (task : PersistTask) : TaskEvent → Prop
  | .stored _ => task.isUndecided = true →
      isBlank st.currentUserId = true ∨ st.currentUserId = task.job.userId
  | _ => True

def OwnAdvances (st : PersistStores) : Prop := ∀ a ∈ st.advances, a.userId = a.receivedFor

variable {st : PersistStores} {task : PersistTask} {e : TaskEvent} {rest : PersistTask} {userId : String}

namespace PersistTask

theorem owned_scanning (h : userId = task.job.userId) (todo : List (String × List ℕ)) :
    ∀ rest ∈ task.scanning userId todo, rest.Owned := by
  cases todo with
  | nil => exact fun _ hrest => absurd hrest (by simp [scanning])
  | cons next todo =>
    rintro rest hrest
    cases hrest
    exact h

theorem ownAdvances_saveCursor (h : OwnAdvances st) (hown : userId = task.job.userId)
    (w : PersistedWindow) : OwnAdvances (saveCursor st userId w task.job.userId) := by
  unfold OwnAdvances saveCursor
  dsimp only
  split
  · exact forall_mem_cons.mpr ⟨hown, h⟩
  · exact h

theorem step_owned (h : OwnAdvances st) (hown : task.Owned) (e : TaskEvent) (hfinds : task.FindsOwner st e) :
    OwnAdvances (task.step st e).1 ∧ ∀ rest ∈ (task.step st e).2, rest.Owned := by
  have hkeep : OwnAdvances st ∧ ∀ rest ∈ some task, rest.Owned :=
    ⟨h, fun rest hrest => Option.some.inj hrest ▸ hown⟩
  obtain ⟨job, phase⟩ := task
  cases e with
  | stored ok =>
    cases phase with
    | scanning | saving => exact hkeep
    | storing =>
      simp only [step]
      split
      · exact ⟨h, by simp⟩
      · next hgoes =>
        have hsigned : ¬ isBlank st.currentUserId = true := fun hblank => hgoes (by simp [hblank])
        exact ⟨h, owned_scanning ((hfinds rfl).resolve_left hsigned) _⟩
  | scan cursorRead localTailSeqs appliedEventSeqs now =>
    cases phase with
    | storing | saving => exact hkeep
    | scanning userId todo =>
      cases todo with
      | nil => exact hkeep
      | cons next todo =>
        simp only [step]
        split
        · exact ⟨h, owned_scanning hown _⟩
        · split
          · exact ⟨h, fun rest hrest => Option.some.inj hrest ▸ hown⟩
          · exact ⟨h, owned_scanning hown _⟩
  | save ok =>
    cases phase with
    | storing | scanning => exact hkeep
    | saving userId w todo =>
      refine ⟨?_, owned_scanning hown _⟩
      cases ok with
      | true => exact ownAdvances_saveCursor h hown w
      | false => exact h

end PersistTask

namespace PersistSystem

structure Owned (s : PersistSystem) : Prop where
  advances : OwnAdvances s.stores
  worker : ∀ task ∈ s.worker.task?, task.Owned
  inPlace : ∀ task ∈ s.inPlace, task.Owned

/-- A batch that has been stored finds the user it was received for, or nobody. -/
def FindsOwner (s : PersistSystem) : Event → Prop
  | .workerTask e => ∀ task ∈ s.worker.task?, task.FindsOwner s.stores e
  | .inPlaceTask i e => ∀ task ∈ s.inPlace[i]?, task.FindsOwner s.stores e
  | _ => True

variable {s : PersistSystem}

theorem owned_receive (h : s.Owned) (messages : List IMMessage) (throughWorker : Bool) :
    (s.receive messages throughWorker).Owned := by
  unfold receive
  split
  · refine ⟨h.advances, h.worker, fun task htask => ?_⟩
    rcases mem_append.mp htask with htask | htask
    · exact h.inPlace task htask
    · cases mem_singleton.mp htask
      trivial
  · split
    · exact h
    · exact ⟨h.advances, h.worker, h.inPlace⟩

theorem owned_storing (job : PersistJob) : ∀ task ∈ some (PersistTask.mk job .storing), task.Owned := by
  rintro task htask
  cases htask
  trivial

theorem owned_workerRecv (h : s.Owned) : s.workerRecv.Owned := by
  unfold workerRecv
  split
  · exact ⟨h.advances, nofun, h.inPlace⟩
  · exact h

theorem owned_workerTryRecv (h : s.Owned) : s.workerTryRecv.Owned := by
  unfold workerTryRecv
  split
  · split
    · exact ⟨h.advances, owned_storing _, h.inPlace⟩
    · split
      · exact ⟨h.advances, owned_storing _, h.inPlace⟩
      · split
        · exact ⟨h.advances, nofun, h.inPlace⟩
        · exact ⟨h.advances, owned_storing _, h.inPlace⟩
  · exact h

theorem owned_workerTask (h : s.Owned) (hfinds : s.FindsOwner (.workerTask e)) :
    (s.workerTask e).Owned := by
  unfold workerTask
  have hworker := h.worker
  simp only [FindsOwner] at hfinds
  split
  · next task next hw =>
    rw [hw] at hfinds hworker
    obtain ⟨hadvances, hrest⟩ := step_owned h.advances (hworker task rfl) e (hfinds task rfl)
    refine ⟨hadvances, ?_, h.inPlace⟩
    dsimp only
    split
    · next hsome =>
      rintro task htask
      cases htask
      exact hrest _ hsome
    · exact nofun
    · exact nofun
  · exact h

theorem owned_inPlaceTask (h : s.Owned) {i : ℕ}
    (hfinds : s.FindsOwner (.inPlaceTask i e)) : (s.inPlaceTask i e).Owned := by
  unfold inPlaceTask
  split
  · exact h
  · next task htask =>
    obtain ⟨hadvances, hrest⟩ := step_owned h.advances
      (h.inPlace task (mem_of_getElem? htask)) e (hfinds task htask)
    refine ⟨hadvances, h.worker, fun other hother => ?_⟩
    dsimp only at hother
    split at hother
    · next rest hsome =>
      rcases mem_or_eq_of_mem_set hother with hmem | rfl
      · exact h.inPlace other hmem
      · exact hrest _ hsome
    · exact h.inPlace other (mem_of_mem_eraseIdx hother)

theorem owned_step (s : PersistSystem) (e : Event) (h : s.Owned) (hfinds : s.FindsOwner e) : (s.step e).Owned := by
  cases e with
  | receive messages throughWorker => exact owned_receive h messages throughWorker
  | switchUser userId => exact ⟨h.advances, h.worker, h.inPlace⟩
  | workerRecv => exact owned_workerRecv h
  | workerTryRecv => exact owned_workerTryRecv h
  | workerTask e => exact owned_workerTask h hfinds
  | inPlaceTask i e => exact owned_inPlaceTask h hfinds

/-! ### Account switches -/

def workerUsers : PersistWorker → List String
  | .waiting => []
  | .collecting job => [job.userId]
  | .persisting task next =>
    (if task.isUndecided then [task.job.userId] else []) ++ next.toList.map (·.userId)

/-- The users of the batches whose cursor step has not looked yet who is signed in. -/
def undecidedUsers (s : PersistSystem) : List String :=
  s.queue.map (·.userId) ++ workerUsers s.worker ++ (s.inPlace.filter (·.isUndecided)).map (·.job.userId)

/-- Somebody signs in only when no batch of another user is on its way. -/
def QuietSwitch (s : PersistSystem) : Event → Prop
  | .switchUser userId => isBlank userId = true ∨ ∀ other ∈ s.undecidedUsers, other = userId
  | _ => True

/-- Every batch on its way was received for the user who is signed in. -/
def OfCurrentUser (s : PersistSystem) : Prop :=
  isBlank s.stores.currentUserId = true ∨ ∀ userId ∈ s.undecidedUsers, userId = s.stores.currentUserId

theorem currentUserId_taskStep (st : PersistStores) (task : PersistTask) (e : TaskEvent) :
    (task.step st e).1.currentUserId = st.currentUserId := by
  unfold PersistTask.step
  split
  · split
    · split <;> rfl
    · rfl
  · split
    · split
      · rfl
      · dsimp only
        split <;> rfl
    · rfl
  · split
    · dsimp only
      split <;> rfl
    · rfl

theorem not_undecided_scanning {todo : List (String × List ℕ)}
    (h : rest ∈ task.scanning userId todo) : rest.isUndecided = false := by
  cases todo with
  | nil => exact absurd h (by simp [scanning])
  | cons next todo =>
    cases h
    rfl

theorem undecided_taskStep
    (h : rest ∈ (task.step st e).2) (hrest : rest.isUndecided = true) : rest = task := by
  unfold PersistTask.step at h
  have hkeep : rest ∈ some task → rest = task := fun hmem => (Option.some.inj hmem).symm
  have hscan : ∀ userId todo, rest ∈ task.scanning userId todo → rest = task := fun userId todo hmem =>
    absurd (not_undecided_scanning hmem) (by simp [hrest])
  split at h
  · split at h
    · split at h
      · exact absurd h (by simp)
      · exact hscan _ _ h
    · exact hkeep h
  · split at h
    · split at h
      · exact hscan _ _ h
      · dsimp only at h
        split at h
        · cases h
          exact absurd hrest (by simp [isUndecided])
        · exact hscan _ _ h
    · exact hkeep h
  · split at h
    · exact hscan _ _ h
    · exact hkeep h

theorem OfCurrentUser.mono {t : PersistSystem} (h : s.OfCurrentUser)
    (hcurrent : t.stores.currentUserId = s.stores.currentUserId)
    (husers : ∀ userId ∈ t.undecidedUsers, userId ∈ s.undecidedUsers ∨ userId = s.stores.currentUserId) :
    t.OfCurrentUser := by
  rw [OfCurrentUser, hcurrent]
  refine h.imp_right fun hall userId huser => ?_
  rcases husers userId huser with hold | hown
  · exact hall userId hold
  · exact hown

section

variable (h : s.OfCurrentUser)

include h

theorem ofCurrentUser_receive (messages : List IMMessage) (throughWorker : Bool) :
    (s.receive messages throughWorker).OfCurrentUser := by
  unfold receive
  split
  · refine h.mono rfl fun userId huser => ?_
    simp only [undecidedUsers, filter_append, map_append, mem_append] at huser ⊢
    rcases huser with huser | huser | huser
    · exact .inl (.inl huser)
    · exact .inl (.inr huser)
    · exact .inr (by simpa [isUndecided] using huser)
  · split
    · exact h
    · refine h.mono rfl fun userId huser => ?_
      simp only [undecidedUsers, map_append, map_cons, map_nil, mem_append,
        mem_singleton] at huser ⊢
      tauto

theorem ofCurrentUser_workerRecv : s.workerRecv.OfCurrentUser := by
  unfold workerRecv
  split
  · next job queue hworker hqueue =>
    refine h.mono rfl fun userId huser => .inl ?_
    simp only [undecidedUsers, hworker, hqueue, workerUsers, map_cons, mem_append, mem_cons,
      not_mem_nil, or_false] at huser ⊢
    tauto
  · exact h

theorem ofCurrentUser_workerTryRecv : s.workerTryRecv.OfCurrentUser := by
  unfold workerTryRecv
  split
  · next job hworker =>
    split
    · exact h.mono rfl fun userId huser => .inl (by rw [undecidedUsers, hworker]; exact huser)
    · split
      · exact h.mono rfl fun userId huser => .inl (by rw [undecidedUsers, hworker]; exact huser)
      · next next queue hqueue =>
        split
        · refine h.mono rfl fun userId huser => .inl ?_
          simp only [undecidedUsers, hworker, hqueue, workerUsers, map_cons, mem_append,
            mem_cons] at huser ⊢
          tauto
        · refine h.mono rfl fun userId huser => .inl ?_
          simp only [undecidedUsers, hworker, hqueue, workerUsers, isUndecided, if_true,
            Option.toList_some, map_cons, map_nil, mem_append, mem_cons,
            not_mem_nil, or_false] at huser ⊢
          tauto
  · exact h

theorem ofCurrentUser_workerTask (e : TaskEvent) : (s.workerTask e).OfCurrentUser := by
  unfold workerTask
  split
  · next task next hworker =>
    refine h.mono (currentUserId_taskStep s.stores task e) fun userId huser => .inl ?_
    simp only [undecidedUsers, hworker, mem_append] at huser ⊢
    refine huser.imp_left (Or.imp_right fun hmem => ?_)
    split at hmem
    · next rest next hrest =>
      rcases mem_append.mp hmem with hmem | hmem
      · split at hmem
        · next hundecided =>
          obtain rfl := undecided_taskStep hrest hundecided
          exact mem_append_left _ (by rw [if_pos hundecided]; exact hmem)
        · exact absurd hmem not_mem_nil
      · exact mem_append_right _ hmem
    · exact mem_append_right _ hmem
    · exact absurd hmem not_mem_nil
  · exact h

theorem ofCurrentUser_inPlaceTask (i : ℕ) (e : TaskEvent) : (s.inPlaceTask i e).OfCurrentUser := by
  unfold inPlaceTask
  split
  · exact h
  · next task htask =>
    refine h.mono (currentUserId_taskStep s.stores task e) fun userId huser => .inl ?_
    simp only [undecidedUsers, mem_append, mem_map, mem_filter] at huser ⊢
    refine huser.imp_right fun ⟨other, ⟨hother, hundecided⟩, hid⟩ => ⟨other, ⟨?_, hundecided⟩, hid⟩
    split at hother
    · next rest hrest =>
      rcases mem_or_eq_of_mem_set hother with hmem | rfl
      · exact hmem
      · rw [undecided_taskStep hrest hundecided]
        exact mem_of_getElem? htask
    · exact mem_of_mem_eraseIdx hother

end

theorem ofCurrentUser_step (s : PersistSystem) (e : Event) (h : s.OfCurrentUser) (hquiet : s.QuietSwitch e) :
    (s.step e).OfCurrentUser := by
  cases e with
  | receive messages throughWorker => exact ofCurrentUser_receive h messages throughWorker
  | switchUser userId => exact hquiet
  | workerRecv => exact ofCurrentUser_workerRecv h
  | workerTryRecv => exact ofCurrentUser_workerTryRecv h
  | workerTask e => exact ofCurrentUser_workerTask h e
  | inPlaceTask i e => exact ofCurrentUser_inPlaceTask h i e

theorem findsOwner_of_ofCurrentUser (s : PersistSystem) (e : Event) (h : s.OfCurrentUser) : s.FindsOwner e := by
  -- An undecided task is among those that `OfCurrentUser` speaks of.
  have hfinds : ∀ (task : PersistTask) (e : TaskEvent),
      (task.isUndecided = true → task.job.userId ∈ s.undecidedUsers) → task.FindsOwner s.stores e := by
    intro task e hmem
    cases e with
    | stored ok => exact fun hundecided => h.imp_right fun hall => (hall _ (hmem hundecided)).symm
    | scan | save => trivial
  cases e with
  | workerTask e =>
    refine fun task htask => hfinds task e fun hundecided => ?_
    refine mem_append_left _ (mem_append_right _ ?_)
    cases hworker : s.worker with
    | waiting | collecting => simp [hworker, PersistWorker.task?] at htask
    | persisting task' next =>
      obtain rfl : task' = task := by simpa [hworker, PersistWorker.task?] using htask
      simp [workerUsers, hundecided]
  | inPlaceTask i e =>
    refine fun task htask => hfinds task e fun hundecided => mem_append_right _ ?_
    exact mem_map.mpr ⟨task, mem_filter.mpr ⟨mem_of_getElem? htask, hundecided⟩, rfl⟩
  | receive | switchUser | workerRecv | workerTryRecv => trivial

def sampleMessage (conversationSeq : ℕ) : IMMessage where
  serverId := "m"
  clientMsgId := "c"
  conversationId := "conv"
  senderId := "carol"
  conversationSeq := conversationSeq
  status := 1

instance (s : PersistSystem) : (e : Event) → Decidable (s.QuietSwitch e)
  | .switchUser _ => inferInstanceAs (Decidable (_ ∨ _))
  | .receive _ _ => inferInstanceAs (Decidable True)
  | .workerRecv => inferInstanceAs (Decidable True)
  | .workerTryRecv => inferInstanceAs (Decidable True)
  | .workerTask _ => inferInstanceAs (Decidable True)
  | .inPlaceTask _ _ => inferInstanceAs (Decidable True)

/-- Seq 1 of a conversation is received for alice, who stays signed in, and seq 2 for bob. -/
def ownBatches : List Event :=
  [.receive [sampleMessage 1] true, .workerRecv, .workerTryRecv, .workerTask (.stored true),
    .workerTask (.scan true [] [] 10), .workerTask (.save true), .switchUser "bob",
    .receive [sampleMessage 2] false, .inPlaceTask 0 (.stored true), .inPlaceTask 0 (.scan true [1] [] 11),
    .inPlaceTask 0 (.save true)]

/-- A batch is received for alice, and bob signs in before it is stored. -/
def switchBeforeStore : List Event :=
  [.receive [sampleMessage 1] true, .switchUser "bob", .workerRecv, .workerTryRecv,
    .workerTask (.stored true), .workerTask (.scan true [] [] 10), .workerTask (.save true)]

end PersistSystem

end FlareIm.Dispatcher
