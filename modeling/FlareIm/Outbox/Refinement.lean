import FlareIm.Outbox.Recovery
import FlareIm.Outbox.System

/-! Every step of the queue is a sequence of moves. The scope of a step says, from the state
before it, which liberties its moves may take: which timers it may find elapsed, which tracked
entries it may delete. A property that every move within its scope keeps, every run keeps. -/

namespace FlareIm.Outbox

open Lib Message Store

variable [codes : ProtoCodes] {s : QueueState}

/-! ### The scope of a step -/

section

variable (s : QueueState)

/-- The messages whose pending entries a resume deletes although they stay in flight or
awaited. -/
def strandedIds (resendInFlight : Bool) : List String :=
  (crossAccountIds s).filter fun k =>
    (!resendInFlight && (s.inFlight.find? k).any (fun x => !x.sendFailed)) || (s.awaitingDurable.find? k).isSome

/-- The messages that a step strands. -/
def strands : Event → List String
  | .recv =>
    match s.commands with
    | .resume resendInFlight :: _ => strandedIds s resendInFlight
    | _ => []
  | _ => []

def CommandStrands (c : QueueCommand) (k : String) : Prop :=
  match c with
  | .resume resend => k ∈ strandedIds s resend
  | _ => False

/-- The liberties of a step that does nothing to the queue's messages. -/
def idleScope : Scope where
  timesOut _ _ _ := False
  writerOpen := s.writerCapacity ≠ 0
  strands _ := False
  resumes := False
  resets := False

def commandScope (c : QueueCommand) : Scope :=
  { idleScope s with
    strands := CommandStrands s c
    resumes := ∃ resend, c = .resume resend
    resets := c = .resetPendingOnLogin }

def tickScope : Scope := { idleScope s with timesOut := TimesOut s }

def scope : Event → Scope
  | .recv => s.commands.head?.elim (idleScope s) (commandScope s)
  | .tick => tickScope s
  | _ => idleScope s

end

/-! ### Commands -/

variable {sc : Scope} {w : Surroundings}

omit codes in
theorem answer_moves {α : Type} {x : OutboxM α} (f : Except FlareError α → Answer) (h : MovesOnly sc x s) :
    MovesOnly sc (Prog.attempt x >>= fun result => answer (f result)) s := by
  obtain ⟨a, t, hrun, hm, ht⟩ := h
  refine Prog.Ensures.bind_of_run (Prog.attempt_run x s) (.intro (Prog.modify_run _ _) ?_)
  rw [hrun]
  exact ⟨hm, ht⟩

theorem handleCommand_moves (h : s.faults = []) (c : QueueCommand) :
    MovesOnly (commandScope s c) (handleCommand c) s := by
  cases c with
  | enqueue m =>
    obtain ⟨a, t, hrun, hm, ht⟩ := trySendNext_moves (s := enqueuedState m s) h
    exact .of_run ((handleEnqueue_run m h).trans hrun) (.head (enqueuedState_move m) hm) ht
  | ackReceived ack => exact handleAckReceived_moves h
  | sendAttemptFinished e retries result resumes => exact handleSendAttemptFinished_moves e retries result h
  | resetPendingOnLogin => exact answer_moves .resetPendingOnLogin (resetPendingOnLogin_moves h rfl)
  | pause =>
    refine Prog.Ensures.bind_of_run (Prog.modify_run _ _) (.intro (Prog.modify_run _ _) ?_)
    unfold pauseQueue
    split <;> exact ⟨.refl, h⟩
  | resume resend =>
    refine answer_moves .resume (resumeQueue_moves resend ⟨resend, rfl⟩ h fun k hk htracked =>
      List.mem_filter.mpr ⟨hk, ?_⟩)
    rcases htracked with ⟨rfl, x, hx, hfailed⟩ | hawait
    · simp [hx, hfailed]
    · simp [Option.isSome_iff_ne_none.mpr hawait]
  | expireStalePending maxAgeMs => exact answer_moves .expireStalePending (expireStalePending_moves maxAgeMs h)
  | retryBackoffElapsed k retries => exact handleRetryBackoffElapsed_moves k retries h

/-! ### Steps -/

theorem recvCommand_moves (h : s.faults = []) :
    Moves (scope s .recv) s.view (recvCommand s).view ∧ (recvCommand s).faults = [] := by
  unfold recvCommand scope
  cases hc : s.commands with
  | nil => exact ⟨.refl, h⟩
  | cons c rest =>
    obtain ⟨a, ht⟩ := (handleCommand_moves (s := { s with commands := rest }) h c).final
    exact ht

/-- A step with all store calls succeeding: it moves within its scope, and the environment
may change the connected user. -/
theorem step_moves (h : s.faults = []) (ev : Event) : (∃ v, Moves (scope s ev) s.view v ∧
      (step s ev).view = { v with user := (step s ev).currentUserId }) ∧ (step s ev).faults = [] := by
  have moved : ∀ t : QueueState, Moves (scope s ev) s.view t.view ∧ t.faults = [] →
      (∃ v, Moves (scope s ev) s.view v ∧ t.view = { v with user := t.currentUserId }) ∧
        t.faults = [] := fun t ht => ⟨⟨t.view, ht.1, rfl⟩, ht.2⟩
  have beside (hbeside : ev.isBeside = true) :=
    moved _ ⟨.of_eq (congrArg QueueState.view (core_step s hbeside)).symm,
    (congrArg QueueState.faults (core_step s hbeside)).trans h⟩
  cases ev with
  | recv => exact moved _ (recvCommand_moves h)
  | tick =>
    have hcheck : MovesOnly (tickScope s) checkTimeout s :=
      checkTimeout_moves h (fun e r n htime => htime) (ne_or_eq _ _)
    obtain ⟨a, hm, ht⟩ := hcheck.final
    have hprobe := core_probeLinkIfSendStalled (checkTimeout.run s).2
    exact moved _ ⟨congrArg QueueState.view hprobe ▸ hm, (congrArg QueueState.faults hprobe).trans ht⟩
  | setUser userId => exact ⟨⟨s.view, .refl, rfl⟩, h⟩
  | setClock nowMs => exact moved _ ⟨.refl, h⟩
  | downlink messages => exact moved _ ⟨.refl, h⟩
  | _ => exact beside rfl

theorem mem_strands {ev : Event} {k : String} (h : (scope s ev).strands k) : k ∈ strands s ev := by
  cases ev with
  | recv =>
    unfold scope at h
    unfold strands
    cases hc : s.commands with
    | nil =>
      rw [hc] at h
      exact h.elim
    | cons c rest =>
      rw [hc] at h
      cases c with
      | resume resend => exact h
      | _ => exact h.elim
  | _ => exact h.elim

/-! ### Runs -/

section Runs

variable {I : View → Prop} {c : QueueState → Event → Prop}

theorem run_view_invariant (hmove : ∀ s ev, I s.view → c s ev → ∀ v w, v.user = s.currentUserId →
      Move (scope s ev) v w → I v → I w)
    (huser : ∀ v user, I v → I { v with user := user }) (es : List Event) (hs : s.faults = [])
    (hI : I s.view) (hc : AllSteps step c s es) : I (run step s es).view := by
  have hrun := run_invariant (I := fun s => s.faults = [] ∧ I s.view)
    (c := c) (fun s ev hs hc => ?_) es s ⟨hs, hI⟩ hc
  · exact hrun.2
  · obtain ⟨⟨v, hm, hview⟩, hfaults⟩ := step_moves hs.1 ev
    refine ⟨hfaults, ?_⟩
    have hv := hm.invariant (I := fun v => v.user = s.currentUserId ∧ I v)
      (fun v w hvw hv => ⟨hvw.user_eq.trans hv.1, hmove s ev hs.2 hc v w hv.1 hvw hv.2⟩) ⟨rfl, hs.2⟩
    rw [hview]
    exact huser _ _ hv.2

end Runs

omit codes in
theorem seedEnqueueClock_run (h : s.faults = []) :
    seedEnqueueClock.run s = (.ok (), notePersistedEnqueueTimes s.pending.list s) := by
  simp [seedEnqueueClock, pendingList_run, h]

omit codes in
theorem spawn_view (h : w.faults = []) : (spawn w).view =
      { pending := w.pending.byId.find?
        inFlight := fun _ => none
        awaiting := fun _ => none
        backoff := fun _ => none
        retries := fun _ => 0
        maxRetries := w.config.maxRetries
        user := w.currentUserId
        nextSeq := w.pending.nextSeq
        lastEnqueued := latestEnqueueMs w.pending.list 0
        history := persistedHistory w.pending } := by
  rw [spawn, seedEnqueueClock_run (s := newQueue w) h]
  rfl

omit codes in
theorem spawn_faults (h : w.faults = []) : (spawn w).faults = [] := by
  rw [spawn, seedEnqueueClock_run (s := newQueue w) h]
  exact h

end FlareIm.Outbox
