import FlareIm.Dispatcher.Waterline
import FlareIm.Lib.Run

/-! Pings of one conversation while a pull of it is in flight. A ping that comes then starts
nothing: it is skipped when its target is there, and otherwise merged into the pending target,
which is the largest one named and 0 when none was. The task that finishes its pull looks at
the merged target only, so a ping is lost when it named no seq but another one did, or when
its own seq is missing below the merged one. Where neither happens, and nothing that was
reached gets lost locally, every ping is followed by a pull or its seq is there in the end. -/

namespace FlareIm.Dispatcher

open Lib Message Store List

/-- A ping of the conversation: who was signed in, and the seq it named (0 for none). -/
structure Arrival where
  userId : String
  targetSeq : ℕ
  deriving DecidableEq, Repr

/-- The pull, what the stores answer, and the pings since the last pull was started. -/
structure PullRun where
  conversationId : String
  hasSync : Bool
  stores : Option LocalStores
  applied : AppliedEventSeqs
  pull : WaterlinePull := {}
  /-- Merged into the pending target. -/
  round : List Arrival := []
  /-- Merged into the target that the task is about to look up. -/
  taken : List Arrival := []
  /-- Skipped since their target was there, or merged into one that was. -/
  passed : List Arrival := []
  /-- No pull followed, and no target was named or it was not there when the task ended. -/
  lost : List Arrival := []

namespace PullRun

inductive Event
  | ping (userId : String) (ping : WaterlinePing)
  | localChange (stores : Option LocalStores) (applied : AppliedEventSeqs)
  | pullFinished
  | checkPending
  | conclude

section

variable (s : PullRun)

def reached (a : Arrival) : Bool :=
  localWaterlineReachedWithStores s.stores s.applied a.userId s.conversationId a.targetSeq

/-- The pings that came while a pull was in flight and that no pull has followed yet. -/
def waiting : List Arrival := s.round ++ s.taken ++ s.passed

/-- The ping, when it is one of this conversation. -/
def arrival? (userId : String) (p : WaterlinePing) : Option Arrival :=
  if isWaterlinePing p.kind p.attributes && p.pingedConversation = some s.conversationId then
    some { userId := userId, targetSeq := p.targetSeq }
  else none

/-- `maybe_trigger_waterline_pull`. -/
def arrive (a : Arrival) : PullRun :=
  if s.reached a then
    { s with passed := if s.pull.isRunning then a :: s.passed else s.passed }
  else if !s.hasSync then s
  else
    { s with
      pull := s.pull.request a.userId a.targetSeq
      round := if s.pull.isRunning then a :: s.round else s.round }

/-- A pull starts: it follows every ping that was waiting. -/
def pullStarted (pull : WaterlinePull) : PullRun :=
  { s with pull := pull, round := [], taken := [], passed := [] }

def taskEnded (pull : WaterlinePull) : PullRun :=
  { s with
    pull := pull
    round := []
    taken := []
    passed := []
    lost := s.lost ++ s.waiting.filter fun a => a.targetSeq = 0 || !s.reached a }

def pullFinished (task : PullTask) : PullRun :=
  let pull := s.pull.pullFinished task
  if pull.isRunning then { s with pull := pull, round := [], taken := s.round ++ s.taken }
  else s.taskEnded pull

def checkPending (task : PullTask) (pendingTargetSeq : ℕ) : PullRun :=
  let reached := s.reached { userId := task.userId, targetSeq := pendingTargetSeq }
  let pull := s.pull.checked task reached
  if reached then { s with pull := pull, taken := [], passed := s.taken ++ s.passed }
  else s.pullStarted pull

def concluded (task : PullTask) : PullRun :=
  let pull := s.pull.conclude task
  if pull.isRunning then s.pullStarted pull else s.taskEnded pull

def step : Event → PullRun
  | .ping userId p => match s.arrival? userId p with
    | some a => s.arrive a
    | none => s
  | .localChange stores applied => { s with stores := stores, applied := applied }
  | .pullFinished => match s.pull.task with
    | some ⟨userId, .pulling⟩ => s.pullFinished ⟨userId, .pulling⟩
    | _ => s
  | .checkPending => match s.pull.task with
    | some ⟨userId, .checking target⟩ => s.checkPending ⟨userId, .checking target⟩ target
    | _ => s
  | .conclude => match s.pull.task with
    | some ⟨userId, .concluding⟩ => s.concluded ⟨userId, .concluding⟩
    | _ => s

end

def start (conversationId : String) (hasSync : Bool) (stores : Option LocalStores)
    (applied : AppliedEventSeqs) : PullRun where
  conversationId := conversationId
  hasSync := hasSync
  stores := stores
  applied := applied

/-- The events by which the task gets through with the pull it is in, if no other comes between. -/
def completion (s : PullRun) : List Event :=
  match s.pull.task with
  | some ⟨_, .pulling⟩ => [.pullFinished, .checkPending, .conclude]
  | some ⟨_, .checking _⟩ => [.checkPending, .conclude]
  | some ⟨_, .concluding⟩ => [.conclude]
  | none => []

/-- Pings that are merged all name a seq or none does; what a waiting ping asked for does not
get lost again; and a merged target that is there does not hide a smaller one that is not. -/
def Keeps (s : PullRun) : Event → Prop
  | .ping userId p => ∀ a ∈ s.arrival? userId p, s.reached a = false →
      ∀ state ∈ s.pull.entry, state.pending = true → (a.targetSeq = 0 ↔ state.pendingTargetSeq = 0)
  | .localChange stores applied => ∀ a ∈ s.waiting, s.reached a = true →
      reached { s with stores := stores, applied := applied } a = true
  | .checkPending => ∀ task ∈ s.pull.task, ∀ target ∈ task.phase.target?,
      s.reached ⟨task.userId, target⟩ = true → ∀ a ∈ s.taken, 0 < a.targetSeq → s.reached a = true
  | .pullFinished => True
  | .conclude => True

instance (s : PullRun) : (e : Event) → Decidable (s.Keeps e)
  | .ping _ _ => inferInstanceAs (Decidable (∀ _ ∈ _, _ → ∀ _ ∈ _, _ → _))
  | .localChange _ _ => inferInstanceAs (Decidable (∀ _ ∈ _, _ → _))
  | .checkPending => inferInstanceAs (Decidable (∀ _ ∈ _, ∀ _ ∈ _, _ → ∀ _ ∈ _, _ → _))
  | .pullFinished => inferInstanceAs (Decidable True)
  | .conclude => inferInstanceAs (Decidable True)

/-! ### The invariant -/

structure Kept (s : PullRun) : Prop where
  coherent : s.pull.Coherent
  idle : s.pull = {} → s.waiting = []
  round_pending : ∀ a ∈ s.round, ∃ state ∈ s.pull.entry, state.pending = true ∧
    (a.targetSeq = 0 ↔ state.pendingTargetSeq = 0)
  taken_checking : ∀ a ∈ s.taken, ∃ userId target, s.pull.task = some ⟨userId, .checking target⟩ ∧
    (a.targetSeq = 0 ↔ target = 0)
  passed_reached : ∀ a ∈ s.passed, s.reached a = true
  lost : s.lost = []

variable {s : PullRun} {a : Arrival} {target : ℕ} {task : PullTask}

theorem targetSeq_pos_of_reached (h : s.reached a = true) : 0 < a.targetSeq := by
  refine Nat.pos_of_ne_zero fun hzero => ?_
  rw [reached, hzero, not_reached_zero] at h
  exact Bool.false_ne_true h

theorem kept_pullStarted {pull : WaterlinePull} (hlost : s.lost = []) (hpull : pull.Coherent) :
    (s.pullStarted pull).Kept where
  coherent := hpull
  idle _ := rfl
  round_pending _ ha := absurd ha not_mem_nil
  taken_checking _ ha := absurd ha not_mem_nil
  passed_reached _ ha := absurd ha not_mem_nil
  lost := hlost

section

variable (h : s.Kept)

include h

theorem kept_taskEnded (hreached : ∀ a ∈ s.waiting, s.reached a = true) : (s.taskEnded {}).Kept := by
  have hnone : s.waiting.filter (fun a => a.targetSeq = 0 || !s.reached a) = [] := by
    refine filter_eq_nil_iff.mpr fun a ha => ?_
    have hpos := targetSeq_pos_of_reached (hreached a ha)
    simp [hreached a ha, hpos.ne']
  rw [taskEnded, hnone, append_nil]
  exact kept_pullStarted h.lost (.inl rfl)

theorem kept_arrive (hmerge : s.reached a = false →
    ∀ state ∈ s.pull.entry, state.pending = true → (a.targetSeq = 0 ↔ state.pendingTargetSeq = 0)) :
    (s.arrive a).Kept := by
  unfold arrive
  split
  · next hreached =>
    cases hrun : s.pull.isRunning with
    | false => exact h
    | true =>
      refine ⟨h.coherent, fun hidle => ?_, h.round_pending, h.taken_checking,
        forall_mem_cons.mpr ⟨hreached, h.passed_reached⟩, h.lost⟩
      rw [show s.pull = {} from hidle] at hrun
      exact absurd hrun (by decide)
  · next hreached =>
    split
    · exact h
    · rcases h.coherent with hidle | ⟨pending, target, task, hrun, htarget⟩
      · -- Nobody waits for a pull that does not run; the ping starts it.
        obtain ⟨hround, htaken, hpassed⟩ : s.round = [] ∧ s.taken = [] ∧ s.passed = [] := by
          simpa [waiting] using h.idle hidle
        simp only [hidle, hround, htaken, hpassed, WaterlinePull.isRunning_empty]
        exact ⟨.inr ⟨_, _, _, rfl, fun _ => rfl⟩, fun _ => rfl, by simp, by simp, by simp, h.lost⟩
      · have hpull : s.pull.request a.userId a.targetSeq =
            ⟨some ⟨true, true, max target a.targetSeq⟩, some task⟩ := by rw [hrun]; rfl
        have hmerged : pending = true → (a.targetSeq = 0 ↔ target = 0) :=
          hmerge (by simpa using hreached) ⟨true, pending, target⟩ (by rw [hrun]; rfl)
        have hsame : a.targetSeq = 0 ↔ max target a.targetSeq = 0 := by
          cases pending with
          | false => simp [htarget rfl]
          | true => simp [hmerged rfl]
        have hrunning : s.pull.isRunning = true := by rw [hrun]; rfl
        simp only [hpull, hrunning, if_true]
        refine ⟨.inr ⟨_, _, _, rfl, by simp⟩, fun hidle => by simp at hidle,
          forall_mem_cons.mpr ⟨⟨_, rfl, rfl, hsame⟩, fun b hb => ?_⟩, fun b hb => ?_,
          h.passed_reached, h.lost⟩
        · obtain ⟨state, hstate, hpending, hb⟩ := h.round_pending b hb
          rw [hrun] at hstate
          cases hstate
          refine ⟨_, rfl, rfl, hb.trans ?_⟩
          rw [← hsame, hmerged hpending]
        · obtain ⟨userId, t, htask, ht⟩ := h.taken_checking b hb
          rw [hrun] at htask
          exact ⟨userId, t, htask, ht⟩

theorem Kept.running (htask : s.pull.task = some task) : ∃ pending target,
    s.pull = ⟨some ⟨true, pending, target⟩, some task⟩ ∧ (pending = false → target = 0) := by
  rcases h.coherent with hidle | ⟨pending, target, task', hrun, htarget⟩
  · rw [hidle] at htask
    exact absurd htask (by simp)
  · obtain rfl : task' = task := by simpa [hrun] using htask
    exact ⟨pending, target, hrun, htarget⟩

theorem Kept.taken_eq_nil (htask : s.pull.task = some task)
    (hphase : ∀ target, task.phase ≠ .checking target) : s.taken = [] := by
  refine eq_nil_iff_forall_not_mem.mpr fun a ha => ?_
  obtain ⟨userId, target, hchecking, -⟩ := h.taken_checking a ha
  cases htask.symm.trans hchecking
  exact hphase target rfl

theorem Kept.waiting_reached
    (hrun : s.pull = ⟨some ⟨true, false, target⟩, some task⟩)
    (hphase : ∀ target, task.phase ≠ .checking target) : ∀ a ∈ s.waiting, s.reached a = true := by
  have htaken := h.taken_eq_nil (by rw [hrun]) hphase
  have hround : s.round = [] := by
    refine eq_nil_iff_forall_not_mem.mpr fun a ha => ?_
    obtain ⟨state, hstate, hpending, -⟩ := h.round_pending a ha
    rw [hrun] at hstate
    cases hstate
    exact Bool.false_ne_true hpending
  intro a ha
  rw [waiting, hround, htaken] at ha
  exact h.passed_reached a ha

variable {userId : String}

theorem kept_pullFinished
    (htask : s.pull.task = some ⟨userId, .pulling⟩) : (s.pullFinished ⟨userId, .pulling⟩).Kept := by
  obtain ⟨pending, target, hrun, htarget⟩ := h.running htask
  cases pending with
  | false =>
    have hpull : s.pull.pullFinished ⟨userId, .pulling⟩ = {} := by rw [hrun]; rfl
    simp only [pullFinished, hpull]
    exact kept_taskEnded h (h.waiting_reached hrun (by simp))
  | true =>
    have hpull : s.pull.pullFinished ⟨userId, .pulling⟩ =
        ⟨some ⟨true, false, 0⟩, some ⟨userId, .checking target⟩⟩ := by rw [hrun]; rfl
    have htaken := h.taken_eq_nil htask (by simp)
    simp only [pullFinished, hpull, htaken, append_nil, WaterlinePull.isRunning_mk, if_true]
    refine ⟨.inr ⟨_, _, _, rfl, fun _ => rfl⟩, fun hidle => by simp at hidle, by simp, fun a ha => ?_,
      h.passed_reached, h.lost⟩
    obtain ⟨state, hstate, -, hsame⟩ := h.round_pending a ha
    rw [hrun] at hstate
    cases hstate
    exact ⟨userId, target, rfl, hsame⟩

theorem kept_checkPending (htask : s.pull.task = some ⟨userId, .checking target⟩)
    (hc : s.reached ⟨userId, target⟩ = true → ∀ a ∈ s.taken, 0 < a.targetSeq → s.reached a = true) :
    (s.checkPending ⟨userId, .checking target⟩ target).Kept := by
  obtain ⟨pending, merged, hrun, hmerged⟩ := h.running htask
  have hpull : ∀ reached, s.pull.checked ⟨userId, .checking target⟩ reached =
      ⟨some ⟨true, pending, merged⟩, some ⟨userId, if reached then .concluding else .pulling⟩⟩ := by
    rw [hrun]
    intro reached
    rfl
  unfold checkPending
  simp only [hpull]
  cases hreached : s.reached ⟨userId, target⟩ with
  | false => exact kept_pullStarted h.lost (.inr ⟨_, _, _, rfl, hmerged⟩)
  | true =>
    have hpos : 0 < target := targetSeq_pos_of_reached hreached
    refine ⟨.inr ⟨_, _, _, rfl, hmerged⟩, fun hidle => by simp at hidle, fun a ha => ?_, by simp,
      fun a ha => ?_, h.lost⟩
    · have := h.round_pending a ha
      rwa [hrun] at this
    · rcases mem_append.mp ha with ha | ha
      · obtain ⟨_, _, hchecking, hsame⟩ := h.taken_checking a ha
        cases htask.symm.trans hchecking
        exact hc hreached a ha (Nat.pos_of_ne_zero fun hzero => hpos.ne' (hsame.mp hzero))
      · exact h.passed_reached a ha

theorem kept_concluded
    (htask : s.pull.task = some ⟨userId, .concluding⟩) : (s.concluded ⟨userId, .concluding⟩).Kept := by
  obtain ⟨pending, target, hrun, htarget⟩ := h.running htask
  cases pending with
  | false =>
    have hpull : s.pull.conclude ⟨userId, .concluding⟩ = {} := by rw [hrun]; rfl
    simp only [concluded, hpull]
    exact kept_taskEnded h (h.waiting_reached hrun (by simp))
  | true =>
    have hpull : s.pull.conclude ⟨userId, .concluding⟩ =
        ⟨some ⟨true, true, target⟩, some ⟨userId, .pulling⟩⟩ := by rw [hrun]; rfl
    simp only [concluded, hpull]
    exact kept_pullStarted h.lost (.inr ⟨_, _, _, rfl, by simp⟩)

end

theorem kept_step (s : PullRun) (e : Event) (h : s.Kept) (hc : s.Keeps e) : (s.step e).Kept := by
  cases e with
  | ping userId p =>
    simp only [step]
    split
    · next a ha => exact kept_arrive h (hc a ha)
    · exact h
  | localChange stores applied =>
    exact ⟨h.coherent, h.idle, h.round_pending, h.taken_checking,
      fun a ha => hc a (mem_append_right _ ha) (h.passed_reached a ha), h.lost⟩
  | pullFinished =>
    simp only [step]
    split
    · next userId htask => exact kept_pullFinished h htask
    · exact h
  | checkPending =>
    simp only [step]
    split
    · next userId target htask => exact kept_checkPending h htask (hc _ htask target rfl)
    · exact h
  | conclude =>
    simp only [step]
    split
    · next userId htask => exact kept_concluded h htask
    · exact h

/-! ### The end of a pull -/

theorem waiting_concluded (s : PullRun) (task : PullTask) : (s.concluded task).waiting = [] := by
  unfold concluded
  dsimp only
  split <;> rfl

/-- Once nobody waits or the task is about to conclude, nobody waits after it has. -/
theorem waiting_step_conclude (h : s.waiting = [] ∨ ∃ userId, s.pull.task = some ⟨userId, .concluding⟩) :
    (s.step .conclude).waiting = [] := by
  simp only [step]
  split
  · exact waiting_concluded _ _
  · next hother =>
    rcases h with h | ⟨userId, htask⟩
    · exact h
    · exact absurd htask (hother userId)

theorem waiting_check_conclude (h : s.waiting = [] ∨
    ∃ userId target, s.pull.task = some ⟨userId, .checking target⟩) :
    ((s.step .checkPending).step .conclude).waiting = [] := by
  refine waiting_step_conclude ?_
  simp only [step]
  split
  · next userId target _ =>
    unfold checkPending
    cases s.reached ⟨userId, target⟩ with
    | true => exact .inr ⟨userId, rfl⟩
    | false => exact .inl rfl
  · next hother =>
    rcases h with h | ⟨userId, target, htask⟩
    · exact .inl h
    · exact absurd htask (hother userId target)

theorem waiting_completion (h : s.Kept) : (run step s s.completion).waiting = [] := by
  rcases h.coherent with hidle | ⟨pending, target, ⟨userId, phase⟩, hrun, -⟩
  · have hnone : s.completion = [] := by rw [completion, hidle]
    rw [hnone]
    exact h.idle hidle
  · have htask : s.pull.task = some ⟨userId, phase⟩ := by rw [hrun]
    cases phase with
    | concluding =>
      have hlist : s.completion = [.conclude] := by rw [completion, htask]
      rw [hlist]
      exact waiting_step_conclude (.inr ⟨userId, htask⟩)
    | checking t =>
      have hlist : s.completion = [.checkPending, .conclude] := by rw [completion, htask]
      rw [hlist]
      exact waiting_check_conclude (.inr ⟨userId, t, htask⟩)
    | pulling =>
      have hlist : s.completion = [.pullFinished, .checkPending, .conclude] := by rw [completion, htask]
      have hstep : s.step .pullFinished = s.pullFinished ⟨userId, .pulling⟩ := by simp only [step, htask]
      rw [hlist]
      refine waiting_check_conclude ?_
      rw [hstep, pullFinished, hrun]
      cases pending with
      | false => exact .inl rfl
      | true => exact .inr ⟨userId, target, rfl⟩

/-! ### Every run -/

/-- No ping that comes while a pull is in flight is lost: those no pull has followed yet wait for
a task that runs, and when it is through with its pull they have all been followed by another
one, or have named a seq that is there. -/
theorem no_ping_lost (conversationId : String) (hasSync : Bool) (stores : Option LocalStores)
    (applied : AppliedEventSeqs) (es : List Event)
    (hkeeps : AllSteps step Keeps (start conversationId hasSync stores applied) es) :
    let s := run step (start conversationId hasSync stores applied) es
    s.lost = [] ∧ (s.waiting ≠ [] → s.pull.isRunning = true) ∧ (run step s s.completion).waiting = [] := by
  intro s
  have hkept : s.Kept := run_invariant kept_step es _
    (kept_pullStarted (s := start conversationId hasSync stores applied) rfl (.inl rfl)) hkeeps
  refine ⟨hkept.lost, fun hwaiting => ?_, waiting_completion hkept⟩
  rcases hkept.coherent with hidle | ⟨_, _, _, hrun, -⟩
  · exact absurd (hkept.idle hidle) hwaiting
  · rw [hrun]
    rfl

/-- Two named pings come during a pull that brings the rows of both. -/
def namedPings : List Event :=
  [.ping "alice" (.ofSeq "conv" 5), .ping "alice" (.ofSeq "conv" 6), .ping "alice" (.ofSeq "conv" 7),
    .localChange (some (sampleStores 4 [4, 5, 6, 7])) .empty, .pullFinished, .checkPending, .conclude]

theorem no_ping_lost_namedPings :
    let s := run step (start "conv" true (some (sampleStores 4 [4])) .empty) namedPings
    (run step (start "conv" true (some (sampleStores 4 [4])) .empty) (namedPings.take 5)).taken =
      [⟨"alice", 7⟩, ⟨"alice", 6⟩] ∧
    s.lost = [] ∧ (s.waiting ≠ [] → s.pull.isRunning = true) ∧ (run step s s.completion).waiting = [] :=
  ⟨by decide, no_ping_lost "conv" true (some (sampleStores 4 [4])) .empty namedPings (by decide)⟩

/-- A ping without a seq, and one that names seq 6, which the pull in flight brings. -/
def unnamedPing : List Event :=
  [.ping "alice" (.ofSeq "conv" 5), .ping "alice" ⟨"waterline", some "conv", ∅⟩,
    .ping "alice" (.ofSeq "conv" 6), .localChange (some (sampleStores 4 [4, 5, 6])) .empty,
    .pullFinished, .checkPending, .conclude]

/-- The task ends since seq 6 is there: no pull follows the ping that named none. -/
theorem not_no_ping_lost_unnamedPing :
    let s := run step (start "conv" true (some (sampleStores 4 [4])) .empty) unnamedPing
    s.lost = [⟨"alice", 0⟩] ∧ s.pull.isRunning = false := by
  decide

end PullRun

end FlareIm.Dispatcher
