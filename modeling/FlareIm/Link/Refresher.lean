import FlareIm.Access.Bootstrap
import Mathlib.Order.Lattice

/-! When the access manifest is asked for again: periodically, on a notice that there is
a newer one, and over and over while no access point can be reached. One round runs at a
time. Notices are merged into one slot, which the report of a round clears. The random
draws are part of the facts that a round ends with. Development mode, in which nothing
is fetched, has no part here. -/

namespace FlareIm.Link

open Lib Access.Bootstrap Option RefreshReport

/-! ### The schedule -/

def notifiedMaxRetries : ℕ := 4

def recoveringBaseMs : ℕ := 30000

def recoveringCapMs : ℕ := 300000

structure NotifiedWait where
  serial : ℕ
  atMs : ℤ
  retries : ℕ
  deriving DecidableEq, Repr

structure RecoveringLoop where
  sinceMs : ℤ
  rounds : ℕ
  delayMs : ℕ
  nextAtMs : ℤ
  suspended : Bool
  deriving DecidableEq, Repr

structure RefreshSchedule where
  backgroundAtMs : Option ℤ := none
  notified : Option NotifiedWait := none
  recovering : Option RecoveringLoop := none
  deriving DecidableEq, Repr

/-- The facts at the end of a round: the time, the interval to the next periodic round
and the jitter of a recovery delay. -/
structure RoundFacts where
  nowMs : ℤ
  intervalMs : ℤ
  jitter : ℕ → ℕ

def nextRecoveringDelay (previous : ℕ) (jitter : ℕ → ℕ) : ℕ × ℕ :=
  let delay := if previous = 0 then recoveringBaseMs else min (previous * 2) recoveringCapMs
  (delay, min (jitter delay) recoveringCapMs)

variable {mode : RefreshMode} {serial : ℕ} {pending : NotifiedWait} {s : RefreshSchedule}

namespace RefreshSchedule

variable (s : RefreshSchedule)

/-- Recovery covers the other two. -/
def due (nowMs : ℤ) : Option RefreshMode :=
  match s.recovering with
  | some loop => if !loop.suspended && loop.nextAtMs ≤ nowMs then some .recovering else none
  | none =>
    let background := if s.backgroundAtMs.any (· ≤ nowMs) then some RefreshMode.background else none
    match s.notified with
    | some wait => if wait.atMs ≤ nowMs then some (.notified wait.serial) else background
    | none => background

def manualMode : RefreshMode := if s.recovering.isSome then .recovering else .background

def enterRecovering (nowMs : ℤ) : RefreshSchedule :=
  { s with recovering := some (s.recovering.getD ⟨nowMs, 0, 0, nowMs, false⟩) }

def leaveRecovering : RefreshSchedule := { s with recovering := none }

def wake (nowMs : ℤ) : RefreshSchedule :=
  { s with recovering := s.recovering.map ({ · with suspended := false, delayMs := 0, nextAtMs := nowMs }) }

def suspend : RefreshSchedule := { s with recovering := s.recovering.map ({ · with suspended := true }) }

def soon (nowMs : ℤ) : RefreshSchedule := { s with backgroundAtMs := some nowMs }

/-- The largest serial, at the earliest time. -/
def notify (serial : ℕ) (atMs : ℤ) : RefreshSchedule :=
  let slot : NotifiedWait :=
    match s.notified with
    | some pending =>
      { serial := max pending.serial serial, atMs := min pending.atMs atMs
        retries := if pending.serial < serial then 0 else pending.retries }
    | none => ⟨serial, atMs, 0⟩
  { s with notified := some slot }

variable (report : RefreshReport)

/-- The slot after a round for a notice. -/
def notifiedAfter (nowMs : ℤ) : Option NotifiedWait :=
  match s.notified, report.retryAfterMs with
  | some pending, some retryAfterMs =>
    if pending.retries < notifiedMaxRetries then
      some { pending with retries := pending.retries + 1, atMs := nowMs + retryAfterMs }
    else none
  | _, _ => none

variable (facts : RoundFacts)

def recoveringAfter : Option RecoveringLoop :=
  s.recovering.map fun loop =>
    let delayMs := if report.outcome = .adopted then 0 else loop.delayMs
    let (delay, wait) := nextRecoveringDelay delayMs facts.jitter
    { loop with rounds := loop.rounds + 1, delayMs := delay, nextAtMs := facts.nowMs + wait }

/-- The next round of the same kind. -/
def afterRound : RefreshSchedule :=
  match report.mode with
  | .recovering => { s with recovering := s.recoveringAfter report facts }
  | .notified _ => { s with notified := s.notifiedAfter report facts.nowMs }
  | .background => s

/-- Whatever was asked for: a notice whose serial is here need not wait any longer. -/
def withoutReached (serial : ℕ) : RefreshSchedule :=
  if s.notified.any (·.serial ≤ serial) then { s with notified := none } else s

def finished : RefreshSchedule :=
  let s := (s.afterRound report facts).withoutReached report.serial
  if report.outcome ≠ .failed ∨ report.mode = .background then
    { s with backgroundAtMs := some (facts.nowMs + facts.intervalMs) }
  else s

theorem notified_finished :
    (s.finished report facts).notified = ((s.afterRound report facts).withoutReached report.serial).notified := by
  rw [finished]
  split_ifs <;> rfl

/-- A slot is given up here only when its serial has been reached. -/
theorem notified_withoutReached (h : s.notified = some pending) :
    (s.withoutReached serial).notified = some pending ∨
      (s.withoutReached serial).notified = none ∧ pending.serial ≤ serial := by
  rw [withoutReached]
  split_ifs with hreached
  · simp only [h, any_some, decide_eq_true_eq] at hreached
    exact .inr ⟨rfl, hreached⟩
  · exact .inl h

theorem notified_withoutReached_of_none (h : s.notified = none) :
    (s.withoutReached serial).notified = none := by
  rw [withoutReached]
  split_ifs
  · rfl
  · exact h

end RefreshSchedule

/-! ### The worker -/

/-- A round for a notice is one of its retries. -/
def roundRetries : RefreshMode → ℕ
  | .notified _ => 1
  | _ => 0

namespace RefreshSchedule

variable (h : s.notified = some pending)

include h in
/-- What a round leaves in the slot, before the directory is looked at: the slot with the
retry counted, or nothing after a round for a notice that has reached its serial or
finds all retries used up. -/
theorem notified_afterRound (mode : RefreshMode) (outcome : RefreshOutcome) (serial : ℕ) (facts : RoundFacts) :
    let next := (s.afterRound (.conclude mode outcome serial) facts).notified
    (∃ atMs, next = some { pending with retries := pending.retries + roundRetries mode, atMs }) ∨
      next = none ∧ ∃ target, mode = .notified target ∧
      (target ≤ serial ∨ notifiedMaxRetries ≤ pending.retries) := by
  cases mode with
  | notified target =>
    by_cases hold : serial < target
    · by_cases hretries : pending.retries < notifiedMaxRetries
      · refine .inl ⟨facts.nowMs + notifiedRetryDelayMs, ?_⟩
        simp [afterRound, conclude, notifiedAfter, h, hold, hretries, roundRetries]
      · refine .inr ⟨?_, target, rfl, .inr (Nat.le_of_not_lt hretries)⟩
        simp [afterRound, conclude, notifiedAfter, h, hold, hretries]
    · refine .inr ⟨?_, target, rfl, .inl (Nat.le_of_not_lt hold)⟩
      simp [afterRound, conclude, notifiedAfter, h, hold]
  | _ => exact .inl ⟨pending.atMs, h⟩

include h in
theorem finished_cases (mode : RefreshMode) (outcome : RefreshOutcome) (serial : ℕ) (facts : RoundFacts) :
    let next := (s.finished (.conclude mode outcome serial) facts).notified
    (∃ atMs, next = some { pending with retries := pending.retries + roundRetries mode, atMs }) ∨
      next = none ∧ (pending.serial ≤ serial ∨
        ∃ target, mode = .notified target ∧ (target ≤ serial ∨ notifiedMaxRetries ≤ pending.retries)) := by
  intro next
  have hnext : next = _ := s.notified_finished (.conclude mode outcome serial) facts
  rcases notified_afterRound h mode outcome serial facts with ⟨atMs, hkept⟩ | ⟨hgone, hwhy⟩
  · rcases notified_withoutReached _ hkept with hkept | ⟨hgone, hreached⟩
    · exact .inl ⟨atMs, hnext.trans hkept⟩
    · exact .inr ⟨hnext.trans hgone, .inl hreached⟩
  · exact .inr ⟨hnext.trans (notified_withoutReached_of_none _ hgone), .inr hwhy⟩

omit h in
theorem notified_finished_of_none (h : s.notified = none) (mode : RefreshMode)
    (outcome : RefreshOutcome) (serial : ℕ)
    (facts : RoundFacts) : (s.finished (.conclude mode outcome serial) facts).notified = none := by
  rw [notified_finished]
  refine notified_withoutReached_of_none _ ?_
  cases mode with
  | background => exact h
  | recovering => exact h
  | notified target => simp [afterRound, conclude, notifiedAfter, h]

end RefreshSchedule

/-- The worker, and the serial of the directory. -/
structure Worker where
  schedule : RefreshSchedule
  running : Option RefreshMode := none
  manualPending : Bool := false
  serial : ℕ
  /-- The serials that rounds have asked for since the slot was filled; the worker does
  not know of them. -/
  asked : List ℕ := []
  deriving DecidableEq, Repr

namespace Worker

inductive Event
  | manual
  | notified (serial : ℕ) (atMs : ℤ)
  | recovering (entered : Bool) (nowMs : ℤ)
  | suspend
  | wake (nowMs : ℤ)
  | soon (nowMs : ℤ)
  /-- The head of the loop. -/
  | startDue (nowMs : ℤ)
  /-- A newer manifest comes into the directory. -/
  | adopt (serial : ℕ)
  /-- The round ends; it has seen the directory at a serial. -/
  | report (outcome : RefreshOutcome) (seen : ℕ) (facts : RoundFacts)

variable (w : Worker)

def startDue (nowMs : ℤ) : Worker :=
  if w.manualPending then { w with manualPending := false, running := some w.schedule.manualMode }
  else { w with running := w.schedule.due nowMs }

def onReport (mode : RefreshMode) (report : RefreshReport) (facts : RoundFacts) : Worker :=
  { w with
    running := none, schedule := w.schedule.finished report facts
    asked :=
      match mode with
      | .notified target => target :: w.asked
      | _ => w.asked }

def step : Event → Worker
  | .manual => if w.running.isNone then { w with manualPending := true } else w
  | .notified serial atMs =>
    if w.serial < serial then
      { w with
        schedule := w.schedule.notify serial atMs, asked := if w.schedule.notified.isSome then w.asked else [] }
    else w
  | .recovering entered nowMs =>
    { w with schedule := if entered then w.schedule.enterRecovering nowMs else w.schedule.leaveRecovering }
  | .suspend => { w with schedule := w.schedule.suspend }
  | .wake nowMs => { w with schedule := w.schedule.wake nowMs }
  | .soon nowMs => { w with schedule := w.schedule.soon nowMs }
  | .startDue nowMs => if w.running.isNone then w.startDue nowMs else w
  | .adopt serial => { w with serial := max w.serial serial }
  | .report outcome seen facts =>
    match w.running with
    | some mode => w.onReport mode (.conclude mode outcome (min seen w.serial)) facts
    | none => w

/-- A notice is dropped only when the directory has its serial, or when a first round
and all its retries have asked for that serial or more. -/
def KeepsNotice (e : Event) : Prop :=
  ∀ pending ∈ w.schedule.notified, (w.step e).schedule.notified = none → pending.serial ≤ (w.step e).serial ∨
      notifiedMaxRetries < (w.step e).asked.countP (pending.serial ≤ ·)

/-- While a round for a notice runs, no notice of a larger serial, new to the directory, comes in. -/
def InTime : Event → Prop
  | .notified serial _ => w.serial < serial → ∀ target, w.running = some (.notified target) → serial ≤ target
  | _ => True

/-- A round for a notice asks for the serial of the slot, and the retries were rounds
that asked for it. -/
structure Tracks (w : Worker) : Prop where
  target : ∀ target, w.running = some (.notified target) → ∃ pending ∈ w.schedule.notified, pending.serial = target
  retries : ∀ pending ∈ w.schedule.notified, pending.retries ≤ w.asked.countP (pending.serial ≤ ·)

variable {w : Worker}

theorem countP_asked_onReport (h : ∀ target, mode = .notified target → target = serial)
    (report : RefreshReport) (facts : RoundFacts) :
    (w.onReport mode report facts).asked.countP (serial ≤ ·) = w.asked.countP (serial ≤ ·) + roundRetries mode := by
  cases mode with
  | notified target =>
    obtain rfl := h target rfl
    exact List.countP_cons_of_pos (by simp)
  | _ => rfl

/-- The report of a round keeps the count, and drops a notice for a reason only. -/
theorem tracks_report (h : w.Tracks) (hrunning : w.running = some mode)
    (outcome : RefreshOutcome) (serial : ℕ) (facts : RoundFacts) :
    let w' := w.onReport mode (.conclude mode outcome serial) facts
    w'.Tracks ∧ ∀ pending ∈ w.schedule.notified, w'.schedule.notified = none →
      pending.serial ≤ serial ∨ notifiedMaxRetries < w'.asked.countP (pending.serial ≤ ·) := by
  intro w'
  have hidle : ∀ target, w'.running = some (.notified target) →
      ∃ pending ∈ w'.schedule.notified, pending.serial = target := fun _ hrun => (by cases hrun)
  cases hpending : w.schedule.notified with
  | none =>
    have hnone : w'.schedule.notified = none :=
      RefreshSchedule.notified_finished_of_none hpending mode outcome serial facts
    refine ⟨⟨hidle, fun slot hslot => ?_⟩, fun slot hslot => by cases hslot⟩
    rw [hnone] at hslot
    cases hslot
  | some pending =>
    have hretries := h.retries pending hpending
    have htarget : ∀ target, mode = .notified target → target = pending.serial := by
      rintro target rfl
      obtain ⟨slot, hslot, rfl⟩ := h.target target hrunning
      rw [some.inj (hpending.symm.trans hslot)]
    have hcount := countP_asked_onReport htarget (.conclude mode outcome serial) facts (w := w)
    rcases RefreshSchedule.finished_cases hpending mode outcome serial facts with ⟨atMs, hkept⟩ | ⟨hgone, hwhy⟩
    · have hkept' : w'.schedule.notified = _ := hkept
      refine ⟨⟨hidle, fun slot hslot => ?_⟩, fun slot _ hdropped => ?_⟩
      · obtain rfl := some.inj (hkept'.symm.trans hslot)
        exact (Nat.add_le_add_right hretries _).trans hcount.ge
      · cases hkept'.symm.trans hdropped
    · have hgone' : w'.schedule.notified = none := hgone
      refine ⟨⟨hidle, fun slot hslot => ?_⟩, fun slot hslot _ => ?_⟩
      · cases hgone'.symm.trans hslot
      · obtain rfl := some.inj hslot
        rcases hwhy with hreached | ⟨target, rfl, hreached | hused⟩
        · exact .inl hreached
        · exact .inl (htarget target rfl ▸ hreached)
        · -- The rounds before this one were as many as the retries.
          exact .inr (Nat.lt_of_lt_of_le (Nat.lt_succ_of_le (hused.trans hretries)) hcount.ge)

theorem due_eq_notified {nowMs : ℤ} {target : ℕ} (h : s.due nowMs = some (.notified target)) :
    ∃ pending ∈ s.notified, pending.serial = target := by
  rw [RefreshSchedule.due] at h
  split at h
  · split_ifs at h
    cases h
  · dsimp only at h
    split at h
    · next wait hwait =>
      split_ifs at h
      · exact ⟨wait, hwait, by cases h; rfl⟩
      · cases h
    · split_ifs at h
      cases h

/-- Only notices and the reports of rounds touch the slot; a round for a notice starts with what the slot holds. -/
theorem step_cases (w : Worker) (e : Event) :
    (∃ serial atMs, e = .notified serial atMs ∧ w.serial < serial ∧ w.step e = { w with
      schedule := w.schedule.notify serial atMs, asked := if w.schedule.notified.isSome then w.asked else [] }) ∨
    (∃ mode outcome seen facts, w.running = some mode ∧
      w.step e = w.onReport mode (.conclude mode outcome (min seen w.serial)) facts) ∨
    ((w.step e).schedule.notified = w.schedule.notified ∧ (w.step e).asked = w.asked ∧
      ∀ target, (w.step e).running = some (.notified target) → w.running = some (.notified target) ∨
        ∃ pending ∈ w.schedule.notified, pending.serial = target) := by
  cases e with
  | notified serial atMs =>
    rw [step]
    split
    · next hnewer => exact .inl ⟨serial, atMs, rfl, hnewer, rfl⟩
    · exact .inr (.inr ⟨rfl, rfl, fun _ => .inl⟩)
  | report outcome seen facts =>
    rw [step]
    split
    · next mode hrunning => exact .inr (.inl ⟨mode, outcome, seen, facts, hrunning, rfl⟩)
    · exact .inr (.inr ⟨rfl, rfl, fun _ => .inl⟩)
  | startDue nowMs =>
    refine .inr (.inr ?_)
    rw [step, startDue, RefreshSchedule.manualMode]
    split_ifs
    · exact ⟨rfl, rfl, fun _ hrun => by cases hrun⟩
    · exact ⟨rfl, rfl, fun _ hrun => by cases hrun⟩
    · exact ⟨rfl, rfl, fun _ hrun => .inr (due_eq_notified hrun)⟩
    · exact ⟨rfl, rfl, fun _ => .inl⟩
  | manual =>
    rw [step]
    split_ifs <;> exact .inr (.inr ⟨rfl, rfl, fun _ => .inl⟩)
  | recovering entered nowMs => cases entered <;> exact .inr (.inr ⟨rfl, rfl, fun _ => .inl⟩)
  | _ => exact .inr (.inr ⟨rfl, rfl, fun _ => .inl⟩)

variable (h : w.Tracks)

include h

theorem Tracks.notify {atMs : ℤ} (htime : ∀ target, w.running = some (.notified target) → serial ≤ target) :
    Tracks { w with
      schedule := w.schedule.notify serial atMs, asked := if w.schedule.notified.isSome then w.asked else [] } := by
  rw [RefreshSchedule.notify]
  cases hslot : w.schedule.notified with
  | none =>
    refine ⟨fun target hrun => ?_, fun pending hpending => ?_⟩
    · obtain ⟨pending, hpending, -⟩ := h.target target hrun
      cases hslot.symm.trans hpending
    · obtain rfl := some.inj hpending
      exact Nat.zero_le _
  | some pending =>
    refine ⟨fun target hrun => ⟨_, rfl, ?_⟩, fun slot hmem => ?_⟩
    · obtain ⟨slot, hmem, rfl⟩ := h.target target hrun
      obtain rfl := some.inj (hslot.symm.trans hmem)
      exact Nat.max_eq_left (htime _ hrun)
    · obtain rfl := some.inj hmem
      by_cases hlarger : pending.serial < serial
      · simp only [if_pos hlarger]
        exact Nat.zero_le _
      · simp only [if_neg hlarger, Nat.max_eq_left (Nat.le_of_not_lt hlarger)]
        exact h.retries pending hslot

theorem Tracks.step {e : Event} (htime : w.InTime e) : (w.step e).Tracks := by
  rcases step_cases w e with ⟨serial, atMs, rfl, hnewer, hstep⟩ | ⟨mode, outcome, seen, facts, hrunning, hstep⟩ |
    ⟨hslot, hasked, hrun⟩
  · exact hstep ▸ h.notify (htime hnewer)
  · exact hstep ▸ (tracks_report h hrunning outcome _ facts).1
  · rw [← hslot] at hrun
    refine ⟨fun target hrunning => (hrun target hrunning).elim (fun hold => hslot ▸ h.target target hold) id, ?_⟩
    rw [hslot, hasked]
    exact h.retries

theorem Tracks.keepsNotice (e : Event) : w.KeepsNotice e := by
  intro pending hpending hdropped
  rcases step_cases w e with ⟨serial, atMs, rfl, -, hstep⟩ | ⟨mode, outcome, seen, facts, hrunning, hstep⟩ |
    ⟨hslot, -, -⟩
  · rw [hstep] at hdropped
    cases hdropped
  · rw [hstep] at hdropped ⊢
    refine ((tracks_report h hrunning outcome _ facts).2 pending hpending hdropped).imp_left fun hreached => ?_
    exact hreached.trans (Nat.min_le_right _ _)
  · cases hpending.symm.trans (hslot.symm.trans hdropped)

end Worker

/-- Whatever notices, rounds and reports come in which order: if no notice of a larger
serial that the directory lacks comes in while a round for a notice is running, a notice is dropped only when the
directory has its serial or after a round and all its retries that asked for it. -/
theorem keepsNotice_run (backgroundAtMs : Option ℤ) (serial : ℕ) (events : List Worker.Event)
    (h : AllSteps Worker.step Worker.InTime { schedule := { backgroundAtMs }, serial } events) :
    AllSteps Worker.step Worker.KeepsNotice { schedule := { backgroundAtMs }, serial } events := by
  have hstart : Worker.Tracks { schedule := { backgroundAtMs }, serial } :=
    ⟨fun _ hrun => (by cases hrun), fun _ hpending => (by cases hpending)⟩
  exact .of_invariant (I := Worker.Tracks) (fun _ _ hw htime => hw.step htime) (fun _ e hw _ => hw.keepsNotice e)
    events _ hstart h

/-! ### A notice during a round -/

def sampleFacts : RoundFacts := ⟨0, 1000, id⟩

/-- A notice and a round that does not find its serial. -/
def firstRound : List Worker.Event := [.notified 12 0, .startDue 0, .report .oldValues 10 sampleFacts]

/-- A second notice comes in between two rounds, and is there when the next one starts. -/
theorem keepsNotice_run_firstRound : AllSteps Worker.step Worker.KeepsNotice { schedule := {}, serial := 10 }
      (firstRound ++ [.notified 13 0, .startDue 0, .adopt 12, .report .adopted 12 sampleFacts]) := by
  refine keepsNotice_run none 10 _ ⟨?_, trivial, trivial, ?_, trivial, trivial, trivial, trivial⟩
  · intro _ target hrun
    cases hrun
  · intro _ target hrun
    cases hrun

/-- It comes in during the round for 12, which finds 12: nothing is pending any more,
the directory has 12, and no round has asked for 13. -/
theorem not_keepsNotice_duringRound :
    let w := run Worker.step { schedule := {}, serial := 10 } [.notified 12 0, .startDue 0,
      .notified 13 0, .adopt 12]
    ¬ w.KeepsNotice (.report .adopted 12 sampleFacts) := by
  intro w hkeeps
  have hlost := hkeeps ⟨13, 0, 0⟩ rfl rfl
  exact absurd hlost (by decide)

end FlareIm.Link
