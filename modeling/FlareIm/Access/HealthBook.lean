import FlareIm.Access.Selection
import FlareIm.Lib.Run
import Mathlib.Data.Rat.Floor

/-! The health book keeps for every access point on every network the round trip, the latest
results as a bitmap, the breaker and the streak of probes. Here is what `record` does to one
such entry; finding the entry, its eviction and what a network is known to do to UDP are left
out. Times are unbounded, ratios are rational numbers, and the counters, which are `u32` in the
source, stand for those of fewer than 2 ^ 32 results in a row. -/

namespace FlareIm.Access.Select

open Lib

/-! ### Observations -/

inductive AttemptKind
  | handshake (protocol : Protocol)
  | heartbeat
  | http
  | probe
  deriving DecidableEq, Repr

inductive Outcome
  | success (rttMs : Option ℕ)
  | failure
  | neutral
  deriving DecidableEq, Repr

structure Observation where
  kind : AttemptKind
  outcome : Outcome
  deriving DecidableEq, Repr

/-- Whether it can open or close a breaker. -/
def Observation.decides (o : Observation) : Bool :=
  match o.outcome with
  | .success _ => o.kind ≠ .heartbeat
  | .failure => true
  | .neutral => false

/-! ### The breaker -/

structure BreakerPolicy where
  failureThreshold : ℕ := 3
  failureRatio : ℚ := 1 / 2
  cooldownBaseSec : ℕ := 30
  cooldownMaxSec : ℕ := 600
  deriving DecidableEq, Repr

inductive BreakerPhase
  | closed
  | open
  | halfOpen
  deriving DecidableEq, Repr

inductive BreakerTransition
  | opened (untilMs : ℤ) (cooldownMs : ℕ)
  | reopened (untilMs : ℤ) (cooldownMs : ℕ)
  | closed
  deriving DecidableEq, Repr

structure Breaker where
  openUntilMs : Option ℤ := none
  cooldownMs : ℕ := 0
  /-- Kept in memory only. -/
  trialClaimedAtMs : Option ℤ := none
  deriving DecidableEq, Repr

def trialLeaseMs : ℤ := 30000

def clampUnit (unit : ℚ) : ℚ :=
  if unit < 0 then 0 else if 1 ≤ unit then 1 - 1 / 2 ^ 52 else unit

/-- Rounded half up; the cooldown is not negative. -/
def jittered (cooldownMs : ℕ) (unit : ℚ) : ℤ :=
  ⌊cooldownMs * (4 / 5 + 2 / 5 * clampUnit unit) + 1 / 2⌋

namespace Breaker

variable (b : Breaker) (nowMs : ℤ)

def phase : BreakerPhase :=
  match b.openUntilMs with
  | none => .closed
  | some untilMs => if nowMs < untilMs then .open else .halfOpen

def trialAvailable : Bool :=
  b.phase nowMs = .halfOpen ∧ b.trialClaimedAtMs.all fun claimed => trialLeaseMs ≤ nowMs - claimed

def claimTrial : Bool × Breaker :=
  match b.phase nowMs with
  | .closed => (true, b)
  | .open => (false, b)
  | .halfOpen =>
    if b.trialAvailable nowMs then (true, { b with trialClaimedAtMs := some nowMs }) else (false, b)

def onFailure (trip : Bool) (policy : BreakerPolicy) (unit : ℚ) : Breaker × Option BreakerTransition :=
  let baseMs := policy.cooldownBaseSec * 1000
  let maxMs := policy.cooldownMaxSec * 1000
  match b.phase nowMs with
  | .closed =>
    if trip then
      let untilMs := nowMs + jittered baseMs unit
      (⟨some untilMs, baseMs, none⟩, some (.opened untilMs baseMs))
    else (b, none)
  | .open => (b, none)
  | .halfOpen =>
    let cooldownMs := min (max b.cooldownMs baseMs * 2) maxMs
    let untilMs := nowMs + jittered cooldownMs unit
    (⟨some untilMs, cooldownMs, none⟩, some (.reopened untilMs cooldownMs))

def onSuccess : Breaker × Option BreakerTransition :=
  if b.phase nowMs = .halfOpen then ({}, some .closed) else (b, none)

def onNeutral : Breaker := { b with trialClaimedAtMs := none }

end Breaker

/-! ### Entries -/

/-- The latest results, one bit each, with 1 for a failure. -/
structure OutcomeWindow where
  bits : ℕ := 0
  len : ℕ := 0
  deriving DecidableEq, Repr

def windowSize : ℕ := 20

def minRatioSamples : ℕ := 10

def rttStaleAfterMs : ℤ := 1800000

def windowStaleAfterMs : ℤ := 86400000

namespace OutcomeWindow

variable (w : OutcomeWindow)

def push (failure : Bool) : OutcomeWindow :=
  ⟨(w.bits <<< 1 ||| failure.toNat) &&& (2 ^ windowSize - 1), min (w.len + 1) windowSize⟩

/-- The number of ones in the 32 bits. -/
def failures : ℕ := (List.range 32).countP (w.bits &&& (2 ^ w.len - 1)).testBit

def ratio : ℚ := if w.len = 0 then 0 else w.failures / w.len

end OutcomeWindow

def trips (consecutiveFailures : ℕ) (window : OutcomeWindow) (policy : BreakerPolicy) : Bool :=
  policy.failureThreshold ≤ consecutiveFailures ∨
    minRatioSamples ≤ window.len ∧ policy.failureRatio ≤ window.ratio

/-- The entry of an access point, with its key. -/
structure ApHealth where
  ap : String
  rttEwmaMs : Option ℚ := none
  rttUpdatedMs : ℤ := 0
  window : OutcomeWindow := {}
  consecutiveFailures : ℕ := 0
  breaker : Breaker := {}
  protocolWinner : Option Protocol := none
  probeStreak : ProbeStreak := {}
  lastResultMs : Option ℤ := none
  touchedMs : ℤ := 0
  dirty : Bool := false
  deriving DecidableEq, Repr

namespace ApHealth

variable (h : ApHealth) (nowMs : ℤ)

def rtt : Option ℚ := h.rttEwmaMs.filter fun _ => nowMs - h.rttUpdatedMs ≤ rttStaleAfterMs

def windowIsStale : Bool := h.lastResultMs.any fun last => windowStaleAfterMs < nowMs - last

def sampleRtt (sampleMs : ℕ) : ApHealth :=
  { h with
    rttEwmaMs := some (match h.rtt nowMs with
      | some previous => 3 / 10 * sampleMs + 7 / 10 * previous
      | none => sampleMs)
    rttUpdatedMs := nowMs }

/-- A stale window is emptied by any observation. -/
def refresh : ApHealth :=
  if h.windowIsStale nowMs then { h with window := {}, consecutiveFailures := 0 } else h

def onSuccess (kind : AttemptKind) (rttMs : Option ℕ) : ApHealth × Option BreakerTransition :=
  let h := rttMs.elim h (h.sampleRtt nowMs)
  let (breaker, transition) := if kind = .heartbeat then (h.breaker, none) else h.breaker.onSuccess nowMs
  let h :=
    if kind = .heartbeat then h
    else
      { h with
        breaker
        window := (if transition = some .closed then {} else h.window).push false
        consecutiveFailures := 0
        lastResultMs := some nowMs }
  (match kind with
    | .handshake protocol => { h with protocolWinner := some protocol }
    | .probe =>
      { h with probeStreak :=
          ⟨h.probeStreak.successes + 1, if h.probeStreak.successes = 0 then nowMs else h.probeStreak.sinceMs⟩ }
    | _ => h, transition)

def onFailure (policy : BreakerPolicy) (unit : ℚ) : ApHealth × Option BreakerTransition :=
  let window := h.window.push true
  let consecutiveFailures := h.consecutiveFailures + 1
  let (breaker, transition) :=
    h.breaker.onFailure nowMs (trips consecutiveFailures window policy) policy unit
  ({ h with window, consecutiveFailures, breaker, lastResultMs := some nowMs, probeStreak := {} }, transition)

/-- What `record` does to the entry. -/
def observe (policy : BreakerPolicy) (unit : ℚ) (observation : Observation) : ApHealth × Option BreakerTransition :=
  let h := { h with touchedMs := nowMs }.refresh nowMs
  let (h, transition) :=
    match observation.outcome with
    | .success rttMs => h.onSuccess nowMs observation.kind rttMs
    | .failure => h.onFailure nowMs policy unit
    | .neutral => ({ h with breaker := h.breaker.onNeutral }, none)
  ({ h with dirty := true }, transition)

end ApHealth

structure Recorded where
  observation : Observation
  nowMs : ℤ
  policy : BreakerPolicy := {}
  unit : ℚ := 0

def ApHealth.record (h : ApHealth) (r : Recorded) : ApHealth × Option BreakerTransition :=
  h.observe r.nowMs r.policy r.unit r.observation

/-! ### Trials -/

/-- The entry of an access point, and the request that holds the trial since its claim. -/
structure Trial where
  health : ApHealth
  holder : Option (ℕ × ℤ) := none

namespace Trial

inductive Event
  | claim (request : ℕ) (nowMs : ℤ)
  | record (request : ℕ) (recorded : Recorded)

variable (s : Trial)

def holds (request : ℕ) : Bool := s.holder.any (·.1 = request)

/-- A trial ends with a result of its holder that decides, or with one that is neutral. -/
def step : Event → Trial
  | .claim request nowMs =>
    let (granted, breaker) := s.health.breaker.claimTrial nowMs
    ⟨{ s.health with breaker },
      if granted ∧ s.health.breaker.phase nowMs = .halfOpen then some (request, nowMs) else s.holder⟩
  | .record request r =>
    let (health, transition) := s.health.record r
    ⟨health, if s.holds request ∧ (transition ≠ none ∨ r.observation.outcome = .neutral) then none else s.holder⟩

/-- No second trial is granted while one is held, and a half-open breaker is closed or opened
again by the holder's result only. -/
def OneTrial : Event → Prop
  | .claim _ nowMs => ∀ holder ∈ s.holder, nowMs - holder.2 < trialLeaseMs →
      s.health.breaker.phase nowMs = .halfOpen →
      (s.health.breaker.claimTrial nowMs).1 = false
  | .record request r => s.health.breaker.phase r.nowMs = .halfOpen → (s.health.record r).2 ≠ none → s.holds request

/-- Results of other requests that can decide do not come while the breaker is half-open, and
neutral ones not while a trial is held. -/
def HoldersOnly : Event → Prop
  | .claim .. => True
  | .record request r => s.holds request ∨
      (r.observation.decides → s.health.breaker.phase r.nowMs ≠ .halfOpen) ∧
        (r.observation.outcome = .neutral → s.holder = none)

/-- A trial that is held is claimed, of a breaker that is not closed. -/
def Claimed : Prop :=
  ∀ holder ∈ s.holder, s.health.breaker.trialClaimedAtMs = some holder.2 ∧ s.health.breaker.openUntilMs ≠ none

end Trial

theorem ApHealth.refresh_breaker (h : ApHealth) (nowMs : ℤ) : (h.refresh nowMs).breaker = h.breaker := by
  unfold refresh
  split <;> rfl

/-- A result decides, or it is neutral, or the breaker stays as it is. -/
theorem ApHealth.record_cases (h : ApHealth) (r : Recorded) :
    (h.record r).2 ≠ none ∧ h.breaker.phase r.nowMs ≠ .open ∧ r.observation.decides ∨
      (h.record r).2 = none ∧ (r.observation.outcome = .neutral ∨ (h.record r).1.breaker = h.breaker) := by
  obtain ⟨⟨kind, outcome⟩, nowMs, policy, unit⟩ := r
  have hrefresh : ({ h with touchedMs := nowMs }.refresh nowMs).breaker = h.breaker := refresh_breaker _ nowMs
  unfold record observe
  dsimp only
  generalize ApHealth.refresh _ nowMs = h' at hrefresh ⊢
  cases outcome with
  | neutral => exact .inr ⟨rfl, .inl rfl⟩
  | failure =>
    unfold onFailure Breaker.onFailure
    rw [hrefresh]
    dsimp only
    cases hphase : h.breaker.phase nowMs with
    | closed =>
      dsimp only
      split
      · exact .inl ⟨by simp, by simp, rfl⟩
      · exact .inr ⟨rfl, .inr rfl⟩
    | «open» => exact .inr ⟨rfl, .inr rfl⟩
    | halfOpen => exact .inl ⟨by simp, by simp, rfl⟩
  | success rttMs =>
    unfold onSuccess Breaker.onSuccess
    dsimp only
    cases rttMs <;> cases kind <;> by_cases hphase : h.breaker.phase nowMs = .halfOpen <;>
      simp [sampleRtt, hrefresh, hphase, Observation.decides]

namespace Trial

variable {s : Trial} {e : Event}

theorem claimed_step (h : s.Claimed) (he : s.HoldersOnly e) : (s.step e).Claimed := by
  cases e with
  | claim request nowMs =>
    cases hphase : s.health.breaker.phase nowMs with
    | halfOpen =>
      have hopen : s.health.breaker.openUntilMs ≠ none := fun hnone => by simp [Breaker.phase, hnone] at hphase
      by_cases havailable : s.health.breaker.trialAvailable nowMs = true
      · simpa [Claimed, step, Breaker.claimTrial, hphase, havailable] using hopen
      · simpa [Claimed, step, Breaker.claimTrial, hphase, havailable] using h
    | _ => simpa [Claimed, step, Breaker.claimTrial, hphase] using h
  | record request r =>
    intro holder hholder
    simp only [step] at hholder
    split at hholder
    · cases hholder
    · next hnot =>
      obtain ⟨hclaimed, hopen⟩ := h holder hholder
      rcases s.health.record_cases r with ⟨hmoves, hphase, hdecides⟩ | ⟨-, hneutral | hsame⟩
      · rcases he with hholds | ⟨hother, -⟩
        · exact absurd ⟨hholds, .inl hmoves⟩ hnot
        · obtain ⟨untilMs, huntil⟩ := Option.ne_none_iff_exists'.mp hopen
          have hother := hother hdecides
          simp only [Breaker.phase, huntil] at hphase hother
          split at hphase <;> simp_all
      · rcases he with hholds | ⟨-, hother⟩
        · exact absurd ⟨hholds, .inr hneutral⟩ hnot
        · rw [hother hneutral] at hholder
          cases hholder
      · simp only [step, hsame]
        exact ⟨hclaimed, hopen⟩

theorem oneTrial (h : s.Claimed) (he : s.HoldersOnly e) : s.OneTrial e := by
  cases e with
  | claim request nowMs =>
    intro holder hholder hlease hphase
    obtain ⟨hclaimed, -⟩ := h holder hholder
    have hnot : s.health.breaker.trialAvailable nowMs = false := by
      simp [Breaker.trialAvailable, hclaimed, hlease]
    rw [Breaker.claimTrial, hphase]
    simp [hnot]
  | record request r =>
    intro hphase hmoves
    rcases s.health.record_cases r with ⟨-, -, hdecides⟩ | ⟨hstays, -⟩
    · exact he.resolve_right fun hother => hother.1 hdecides hphase
    · exact absurd hstays hmoves

end Trial

/-- The breaker of this access point has cooled down. -/
def cooledDown : ApHealth := { ap := "a", breaker := { openUntilMs := some 0 } }

namespace OutcomeWindow

/-- The window after some results, the latest one first. -/
def after : List Bool → OutcomeWindow
  | [] => {}
  | failure :: earlier => (after earlier).push failure

theorem testBit_after (results : List Bool) (i : ℕ) :
    (after results).bits.testBit i = (results.take windowSize)[i]?.getD false := by
  induction results generalizing i with
  | nil => simp [after]
  | cons failure earlier ih =>
    rw [after, push, Nat.testBit_and, Nat.testBit_two_pow_sub_one, Nat.testBit_or, Nat.testBit_shiftLeft]
    cases i with
    | zero => cases failure <;> simp [windowSize]
    | succ i => cases failure <;> simp [ih, List.getElem?_take] <;> grind

theorem len_after (results : List Bool) : (after results).len = min results.length windowSize := by
  induction results with
  | nil => rfl
  | cons failure earlier ih =>
    simp only [after, push, ih, List.length_cons]
    omega

theorem countP_range_getD (l : List Bool) (n : ℕ) (h : l.length ≤ n) :
    (List.range n).countP (fun i => l[i]?.getD false) = l.count true := by
  induction l generalizing n with
  | nil => simp
  | cons b l ih =>
    obtain ⟨n, rfl⟩ : ∃ m, n = m + 1 := ⟨n - 1, by simp at h; omega⟩
    rw [List.range_succ_eq_map, List.countP_cons, List.countP_map, List.count_cons]
    simp [Function.comp_def, ih n (by simpa using h)]

theorem failures_after (results : List Bool) : (after results).failures = (results.take windowSize).count true := by
  rw [failures, len_after, ← countP_range_getD _ 32 (by simp [windowSize])]
  refine List.countP_congr fun i _ => ?_
  rw [Nat.testBit_and, Nat.testBit_two_pow_sub_one, testBit_after, List.getElem?_take]
  grind

end OutcomeWindow

/-- An entry and the results that it counts, the latest one first. -/
structure Counting where
  health : ApHealth
  results : List Bool := []

namespace Counting

/-- A long silence and a success that closes the breaker leave nothing of the results before them. -/
def record (s : Counting) (r : Recorded) : Counting :=
  let results := if s.health.windowIsStale r.nowMs then [] else s.results
  { health := (s.health.record r).1
    results :=
      match r.observation.outcome with
      | .success _ =>
        if r.observation.kind = .heartbeat then results
        else false :: if (s.health.record r).2 = some .closed then [] else results
      | .failure => true :: results
      | .neutral => results }

def Agrees (s : Counting) : Prop :=
  s.health.window = .after s.results ∧ s.health.consecutiveFailures = (s.results.takeWhile id).length

theorem agrees_record (s : Counting) (r : Recorded) (h : s.Agrees) : (s.record r).Agrees := by
  obtain ⟨⟨kind, outcome⟩, nowMs, policy, unit⟩ := r
  have hrefresh : Agrees ⟨{ s.health with touchedMs := nowMs }.refresh nowMs,
      if s.health.windowIsStale nowMs then [] else s.results⟩ := by
    change Agrees ⟨if s.health.windowIsStale nowMs then _ else _, _⟩
    split
    · exact ⟨rfl, rfl⟩
    · exact h
  unfold record ApHealth.record ApHealth.observe
  dsimp only
  generalize ApHealth.refresh _ nowMs = health at hrefresh ⊢
  generalize ite (s.health.windowIsStale nowMs = true) _ _ = results at hrefresh ⊢
  obtain ⟨hwindow, hrun⟩ := hrefresh
  cases outcome with
  | neutral => exact ⟨hwindow, hrun⟩
  | failure => simp_all [Agrees, ApHealth.onFailure, OutcomeWindow.after]
  | success rttMs =>
    unfold ApHealth.onSuccess
    cases rttMs <;> cases kind <;> simp_all [Agrees, ApHealth.sampleRtt] <;> split <;> rfl

end Counting

/-- Whatever is recorded of an access point, its bitmap tells of the latest twenty results that
count, and its counter of the failures since the last success among them. -/
theorem record_run (ap : String) (recorded : List Recorded) :
    let s := run Counting.record ⟨{ ap }, []⟩ recorded
    s.health.window.len = (s.results.take windowSize).length ∧
      s.health.window.failures = (s.results.take windowSize).count true ∧
      s.health.consecutiveFailures = (s.results.takeWhile id).length := by
  obtain ⟨hwindow, hrun⟩ := run_invariant (I := Counting.Agrees) (c := fun _ _ => True)
    (fun s r h _ => s.agrees_record r h) recorded ⟨{ ap }, []⟩ ⟨rfl, rfl⟩ (.intro fun _ _ => trivial)
  refine ⟨?_, ?_, hrun⟩
  · rw [hwindow, OutcomeWindow.len_after, List.length_take, min_comm]
  · rw [hwindow, OutcomeWindow.failures_after]

end FlareIm.Access.Select
