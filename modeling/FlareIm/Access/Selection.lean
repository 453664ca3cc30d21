import Mathlib.Algebra.Order.Field.Rat
import Mathlib.Data.List.Sort
import Mathlib.Data.Prod.Lex
import Mathlib.Data.String.Basic

/-! How access points are ranked, and when to fail back. Those that are active, offer the
service and are not held back by their breaker are ranked by network tags, score and id; a
pinned one that is among them stands alone. Whether to fail back is a question to the same
ranking, asked without the pin and without the bonus of the current access point. Scores
are rational numbers here, and the health book is seen through the questions that the
selector asks. The random pick among the best ones is left out. -/

namespace FlareIm.Access.Select

/-! ### Directory and health -/

inductive Protocol
  | quic
  | ws
  deriving DecidableEq, Repr

inductive ApStatus
  | active
  | draining
  | disabled
  | unknown
  deriving DecidableEq, Repr

inductive ServiceKind
  | imWs
  | imQuic
  | coreApi
  | socialApi
  | media
  | ping
  deriving DecidableEq, Repr

structure AccessPointEntry where
  id : String
  weight : ℕ := 1
  priority : ℕ := 0
  status : ApStatus := .active
  tags : List String := []
  /-- The services that have an endpoint here. -/
  endpoints : List ServiceKind
  deriving DecidableEq, Repr

structure FailbackPolicy where
  minHealthySpanSec : ℕ := 300
  minImprovementRatio : ℚ := 1 / 5
  minIntervalSec : ℕ := 600
  deriving DecidableEq, Repr

/-- The part of the client policy that selection reads. -/
structure ClientPolicy where
  protocolOrder : List Protocol := [.quic, .ws]
  failback : FailbackPolicy := {}
  deriving DecidableEq, Repr

inductive BreakerView
  | closed
  | open (untilMs : ℤ)
  | halfOpen (trialAvailable : Bool)
  deriving DecidableEq, Repr

structure HealthView where
  rttMs : Option ℚ := none
  failureRatio : ℚ := 0
  breaker : BreakerView := .closed
  deriving DecidableEq, Repr

structure ProbeStreak where
  successes : ℕ := 0
  sinceMs : ℤ := 0
  deriving DecidableEq, Repr

/-- The health book on the network in use. -/
structure Health where
  view : String → ℤ → HealthView
  udpBlocked : ℤ → Bool
  probeStreak : String → ProbeStreak

/-- `plan_protocols`: the protocols to try, the last winner first. -/
def planProtocols (entry : AccessPointEntry) (policy : ClientPolicy) (winner : Option Protocol)
    (udpBlocked quicSupported : Bool) : List Protocol :=
  let available : Protocol → Bool
    | .quic => quicSupported && !udpBlocked && .imQuic ∈ entry.endpoints
    | .ws => .imWs ∈ entry.endpoints
  let order := policy.protocolOrder.filter available
  match winner with
  | some winner => if winner ∈ order then winner :: order.erase winner else order
  | none => order

/-! ### Ranking -/

structure ApInput where
  id : String
  weight : ℕ
  priority : ℕ
  status : ApStatus
  tags : List String
  offersService : Bool
  excluded : Bool
  health : HealthView
  deriving DecidableEq, Repr

structure RankParams where
  netTags : List String
  current : Option String
  pinned : Option String
  stickiness : Bool

inductive TagGroup
  | matched
  | untagged
  | other
  deriving DecidableEq, Repr

inductive FilterReason
  | notActive
  | noService
  | excluded
  | breakerOpen
  | trialInFlight
  | notPinned
  deriving DecidableEq, Repr

inductive PinOutcome
  | none
  | applied
  | unavailable
  deriving DecidableEq, Repr

structure RankedEntry where
  ap : ApInput
  /-- The place of the access point in the directory. -/
  index : ℕ
  score : ℚ
  group : TagGroup
  halfOpen : Bool
  deriving DecidableEq, Repr

structure Ranking where
  entries : List RankedEntry
  tierLen : ℕ
  filtered : List (ApInput × FilterReason)
  pin : PinOutcome

def TagGroup.order : TagGroup → ℕ
  | .matched => 0
  | .untagged => 1
  | .other => 2

/-- The order of a ranking: tag group, score, id. -/
def RankedEntry.key (e : RankedEntry) : ℕ ×ₗ (ℚ ×ₗ String) := toLex (e.group.order, toLex (e.score, e.ap.id))

def filterReason (ap : ApInput) : Option FilterReason :=
  if ap.status ≠ .active then some .notActive
  else if !ap.offersService then some .noService
  else if ap.excluded then some .excluded
  else
    match ap.health.breaker with
    | .open _ => some .breakerOpen
    | .halfOpen false => some .trialInFlight
    | _ => none

/-- The median of the round trips that are known. -/
def fallbackRtt (aps : List ApInput) : ℚ :=
  let known := (aps.filterMap (·.health.rttMs)).insertionSort (· ≤ ·)
  let middle := known.length / 2
  if known = [] then 300
  else if known.length % 2 = 0 then (known.getD (middle - 1) 0 + known.getD middle 0) / 2
  else known.getD middle 0

def score (rttMs failureRatio : ℚ) (priority : ℕ) (isCurrent stickiness : Bool) : ℚ :=
  rttMs * (1 + 3 * failureRatio) + 50 * priority - if isCurrent && stickiness then 30 else 0

def tierThreshold (least : ℚ) : ℚ := least + 1 / 5 * max least 0 + 20

def tagGroup (ap : ApInput) (netTags : List String) : TagGroup :=
  if ap.tags.any (· ∈ netTags) then .matched
  else if ap.tags = [] then .untagged
  else .other

def rankedEntry (fallbackRttMs : ℚ) (params : RankParams) (ap : ApInput) (index : ℕ) : RankedEntry where
  ap := ap
  index := index
  score := score (ap.health.rttMs.getD fallbackRttMs) ap.health.failureRatio ap.priority
    (params.current = some ap.id) params.stickiness
  group := tagGroup ap params.netTags
  halfOpen :=
    match ap.health.breaker with
    | .halfOpen _ => true
    | _ => false

/-- The place of the pinned access point, if it is available. -/
def pinnedIndex (aps : List ApInput) (pinned : String) : Option ℕ :=
  (aps.findIdx? (·.id = pinned)).filter fun index => (aps[index]?.bind filterReason).isNone

/-- Why an access point is left out. -/
def leftOut (pinnedIndex : Option ℕ) (ap : ApInput) (index : ℕ) : Option FilterReason :=
  match filterReason ap with
  | some reason => some reason
  | none => if pinnedIndex.any (· ≠ index) then some .notPinned else none

def rank (aps : List ApInput) (params : RankParams) : Ranking :=
  let fallbackRttMs := fallbackRtt aps
  let pinnedIndex := params.pinned.bind (pinnedIndex aps)
  let entries := (aps.zipIdx.filterMap fun (ap, index) =>
    if (leftOut pinnedIndex ap index).isNone then some (rankedEntry fallbackRttMs params ap index) else none)
      |>.insertionSort fun a b => a.key ≤ b.key
  { entries
    tierLen :=
      match entries with
      | [] => 0
      | best :: _ =>
        (entries.takeWhile fun entry =>
          entry.group = best.group ∧ entry.score ≤ tierThreshold best.score + 1 / 10 ^ 9).length
    filtered := aps.zipIdx.filterMap fun (ap, index) => (leftOut pinnedIndex ap index).map (ap, ·)
    pin :=
      if params.pinned.isNone then .none
      else if pinnedIndex.isSome then .applied
      else .unavailable }

/-! ### The selector -/

structure PinnedAccessPoint where
  apId : String
  expiresAtMs : ℤ
  deriving DecidableEq, Repr

/-- The directory in use, the health book and the pin. -/
structure Selector where
  entries : List AccessPointEntry
  policy : ClientPolicy
  health : Health
  quicSupported : Bool
  pin : Option PinnedAccessPoint

inductive FailbackHold
  | alreadyPreferred
  | noPreferred
  | notEnoughProbes
  | probeSpanTooShort
  | notBetterEnough
  | switchedRecently
  | notAtNaturalBoundary
  deriving DecidableEq, Repr

inductive FailbackDecision
  | switch
  | stay (hold : FailbackHold)
  deriving DecidableEq, Repr

structure FailbackInput where
  probeSuccesses : ℕ
  probeSpanMs : ℤ
  preferredScore : ℚ
  /-- No score stands for an infinite one. -/
  currentScore : Option ℚ
  foregrounded : Bool
  idleMs : ℤ
  sinceLastSwitchMs : ℤ

structure FailbackRequest where
  netTags : List String
  current : String
  foregrounded : Bool
  lastActivityMs : ℤ
  lastSwitchMs : ℤ
  nowMs : ℤ

structure FailbackVerdict where
  decision : FailbackDecision
  preferred : Option String
  deriving DecidableEq, Repr

def failbackMinProbes : ℕ := 3

def failbackIdleMs : ℤ := 60000

/-- The conditions to fail back, in the order in which they are looked at. -/
def evaluateFailback (input : FailbackInput) (policy : FailbackPolicy) : FailbackDecision :=
  if input.probeSuccesses < failbackMinProbes then .stay .notEnoughProbes
  else if input.probeSpanMs < policy.minHealthySpanSec * 1000 then .stay .probeSpanTooShort
  else if input.currentScore.any
      fun current => current * (1 - policy.minImprovementRatio) < input.preferredScore then
    .stay .notBetterEnough
  else if input.sinceLastSwitchMs < policy.minIntervalSec * 1000 then .stay .switchedRecently
  else if !input.foregrounded && input.idleMs < failbackIdleMs then .stay .notAtNaturalBoundary
  else .switch

namespace Selector

variable (s : Selector)

def pinned (nowMs : ℤ) : Option PinnedAccessPoint := s.pin.filter (nowMs < ·.expiresAtMs)

/-- The protocols of an access point; a failback check does not ask for the winner. -/
def plan (entry : AccessPointEntry) (nowMs : ℤ) (winner : Option Protocol) : List Protocol :=
  planProtocols entry s.policy winner (s.health.udpBlocked nowMs) s.quicSupported

def input (entry : AccessPointEntry) (nowMs : ℤ) (offersService excluded : Bool) : ApInput where
  id := entry.id
  weight := entry.weight
  priority := entry.priority
  status := entry.status
  tags := entry.tags
  offersService := offersService
  excluded := excluded
  health := s.health.view entry.id nowMs

def failbackInputs (nowMs : ℤ) : List ApInput :=
  s.entries.map fun entry => s.input entry nowMs (s.plan entry nowMs none ≠ []) false

/-- The ranking of a failback check knows no pin and gives no bonus. -/
def failbackRanking (request : FailbackRequest) : Ranking :=
  rank (s.failbackInputs request.nowMs) ⟨request.netTags, some request.current, none, false⟩

def evaluateFailback (request : FailbackRequest) : FailbackVerdict :=
  let ranking := s.failbackRanking request
  match ranking.entries with
  | [] => ⟨.stay .noPreferred, none⟩
  | best :: _ =>
    if best.ap.id = request.current then ⟨.stay .alreadyPreferred, some best.ap.id⟩
    else
      let streak := s.health.probeStreak best.ap.id
      let decision := Select.evaluateFailback
        { probeSuccesses := streak.successes
          probeSpanMs := if streak.successes = 0 then 0 else request.nowMs - streak.sinceMs
          preferredScore := best.score
          currentScore := (ranking.entries.find? (·.ap.id = request.current)).map (·.score)
          foregrounded := request.foregrounded
          idleMs := request.nowMs - request.lastActivityMs
          sinceLastSwitchMs := request.nowMs - request.lastSwitchMs }
        s.policy.failback
      ⟨decision, some best.ap.id⟩

end Selector

end FlareIm.Access.Select
