import FlareIm.Access.Selection

/-! Failing back: while the link is ready, the supervisor asks from time to time whether another access point has
become better, and if so gives up the link it has. The comparison ranks the access points without the pin. -/

namespace FlareIm.Link

open Access.Select List

inductive LinkPhase
  | idle
  | resolving
  | connecting
  | authenticating
  | syncing
  | ready
  | degraded
  | backoff
  | recovering
  | suspended
  | terminated
  deriving DecidableEq, Repr

/-- What a failback check of the supervisor reads and writes. -/
structure FailbackLink where
  phase : LinkPhase
  /-- The access point of the live link. -/
  live : Option String
  epoch : ℕ
  lastSwitchMs : ℤ
  /-- What the round of attempts that was begun prefers. -/
  round : Option (List String) := none
  /-- The access points that are probed in the background. -/
  probes : List String := []
  deriving DecidableEq, Repr

namespace FailbackLink

variable (kernel : Option Selector) (netTags : List String) (lastActivityMs nowMs : ℤ) (s : FailbackLink)

def switchAway (prefer : List String) : FailbackLink :=
  { s with
    live := none
    epoch := if s.live.isSome then s.epoch + 1 else s.epoch
    lastSwitchMs := nowMs
    phase := .resolving
    round := some prefer }

def checkFailback (foregrounded : Bool) : FailbackLink :=
  match s.live, kernel with
  | some live, some kernel =>
    if s.phase ≠ .ready then s
    else
      let verdict := kernel.evaluateFailback ⟨netTags, live, foregrounded, lastActivityMs, s.lastSwitchMs, nowMs⟩
      match verdict.decision, verdict.preferred with
      | .switch, some preferred => s.switchAway nowMs [preferred]
      | .stay .notEnoughProbes, some preferred => { s with probes := preferred :: s.probes }
      | .stay .probeSpanTooShort, some preferred => { s with probes := preferred :: s.probes }
      | _, _ => s
  | _, _ => s

end FailbackLink

/-! ### When a check switches -/

variable (k : Selector) (request : FailbackRequest)

/-- The access points that a check compares, pinned or not. -/
def selectable : List ApInput := (k.failbackInputs request.nowMs).filter fun ap => (filterReason ap).isNone

/-- Where an access point ranks, without the pin and without the bonus of the current one. -/
def place (ap : ApInput) : RankedEntry :=
  rankedEntry (fallbackRtt (k.failbackInputs request.nowMs))
    ⟨request.netTags, some request.current, none, false⟩ ap 0

/-- The access point in use, and of several under its id the first one. -/
structure IsCurrent (ap : ApInput) : Prop where
  selectable : ap ∈ selectable k request
  id : ap.id = request.current
  first : ∀ other ∈ Link.selectable k request, other.id = request.current →
    (place k request ap).key ≤ (place k request other).key

/-- Another access point ranks first, is better by the ratio of the policy and was probed long enough, the
last switch is long ago, and the app has just come to the foreground or is idle. -/
structure FailsBackTo (best : ApInput) : Prop where
  selectable : best ∈ selectable k request
  first : ∀ ap ∈ Link.selectable k request, (place k request best).key ≤ (place k request ap).key
  other : best.id ≠ request.current
  probed : failbackMinProbes ≤ (k.health.probeStreak best.id).successes
  healthy : k.policy.failback.minHealthySpanSec * 1000 ≤ request.nowMs - (k.health.probeStreak best.id).sinceMs
  better : ∀ ap, IsCurrent k request ap →
    (place k request best).score ≤ (place k request ap).score * (1 - k.policy.failback.minImprovementRatio)
  settled : k.policy.failback.minIntervalSec * 1000 ≤ request.nowMs - request.lastSwitchMs
  boundary : request.foregrounded = true ∨ failbackIdleMs ≤ request.nowMs - request.lastActivityMs

section Switch

variable {k request}

theorem id_score_of_key {a b : RankedEntry} (h : a.key = b.key) : a.ap.id = b.ap.id ∧ a.score = b.score := by
  simp only [RankedEntry.key, EmbeddingLike.apply_eq_iff_eq, Prod.mk.injEq] at h
  exact ⟨h.2.2, h.2.1⟩

theorem leftOut_none {ap : ApInput} {index : ℕ} : (leftOut none ap index).isNone = (filterReason ap).isNone := by
  unfold leftOut
  cases filterReason ap <;> rfl

/-- What is ranked is selectable, and ranks by its place. -/
theorem place_of_mem_entries {x : RankedEntry} (h : x ∈ (k.failbackRanking request).entries) :
    x.ap ∈ selectable k request ∧ x.key = (place k request x.ap).key ∧ x.score = (place k request x.ap).score := by
  obtain ⟨⟨ap, index⟩, hap, hx⟩ := mem_filterMap.mp ((mem_insertionSort _).mp h)
  rw [Option.ite_none_right_eq_some] at hx
  obtain ⟨hselectable, hx⟩ := hx
  obtain rfl := Option.some.inj hx
  rw [Option.bind_none, leftOut_none] at hselectable
  exact ⟨mem_filter.mpr ⟨fst_mem_of_mem_zipIdx hap, hselectable⟩, rfl, rfl⟩

theorem exists_mem_entries {ap : ApInput} (h : ap ∈ selectable k request) :
    ∃ x ∈ (k.failbackRanking request).entries, x.ap = ap := by
  obtain ⟨hap, hselectable⟩ := mem_filter.mp h
  obtain ⟨index, hindex⟩ := mem_iff_getElem?.mp hap
  refine ⟨_, (mem_insertionSort _).mpr (mem_filterMap.mpr
    ⟨_, mk_mem_zipIdx_iff_getElem?.mpr hindex, if_pos ?_⟩), rfl⟩
  rw [Option.bind_none, leftOut_none]
  exact hselectable

theorem pairwise_entries : (k.failbackRanking request).entries.Pairwise fun a b => a.key ≤ b.key := by
  have : Std.Total fun a b : RankedEntry => a.key ≤ b.key := ⟨fun a b => le_total a.key b.key⟩
  have : IsTrans RankedEntry fun a b => a.key ≤ b.key := ⟨fun _ _ _ => le_trans⟩
  exact pairwise_insertionSort _ _

/-- The first entry that has a property ranks before all others that have it. -/
theorem key_le_of_find? {entries : List RankedEntry} (hsorted : entries.Pairwise fun a b => a.key ≤ b.key)
    {p : RankedEntry → Bool} {first x : RankedEntry} (hfirst : entries.find? p = some first) (hx : x ∈ entries)
    (hp : p x = true) : first.key ≤ x.key := by
  obtain ⟨-, before, after, rfl, hbefore⟩ := find?_eq_some_iff_append.mp hfirst
  rcases mem_append.mp hx with hx | hx
  · exact absurd hp (by simpa using hbefore x hx)
  · rcases mem_cons.mp hx with rfl | hx
    · exact le_rfl
    · exact (pairwise_cons.mp (pairwise_append.mp hsorted).2.1).1 x hx

/-- The score that is compared with is that of the current access point. -/
theorem better_iff {best : ℚ} :
    (((k.failbackRanking request).entries.find? (·.ap.id = request.current)).map (·.score)).any
        (fun current => current * (1 - k.policy.failback.minImprovementRatio) < best) = false ↔
      ∀ ap, IsCurrent k request ap →
      best ≤ (place k request ap).score * (1 - k.policy.failback.minImprovementRatio) := by
  cases hfind : (k.failbackRanking request).entries.find? (·.ap.id = request.current) with
  | none =>
    refine iff_of_true rfl fun ap hap => ?_
    obtain ⟨x, hx, rfl⟩ := exists_mem_entries hap.selectable
    exact absurd (decide_eq_true hap.id) (find?_eq_none.mp hfind x hx)
  | some current =>
    have hmem := mem_of_find?_eq_some hfind
    obtain ⟨hselectable, hkey, hscore⟩ := place_of_mem_entries hmem
    have hcurrent : IsCurrent k request current.ap := by
      refine ⟨hselectable, by simpa using find?_some hfind, fun other hother hid => ?_⟩
      obtain ⟨x, hx, rfl⟩ := exists_mem_entries hother
      rw [← hkey, ← (place_of_mem_entries hx).2.1]
      exact key_le_of_find? pairwise_entries hfind hx (decide_eq_true hid)
    have hsame : ∀ ap, IsCurrent k request ap → (place k request ap).score = current.score := fun ap hap => by
      rw [hscore]
      exact (id_score_of_key (le_antisymm (hap.first _ hselectable hcurrent.id)
        (hcurrent.first _ hap.selectable hap.id))).2
    simp only [Option.map_some, Option.any_some, decide_eq_false_iff_not, not_lt]
    exact ⟨fun h ap hap => by rwa [hsame ap hap], fun h => by simpa only [hsame _ hcurrent] using h _ hcurrent⟩

theorem evaluateFailback_eq_switch_iff {input : FailbackInput} {policy : FailbackPolicy} :
    evaluateFailback input policy = .switch ↔ failbackMinProbes ≤ input.probeSuccesses ∧
      policy.minHealthySpanSec * 1000 ≤ input.probeSpanMs ∧
      input.currentScore.any (fun current => current * (1 - policy.minImprovementRatio) <
      input.preferredScore) = false ∧
      policy.minIntervalSec * 1000 ≤ input.sinceLastSwitchMs ∧
      (input.foregrounded = true ∨ failbackIdleMs ≤ input.idleMs) := by
  have hstay : ∀ (c : Prop) [Decidable c] (hold : FailbackHold) (rest : FailbackDecision),
      (if c then .stay hold else rest) = FailbackDecision.switch ↔ ¬c ∧ rest = .switch := fun c _ hold rest => by
    split_ifs with hc <;> simp [hc]
  simp only [evaluateFailback, hstay, not_lt, Bool.not_eq_true, and_true]
  cases input.foregrounded <;> simp

theorem preferred_of_switch (h : (k.evaluateFailback request).decision = .switch) :
    (k.evaluateFailback request).preferred.isSome = true := by
  unfold Selector.evaluateFailback at h ⊢
  dsimp only at h ⊢
  split at h
  · cases h
  · split <;> rfl

theorem switch_iff : (k.evaluateFailback request).decision = .switch ↔ ∃ best, FailsBackTo k request best := by
  unfold Selector.evaluateFailback
  have hbetter := @better_iff k request
  have hsorted := @pairwise_entries k request
  have hmem := @place_of_mem_entries k request
  have hexists := @exists_mem_entries k request
  dsimp only
  generalize (k.failbackRanking request).entries = entries at hbetter hsorted hmem hexists
  cases entries with
  | nil =>
    refine iff_of_false nofun fun ⟨best, hbest⟩ => ?_
    obtain ⟨x, hx, -⟩ := hexists hbest.selectable
    cases hx
  | cons e rest =>
    obtain ⟨hselectable, hkey, hscore⟩ := hmem mem_cons_self
    -- whatever ranks first has the id and the score of the head
    have hfirst : ∀ ap ∈ selectable k request, (place k request e.ap).key ≤ (place k request ap).key :=
      fun ap hap => by
      obtain ⟨x, hx, rfl⟩ := hexists hap
      rw [← hkey, ← (hmem hx).2.1]
      rcases mem_cons.mp hx with rfl | hx
      · exact le_rfl
      · exact (pairwise_cons.mp hsorted).1 x hx
    have hhead : ∀ best, FailsBackTo k request best → best.id = e.ap.id ∧ (place k request best).score = e.score :=
      fun best hbest => hscore ▸ id_score_of_key
        (le_antisymm (hbest.first _ hselectable) (hfirst best hbest.selectable))
    dsimp only
    by_cases hid : e.ap.id = request.current
    · rw [if_pos hid]
      exact iff_of_false nofun fun ⟨best, hbest⟩ => hbest.other ((hhead best hbest).1.trans hid)
    · rw [if_neg hid]
      dsimp only
      rw [evaluateFailback_eq_switch_iff]
      dsimp only
      rw [hbetter]
      have hzero (h : failbackMinProbes ≤ (k.health.probeStreak e.ap.id).successes) :
          (k.health.probeStreak e.ap.id).successes ≠ 0 := Nat.ne_of_gt (Nat.lt_of_lt_of_le (by decide) h)
      constructor
      · rintro ⟨hprobed, hhealthy, hscores, hsettled, hboundary⟩
        rw [if_neg (hzero hprobed)] at hhealthy
        exact ⟨e.ap, hselectable, hfirst, hid, hprobed, hhealthy, hscore ▸ hscores, hsettled, hboundary⟩
      · rintro ⟨best, hbest⟩
        obtain ⟨hsame, hequal⟩ := hhead best hbest
        have hprobed := hsame ▸ hbest.probed
        rw [if_neg (hzero hprobed), ← hequal]
        exact ⟨hprobed, hsame ▸ hbest.healthy, hbest.better, hbest.settled, hbest.boundary⟩

end Switch

/-- A check leaves the link alone exactly when it is not ready or no other access point meets all the conditions.
The pin is none of them. -/
theorem live_checkFailback (netTags : List String) (lastActivityMs nowMs : ℤ) (s : FailbackLink)
    (foregrounded : Bool) :
    (s.checkFailback (some k) netTags lastActivityMs nowMs foregrounded).live = s.live ↔
    ∀ live ∈ s.live, s.phase = .ready →
      ¬∃ best, FailsBackTo k ⟨netTags, live, foregrounded, lastActivityMs, s.lastSwitchMs, nowMs⟩ best := by
  cases hlive : s.live with
  | none => simp [FailbackLink.checkFailback, hlive]
  | some live =>
    unfold FailbackLink.checkFailback
    simp only [hlive, Option.mem_some_iff, forall_eq', ← switch_iff]
    have hpreferred := @preferred_of_switch k ⟨netTags, live, foregrounded, lastActivityMs, s.lastSwitchMs, nowMs⟩
    generalize k.evaluateFailback _ = verdict at hpreferred
    obtain ⟨decision, preferred⟩ := verdict
    split_ifs with hready
    · exact iff_of_true hlive fun h => absurd h hready
    · cases decision with
      | switch =>
        obtain ⟨preferred, rfl⟩ := Option.isSome_iff_exists.mp (hpreferred rfl)
        exact iff_of_false nofun fun h => h (not_not.mp hready) rfl
      | stay hold =>
        refine iff_of_true ?_ fun _ => nofun
        cases hold <;> cases preferred <;> simp [hlive]

/-- Two access points, the first one pinned; both were probed well, with these round trips. -/
def sampleSelector (rtt : String → ℚ) : Selector where
  entries := [{ id := "a", endpoints := [.imWs] }, { id := "b", endpoints := [.imWs] }]
  policy := {}
  health :=
    { view := fun id _ => { rttMs := some (rtt id) }
      udpBlocked := fun _ => false
      probeStreak := fun _ => ⟨3, 0⟩ }
  quicSupported := false
  pin := some ⟨"a", 2000000⟩

/-- The pinned access point is the current one and it is selectable, but the other one is faster. -/
theorem not_live_checkFailback_pinned :
    ((sampleSelector fun id => if id = "a" then 500 else 50).pinned 1000000).map (·.apId) = some "a" ∧
    ((⟨.ready, some "a", 1, 0, none, []⟩ : FailbackLink).checkFailback
      (some (sampleSelector fun id => if id = "a" then 500 else 50)) [] 0 1000000 true) =
        ⟨.resolving, none, 2, 1000000, some ["b"], []⟩ := by
  decide +kernel

end FlareIm.Link
