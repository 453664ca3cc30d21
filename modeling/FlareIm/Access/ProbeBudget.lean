import FlareIm.Lib.Run
import FlareIm.Access.Selection
import Mathlib.Data.List.Induction

/-! The probe budget: probes are granted while the hour has room for them, and a probe
that the user asked for is granted always. At most 120 stamps are kept, so the oldest are
forgotten when the user asks again and again. -/

namespace FlareIm.Access.Probe

open Lib List

def hourMs : ℤ := 3600000

def maxBudgetPerHour : ℕ := 120

inductive ProbeTrigger
  | coldStart
  | failover
  | background
  | failback
  | userInitiated
  deriving DecidableEq, Repr

def ProbeTrigger.bypassesBudget (trigger : ProbeTrigger) : Bool := trigger = .userInitiated

/-- The probes of the last hour. -/
structure ProbeBudget where
  stamps : List ℤ := []
  deriving DecidableEq, Repr

structure ProbeRequest where
  nowMs : ℤ
  perHour : ℕ
  trigger : ProbeTrigger
  deriving DecidableEq, Repr

def ProbeBudget.evict (b : ProbeBudget) (nowMs : ℤ) : ProbeBudget :=
  ⟨b.stamps.dropWhile fun stamp => hourMs ≤ nowMs - stamp⟩

/-- Only the user gets past a full window, and the oldest stamp goes then. -/
def ProbeBudget.tryConsume (b : ProbeBudget) (r : ProbeRequest) : Bool × ProbeBudget :=
  let b := b.evict r.nowMs
  if !r.trigger.bypassesBudget && min r.perHour maxBudgetPerHour ≤ b.stamps.length then (false, b)
  else
    let stamps := if maxBudgetPerHour ≤ b.stamps.length then b.stamps.tail else b.stamps
    (true, ⟨stamps ++ [r.nowMs]⟩)

/-- The budget with the times of all probes that were granted. -/
structure Probed where
  budget : ProbeBudget := {}
  granted : List ℤ := []

def Probed.step (s : Probed) (r : ProbeRequest) : Probed :=
  match s.budget.tryConsume r with
  | (true, budget) => ⟨budget, s.granted ++ [r.nowMs]⟩
  | (false, budget) => ⟨budget, s.granted⟩

/-- How many of the probes lie in the hour that ends at `nowMs`. -/
def within (nowMs : ℤ) (times : List ℤ) : ℕ := times.countP fun t => nowMs - t < hourMs

/-- The stamps are counted as long as there is room for them. -/
structure Remembers (s : Probed) (nowMs : ℤ) : Prop where
  sublist : s.budget.stamps <+ s.granted
  sorted : s.granted.Pairwise (· ≤ ·)
  past : ∀ t ∈ s.granted, t ≤ nowMs
  counted : ∀ t, nowMs ≤ t → min (within t s.granted) maxBudgetPerHour ≤ within t s.budget.stamps

variable {s : Probed} {nowMs laterMs : ℤ} {r : ProbeRequest}

theorem Remembers.later (h : Remembers s nowMs) (hle : nowMs ≤ laterMs) : Remembers s laterMs :=
  ⟨h.sublist, h.sorted, fun t ht => (h.past t ht).trans hle, fun t ht => h.counted t (hle.trans ht)⟩

theorem within_evict (b : ProbeBudget) (hle : nowMs ≤ laterMs) :
    within laterMs (b.evict nowMs).stamps = within laterMs b.stamps := by
  obtain ⟨stamps⟩ := b
  unfold ProbeBudget.evict
  induction stamps with
  | nil => rfl
  | cons stamp rest ih =>
    rw [dropWhile_cons]
    split
    · next hexpired =>
      have hexpired : ¬ laterMs - stamp < hourMs := by
        rw [decide_eq_true_eq] at hexpired
        omega
      exact ih.trans (countP_cons_of_neg (by simpa using hexpired)).symm
    · rfl

theorem Remembers.evict (h : Remembers s nowMs) : Remembers ⟨s.budget.evict nowMs, s.granted⟩ nowMs :=
  ⟨(dropWhile_sublist _).trans h.sublist, h.sorted, h.past,
    fun t ht => (within_evict s.budget ht).symm ▸ h.counted t ht⟩

theorem Remembers.grant (h : Remembers s nowMs) :
    Remembers ⟨⟨(if maxBudgetPerHour ≤ s.budget.stamps.length then s.budget.stamps.tail else s.budget.stamps) ++
      [nowMs]⟩,
      s.granted ++ [nowMs]⟩ nowMs := by
  refine ⟨.append ?_ (.refl _), ?_, ?_, fun t ht => ?_⟩
  · split
    · exact (tail_sublist _).trans h.sublist
    · exact h.sublist
  · simpa [pairwise_append, h.sorted] using h.past
  · simpa [or_imp, forall_and] using h.past
  · have hcounted := h.counted t ht
    unfold within at hcounted ⊢
    simp only [countP_append]
    split
    · next hfull =>
      cases hstamps : s.budget.stamps with
      | nil => rw [hstamps] at hfull; exact absurd hfull (by decide)
      | cons stamp rest =>
        have hsorted := pairwise_cons.mp (hstamps ▸ h.sorted.sublist h.sublist)
        rw [hstamps] at hfull hcounted
        by_cases hstamp : t - stamp < hourMs
        · -- the oldest stamp is within the hour, and so are the others and the new one
          have hall : (rest ++ [nowMs]).countP (fun u => t - u < hourMs) = rest.length + 1 := by
            refine (countP_eq_length.mpr fun u hu => decide_eq_true ?_).trans (length_append ..)
            have hle : stamp ≤ u := by
              rcases mem_append.mp hu with hu | hu
              · exact hsorted.1 u hu
              · exact mem_singleton.mp hu ▸ h.past stamp (h.sublist.mem (hstamps ▸ mem_cons_self))
            omega
          rw [countP_append] at hall
          rw [tail_cons, hall]
          exact (min_le_right ..).trans hfull
        · rw [countP_cons_of_neg (by simpa using hstamp)] at hcounted
          rw [tail_cons]
          omega
    · omega

theorem Remembers.step (h : Remembers s r.nowMs) : Remembers (s.step r) r.nowMs := by
  unfold Probed.step ProbeBudget.tryConsume
  dsimp only
  by_cases hrefused : (!r.trigger.bypassesBudget &&
      decide (min r.perHour maxBudgetPerHour ≤ (s.budget.evict r.nowMs).stamps.length)) = true
  · rw [if_pos hrefused]
    exact h.evict
  · rw [if_neg hrefused]
    exact h.evict.grant

theorem remembers_run (requests : List ProbeRequest) (hsorted : (requests.map (·.nowMs)).Pairwise (· ≤ ·))
    (hpast : ∀ r ∈ requests, r.nowMs ≤ nowMs) : Remembers (run Probed.step {} requests) nowMs := by
  induction requests using List.reverseRec generalizing nowMs with
  | nil => exact ⟨.refl _, .nil, by simp, fun _ _ => Nat.min_le_left ..⟩
  | append_singleton before r ih =>
    rw [map_append, pairwise_append] at hsorted
    rw [run_append]
    refine Remembers.later (.step (ih hsorted.1 fun q hq => ?_)) (hpast r (by simp))
    exact hsorted.2.2 _ (mem_map_of_mem hq) _ (by simp)

/-- A probe that the user did not ask for is granted only within the budget of the hour that it ends. -/
theorem within_granted_le (before : List ProbeRequest) (r : ProbeRequest)
    (hsorted : ((before ++ [r]).map (·.nowMs)).Pairwise (· ≤ ·)) (hprobe : r.trigger ≠ .userInitiated)
    (hgranted : ((run Probed.step {} before).budget.tryConsume r).1 = true) :
    within r.nowMs (run Probed.step {} (before ++ [r])).granted ≤ min r.perHour maxBudgetPerHour := by
  rw [map_append, pairwise_append] at hsorted
  have hcounted := (remembers_run before hsorted.1 fun q hq =>
    hsorted.2.2 _ (mem_map_of_mem hq) _ (by simp)).evict.counted r.nowMs le_rfl
  rw [run_append, run_cons, run_nil, Probed.step]
  generalize run Probed.step {} before = s at hgranted hcounted ⊢
  unfold ProbeBudget.tryConsume at hgranted ⊢
  dsimp only at hgranted hcounted ⊢
  split at hgranted
  · exact absurd hgranted Bool.false_ne_true
  · next hroom =>
    rw [if_neg hroom]
    have hstamps : within r.nowMs (s.budget.evict r.nowMs).stamps ≤ (s.budget.evict r.nowMs).stamps.length :=
      countP_le_length
    have hnow : within r.nowMs [r.nowMs] ≤ 1 := countP_le_length
    have happend : within r.nowMs (s.granted ++ [r.nowMs]) = within r.nowMs s.granted + within r.nowMs [r.nowMs] :=
      countP_append
    simp only [ProbeTrigger.bypassesBudget, hprobe, decide_false, Bool.not_false, Bool.true_and,
      decide_eq_true_eq] at hroom
    dsimp only
    omega

theorem within_granted_le_user :
    within hourMs (run Probed.step {}
      ([⟨0, 2, .background⟩, ⟨5, 1, .userInitiated⟩] ++ [⟨hourMs, 2, .failover⟩])).granted ≤
      min 2 maxBudgetPerHour :=
  within_granted_le [⟨0, 2, .background⟩, ⟨5, 1, .userInitiated⟩] ⟨hourMs, 2, .failover⟩
  (by decide) (by decide) (by decide)

end FlareIm.Access.Probe
