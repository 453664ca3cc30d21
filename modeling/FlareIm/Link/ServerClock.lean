import FlareIm.Lib.Run
import FlareIm.Store.Messages

/-! The estimate of the server's clock. A frame that carries the server's time gives a sample
of how far the two clocks are apart. The samples are kept in a queue, and what is too old is
looked for at its front only: the window is exceeded by no more than the local clock is set back. -/

namespace FlareIm.Link

open Lib Store.MessageTable List

def minPlausibleServerMs : ℕ := 1577836800000

def sampleWindowMs : ℕ := 120000

def maxSamples : ℕ := 16

structure Sample where
  /-- The server's time less the local one. -/
  offsetMs : ℤ
  /-- The local time at which it was received. -/
  localMs : ℤ
  deriving DecidableEq, Repr

/-- A server time and the local time at which it was received. -/
structure Observation where
  serverMs : ℕ
  localMs : ℕ
  deriving DecidableEq, Repr

namespace ServerClock

/-- The loop of `observe_at` that takes samples from the front. -/
def evict (localMs : ℤ) : List Sample → List Sample
  | [] => []
  | oldest :: rest =>
    if maxSamples < rest.length + 1 ∨ 1 < rest.length + 1 ∧ sampleWindowMs < (localMs - oldest.localMs).natAbs then
      evict localMs rest
    else oldest :: rest

def sample (o : Observation) : Option Sample :=
  if o.serverMs < minPlausibleServerMs ∨ maxI64 < o.serverMs ∨ maxI64 < o.localMs then none
  else some ⟨o.serverMs - o.localMs, o.localMs⟩

def observeAt (samples : List Sample) (o : Observation) : List Sample :=
  (sample o).elim samples fun s => evict s.localMs (samples ++ [s])

theorem evict_append (samples : List Sample) (s : Sample) : ∃ kept, kept <:+ samples ∧
    evict s.localMs (samples ++ [s]) = kept ++ [s] ∧ kept.length < maxSamples ∧
      ∀ oldest ∈ kept.head?, (s.localMs - oldest.localMs).natAbs ≤ sampleWindowMs := by
  induction samples with
  | nil => exact ⟨[], suffix_rfl, rfl, by decide, nofun⟩
  | cons oldest rest ih =>
    rw [cons_append, evict, length_append, length_singleton]
    split_ifs with hout
    · obtain ⟨kept, hsuffix, hkept⟩ := ih
      exact ⟨kept, hsuffix.trans (suffix_cons ..), hkept⟩
    · rw [not_or, not_and, not_lt, not_lt] at hout
      refine ⟨oldest :: rest, suffix_rfl, rfl, hout.1, ?_⟩
      rintro _ ⟨⟩
      exact hout.2 (by omega)

/-- The samples among the observations. -/
def sampled (os : List Observation) : List Sample := os.filterMap sample

/-- From one sample to a later one the clock is set back by at most `setback`. -/
def SetBackBy (setback : ℕ) (samples : List Sample) : Prop :=
  samples.Pairwise fun earlier later : Sample => earlier.localMs ≤ later.localMs + setback
  deriving Decidable

theorem near_of_head {setback : ℕ} {kept : List Sample} {s : Sample} (hback : SetBackBy setback (kept ++ [s]))
    (hhead : ∀ oldest ∈ kept.head?, (s.localMs - oldest.localMs).natAbs ≤ sampleWindowMs) :
    ∀ r ∈ kept ++ [s], (s.localMs - r.localMs).natAbs ≤ sampleWindowMs + setback := by
  intro r hr
  cases kept with
  | nil => simp_all
  | cons oldest rest =>
    have hfirst := hhead oldest rfl
    have hlast : r.localMs ≤ s.localMs + setback := by
      rcases mem_append.1 hr with h | h
      · exact (pairwise_append.1 hback).2.2 r h s mem_cons_self
      · rw [mem_singleton.1 h]
        omega
    have hge : oldest.localMs ≤ r.localMs + setback := by
      rcases mem_cons.1 hr with rfl | h
      · omega
      · exact rel_of_pairwise_cons hback h
    omega

theorem run_observeAt (os : List Observation) : run observeAt [] os <:+ sampled os ∧
    (run observeAt [] os).length ≤ maxSamples ∧ (run observeAt [] os).getLast? = (sampled os).getLast? ∧
      ∀ setback, SetBackBy setback (sampled os) → ∀ newest ∈ (sampled os).getLast?,
        ∀ s ∈ run observeAt [] os, (newest.localMs - s.localMs).natAbs ≤ sampleWindowMs + setback := by
  induction os using reverseRecOn with
  | nil => exact ⟨suffix_rfl, by decide, rfl, nofun⟩
  | append_singleton os o ih =>
    rw [run_append, run_cons, run_nil, observeAt, sampled, filterMap_append, ← sampled, filterMap_cons]
    cases sample o with
    | none => simpa using ih
    | some s =>
      obtain ⟨kept, hkept, heq, hlen, hhead⟩ := evict_append (run observeAt [] os) s
      have hsuffix : kept ++ [s] <:+ sampled os ++ [s] := by
        obtain ⟨gone, hgone⟩ := hkept.trans ih.1
        exact ⟨gone, by rw [← hgone, append_assoc]⟩
      simp only [Option.elim_some, heq, filterMap_nil]
      refine ⟨hsuffix, by rwa [length_append], by simp, fun setback hback newest hnewest => ?_⟩
      obtain rfl : s = newest := by simpa using hnewest
      exact near_of_head (hback.sublist hsuffix.sublist) hhead

/-- The clock goes on, and the first of three samples is given up. -/
theorem run_observeAt_three : let os := [⟨minPlausibleServerMs, 0⟩, ⟨minPlausibleServerMs, 110000⟩,
      ⟨minPlausibleServerMs, 121000⟩]
    SetBackBy 0 (sampled os) ∧ ∀ newest ∈ (sampled os).getLast?, ∀ s ∈ run observeAt [] os,
      (newest.localMs - s.localMs).natAbs ≤ sampleWindowMs :=
  ⟨by decide, (run_observeAt _).2.2.2 0 (by decide)⟩

/-- The clock is set back before the second sample. It waits behind the first, which is near the third. -/
theorem not_near_after_setback : ∃ os, ∃ newest ∈ (run observeAt [] os).getLast?, ∃ s ∈ run observeAt [] os,
    sampleWindowMs < (newest.localMs - s.localMs).natAbs :=
  ⟨[⟨minPlausibleServerMs, 110000⟩, ⟨minPlausibleServerMs, 0⟩, ⟨minPlausibleServerMs, 121000⟩],
    ⟨minPlausibleServerMs - 121000, 121000⟩, by decide, ⟨minPlausibleServerMs, 0⟩, by decide, by decide⟩

/-! ### The estimate -/

def estimateMs (samples : List Sample) : Option ℤ := (samples.map (·.offsetMs)).max?

variable {trueMs : ℤ} {samples : List Sample} {o : Observation}

/-- No sample is ahead of what the clocks are apart in truth: a frame takes its time to arrive. -/
def Behind (trueMs : ℤ) (samples : List Sample) : Prop := ∀ s ∈ samples, s.offsetMs ≤ trueMs

theorem behind_observeAt (h : Behind trueMs samples) (ho : o.serverMs - o.localMs ≤ trueMs) :
    Behind trueMs (observeAt samples o) := by
  rw [observeAt]
  cases hs : sample o with
  | none => exact h
  | some s =>
    obtain ⟨kept, hkept, heq, -⟩ := evict_append samples s
    rw [Option.elim_some, heq]
    refine forall_mem_append.2 ⟨fun r hr => h r (hkept.subset hr), forall_mem_singleton.2 ?_⟩
    grind [sample]

/-- The estimate after a new sample is not ahead of the truth, and behind it by no more than
the time that the frame took. -/
def Near (trueMs : ℤ) (samples : List Sample) (o : Observation) : Prop :=
  ∀ s ∈ sample o, ∃ e ∈ estimateMs (observeAt samples o), s.offsetMs ≤ e ∧ e ≤ trueMs

/-- The estimate is near as long as neither clock is set. -/
theorem estimateMs_run (trueMs : ℤ) (os : List Observation) (hdelay : ∀ o ∈ os, o.serverMs - o.localMs ≤ trueMs) :
    AllSteps observeAt (Near trueMs) [] os := by
  refine .of_invariant (I := Behind trueMs) (fun _ _ => behind_observeAt) (fun samples o h ho s hs => ?_) os []
    (fun _ h => by cases h) (.of_mem hdelay)
  have hbehind := behind_observeAt h ho
  obtain ⟨kept, -, heq, -⟩ := evict_append samples s
  rw [observeAt, hs, Option.elim_some, heq] at hbehind ⊢
  have hnewest : s.offsetMs ∈ (kept ++ [s]).map (·.offsetMs) := mem_map_of_mem (by simp)
  obtain ⟨e, he⟩ := Option.isSome_iff_exists.1 (isSome_max?_of_mem hnewest)
  obtain ⟨hmem, hmax⟩ := max?_eq_some_iff.1 he
  obtain ⟨r, hr, rfl⟩ := mem_map.1 hmem
  exact ⟨_, he, hmax _ hnewest, hbehind r hr⟩

theorem estimateMs_twoFrames : AllSteps observeAt (Near minPlausibleServerMs) []
    [⟨minPlausibleServerMs + 5, 9⟩, ⟨minPlausibleServerMs + 9, 9⟩] :=
  estimateMs_run minPlausibleServerMs _ (by decide)

end ServerClock

end FlareIm.Link
