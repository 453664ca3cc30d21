import Mathlib.Data.List.Sort
import Mathlib.Data.List.Dedup

/-! The contiguous part of a set of sequence numbers above a known one: how far one can
count up from the known number without meeting a hole. Clients use it through
`le_maxContiguousSeq_iff` alone. -/

namespace FlareIm.Lib

open List

def sortedSeqs (seqs : List ℕ) : List ℕ := (seqs.insertionSort (· ≤ ·)).dedup

/-- Walk up an ascending list while it continues the cursor. -/
def walkContiguous : ℕ → List ℕ → ℕ
  | cursor, [] => cursor
  | cursor, seq :: rest =>
    if seq = cursor + 1 then walkContiguous seq rest
    else if seq > cursor + 1 then cursor
    else walkContiguous cursor rest

/-- The last number of the run of listed numbers that starts right above `known`. -/
def maxContiguousSeq (known : ℕ) (seqs : List ℕ) : ℕ :=
  walkContiguous known (sortedSeqs (seqs.filter (known < ·)))

@[simp] theorem mem_sortedSeqs {seqs : List ℕ} {seq : ℕ} : seq ∈ sortedSeqs seqs ↔ seq ∈ seqs := by
  simp [sortedSeqs]

theorem pairwise_sortedSeqs (seqs : List ℕ) : (sortedSeqs seqs).Pairwise (· ≤ ·) :=
  (pairwise_insertionSort (· ≤ ·) seqs).sublist (dedup_sublist _)

theorem le_walkContiguous_iff {n : ℕ} : ∀ {seqs : List ℕ} {cursor : ℕ}, seqs.Pairwise (· ≤ ·) →
    (n ≤ walkContiguous cursor seqs ↔ ∀ seq, cursor < seq → seq ≤ n → seq ∈ seqs) := by
  intro seqs
  induction seqs with
  | nil =>
    intro cursor _
    rw [walkContiguous]
    refine ⟨fun h seq hlt hle => absurd h (by omega), fun h => ?_⟩
    by_contra hn
    exact not_mem_nil (h n (not_le.mp hn) le_rfl)
  | cons x rest ih =>
    intro cursor hsorted
    obtain ⟨hx, hrest⟩ := pairwise_cons.mp hsorted
    rw [walkContiguous]
    split
    · rename_i hnext
      rw [ih hrest]
      constructor
      · intro h seq hlt hle
        rcases Nat.eq_or_lt_of_le (show x ≤ seq by omega) with rfl | hgt
        · exact mem_cons_self
        · exact mem_cons_of_mem _ (h seq hgt hle)
      · intro h seq hlt hle
        exact (mem_cons.mp (h seq (by omega) hle)).resolve_left (by omega)
    · split
      · rename_i hne hgap
        refine ⟨fun h seq hlt hle => absurd hle (by omega), fun h => ?_⟩
        by_contra hn
        -- The number right above the cursor would have to be listed, below the smallest listed one.
        rcases mem_cons.mp (h (cursor + 1) (by omega) (by omega)) with heq | hmem
        · omega
        · have := hx _ hmem
          omega
      · rename_i hne hsmall
        rw [ih hrest]
        refine forall_congr' fun seq => imp_congr_right fun hlt => imp_congr_right fun _ => ?_
        rw [mem_cons, or_iff_right (by omega)]

theorem le_maxContiguousSeq_iff {known n : ℕ} {seqs : List ℕ} :
    n ≤ maxContiguousSeq known seqs ↔ ∀ seq, known < seq → seq ≤ n → seq ∈ seqs := by
  rw [maxContiguousSeq, le_walkContiguous_iff (pairwise_sortedSeqs _)]
  refine forall_congr' fun seq => imp_congr_right fun hlt => imp_congr_right fun _ => ?_
  rw [mem_sortedSeqs, mem_filter, and_iff_left (by simpa using hlt)]

end FlareIm.Lib
