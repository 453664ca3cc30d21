import FlareIm.Dispatcher.SeqRepair

/-! What the search for a hole finds. Counting up from a seq and looking at neighbours never leave the
machine type, since a greater seq is always at hand. Whether a seq lies beyond the end of the counted run is
asked for any list that is not empty, and there the successor of the greatest seq is taken. -/

namespace FlareIm.Dispatcher

open Lib Message List

/-! ### Overflow -/

/-- Every successor that the walk takes fits the machine type. -/
def walkFits : ℕ → List ℕ → Bool
  | _, [] => true
  | cursor, seq :: rest =>
    cursor < maxU64 &&
      if seq = cursor + 1 then walkFits seq rest else if seq > cursor + 1 then true else walkFits cursor rest

/-- For `max_contiguous_seq` of the dispatcher, and its copy of the sync. -/
def maxContiguousSeqFits (knownSeq : ℕ) (seqs : List ℕ) : Bool :=
  walkFits knownSeq (sortedSeqs (seqs.filter (knownSeq < ·)))

/-- The successor of the end of the run is taken for every seq that is looked at. -/
def firstGapAfterFits (knownSeq : ℕ) (seqs : List ℕ) : Bool :=
  maxContiguousSeqFits knownSeq seqs && (seqs.isEmpty || maxContiguousSeq knownSeq seqs < maxU64)

def firstBrokenPairFits : List ℕ → Bool
  | a :: b :: rest => a < maxU64 && (b > a + 1 || firstBrokenPairFits (b :: rest))
  | _ => true

def seqRepairGapAfterFits (cursorSeq localBeforeSeq : ℕ) (seqs : List ℕ) : Bool :=
  let recentFloor := max cursorSeq localBeforeSeq
  firstGapAfterFits cursorSeq seqs &&
    firstBrokenPairFits (sortedSeqs ((sortedSeqs (seqs.filter (recentFloor ≤ ·))).filter (0 < ·))) &&
    (recentFloor = 0 || firstGapAfterFits recentFloor seqs)

section Fits

variable {knownSeq cursor : ℕ} {seqs : List ℕ}

theorem pairwise_lt_sortedSeqs (seqs : List ℕ) : (sortedSeqs seqs).Pairwise (· < ·) := by
  have hnodup : (sortedSeqs seqs).Pairwise (· ≠ ·) := nodup_dedup _
  exact ((pairwise_sortedSeqs seqs).and hnodup).imp fun h => lt_of_le_of_ne h.1 h.2

theorem walkFits_of_lt (hsorted : seqs.Pairwise (· < ·)) (hcursor : ∀ seq ∈ seqs, cursor < seq)
    (hfits : ∀ seq ∈ seqs, seq ≤ maxU64) : walkFits cursor seqs = true := by
  induction seqs generalizing cursor with
  | nil => rfl
  | cons seq rest ih =>
    obtain ⟨hseq, hsorted⟩ := pairwise_cons.mp hsorted
    obtain ⟨hlt, hcursor⟩ := forall_mem_cons.mp hcursor
    obtain ⟨hfit, hfits⟩ := forall_mem_cons.mp hfits
    rw [walkFits, decide_eq_true (hlt.trans_le hfit), Bool.true_and]
    split_ifs
    · exact ih hsorted hseq hfits
    · rfl
    · exact ih hsorted hcursor hfits

theorem maxContiguousSeqFits_of_le (knownSeq : ℕ) (hfits : ∀ seq ∈ seqs, seq ≤ maxU64) :
    maxContiguousSeqFits knownSeq seqs = true := by
  refine walkFits_of_lt (pairwise_lt_sortedSeqs _) (fun seq hseq => ?_) fun seq hseq => ?_
  · simpa using (mem_filter.mp (mem_sortedSeqs.mp hseq)).2
  · exact hfits seq (mem_of_mem_filter (mem_sortedSeqs.mp hseq))

/-- Some seq of the machine type above the base is missing, or there is nothing to look at. -/
def EndsEarly (knownSeq : ℕ) (seqs : List ℕ) : Prop := seqs = [] ∨ ∃ seq, knownSeq < seq ∧ seq ≤ maxU64 ∧ seq ∉ seqs

theorem EndsEarly.of_le {base : ℕ} (h : EndsEarly base seqs) (hle : knownSeq ≤ base) : EndsEarly knownSeq seqs :=
  h.imp_right fun ⟨seq, hlt, hrest⟩ => ⟨seq, hle.trans_lt hlt, hrest⟩

theorem firstGapAfterFits_iff (hfits : ∀ seq ∈ seqs, seq ≤ maxU64) :
    firstGapAfterFits knownSeq seqs = true ↔ EndsEarly knownSeq seqs := by
  rw [firstGapAfterFits, maxContiguousSeqFits_of_le knownSeq hfits, Bool.true_and,
    Bool.or_eq_true, List.isEmpty_iff,
    decide_eq_true_iff, ← not_le, le_maxContiguousSeq_iff]
  push Not
  rfl

theorem firstBrokenPairFits_of_lt (hsorted : seqs.Pairwise (· < ·)) (hfits : ∀ seq ∈ seqs, seq ≤ maxU64) :
    firstBrokenPairFits seqs = true := by
  induction seqs with
  | nil => rfl
  | cons a rest ih =>
    obtain ⟨ha, hsorted⟩ := pairwise_cons.mp hsorted
    obtain ⟨-, hfits⟩ := forall_mem_cons.mp hfits
    cases rest with
    | nil => rfl
    | cons b rest =>
      have hlt : a < maxU64 := (ha b mem_cons_self).trans_le (hfits b mem_cons_self)
      simp [firstBrokenPairFits, hlt, ih hsorted hfits]

theorem seqRepairGapAfterFits_iff {cursorSeq localBeforeSeq : ℕ} (hfits : ∀ seq ∈ seqs, seq ≤ maxU64) :
    seqRepairGapAfterFits cursorSeq localBeforeSeq seqs = true ↔ EndsEarly (max cursorSeq localBeforeSeq) seqs := by
  have hpairs := firstBrokenPairFits_of_lt
    (pairwise_lt_sortedSeqs ((sortedSeqs (seqs.filter (max cursorSeq localBeforeSeq ≤ ·))).filter (0 < ·)))
      fun seq hseq =>
      hfits seq (mem_of_mem_filter (mem_sortedSeqs.mp (mem_of_mem_filter (mem_sortedSeqs.mp hseq))))
  rw [seqRepairGapAfterFits, hpairs, Bool.and_true, Bool.and_eq_true, Bool.or_eq_true, decide_eq_true_iff,
    firstGapAfterFits_iff hfits, firstGapAfterFits_iff hfits]
  refine ⟨fun ⟨hcursor, htail⟩ => htail.elim (fun hzero => ?_) id, fun h => ⟨h.of_le (le_max_left ..), .inr h⟩⟩
  exact hcursor.of_le (hzero.trans_le (Nat.zero_le cursorSeq))

end Fits

/-! ### Holes -/

/-- The next seq is missing, and a later one is there. -/
def IsGap (seqs : List ℕ) (gap : ℕ) : Prop := gap + 1 ∉ seqs ∧ ∃ seq ∈ seqs, gap + 1 < seq

section Gaps

variable {knownSeq gap : ℕ} {seqs : List ℕ}

theorem le_maxContiguousSeq (knownSeq : ℕ) (seqs : List ℕ) : knownSeq ≤ maxContiguousSeq knownSeq seqs :=
  le_maxContiguousSeq_iff.mpr fun _ hlt hle => absurd hle (not_le.mpr hlt)

theorem succ_maxContiguousSeq_not_mem (knownSeq : ℕ) (seqs : List ℕ) :
    maxContiguousSeq knownSeq seqs + 1 ∉ seqs := by
  intro hmem
  have hrun := le_maxContiguousSeq_iff.mp (le_refl (maxContiguousSeq knownSeq seqs))
  refine Nat.not_succ_le_self (maxContiguousSeq knownSeq seqs) (le_maxContiguousSeq_iff.mpr fun seq hlt hle => ?_)
  rcases Nat.le_succ_iff.mp hle with hle | rfl
  · exact hrun seq hlt hle
  · exact hmem

theorem isGap_of_firstGapAfter (h : firstGapAfter knownSeq seqs = some gap) : knownSeq ≤ gap ∧ IsGap seqs gap := by
  unfold firstGapAfter at h
  dsimp only at h
  split at h
  · next hlater =>
    obtain rfl := Option.some.inj h
    obtain ⟨seq, hseq, hlt⟩ := any_eq_true.mp hlater
    exact ⟨le_maxContiguousSeq .., succ_maxContiguousSeq_not_mem _ _, seq, hseq, of_decide_eq_true hlt⟩
  · cases h

theorem le_maxContiguousSeq_of_no_gap (h : firstGapAfter knownSeq seqs = none) {seq : ℕ} (hseq : seq ∈ seqs) :
    seq ≤ maxContiguousSeq knownSeq seqs := by
  unfold firstGapAfter at h
  dsimp only at h
  split at h
  · cases h
  · next hnone =>
    have hle : ¬ maxContiguousSeq knownSeq seqs + 1 < seq := fun hlt =>
      hnone (any_eq_true.mpr ⟨seq, hseq, decide_eq_true hlt⟩)
    rcases Nat.le_succ_iff.mp (not_lt.mp hle) with hle | rfl
    · exact hle
    · exact absurd hseq (succ_maxContiguousSeq_not_mem _ _)

theorem isGap_of_firstBrokenPair (hsorted : seqs.Pairwise (· < ·)) (h : firstBrokenPair seqs = some gap) :
    gap ∈ seqs ∧ IsGap seqs gap := by
  fun_induction firstBrokenPair seqs with
  | case1 a b rest hgap =>
    obtain rfl := Option.some.inj h
    refine ⟨mem_cons_self, fun hmem => ?_, b, by simp, hgap⟩
    obtain ⟨-, hrest⟩ := pairwise_cons.mp hsorted
    rcases mem_cons.mp hmem with heq | hmem
    · omega
    · rcases mem_cons.mp hmem with heq | hmem
      · omega
      · have hlt := (pairwise_cons.mp hrest).1 _ hmem
        omega
  | case2 a b rest hnext ih =>
    obtain ⟨ha, hrest⟩ := pairwise_cons.mp hsorted
    obtain ⟨hmem, hmissing, seq, hseq, hlt⟩ := ih hrest h
    refine ⟨mem_cons_of_mem a hmem, fun hin => ?_, seq, mem_cons_of_mem a hseq, hlt⟩
    rcases mem_cons.mp hin with heq | hin
    · have hlt := ha gap hmem
      omega
    · exact hmissing hin
  | case3 => cases h

theorem isGap_of_firstInternalGapAfterFrom (h : firstInternalGapAfterFrom knownSeq seqs = some gap) :
    knownSeq ≤ gap ∧ IsGap seqs gap := by
  have hmem : ∀ seq, seq ∈ sortedSeqs ((sortedSeqs (seqs.filter (knownSeq ≤ ·))).filter (0 < ·)) ↔
      (seq ∈ seqs ∧ knownSeq ≤ seq) ∧ 0 < seq := fun seq => by simp
  obtain ⟨hgap, hmissing, seq, hseq, hlt⟩ := isGap_of_firstBrokenPair (pairwise_lt_sortedSeqs _) h
  have hfrom := ((hmem gap).mp hgap).1.2
  refine ⟨hfrom, fun hin => hmissing ((hmem _).mpr ⟨⟨hin, ?_⟩, Nat.succ_pos gap⟩), seq,
    ((hmem seq).mp hseq).1.1, hlt⟩
  omega

theorem isGap_of_seqRepairGapAfter {cursorSeq localBeforeSeq : ℕ}
    (h : seqRepairGapAfter cursorSeq localBeforeSeq seqs = some gap) : cursorSeq ≤ gap ∧ IsGap seqs gap := by
  have hfloor : ∀ {g}, max cursorSeq localBeforeSeq ≤ g ∧ IsGap seqs g → cursorSeq ≤ g ∧ IsGap seqs g := fun hg =>
    ⟨(le_max_left _ _).trans hg.1, hg.2⟩
  have hfront : ∀ g, firstGapAfter cursorSeq seqs = some g → cursorSeq ≤ g ∧ IsGap seqs g := fun _ =>
    isGap_of_firstGapAfter
  have hinternal : ∀ g, firstInternalGapAfterFrom (max cursorSeq localBeforeSeq) seqs = some g →
      max cursorSeq localBeforeSeq ≤ g ∧ IsGap seqs g := fun _ => isGap_of_firstInternalGapAfterFrom
  have htail : ∀ g,
    (if max cursorSeq localBeforeSeq > 0 then firstGapAfter (max cursorSeq localBeforeSeq) seqs else none) =
      some g → max cursorSeq localBeforeSeq ≤ g ∧ IsGap seqs g := by
    intro g hg
    split at hg
    · exact isGap_of_firstGapAfter hg
    · cases hg
  unfold seqRepairGapAfter at h
  dsimp only at h
  generalize firstGapAfter cursorSeq seqs = pre at h hfront
  generalize firstInternalGapAfterFrom (max cursorSeq localBeforeSeq) seqs = internal at h hinternal
  generalize
    (if max cursorSeq localBeforeSeq > 0 then firstGapAfter (max cursorSeq localBeforeSeq) seqs else none) = tail
    at h htail
  -- The gap is one of the three that were found.
  have hone : pre = some gap ∨ internal = some gap ∨ tail = some gap := by
    cases pre <;> cases internal <;> cases tail <;> grind
  rcases hone with hone | hone | hone
  · exact hfront gap hone
  · exact hfloor (hinternal gap hone)
  · exact hfloor (htail gap hone)

end Gaps

/-- For all seqs of the machine type, counting up gives the end of the run that starts at the base. The
search stays in the machine type, reports only holes and reports one if there is any, exactly when it has
nothing to look at or some seq above the cursor and the local seq is missing. -/
theorem seqRepairGapAfter_exact (knownSeq cursorSeq localBeforeSeq : ℕ) (seqs : List ℕ)
    (hfits : ∀ seq ∈ seqs, seq ≤ maxU64) :
    (maxContiguousSeqFits knownSeq seqs = true ∧ knownSeq ≤ maxContiguousSeq knownSeq seqs ∧
      ∀ c, c ≤ maxContiguousSeq knownSeq seqs ↔ ∀ seq, knownSeq < seq → seq ≤ c → seq ∈ seqs) ∧
    (seqRepairGapAfterFits cursorSeq localBeforeSeq seqs = true ∧
        (∀ gap ∈ seqRepairGapAfter cursorSeq localBeforeSeq seqs, cursorSeq ≤ gap ∧ gap + 1 ∉ seqs ∧
          ∃ seq ∈ seqs, gap + 1 < seq) ∧
        (seqRepairGapAfter cursorSeq localBeforeSeq seqs = none →
          ∀ seq ∈ seqs, ∀ q, cursorSeq < q → q ≤ seq → q ∈ seqs) ↔
      EndsEarly (max cursorSeq localBeforeSeq) seqs) := by
  refine ⟨⟨maxContiguousSeqFits_of_le knownSeq hfits, le_maxContiguousSeq .., fun _ => le_maxContiguousSeq_iff⟩,
    (and_iff_left ⟨fun gap => isGap_of_seqRepairGapAfter, fun hnone => ?_⟩).trans (seqRepairGapAfterFits_iff hfits)⟩
  have hfront : firstGapAfter cursorSeq seqs = none := by
    cases hpre : firstGapAfter cursorSeq seqs with
    | none => rfl
    | some gap =>
      simp only [seqRepairGapAfter, hpre] at hnone
      grind
  intro seq hseq q hlt hle
  exact le_maxContiguousSeq_iff.mp (le_maxContiguousSeq_of_no_gap hfront hseq) q hlt hle

theorem seqRepairGapAfter_exact_tail : seqRepairGapAfterFits 137 135 [134, 135, 140] = true :=
  ((seqRepairGapAfter_exact 137 137 135 [134, 135, 140] (by decide)).2.mpr (.inr ⟨138, by decide⟩)).1

/-- A cursor at the end of the machine type. -/
theorem not_seqRepairGapAfterFits_maxU64 : seqRepairGapAfterFits maxU64 0 [1] = false := by
  decide

end FlareIm.Dispatcher
