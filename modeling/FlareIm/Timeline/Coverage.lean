import FlareIm.Lib.Spans
import FlareIm.Message.Model

/-! The proven part of a conversation's timeline: closed ranges of seqs for which the server has shown
every message. The ranges of a conversation are kept apart and in order, so that two coverages that
cover the same seqs are the same. -/

namespace FlareIm.Timeline

open Lib Message List Span

/-! ### Ranges -/

/-- `from` and `to` of the source are `fromSeq` and `toSeq`. -/
@[ext]
structure SeqRange where
  fromSeq : ℕ
  toSeq : ℕ
  one_le : 1 ≤ fromSeq
  le : fromSeq ≤ toSeq
  toSeq_le : toSeq ≤ maxU64

open SeqRange

instance : DecidableEq SeqRange := fun _ _ => decidable_of_iff' _ SeqRange.ext_iff

instance : Span SeqRange where
  first := fromSeq
  last := toSeq
  first_le_last := le
  ext := SeqRange.ext

variable {c : TimelineCoverage} {r range : SeqRange}

namespace SeqRange

/-- Seqs start at 1. Arguments above the machine type do not occur. -/
def new (fromSeq toSeq : ℕ) : Option SeqRange :=
  if h : max fromSeq 1 ≤ toSeq ∧ toSeq ≤ maxU64 then some ⟨max fromSeq 1, toSeq, le_max_right _ _, h.1, h.2⟩
  else none

def contains (r : SeqRange) (seq : ℕ) : Bool := r.fromSeq ≤ seq && seq ≤ r.toSeq

def touches (r other : SeqRange) : Bool :=
  r.fromSeq ≤ satAddU64 other.toSeq 1 && other.fromSeq ≤ satAddU64 r.toSeq 1

def hull (r other : SeqRange) : SeqRange where
  fromSeq := min r.fromSeq other.fromSeq
  toSeq := max r.toSeq other.toSeq
  one_le := le_min r.one_le other.one_le
  le := (min_le_left _ _).trans (r.le.trans (le_max_left _ _))
  toSeq_le := max_le r.toSeq_le other.toSeq_le

variable {other : SeqRange} {fromSeq toSeq seq : ℕ}

theorem contains_iff : r.contains seq = true ↔ Span.Contains r seq := by
  rw [contains, Bool.and_eq_true, decide_eq_true_eq, decide_eq_true_eq]
  rfl

theorem contains_of_new (h : new fromSeq toSeq = some r) : Span.Contains r seq ↔
    max fromSeq 1 ≤ seq ∧ seq ≤ toSeq := by
  unfold new at h
  split at h
  · rw [← Option.some.inj h]
    rfl
  · exact absurd h (by simp)

theorem le_maxU64_of_new (h : new fromSeq toSeq = some r) : toSeq ≤ maxU64 := by
  unfold new at h
  split at h
  · next hbounds => exact hbounds.2
  · exact absurd h (by simp)

theorem contains_of_new_after {afterSeq : ℕ} (hafter : afterSeq < maxU64)
    (h : new (satAddU64 afterSeq 1) toSeq = some r) :
    Span.Contains r seq ↔ afterSeq < seq ∧ seq ≤ toSeq := by
  rw [contains_of_new h, satAddU64]
  omega

theorem new_fromSeq_toSeq (r : SeqRange) : new r.fromSeq r.toSeq = some r := by
  unfold new
  rw [dif_pos ⟨(max_eq_left r.one_le).trans_le r.le, r.toSeq_le⟩]
  exact congrArg some (ext (max_eq_left r.one_le) rfl)

/-- Saturation is of no account: no range starts above the machine type. -/
theorem touches_iff : r.touches other = true ↔ r.fromSeq ≤ other.toSeq + 1 ∧ other.fromSeq ≤ r.toSeq + 1 := by
  have hr := r.le.trans r.toSeq_le
  have hother := other.le.trans other.toSeq_le
  rw [touches, Bool.and_eq_true, decide_eq_true_eq, decide_eq_true_eq]
  unfold satAddU64
  omega

theorem before_or_before_of_not_touches (h : ¬ r.touches other = true) :
    Span.Before r other ∨ Span.Before other r := by
  rw [touches_iff] at h
  change r.toSeq + 1 < other.fromSeq ∨ other.toSeq + 1 < r.fromSeq
  omega

theorem not_touches_of_before (h : Span.Before r other) : ¬ other.touches r = true := by
  rw [touches_iff]
  change r.toSeq + 1 < other.fromSeq at h
  omega

/-- Nothing lies between two ranges that touch. -/
theorem contains_hull (h : r.touches other = true) :
    Span.Contains (r.hull other) seq ↔ Span.Contains r seq ∨ Span.Contains other seq := by
  rw [touches_iff] at h
  change min r.fromSeq other.fromSeq ≤ seq ∧ seq ≤ max r.toSeq other.toSeq ↔
    (r.fromSeq ≤ seq ∧ seq ≤ r.toSeq) ∨ (other.fromSeq ≤ seq ∧ seq ≤ other.toSeq)
  omega

end SeqRange

/-! ### Coverage -/

theorem pairwise_before_nil : ([] : List SeqRange).Pairwise Span.Before := .nil

structure TimelineCoverage where
  ranges : List SeqRange := []
  apart : ranges.Pairwise Span.Before := by exact pairwise_before_nil

namespace TimelineCoverage

def Covers (c : TimelineCoverage) (seq : ℕ) : Prop := Span.Covers c.ranges seq
  deriving Decidable

instance : DecidableEq TimelineCoverage := fun c d =>
  decidable_of_iff (c.ranges = d.ranges) ⟨fun h => by cases c; cases d; congr, fun h => h ▸ rfl⟩

@[ext] theorem ext_of_covers {d : TimelineCoverage} (h : ∀ seq, c.Covers seq ↔ d.Covers seq) : c = d := by
  have hranges : c.ranges = d.ranges := eq_of_covers_iff c.apart d.apart h
  cases c
  cases d
  congr

theorem not_covers_empty (seq : ℕ) : ¬ ({} : TimelineCoverage).Covers seq := not_covers_nil seq

/-- The pass of `retain`: what touches the range gathered so far is taken into it. -/
def absorb : List SeqRange → SeqRange → List SeqRange × SeqRange
  | [], merged => ([], merged)
  | existing :: rest, merged =>
    if existing.touches merged then absorb rest (existing.hull merged)
    else (existing :: (absorb rest merged).1, (absorb rest merged).2)

section Absorb

variable {ranges : List SeqRange} {merged : SeqRange} {seq : ℕ}

theorem sublist_absorb (ranges : List SeqRange) (merged : SeqRange) : (absorb ranges merged).1.Sublist ranges := by
  induction ranges generalizing merged with
  | nil => exact List.Sublist.refl _
  | cons existing rest ih =>
    rw [absorb]
    split
    · exact (ih _).cons existing
    · exact (ih _).cons_cons existing

theorem covers_absorb : Span.Contains (absorb ranges merged).2 seq ∨ Span.Covers (absorb ranges merged).1 seq ↔
    Span.Contains merged seq ∨ Span.Covers ranges seq := by
  induction ranges generalizing merged with
  | nil => rfl
  | cons existing rest ih =>
    rw [absorb, covers_cons]
    split
    · next htouches => exact ih.trans (by rw [contains_hull htouches, or_assoc, or_left_comm])
    · rw [covers_cons, or_left_comm, or_left_comm (b := Span.Contains existing seq)]
      exact or_congr_right ih

/-- Ranges that begin beyond the end are left alone. -/
theorem absorb_of_before (h : ∀ e ∈ ranges, Span.Before merged e) : absorb ranges merged = (ranges, merged) := by
  induction ranges with
  | nil => rfl
  | cons existing rest ih =>
    obtain ⟨hexisting, hrest⟩ := forall_mem_cons.mp h
    rw [absorb, if_neg (not_touches_of_before hexisting), ih hrest]

theorem before_absorb (h : Span.Before r merged) (hall : ∀ e ∈ ranges, Span.Before r e) :
    Span.Before r (absorb ranges merged).2 := by
  induction ranges generalizing merged with
  | nil => exact h
  | cons existing rest ih =>
    obtain ⟨hexisting, hrest⟩ := forall_mem_cons.mp hall
    rw [absorb]
    split
    · exact ih (show r.toSeq + 1 < min existing.fromSeq merged.fromSeq from lt_min hexisting h) hrest
    · exact ih h hrest

/-- What is left does not touch what was gathered. -/
theorem apart_absorb (hranges : ranges.Pairwise Span.Before) :
    ∀ e ∈ (absorb ranges merged).1, Span.Before e (absorb ranges merged).2 ∨
    Span.Before (absorb ranges merged).2 e := by
  induction ranges generalizing merged with
  | nil => exact fun e he => absurd he not_mem_nil
  | cons existing rest ih =>
    obtain ⟨hexisting, hrest⟩ := pairwise_cons.mp hranges
    rw [absorb]
    split
    · exact ih hrest
    · next htouches =>
      rcases before_or_before_of_not_touches htouches with hbefore | hafter
      · exact forall_mem_cons.mpr ⟨.inl (before_absorb hbefore hexisting), ih hrest⟩
      · -- The gathered range ends before this one, and so before all that follow.
        have hall : ∀ e ∈ rest, Span.Before merged e := fun e he => hafter.trans (hexisting e he)
        rw [absorb_of_before hall]
        exact forall_mem_cons.mpr ⟨.inr hafter, fun e he => .inr (hall e he)⟩

end Absorb

/-- The ranges with one more, before the first that does not start below it. -/
def insertRange (c : TimelineCoverage) (range : SeqRange) : TimelineCoverage where
  ranges :=
    let (kept, merged) := absorb c.ranges range
    kept.takeWhile (fun e => Span.first e < Span.first merged) ++
      merged :: kept.dropWhile (fun e => Span.first e < Span.first merged)
  apart := Span.pairwise_insertApart (c.apart.sublist (sublist_absorb _ _)) (apart_absorb c.apart)

/-- Returns whether the ranges changed. -/
def insert (c : TimelineCoverage) (range : SeqRange) : TimelineCoverage × Bool :=
  if c.ranges.any (fun existing => existing.fromSeq ≤ range.fromSeq && range.toSeq ≤ existing.toSeq) then (c, false)
  else (c.insertRange range, true)

def fromRanges (ranges : List SeqRange) : TimelineCoverage := ranges.foldl (fun c range => (c.insert range).1) {}

section Insert

variable {seq : ℕ}

theorem covers_insertRange : (c.insertRange range).Covers seq ↔ Span.Contains range seq ∨ c.Covers seq := by
  have hmem : (c.insertRange range).Covers seq ↔
      Span.Contains (absorb c.ranges range).2 seq ∨ Span.Covers (absorb c.ranges range).1 seq := by
    refine (exists_congr fun r => and_congr_left' mem_insertApart).trans ?_
    simp only [or_and_right, exists_or, exists_eq_left]
    rfl
  exact hmem.trans covers_absorb

theorem covers_insert : (c.insert range).1.Covers seq ↔ Span.Contains range seq ∨ c.Covers seq := by
  unfold insert
  split
  · next hany =>
    obtain ⟨existing, hmem, hwithin⟩ := any_eq_true.mp hany
    rw [Bool.and_eq_true, decide_eq_true_eq, decide_eq_true_eq] at hwithin
    refine (or_iff_right_of_imp fun hseq => ⟨existing, hmem, ?_⟩).symm
    exact ⟨hwithin.1.trans hseq.1, hseq.2.trans hwithin.2⟩
  · exact covers_insertRange

theorem covers_foldl_insert (ranges : List SeqRange) (c : TimelineCoverage) :
    (ranges.foldl (fun c range => (c.insert range).1) c).Covers seq ↔ Span.Covers ranges seq ∨ c.Covers seq := by
  induction ranges generalizing c with
  | nil => exact (or_iff_right (not_covers_nil seq)).symm
  | cons range ranges ih =>
    rw [foldl_cons, ih, covers_insert, ← or_assoc, or_comm (a := Span.Covers ranges seq)]
    exact or_congr_left covers_cons.symm

theorem covers_fromRanges (ranges : List SeqRange) : (fromRanges ranges).Covers seq ↔ Span.Covers ranges seq :=
  (covers_foldl_insert ranges {}).trans (or_iff_left (not_covers_empty seq))

/-- Ranges that are kept apart are read back as they are. -/
theorem fromRanges_ranges (c : TimelineCoverage) : fromRanges c.ranges = c :=
  ext_of_covers fun _ => covers_fromRanges c.ranges

end Insert

/-! ### Questions to the coverage -/

section

variable (c : TimelineCoverage)

def rangeContaining (seq : ℕ) : Option SeqRange :=
  (c.ranges.dropWhile fun range => Span.last range < seq).head?.filter fun range => Span.Contains range seq

def highestProvenSeq : ℕ := (c.ranges.getLast?.map toSeq).getD 0

/-- All of `[1, seq]` is proven. -/
def provenFromStart (seq : ℕ) : Bool :=
  seq = 0 || c.ranges.head?.any fun range => range.fromSeq = 1 && seq ≤ range.toSeq

/-- There may be visible messages below the oldest row of the window. -/
def hasOlder (oldestSeq : ℕ) (localRowsBelow : Bool) : Bool :=
  localRowsBelow || !c.provenFromStart (oldestSeq - 1)

end

section Questions

variable (c : TimelineCoverage) (seq : ℕ)

theorem rangeContaining_eq_some_iff :
    c.rangeContaining seq = some range ↔ range ∈ c.ranges ∧ Span.Contains range seq :=
  head?_dropWhile_eq_some_iff c.apart

theorem isSome_rangeContaining_iff : (c.rangeContaining seq).isSome = true ↔ c.Covers seq :=
  Option.isSome_iff_exists.trans (exists_congr fun _ => c.rangeContaining_eq_some_iff seq)

theorem le_highestProvenSeq {seq : ℕ} (h : c.Covers seq) : seq ≤ c.highestProvenSeq := by
  unfold Covers at h
  rcases eq_nil_or_concat c.ranges with hnil | ⟨rest, last, hlast⟩
  · rw [hnil] at h
    exact absurd h (not_covers_nil seq)
  · rw [concat_eq_append] at hlast
    rw [hlast] at h
    rw [highestProvenSeq, hlast, getLast?_concat]
    exact le_last_of_covers (hlast ▸ c.apart) h

theorem covers_highestProvenSeq : c.highestProvenSeq = 0 ∨ c.Covers c.highestProvenSeq := by
  rw [highestProvenSeq]
  cases hlast : c.ranges.getLast? with
  | none => exact .inl rfl
  | some last => exact .inr ⟨last, mem_of_getLast? hlast, last.le, le_rfl⟩

theorem provenFromStart_iff : c.provenFromStart seq = true ↔ ∀ q, 1 ≤ q → q ≤ seq → c.Covers q := by
  rcases Nat.eq_zero_or_pos seq with rfl | hpos
  · simp only [provenFromStart, decide_true, Bool.true_or, true_iff]
    intro q hq hle
    omega
  rw [provenFromStart, decide_eq_false hpos.ne', Bool.false_or]
  constructor
  · intro hhead q hq hle
    obtain ⟨range, hrange, hreach⟩ := (Option.any_eq_true _ _).mp hhead
    rw [Bool.and_eq_true, decide_eq_true_eq, decide_eq_true_eq] at hreach
    exact ⟨range, mem_of_head? hrange, hreach.1.trans_le hq, hle.trans hreach.2⟩
  · intro hall
    obtain ⟨range, hmem, hone⟩ := hall 1 le_rfl hpos
    have hfrom : range.fromSeq = 1 := le_antisymm hone.1 range.one_le
    have hreach : seq ≤ range.toSeq := by
      by_contra hlt
      exact ((mem_iff_of_pairwise c.apart).mp hmem).2.2 (hall _ (Nat.le_add_left ..) (not_le.mp hlt))
    cases hranges : c.ranges with
    | nil => exact absurd (hranges ▸ hmem) not_mem_nil
    | cons first rest =>
      -- Nothing lies before a range that starts at 1.
      rcases mem_cons.mp (hranges ▸ hmem) with rfl | hrest
      · simp [hfrom, hreach]
      · have hbefore : first.toSeq + 1 < range.fromSeq := (pairwise_cons.mp (hranges ▸ c.apart)).1 range hrest
        omega

end Questions

theorem insert_eq_true_iff :
    (c.insert range).2 = true ↔ ∃ seq, (c.insert range).1.Covers seq ∧ ¬ c.Covers seq := by
  unfold insert
  split
  · exact ⟨fun h => absurd h Bool.false_ne_true, fun ⟨_, hcovers, hnot⟩ => absurd hcovers hnot⟩
  · next hany =>
    refine ⟨fun _ => ?_, fun _ => rfl⟩
    by_contra hnone
    simp only [not_exists, not_and, not_not, covers_insertRange] at hnone
    -- The covered range lies in one of those apart, since a number between two is not covered.
    obtain ⟨existing, hmem, hfirst⟩ := hnone range.fromSeq (.inl ⟨le_rfl, range.le⟩)
    have hend : range.toSeq ≤ existing.toSeq := by
      by_contra hlt
      have hfrom : range.fromSeq ≤ existing.toSeq := hfirst.2
      refine ((mem_iff_of_pairwise c.apart).mp hmem).2.2 (hnone _ (.inl ⟨?_, not_le.mp hlt⟩))
      exact hfrom.trans (Nat.le_succ _)
    refine hany (any_eq_true.mpr ⟨existing, hmem, ?_⟩)
    rw [Bool.and_eq_true, decide_eq_true_eq, decide_eq_true_eq]
    exact ⟨hfirst.1, hend⟩

/-- Inserting a range gives the canonical ranges of the union, and every question is answered by the seqs
that are covered. -/
theorem insert_exact (c : TimelineCoverage) (range : SeqRange) :
    (c.insert range).1.ranges.Pairwise (fun r r' => r.toSeq + 1 < r'.fromSeq) ∧
    (∀ r ∈ (c.insert range).1.ranges, 1 ≤ r.fromSeq ∧ r.fromSeq ≤ r.toSeq) ∧
    (∀ seq, (c.insert range).1.Covers seq ↔ range.contains seq = true ∨ c.Covers seq) ∧
    ((c.insert range).2 = true ↔ ∃ seq, (c.insert range).1.Covers seq ∧ ¬ c.Covers seq) ∧
    (∀ ranges ranges', ranges.Perm ranges' → fromRanges ranges = fromRanges ranges') ∧
    (∀ seq r, c.rangeContaining seq = some r ↔ r ∈ c.ranges ∧ r.contains seq = true) ∧
    (∀ seq, (c.rangeContaining seq).isSome = true ↔ c.Covers seq) ∧
    ((∀ seq, c.Covers seq → seq ≤ c.highestProvenSeq) ∧ (c.highestProvenSeq = 0 ∨ c.Covers c.highestProvenSeq)) ∧
    (∀ seq, c.provenFromStart seq = true ↔ ∀ q, 1 ≤ q → q ≤ seq → c.Covers q) ∧
    ∀ oldestSeq localRowsBelow, c.hasOlder oldestSeq localRowsBelow = true ↔
      localRowsBelow = true ∨ ∃ q, 1 ≤ q ∧ q < oldestSeq ∧ ¬ c.Covers q := by
  refine ⟨(c.insert range).1.apart, fun r _ => ⟨r.one_le, r.le⟩, fun seq => ?_, insert_eq_true_iff, ?_, ?_,
    c.isSome_rangeContaining_iff, ⟨fun _ => c.le_highestProvenSeq, c.covers_highestProvenSeq⟩,
      c.provenFromStart_iff,
    fun seq localRowsBelow => ?_⟩
  · rw [contains_iff]
    exact covers_insert
  · intro ranges ranges' hperm
    ext seq
    rw [covers_fromRanges, covers_fromRanges]
    exact exists_congr fun r => and_congr_left' hperm.mem_iff
  · intro seq r
    rw [contains_iff]
    exact c.rangeContaining_eq_some_iff seq
  · rw [hasOlder, Bool.or_eq_true, Bool.not_eq_true', ← Bool.not_eq_true, provenFromStart_iff]
    simp only [not_forall, exists_prop]
    refine or_congr_right (exists_congr fun q => and_congr_right fun hq => and_congr_left' ?_)
    omega

/-! ### What the pages prove -/

/-- Every seq after `afterSeq` was given, up to `contiguousTo`. -/
def contiguousPageRange (afterSeq contiguousTo : ℕ) : Option SeqRange := new (satAddU64 afterSeq 1) contiguousTo

def cursorAdvanceRange (fromSeq toSeq : ℕ) : Option SeqRange := new (satAddU64 fromSeq 1) toSeq

/-- The newest part of the conversation, up to the server's watermark. -/
def tailPageRange (minItemSeq maxSeq : ℕ) : Option SeqRange :=
  if minItemSeq = 0 then none else new minItemSeq maxSeq

/-- The newest messages of the conversation, without a gap between them. -/
def snapshotRowsRange (seqs : List ℕ) : Option SeqRange :=
  let positive := seqs.filter (0 < ·)
  new (positive.foldl min maxU64) (positive.foldl max 0)

/-- A page of what lies before `beforeSeq`: down to its oldest item, or to the start. -/
def backfillPageRange (beforeSeq : ℕ) (itemSeqs : List ℕ) (hasMore : Bool) : Option SeqRange :=
  if beforeSeq = 0 then none
  else if !hasMore then new 1 (beforeSeq - 1)
  else ((itemSeqs.filter fun seq => 0 < seq && seq < beforeSeq).min?).bind fun minSeq => new minSeq (beforeSeq - 1)

end TimelineCoverage

end FlareIm.Timeline
