import FlareIm.Sync.CursorStores
import FlareIm.Timeline.Coverage

/-! The three stores of timeline coverage: ranges in memory, ranges written as text into an entry of the
cursor store, and ranges as rows of a table. The first two merge with the same code; the table merges
with the rows that touch the new range, which is enough because they touch it directly. Each of them
covers, after any calls, the seqs that were added since the last clear. -/

namespace FlareIm.Timeline

open Lib Message Store Sync List MessageTable TimelineCoverage

/-! ### In memory -/

structure MemoryTimelineCoverageStore where
  data : Std.ExtTreeMap String TimelineCoverage := ∅

open MemoryTimelineCoverageStore

namespace MemoryTimelineCoverageStore

section

variable (m : MemoryTimelineCoverageStore) (conversationId : String)

def coverage : TimelineCoverage :=
  m.data[conversationId]?.getD {}

def add (range : SeqRange) : MemoryTimelineCoverageStore :=
  ⟨m.data.insert conversationId ((m.coverage conversationId).insert range).1⟩

def clear : MemoryTimelineCoverageStore :=
  ⟨m.data.erase conversationId⟩

end

theorem coverage_empty (conversationId : String) :
    ({} : MemoryTimelineCoverageStore).coverage conversationId = {} := by
  have hnone : (∅ : Std.ExtTreeMap String TimelineCoverage)[conversationId]? = none := Std.ExtTreeMap.getElem?_empty
  rw [coverage, hnone]
  rfl

variable (m : MemoryTimelineCoverageStore)

theorem coverage_add (conversationId : String) (range : SeqRange) (c : String) :
    (m.add conversationId range).coverage c =
      if c = conversationId then ((m.coverage c).insert range).1 else m.coverage c := by
  rw [coverage, add, Std.ExtTreeMap.getElem?_insert]
  by_cases h : c = conversationId
  · subst h
    simp
  · have hcompare : ¬ compare conversationId c = .eq := by simpa using Ne.symm h
    rw [if_neg h, if_neg hcompare, coverage]

theorem coverage_clear (conversationId c : String) :
    (m.clear conversationId).coverage c = if c = conversationId then {} else m.coverage c := by
  rw [coverage, clear, Std.ExtTreeMap.getElem?_erase]
  by_cases h : c = conversationId
  · subst h
    simp
  · have hcompare : ¬ compare conversationId c = .eq := by simpa using Ne.symm h
    rw [if_neg h, if_neg hcompare, coverage]

end MemoryTimelineCoverageStore

/-! ### As text in the cursor store -/

structure RawEntries (σ : Type) where
  getRaw : σ → String → Option String
  saveRaw : σ → String → String → σ
  getRaw_saveRaw : ∀ s key value k, getRaw (saveRaw s key value) k = if k = key then some value else getRaw s k

/-- The memory store of cursors, which the browser keeps in front of its database. -/
def memoryRawEntries : RawEntries MemorySyncCursorStore where
  getRaw m key := m.data[key]?
  saveRaw := MemorySyncCursorStore.saveRaw
  getRaw_saveRaw m key value k := by
    rw [MemorySyncCursorStore.saveRaw, Std.ExtTreeMap.getElem?_insert]
    by_cases h : k = key
    · simp [h]
    · have hcompare : ¬ compare key k = .eq := by simpa using Ne.symm h
      rw [if_neg h, if_neg hcompare]

def rangeText (r : SeqRange) : String := toString r.fromSeq ++ "-" ++ toString r.toSeq

def encodeCoverage (c : TimelineCoverage) : String := ",".intercalate (c.ranges.map rangeText)

def decodeRange (part : String) : Option SeqRange := do
  let bounds ← splitOnce '-' (trim part)
  let fromSeq ← parseU64 bounds.1
  let toSeq ← parseU64 bounds.2
  SeqRange.new fromSeq toSeq

/-- Parts that cannot be read are passed over. -/
def decodeCoverage (value : String) : TimelineCoverage :=
  .fromRanges ((value.toList.splitOn ',').filterMap fun part => decodeRange (String.ofList part))

theorem mem_rangeText {r : SeqRange} {c : Char} (h : c ∈ (rangeText r).toList) : c.isDigit = true ∨ c = '-' := by
  rw [rangeText, String.toList_append, String.toList_append, mem_append, mem_append] at h
  rcases h with (hdigit | hdash) | hdigit
  · exact .inl (isDigit_of_mem_toString hdigit)
  · exact .inr (mem_singleton.mp hdash)
  · exact .inl (isDigit_of_mem_toString hdigit)

theorem decodeRange_rangeText (r : SeqRange) : decodeRange (rangeText r) = some r := by
  have htrim : trim (rangeText r) = rangeText r := by
    refine trim_of_forall fun c hc => ?_
    rcases mem_rangeText hc with hdigit | rfl
    · exact isWhitespace_of_isDigit hdigit
    · decide
  have hsplit : splitOnce '-' (rangeText r) = some (toString r.fromSeq, toString r.toSeq) :=
    splitOnce_toString (by decide) r.fromSeq _
  simp only [decodeRange, htrim, hsplit, Option.bind_eq_bind, Option.bind_some, parseU64_toString r.toSeq_le,
    parseU64_toString (r.le.trans r.toSeq_le), SeqRange.new_fromSeq_toSeq]

theorem decodeCoverage_encodeCoverage (c : TimelineCoverage) : decodeCoverage (encodeCoverage c) = c := by
  have hparts : ((encodeCoverage c).toList.splitOn ',').filterMap (fun part => decodeRange (String.ofList part)) =
      c.ranges := by
    by_cases hempty : c.ranges = []
    · rw [encodeCoverage, hempty]
      decide
    · have hsplit : (encodeCoverage c).toList.splitOn ',' = c.ranges.map (fun r => (rangeText r).toList) := by
        rw [encodeCoverage, String.toList_intercalate, map_map]
        refine splitOn_intercalate ',' (fun l hl hcomma => ?_) (by simpa using hempty)
        obtain ⟨r, -, rfl⟩ := mem_map.mp hl
        rcases mem_rangeText hcomma with hdigit | hdash
        · exact absurd hdigit (by decide)
        · exact absurd hdash (by decide)
      rw [hsplit, filterMap_map]
      refine (filterMap_congr fun r _ => ?_).trans (filterMap_some)
      rw [Function.comp_apply, String.ofList_toList, decodeRange_rangeText]
  rw [decodeCoverage, hparts, fromRanges_ranges]

variable {r : CoverageRow} {σ : Type}

namespace CursorBackedTimelineCoverageStore

variable (cursors : RawEntries σ)

def timelineCoverageCursorKey (conversationId : String) : String := "timeline_coverage:" ++ conversationId

section

variable (s : σ) (conversationId : String)

def coverage : TimelineCoverage :=
  ((cursors.getRaw s (timelineCoverageCursorKey conversationId)).map decodeCoverage).getD {}

def add (range : SeqRange) : σ :=
  let (coverage, changed) := (coverage cursors s conversationId).insert range
  if changed then cursors.saveRaw s (timelineCoverageCursorKey conversationId) (encodeCoverage coverage) else s

/-- Entries cannot be deleted; an empty one has no range. -/
def clear : σ :=
  if (cursors.getRaw s (timelineCoverageCursorKey conversationId)).isSome then
    cursors.saveRaw s (timelineCoverageCursorKey conversationId) ""
  else s

end

variable {cursors}

theorem coverage_saveRaw (s : σ) (conversationId value c : String) :
    coverage cursors (cursors.saveRaw s (timelineCoverageCursorKey conversationId) value) c =
      if c = conversationId then decodeCoverage value else coverage cursors s c := by
  have hkey : timelineCoverageCursorKey c = timelineCoverageCursorKey conversationId ↔ c = conversationId :=
    String.append_right_inj _
  rw [coverage, cursors.getRaw_saveRaw]
  by_cases hc : c = conversationId
  · rw [if_pos hc, if_pos (hkey.mpr hc)]
    rfl
  · rw [if_neg hc, if_neg (mt hkey.mp hc), coverage]

theorem coverage_add (s : σ) (conversationId : String) (range : SeqRange) (c : String) :
    coverage cursors (add cursors s conversationId range) c =
      if c = conversationId then ((coverage cursors s c).insert range).1 else coverage cursors s c := by
  unfold add
  split
  next inserted changed hinsert =>
  by_cases hc : c = conversationId
  · subst hc
    rw [if_pos rfl, hinsert]
    cases changed with
    | true => rw [if_pos rfl, coverage_saveRaw, if_pos rfl, decodeCoverage_encodeCoverage]
    | false =>
      -- An unchanged coverage is not written.
      unfold TimelineCoverage.insert at hinsert
      split at hinsert
      · exact (Prod.mk.inj hinsert).1
      · exact absurd (Prod.mk.inj hinsert).2 (by simp)
  · rw [if_neg hc]
    split
    · rw [coverage_saveRaw, if_neg hc]
    · rfl

theorem coverage_clear (s : σ) (conversationId c : String) :
    coverage cursors (clear cursors s conversationId) c =
      if c = conversationId then {} else coverage cursors s c := by
  unfold clear
  split
  · have hempty : decodeCoverage "" = {} := by decide
    rw [coverage_saveRaw, hempty]
  · next hnone =>
    by_cases hc : c = conversationId
    · rw [if_pos hc, hc, coverage, Option.not_isSome_iff_eq_none.mp hnone]
      rfl
    · rw [if_neg hc]

end CursorBackedTimelineCoverageStore

/-! ### As rows of a table -/

structure CoverageRow where
  conversationId : String
  fromSeq : ℤ
  toSeq : ℤ
  deriving DecidableEq

def CoverageRow.key (r : CoverageRow) : String × ℤ := (r.conversationId, r.fromSeq)

structure SqliteTimelineCoverageRepo where
  rows : KeyedMap (String × ℤ) CoverageRow CoverageRow.key := .empty

namespace SqliteTimelineCoverageRepo

def seqValue (seq : ℕ) : ℤ := (min seq maxI64 : ℕ)

def rangeOf (r : CoverageRow) : Option SeqRange := SeqRange.new r.fromSeq.toNat r.toSeq.toNat

def coverage (t : SqliteTimelineCoverageRepo) (conversationId : String) : TimelineCoverage :=
  .fromRanges (((t.rows.items.filter fun r => r.conversationId = conversationId).insertionSort
    (fun a b => a.fromSeq ≤ b.fromSeq)).filterMap rangeOf)

/-- The rows that `add` reads and deletes. -/
def touching (conversationId : String) (range : SeqRange) (r : CoverageRow) : Bool :=
  r.conversationId = conversationId && r.fromSeq ≤ seqValue (satAddU64 range.toSeq 1) &&
    seqValue (range.fromSeq - 1) ≤ r.toSeq

def covered (range : SeqRange) (r : CoverageRow) : Bool :=
  r.fromSeq.toNat ≤ range.fromSeq && range.toSeq ≤ r.toSeq.toNat

section

variable (t : SqliteTimelineCoverageRepo) (conversationId : String)

def add (range : SeqRange) : SqliteTimelineCoverageRepo :=
  let rows := t.rows.items.filter (touching conversationId range)
  if rows.any (covered range) then t
  else
    let fromSeq := rows.foldl (fun fromSeq r => min fromSeq r.fromSeq.toNat) range.fromSeq
    let toSeq := rows.foldl (fun toSeq r => max toSeq r.toSeq.toNat) range.toSeq
    ⟨(t.rows.filter fun r => !touching conversationId range r).insert
      ⟨conversationId, seqValue fromSeq, seqValue toSeq⟩⟩

def clear : SqliteTimelineCoverageRepo :=
  ⟨t.rows.filter fun r => r.conversationId ≠ conversationId⟩

end

/-- A row that was written from a range of the column's type. -/
structure Valid (r : CoverageRow) : Prop where
  one_le : 1 ≤ r.fromSeq
  le : r.fromSeq ≤ r.toSeq
  toSeq_le : r.toSeq ≤ maxI64

variable {t : SqliteTimelineCoverageRepo} {conversationId : String} {range : SeqRange} {seq : ℕ}

def RowCovers (conversationId : String) (seq : ℕ) (r : CoverageRow) : Prop :=
  r.conversationId = conversationId ∧ r.fromSeq ≤ seq ∧ (seq : ℤ) ≤ r.toSeq

theorem exists_rangeOf (h : Valid r) :
    ∃ range, rangeOf r = some range ∧ ∀ seq : ℕ, Span.Contains range seq ↔
    r.fromSeq ≤ seq ∧ (seq : ℤ) ≤ r.toSeq := by
  have hone := h.one_le
  have hle := h.le
  have hmax := h.toSeq_le
  have hwithin : max r.fromSeq.toNat 1 ≤ r.toSeq.toNat ∧ r.toSeq.toNat ≤ maxU64 := by
    unfold maxI64 at hmax
    unfold maxU64
    omega
  have hnew : rangeOf r = some ⟨max r.fromSeq.toNat 1, r.toSeq.toNat, le_max_right _ _, hwithin.1, hwithin.2⟩ :=
    dif_pos hwithin
  refine ⟨_, hnew, fun seq => ?_⟩
  rw [SeqRange.contains_of_new hnew]
  omega

theorem covers_coverage (hvalid : ∀ r ∈ t.rows.items, Valid r) :
    (t.coverage conversationId).Covers seq ↔ ∃ r ∈ t.rows.items, RowCovers conversationId seq r := by
  rw [coverage, covers_fromRanges]
  constructor
  · rintro ⟨range, hrange, hseq⟩
    obtain ⟨r, hr, hread⟩ := mem_filterMap.mp hrange
    obtain ⟨hr, hconversation⟩ := mem_filter.mp ((mem_insertionSort _).mp hr)
    obtain ⟨range', hread', hcontains⟩ := exists_rangeOf (hvalid r hr)
    rw [hread] at hread'
    rw [Option.some.inj hread', hcontains] at hseq
    exact ⟨r, hr, of_decide_eq_true hconversation, hseq⟩
  · rintro ⟨r, hr, hconversation, hseq⟩
    obtain ⟨range, hread, hcontains⟩ := exists_rangeOf (hvalid r hr)
    refine ⟨range, mem_filterMap.mpr ⟨r, (mem_insertionSort _).mpr ?_, hread⟩, (hcontains seq).mpr hseq⟩
    exact mem_filter.mpr ⟨hr, decide_eq_true hconversation⟩

theorem touching_iff (hr : Valid r) (hmax : range.toSeq ≤ maxI64) :
    touching conversationId range r = true ↔
      r.conversationId = conversationId ∧ r.fromSeq ≤ range.toSeq + 1 ∧ (range.fromSeq : ℤ) ≤ r.toSeq + 1 := by
  have hone := range.one_le
  have hle := range.le
  have hrle := hr.le
  have hrmax := hr.toSeq_le
  rw [touching, Bool.and_eq_true, Bool.and_eq_true, decide_eq_true_eq, decide_eq_true_eq,
    decide_eq_true_eq, and_assoc]
  refine and_congr_right fun _ => ?_
  unfold seqValue satAddU64
  unfold maxI64 at hmax hrmax ⊢
  unfold maxU64
  omega

/-- The bounds of a range and of rows that touch it. -/
theorem mem_hull_iff (seq : ℕ) {rows : List CoverageRow} (hvalid : ∀ r ∈ rows, Valid r)
    (htouch : ∀ r ∈ rows, r.fromSeq ≤ range.toSeq + 1 ∧ (range.fromSeq : ℤ) ≤ r.toSeq + 1) :
    rows.foldl (fun fromSeq r => min fromSeq r.fromSeq.toNat) range.fromSeq ≤ seq ∧
        seq ≤ rows.foldl (fun toSeq r => max toSeq r.toSeq.toNat) range.toSeq ↔
      Span.Contains range seq ∨ ∃ r ∈ rows, r.fromSeq ≤ seq ∧ (seq : ℤ) ≤ r.toSeq := by
  have hfrom : ∀ (rows : List CoverageRow) (m : ℕ),
    rows.foldl (fun fromSeq r => min fromSeq r.fromSeq.toNat) m ≤ seq ↔
      m ≤ seq ∨ ∃ r ∈ rows, r.fromSeq ≤ seq := by
    intro rows
    induction rows with
    | nil => simp
    | cons r rows ih =>
      intro m
      rw [foldl_cons, ih, min_le_iff, or_assoc, exists_mem_cons_iff]
      simp only [Int.toNat_le]
  have hto : ∀ (rows : List CoverageRow) (m : ℕ), seq ≤ rows.foldl (fun toSeq r => max toSeq r.toSeq.toNat) m ↔
      seq ≤ m ∨ ∃ r ∈ rows, (seq : ℤ) ≤ r.toSeq ∨ seq = 0 := by
    intro rows
    induction rows with
    | nil => simp
    | cons r rows ih =>
      intro m
      rw [foldl_cons, ih, le_max_iff, or_assoc, exists_mem_cons_iff]
      have hhead : seq ≤ r.toSeq.toNat ↔ (seq : ℤ) ≤ r.toSeq ∨ seq = 0 := by omega
      rw [hhead]
  rw [hfrom, hto]
  constructor
  · rintro ⟨hlow | ⟨r, hr, hlow⟩, hhigh | ⟨r', hr', hhigh⟩⟩
    · exact .inl ⟨hlow, hhigh⟩
    · have hvalid' := hvalid r' hr'
      have htouch' := htouch r' hr'
      by_cases hwithin : seq ≤ range.toSeq
      · exact .inl ⟨hlow, hwithin⟩
      · exact .inr ⟨r', hr', by omega, by omega⟩
    · have htouch' := htouch r hr
      by_cases hwithin : range.fromSeq ≤ seq
      · exact .inl ⟨hwithin, hhigh⟩
      · exact .inr ⟨r, hr, hlow, by omega⟩
    · have hvalid' := (hvalid r hr).one_le
      have htouch' := htouch r hr
      have htouch'' := htouch r' hr'
      by_cases hwithin : range.fromSeq ≤ seq
      · by_cases hwithin' : seq ≤ range.toSeq
        · exact .inl ⟨hwithin, hwithin'⟩
        · exact .inr ⟨r', hr', by omega, by omega⟩
      · exact .inr ⟨r, hr, hlow, by omega⟩
  · rintro (⟨hlow, hhigh⟩ | ⟨r, hr, hlow, hhigh⟩)
    · exact ⟨.inl hlow, .inl hhigh⟩
    · exact ⟨.inr ⟨r, hr, hlow⟩, .inr ⟨r, hr, .inl hhigh⟩⟩

theorem seqValue_of_le {n : ℕ} (h : n ≤ maxI64) : seqValue n = n := by rw [seqValue, min_eq_left h]

section Add

variable (hvalid : ∀ r ∈ t.rows.items, Valid r) (hmax : range.toSeq ≤ maxI64)
include hvalid hmax

/-- What a call leaves: the table as it was if a row has all of the range already, and otherwise the rows
that do not touch the range and one that covers the range and the rows that do. -/
theorem add_cases (conversationId : String) :
    (t.add conversationId range = t ∧ ∃ r ∈ t.rows.items, r.conversationId = conversationId ∧
      r.fromSeq ≤ range.fromSeq ∧ (range.toSeq : ℤ) ≤ r.toSeq) ∨
    ∃ merged, Valid merged ∧ merged.conversationId = conversationId ∧
      (∀ r, r ∈ (t.add conversationId range).rows.items ↔
        r = merged ∨ (r ∈ t.rows.items ∧ touching conversationId range r = false)) ∧
      ∀ seq : ℕ, merged.fromSeq ≤ seq ∧ (seq : ℤ) ≤ merged.toSeq ↔ Span.Contains range seq ∨
        ∃ r ∈ t.rows.items, touching conversationId range r = true ∧ r.fromSeq ≤ seq ∧ (seq : ℤ) ≤ r.toSeq := by
  unfold add
  dsimp only
  split
  · next hany =>
    obtain ⟨r, hr, hcovered⟩ := any_eq_true.mp hany
    obtain ⟨hr, htouching⟩ := mem_filter.mp hr
    have hone := range.one_le
    have hle := range.le
    rw [covered, Bool.and_eq_true, decide_eq_true_eq, decide_eq_true_eq] at hcovered
    exact .inl ⟨rfl, r, hr, ((touching_iff (hvalid r hr) hmax).mp htouching).1, by omega, by omega⟩
  · right
    have hrows : ∀ r ∈ t.rows.items.filter (touching conversationId range), Valid r ∧
        r.conversationId = conversationId ∧ r.fromSeq ≤ range.toSeq + 1 ∧ (range.fromSeq : ℤ) ≤ r.toSeq + 1 := by
      intro r hr
      obtain ⟨hr, htouching⟩ := mem_filter.mp hr
      exact ⟨hvalid r hr, (touching_iff (hvalid r hr) hmax).mp htouching⟩
    have hhull := fun seq => mem_hull_iff seq (fun r hr => (hrows r hr).1) fun r hr => (hrows r hr).2.2
    generalize (t.rows.items.filter (touching conversationId range)).foldl
      (fun fromSeq r => min fromSeq r.fromSeq.toNat)
      range.fromSeq = fromSeq at hhull ⊢
    generalize (t.rows.items.filter (touching conversationId range)).foldl (fun toSeq r => max toSeq r.toSeq.toNat)
      range.toSeq = toSeq at hhull ⊢
    have hone := range.one_le
    have hstart := (hhull range.fromSeq).mpr (.inl (Span.contains_first range))
    have hpos : 1 ≤ fromSeq := by
      by_contra hzero
      rcases (hhull 0).mp ⟨by omega, Nat.zero_le _⟩ with hcontains | ⟨r, hr, hlow, -⟩
      · exact absurd (hone.trans hcontains.1) (by omega)
      · have hrone := (hrows r hr).1.one_le
        omega
    have htoSeq : toSeq ≤ maxI64 := by
      rcases (hhull toSeq).mp ⟨hstart.1.trans hstart.2, le_rfl⟩ with hcontains | ⟨r, hr, -, hhigh⟩
      · exact hcontains.2.trans hmax
      · have hrmax := (hrows r hr).1.toSeq_le
        omega
    have hfromValue : seqValue fromSeq = fromSeq := seqValue_of_le (hstart.1.trans (hstart.2.trans htoSeq))
    have htoValue : seqValue toSeq = toSeq := seqValue_of_le htoSeq
    refine ⟨⟨conversationId, seqValue fromSeq, seqValue toSeq⟩, ?_, rfl, fun r => ?_, fun seq => ?_⟩
    · rw [hfromValue, htoValue]
      exact ⟨Int.ofNat_le.mpr hpos, Int.ofNat_le.mpr (hstart.1.trans hstart.2), Int.ofNat_le.mpr htoSeq⟩
    · refine (KeyedMap.mem_insert _ _ _).trans (or_congr_right ?_)
      rw [KeyedMap.filter, mem_filter, Bool.not_eq_true']
      refine and_iff_left_of_imp fun ⟨hr, hother⟩ hkey => ?_
      -- A row that starts where the merged one does is among the rows that touch the range.
      obtain ⟨hconversation, hfrom⟩ := Prod.mk.inj hkey
      have hfrom : r.fromSeq = fromSeq := hfrom.trans hfromValue
      refine absurd hother (Bool.not_eq_false _ ▸ ?_)
      rcases (hhull fromSeq).mp ⟨le_rfl, hstart.1.trans hstart.2⟩ with hcontains | ⟨r', hr', hlow, hhigh⟩
      · have hrle := (hvalid r hr).le
        have hle := range.le
        have hstarts : range.fromSeq ≤ fromSeq := hcontains.1
        exact (touching_iff (hvalid r hr) hmax).mpr ⟨hconversation, by omega, by omega⟩
      · have hvalid' := (hrows r' hr').1
        have hlow' := (hhull r'.fromSeq.toNat).mpr (.inr ⟨r', hr', by omega, by omega⟩)
        obtain ⟨hmem', htouching'⟩ := mem_filter.mp hr'
        have hsame : r = r' := t.rows.eq_of_key_eq hr hmem'
          (Prod.ext (hconversation.trans (hrows r' hr').2.1.symm) (show r.fromSeq = r'.fromSeq by omega))
        rwa [hsame]
    · rw [hfromValue, htoValue, Nat.cast_le, Nat.cast_le, hhull]
      simp only [mem_filter, and_assoc]

theorem valid_add (conversationId : String) : ∀ r ∈ (t.add conversationId range).rows.items, Valid r := by
  rcases add_cases hvalid hmax conversationId with ⟨hsame, -⟩ | ⟨merged, hmerged, -, hmem, -⟩
  · rwa [hsame]
  · intro r hr
    rcases (hmem r).mp hr with rfl | ⟨hr, -⟩
    · exact hmerged
    · exact hvalid r hr

theorem covers_add (conversationId c : String) :
    (∃ r ∈ (t.add conversationId range).rows.items, RowCovers c seq r) ↔
    (c = conversationId ∧ Span.Contains range seq) ∨ ∃ r ∈ t.rows.items, RowCovers c seq r := by
  rcases add_cases hvalid hmax conversationId with ⟨hsame, r, hr, hconversation, hlow, hhigh⟩ |
    ⟨merged, -, hconversation, hmem, hcovers⟩
  · rw [hsame]
    refine (or_iff_right_of_imp ?_).symm
    rintro ⟨rfl, hseq⟩
    have hstart : range.fromSeq ≤ seq := hseq.1
    have hend : seq ≤ range.toSeq := hseq.2
    exact ⟨r, hr, hconversation, by omega, by omega⟩
  · constructor
    · rintro ⟨r, hr, hc, hseq⟩
      rcases (hmem r).mp hr with rfl | ⟨hr, -⟩
      · rcases (hcovers seq).mp hseq with hrange | ⟨r', hr', htouching, hseq'⟩
        · exact .inl ⟨hc.symm.trans hconversation, hrange⟩
        · have hconversation' := ((touching_iff (hvalid r' hr') hmax).mp htouching).1
          exact .inr ⟨r', hr', hconversation'.trans (hconversation.symm.trans hc), hseq'⟩
      · exact .inr ⟨r, hr, hc, hseq⟩
    · rintro (⟨rfl, hrange⟩ | ⟨r, hr, hc, hseq⟩)
      · exact ⟨merged, (hmem merged).mpr (.inl rfl), hconversation, (hcovers seq).mpr (.inl hrange)⟩
      · by_cases htouching : touching conversationId range r = true
        · have hconversation' := ((touching_iff (hvalid r hr) hmax).mp htouching).1
          exact ⟨merged, (hmem merged).mpr (.inl rfl), hconversation.trans (hconversation'.symm.trans hc),
            (hcovers seq).mpr (.inr ⟨r, hr, htouching, hseq⟩)⟩
        · exact ⟨r, (hmem r).mpr (.inr ⟨hr, Bool.eq_false_of_not_eq_true htouching⟩), hc, hseq⟩

theorem coverage_add (conversationId c : String) : (t.add conversationId range).coverage c =
    if c = conversationId then ((t.coverage c).insert range).1 else t.coverage c := by
  refine ext_of_covers fun seq => ?_
  rw [covers_coverage (valid_add hvalid hmax conversationId), covers_add hvalid hmax]
  split
  · next hc => rw [covers_insert, covers_coverage hvalid, and_iff_right hc]
  · next hc => rw [covers_coverage hvalid, or_iff_right fun h => hc h.1]

end Add

theorem valid_clear (hvalid : ∀ r ∈ t.rows.items, Valid r) (conversationId : String) :
    ∀ r ∈ (t.clear conversationId).rows.items, Valid r :=
  fun r hr => hvalid r (mem_of_mem_filter hr)

theorem coverage_clear (hvalid : ∀ r ∈ t.rows.items, Valid r) (conversationId c : String) :
    (t.clear conversationId).coverage c = if c = conversationId then {} else t.coverage c := by
  refine ext_of_covers fun seq => ?_
  have hmem : ∀ r, r ∈ (t.clear conversationId).rows.items ↔
    r ∈ t.rows.items ∧ r.conversationId ≠ conversationId := by
    intro r
    rw [clear, KeyedMap.filter, mem_filter, decide_eq_true_eq]
  rw [covers_coverage (valid_clear hvalid conversationId)]
  split
  · next hc =>
    refine iff_of_false ?_ (not_covers_empty seq)
    rintro ⟨r, hr, hconversation, -⟩
    exact ((hmem r).mp hr).2 (hconversation.trans hc)
  · next hc =>
    rw [covers_coverage hvalid]
    refine exists_congr fun r => ⟨fun h => ⟨((hmem r).mp h.1).1, h.2⟩, fun h => ⟨(hmem r).mpr ⟨h.1, ?_⟩, h.2⟩⟩
    exact fun hconversation => hc (h.2.1.symm.trans hconversation)

end SqliteTimelineCoverageRepo

/-! ### The stores side by side -/

inductive CoverageCall
  | add (conversationId : String) (range : SeqRange)
  | clear (conversationId : String)

/-- The seqs of the call fit a signed column. -/
def CoverageCall.FitsColumn : CoverageCall → Prop
  | .add _ range => range.toSeq ≤ maxI64
  | .clear _ => True

structure CoverageStores (σ : Type) where
  memory : MemoryTimelineCoverageStore := {}
  cursorBacked : σ
  sqlite : SqliteTimelineCoverageRepo := {}

namespace CoverageStores

variable (cursors : RawEntries σ)

def step (s : CoverageStores σ) : CoverageCall → CoverageStores σ
  | .add conversationId range =>
    ⟨s.memory.add conversationId range,
    CursorBackedTimelineCoverageStore.add cursors s.cursorBacked conversationId range,
      s.sqlite.add conversationId range⟩
  | .clear conversationId =>
    ⟨s.memory.clear conversationId, CursorBackedTimelineCoverageStore.clear cursors s.cursorBacked conversationId,
      s.sqlite.clear conversationId⟩

structure Same (s : CoverageStores σ) : Prop where
  cursorBacked : ∀ c, CursorBackedTimelineCoverageStore.coverage cursors s.cursorBacked c = s.memory.coverage c
  sqlite : ∀ c, s.sqlite.coverage c = s.memory.coverage c
  valid : ∀ r ∈ s.sqlite.rows.items, SqliteTimelineCoverageRepo.Valid r

variable {cursors} {s : CoverageStores σ}

theorem Same.step (h : Same cursors s) {call : CoverageCall} (hcall : call.FitsColumn) :
    Same cursors (s.step cursors call) := by
  cases call with
  | add conversationId range =>
    refine ⟨fun c => ?_, fun c => ?_, SqliteTimelineCoverageRepo.valid_add h.valid hcall conversationId⟩
    · rw [CoverageStores.step, CursorBackedTimelineCoverageStore.coverage_add, coverage_add,
        h.cursorBacked]
    · rw [CoverageStores.step, SqliteTimelineCoverageRepo.coverage_add h.valid hcall,
        coverage_add, h.sqlite]
  | clear conversationId =>
    refine ⟨fun c => ?_, fun c => ?_, SqliteTimelineCoverageRepo.valid_clear h.valid conversationId⟩
    · rw [CoverageStores.step, CursorBackedTimelineCoverageStore.coverage_clear,
        coverage_clear, h.cursorBacked]
    · rw [CoverageStores.step, SqliteTimelineCoverageRepo.coverage_clear h.valid,
        coverage_clear, h.sqlite]

variable (cursors)

/-- Whatever is added and cleared, the three stores return the same coverage of every conversation. -/
theorem coverage_eq (start : σ) (hstart : ∀ c, CursorBackedTimelineCoverageStore.coverage cursors start c = {})
    (calls : List CoverageCall) (hcalls : ∀ call ∈ calls, call.FitsColumn) (conversationId : String) :
    CursorBackedTimelineCoverageStore.coverage cursors
    (run (step cursors) { cursorBacked := start } calls).cursorBacked
        conversationId = (run (step cursors) { cursorBacked := start } calls).memory.coverage conversationId ∧
      (run (step cursors) { cursorBacked := start } calls).sqlite.coverage conversationId =
        (run (step cursors) { cursorBacked := start } calls).memory.coverage conversationId := by
  have hmemory : ∀ c, ({} : MemoryTimelineCoverageStore).coverage c = {} := coverage_empty
  have hsame := run_invariant (I := Same cursors) (c := fun _ call => call.FitsColumn)
    (fun _ _ h hcall => h.step hcall)
    calls { cursorBacked := start } ⟨fun c => (hstart c).trans (hmemory c).symm, fun c => (hmemory c).symm,
      fun r hr => absurd hr not_mem_nil⟩ (.of_mem hcalls)
  exact ⟨hsame.cursorBacked conversationId, hsame.sqlite conversationId⟩

def sampleRange (fromSeq toSeq : ℕ) (h : 1 ≤ fromSeq ∧ fromSeq ≤ toSeq ∧ toSeq ≤ 100) : SeqRange :=
  ⟨fromSeq, toSeq, h.1, h.2.1, h.2.2.trans (by decide)⟩

/-- Two ranges, one that joins them, and a conversation that is cleared and starts over. -/
def sampleCoverageCalls : List CoverageCall :=
  [.add "c1" (sampleRange 10 20 (by decide)), .add "c1" (sampleRange 30 40 (by decide)),
    .add "c1" (sampleRange 21 29 (by decide)), .add "c2" (sampleRange 5 6 (by decide)), .clear "c2",
    .add "c2" (sampleRange 1 3 (by decide))]

theorem coverage_eq_sampleCoverageCalls :
    (run (step memoryRawEntries) { cursorBacked := {} } sampleCoverageCalls).sqlite.coverage "c1" =
      (run (step memoryRawEntries) { cursorBacked := {} } sampleCoverageCalls).memory.coverage "c1" := by
  refine (coverage_eq memoryRawEntries {} (fun c => ?_) sampleCoverageCalls ?_ "c1").2
  · have hnone : memoryRawEntries.getRaw {}
      (CursorBackedTimelineCoverageStore.timelineCoverageCursorKey c) = none :=
      Std.ExtTreeMap.getElem?_empty
    rw [CursorBackedTimelineCoverageStore.coverage, hnone]
    rfl
  · simp [sampleCoverageCalls, CoverageCall.FitsColumn, sampleRange, maxI64]

end CoverageStores

end FlareIm.Timeline
