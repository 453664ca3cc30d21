import FlareIm.Dispatcher.Converger
import FlareIm.Lib.Contiguous
import FlareIm.Lib.Prog
import FlareIm.Store.KeptSeqs
import FlareIm.Sync.Page

/-! The stores that a conversation sync works on, and the two ways it saves a cursor. The ordinary
one counts up from the cursor and the visibility floor over rows that are stored and seqs that the
server declared absent, and stops at the first hole; the other trusts a watermark of the server.
Columns are signed 64 bit, so a seq above their range is read back as 0. Every store call may
fail; an error ends the call it comes from, and what was written before stays. -/

namespace FlareIm.Sync

open Lib Message Store Events Dispatcher List MessageTable

/-! ### Columns -/

/-- `value as i64` of a `u64`. -/
def asI64 (n : ℕ) : ℤ := if n ≤ maxI64 then n else (min n maxU64 : ℕ) - (2 : ℤ) ^ 64

/-- A seq that was written and is read back with `max(0) as u64`. -/
def storedSeq (n : ℕ) : ℕ := (asI64 n).toNat

theorem storedSeq_eq (n : ℕ) : storedSeq n = if n ≤ maxI64 then n else 0 := by
  unfold storedSeq asI64 maxU64
  split <;> omega

theorem storedSeq_le (n : ℕ) : storedSeq n ≤ n := by
  rw [storedSeq_eq]
  split <;> omega

theorem eq_of_storedSeq_pos {n : ℕ} (h : 0 < storedSeq n) : storedSeq n = n := by
  rw [storedSeq_eq] at h ⊢
  split at h
  · next hle => rw [if_pos hle]
  · omega

/-! ### Local rows of a conversation -/

variable {absentSeqs seqs : List ℕ} {high limit low seq : ℕ}

section Rows

variable (t : RowTable) (conversationId : String)

/-- A message that waits for its acknowledgement is listed before all others. -/
def pendingRank (r : MessageRow) : ℕ := if asI64 r.conversationSeq = 0 ∧ r.localState.isLocal then 1 else 0

/-- The messages of the conversation that wait. -/
def pendingCount : ℕ := (t.rows.items.filter fun r => r.conversationId = conversationId && pendingRank r = 1).length

def isAboveFloor (floor : ℕ) (r : MessageRow) : Bool := floor = 0 || asI64 floor < asI64 r.conversationSeq

/-- The seqs of the rows that `get_by_conversation` returns, newest first. -/
def getByConversation (beforeSeq limit : ℕ) : List ℕ :=
  let floor := t.clearedFloor conversationId
  let rows := t.rows.items.filter (fun r => r.conversationId = conversationId)
  if beforeSeq = 0 || maxI64 ≤ beforeSeq then
    let window := rows.filter fun r => asI64 r.conversationSeq < maxI64 &&
      (asI64 r.conversationSeq = 0 || isAboveFloor floor r)
    (((window.map fun r => (pendingRank r, storedSeq r.conversationSeq)).insertionSort
      (fun a b => b.1 < a.1 ∨ (a.1 = b.1 ∧ b.2 ≤ a.2))).map Prod.snd).take limit
  else
    let older := rows.filter fun r => 0 < asI64 r.conversationSeq && asI64 r.conversationSeq < beforeSeq &&
      isAboveFloor floor r
    ((older.map fun r => storedSeq r.conversationSeq).insertionSort (· ≥ ·)).take limit

def localMaxSeq : ℕ :=
  ((t.rows.items.filter (fun r => r.conversationId = conversationId)).map
    (fun r => storedSeq r.conversationSeq)).foldl max 0

def scanPageLimit : ℕ := 512

/-- The pages that are read downwards from `beforeSeq` until one ends at the floor, `none` if the scan goes on past
the fuel. -/
def scanPages (limit floorSeq : ℕ) : ℕ → ℕ → List ℕ → Option (List ℕ)
  | 0, _, _ => none
  | fuel + 1, beforeSeq, seqs =>
    let page := getByConversation t conversationId beforeSeq limit
    if page.isEmpty then some seqs
    else
      let minSeq := ((page.filter (0 < ·)).min?).getD 0
      let seqs := seqs ++ page
      if minSeq ≤ floorSeq + 1 || seqs.length < limit then some seqs
      else scanPages limit floorSeq fuel minSeq seqs

/-- How far rows and absent seqs reach from the floor without a hole, for pages of any size. -/
def pagedContiguousSeq (limit fuel targetSeq floorSeq : ℕ) (absentSeqs : List ℕ) : Option ℕ :=
  if targetSeq = 0 then some 0
  else (scanPages t conversationId limit floorSeq fuel (min (targetSeq + 1) maxU64) []).map fun seqs =>
    min (maxContiguousSeq floorSeq
    (seqs ++ absentSeqs.filter fun seq => floorSeq < seq && seq ≤ targetSeq)) targetSeq

/-- With the code's page size. Each page ends below the seq it was asked for, so there is fuel enough. -/
def materializedContiguousSeq (targetSeq floorSeq : ℕ) (absentSeqs : List ℕ) : ℕ :=
  (pagedContiguousSeq t conversationId scanPageLimit (targetSeq + 1) targetSeq floorSeq absentSeqs).getD 0

/-- No seq from the floor to `c` is missing. -/
def NoneMissing (floorSeq : ℕ) (absentSeqs : List ℕ) (c : ℕ) : Prop :=
  ∀ seq, floorSeq < seq → seq ≤ c → seq ∈ absentSeqs ∨ t.HasSeq conversationId seq

/-- The seqs that pages list, oldest first. -/
def visibleSeqs : List ℕ :=
  ((t.rows.items.filter fun r => (0 < asI64 r.conversationSeq && isAboveFloor (t.clearedFloor conversationId) r) &&
    r.conversationId = conversationId).map fun r => storedSeq r.conversationSeq).insertionSort (· ≤ ·)

/-- The seqs that a scan can list. A target at the end of the column makes it start with the newest window, and it
ends there if all that the window lists waits for its acknowledgement. -/
def scannedSeqs (limit targetSeq : ℕ) : List ℕ :=
  if maxI64 ≤ targetSeq + 1 ∧ limit ≤ pendingCount t conversationId then []
  else (visibleSeqs t conversationId).filter (· < maxI64)

def between (low high : ℕ) (seqs : List ℕ) : List ℕ := seqs.filter fun seq => low < seq && seq ≤ high

/-- The loop that reads upwards, `none` if it goes on past the fuel. -/
def readUpwards (limit newest : ℕ) : ℕ → ℕ → ℕ → List ℕ → Option (List ℕ)
  | 0, _, _, _ => none
  | fuel + 1, low, span, out =>
    if out.length < limit && low < newest then
      let high := min (min (low + span) maxU64) newest
      let rows := getByConversation t conversationId (min (high + 1) maxU64) (min (high - low) maxU32)
      readUpwards limit newest fuel high (min (span * 2) maxU64)
      (out ++ (between low high rows).insertionSort (· ≤ ·))
    else some out

/-- The default `get_by_conversation_after`, as the seqs of its rows. -/
def getByConversationAfter (fuel afterSeq limit : ℕ) : Option (List ℕ) :=
  if limit = 0 then some []
  else
    match (getByConversation t conversationId (maxI64 - 1) 1).head? with
    | none => some []
    | some newest => (readUpwards t conversationId limit newest fuel afterSeq limit []).map (take limit)

variable {t conversationId}

variable {beforeSeq floorSeq : ℕ}

/-- What a descending list cuts off at a length is below all that it keeps. -/
theorem mem_take_or_lt (hsorted : seqs.Pairwise (· ≥ ·)) (hseq : seq ∈ seqs) (limit : ℕ) :
    seq ∈ seqs.take limit ∨ (seqs.take limit).length = limit ∧ ∀ x ∈ seqs.take limit, seq < x := by
  by_cases htake : seq ∈ seqs.take limit
  · exact .inl htake
  · rw [← take_append_drop limit seqs] at hseq hsorted
    have hdrop : seq ∈ seqs.drop limit := (mem_append.mp hseq).resolve_left htake
    refine .inr ⟨?_, fun x hx => ?_⟩
    · have hpos := length_pos_of_mem hdrop
      rw [length_drop] at hpos
      rw [length_take]
      omega
    · have hge := (pairwise_append.mp hsorted).2.2 x hx seq hdrop
      exact lt_of_le_of_ne hge fun heq => htake (heq ▸ hx)

theorem getByConversation_eq (hpos : 0 < beforeSeq) (hbefore : beforeSeq < maxI64) (limit : ℕ) :
    getByConversation t conversationId beforeSeq limit =
      ((visibleSeqs t conversationId).filter (· < beforeSeq)).reverse.take limit := by
  have hwindow : ¬ (decide (beforeSeq = 0) || decide (maxI64 ≤ beforeSeq)) = true := by
    simp; omega
  unfold getByConversation
  dsimp only
  rw [if_neg hwindow]
  congr 1
  refine Perm.eq_of_pairwise (fun a b _ _ hge hle => le_antisymm hle hge) (pairwise_insertionSort _ _) ?_ ?_
  · exact pairwise_reverse.mpr ((pairwise_insertionSort _ _).filter _)
  · refine (perm_insertionSort _ _).trans
      (.trans ?_ ((reverse_perm _).trans ((perm_insertionSort _ _).filter _)).symm)
    rw [filter_map, filter_filter, filter_filter]
    refine .of_eq (congrArg _ (filter_congr fun r _ => ?_))
    by_cases hseq : 0 < asI64 r.conversationSeq
    · have hlt : asI64 r.conversationSeq < beforeSeq ↔ storedSeq r.conversationSeq < beforeSeq := by
        unfold storedSeq
        omega
      simp [hseq, hlt, Bool.and_assoc]
    · simp [hseq]

theorem mem_visibleSeqs_iff (hseq : seq < maxI64) : seq ∈ visibleSeqs t conversationId ↔ 0 < seq ∧
    t.HasSeq conversationId seq ∧
    (t.clearedFloor conversationId = 0 ∨ asI64 (t.clearedFloor conversationId) < seq) := by
  simp only [visibleSeqs, mem_insertionSort, mem_map, mem_filter, Bool.and_eq_true,
    decide_eq_true_eq, isAboveFloor, Bool.or_eq_true]
  constructor
  · rintro ⟨r, ⟨hr, ⟨hpos, hfloor⟩, hconversation⟩, rfl⟩
    have hstored : 0 < storedSeq r.conversationSeq := by
      unfold storedSeq
      omega
    have := eq_of_storedSeq_pos hstored
    rw [storedSeq, Int.toNat_of_nonneg hpos.le]
    exact ⟨hstored, ⟨r, hr, hconversation, this.symm⟩, hfloor⟩
  · rintro ⟨hpos, ⟨r, hr, hconversation, rfl⟩, hfloor⟩
    have hcolumn : asI64 r.conversationSeq = r.conversationSeq := if_pos hseq.le
    exact ⟨r, ⟨hr, ⟨by omega, by rwa [hcolumn]⟩, hconversation⟩, by rw [storedSeq_eq, if_pos hseq.le]⟩

/-- Sorting by rank first puts what is ranked in front of a list that is sorted by seq. -/
theorem map_snd_insertionSort {rows : List (ℕ × ℕ)} (hrank : ∀ r ∈ rows, r.1 = 0 ∨ r = (1, 0)) :
    (rows.insertionSort fun a b => b.1 < a.1 ∨ a.1 = b.1 ∧ b.2 ≤ a.2).map Prod.snd =
      replicate (rows.filter (·.1 = 1)).length 0 ++
        ((rows.filter fun r => !r.1 = 1).map Prod.snd).insertionSort (· ≥ ·) := by
  let newer : ℕ × ℕ → ℕ × ℕ → Prop := fun a b => b.1 < a.1 ∨ a.1 = b.1 ∧ b.2 ≤ a.2
  have : Std.Total newer := ⟨fun a b => by simp only [newer]; omega⟩
  have : IsTrans (ℕ × ℕ) newer := ⟨fun a b c h h' => by simp only [newer] at h h' ⊢; omega⟩
  set seqs := (rows.filter fun r => !r.1 = 1).map Prod.snd with hseqs
  suffices hsorted : rows.insertionSort newer =
      replicate (rows.filter (·.1 = 1)).length (1, 0) ++ (seqs.insertionSort (· ≥ ·)).map (Prod.mk 0) by
    exact (congrArg (map Prod.snd) hsorted).trans (by simp)
  refine Perm.eq_of_pairwise (fun a b _ _ h h' => ?_) (pairwise_insertionSort _ _) ?_ ?_
  · exact Prod.ext (by simp only [newer] at h h'; omega) (by simp only [newer] at h h'; omega)
  · refine pairwise_append.mpr ⟨pairwise_replicate.mpr (.inr (by simp [newer])), ?_, ?_⟩
    · exact pairwise_map.mpr ((pairwise_insertionSort _ _).imp fun h => .inr ⟨rfl, h⟩)
    · intro a ha b hb
      obtain ⟨seq, -, rfl⟩ := mem_map.mp hb
      exact .inl (by rw [eq_of_mem_replicate ha]; exact Nat.one_pos)
  · refine (perm_insertionSort _ _).trans ((filter_append_perm (·.1 = 1) rows).symm.trans (.append (.of_eq ?_) ?_))
    · refine eq_replicate_iff.mpr ⟨rfl, fun r hr => ?_⟩
      obtain ⟨hmem, hone⟩ := mem_filter.mp hr
      exact (hrank r hmem).resolve_left (by simp_all)
    · refine .trans (.of_eq ?_) ((perm_insertionSort _ _).symm.map _)
      rw [hseqs, map_map]
      refine (map_id _).symm.trans (map_congr_left fun r hr => ?_)
      obtain ⟨hmem, hzero⟩ := mem_filter.mp hr
      refine Prod.ext ?_ rfl
      exact (hrank r hmem).resolve_right (by rintro rfl; simp at hzero)

variable (t conversationId) in
/-- The newest window: what waits, then rows below the last number of the column. -/
theorem getByConversation_newest (hbefore : maxI64 ≤ beforeSeq) (limit : ℕ) : ∃ older : List ℕ,
    getByConversation t conversationId beforeSeq limit =
      (replicate (pendingCount t conversationId) 0 ++ older).take limit ∧
      older.Pairwise (· ≥ ·) ∧ ∀ seq, 0 < seq →
      (seq ∈ older ↔ seq ∈ visibleSeqs t conversationId ∧ seq < maxI64) := by
  unfold getByConversation
  dsimp only
  rw [if_pos (by simp [hbefore]), map_snd_insertionSort]
  · refine ⟨_, congrArg (fun n => take limit (replicate n 0 ++ _)) ?_, pairwise_insertionSort _ _,
      fun seq hpos => ?_⟩
    · rw [filter_map, length_map, filter_filter, filter_filter, pendingCount]
      refine congrArg length (filter_congr fun r _ => ?_)
      by_cases hpending : asI64 r.conversationSeq = 0 ∧ r.localState.isLocal
      · simp [pendingRank, hpending, show 0 < maxI64 by decide]
      · simp [pendingRank, hpending]
    · rw [mem_insertionSort, visibleSeqs, mem_insertionSort]
      have hstored : ∀ r : MessageRow, 0 < storedSeq r.conversationSeq →
          asI64 r.conversationSeq = storedSeq r.conversationSeq := fun r h => by unfold storedSeq at h ⊢; omega
      simp only [mem_map, mem_filter, Bool.and_eq_true, Bool.or_eq_true, decide_eq_true_eq]
      constructor
      · rintro ⟨_, ⟨⟨r, ⟨⟨hr, hconversation⟩, hlt, hfloor⟩, rfl⟩, -⟩, rfl⟩
        have := hstored r hpos
        exact ⟨⟨r, ⟨hr, ⟨by omega, hfloor.resolve_left (by omega)⟩, hconversation⟩, rfl⟩, by omega⟩
      · rintro ⟨⟨r, ⟨hr, ⟨_, hfloor⟩, hconversation⟩, rfl⟩, hlt⟩
        have := hstored r hpos
        have hrank : pendingRank r ≠ 1 := by rw [pendingRank, if_neg (by omega)]; exact Nat.zero_ne_one
        exact ⟨_, ⟨⟨r, ⟨⟨hr, hconversation⟩, by omega, .inr hfloor⟩, rfl⟩, by simpa using hrank⟩, rfl⟩
  · rintro _ hr
    obtain ⟨r, -, rfl⟩ := mem_map.mp hr
    unfold pendingRank
    split
    · next hpending => exact .inr (by rw [storedSeq, hpending.1]; rfl)
    · exact .inl rfl

/-- What a page leaves out comes after all rows that it holds. -/
theorem getByConversation_page (hpos : 0 < beforeSeq) (hpending : beforeSeq < maxI64 ∨
    pendingCount t conversationId < limit)
    (hlimit : 0 < limit) : let page := getByConversation t conversationId beforeSeq limit
    (∀ seq ∈ page, 0 < seq → seq ∈ visibleSeqs t conversationId ∧ seq < min beforeSeq maxI64) ∧
      ∀ seq ∈ visibleSeqs t conversationId, 0 < seq → seq < min beforeSeq maxI64 →
        seq ∈ page ∨ page.length = limit ∧ (∃ x ∈ page, 0 < x) ∧ ∀ x ∈ page, 0 < x → seq < x := by
  obtain ⟨waiting, older, hpage, hwaiting, hsorted, hmem⟩ : ∃ waiting older,
      getByConversation t conversationId beforeSeq limit = (replicate waiting 0 ++ older).take limit ∧
      waiting < limit ∧
      older.Pairwise (· ≥ ·) ∧
      ∀ seq, 0 < seq → (seq ∈ older ↔ seq ∈ visibleSeqs t conversationId ∧ seq < min beforeSeq maxI64) := by
    by_cases hbefore : beforeSeq < maxI64
    · rw [min_eq_left hbefore.le]
      refine ⟨0, _, getByConversation_eq hpos hbefore limit, hlimit,
        pairwise_reverse.mpr ((pairwise_insertionSort _ _).filter _), fun seq _ => by simp⟩
    · rw [min_eq_right (not_lt.mp hbefore)]
      obtain ⟨older, hpage, h⟩ := getByConversation_newest t conversationId (not_lt.mp hbefore) limit
      exact ⟨_, older, hpage, hpending.resolve_left hbefore, h⟩
  rw [hpage, take_append, take_replicate, min_eq_right hwaiting.le, length_replicate]
  have hpositive : ∀ seq, 0 < seq → (seq ∈ replicate waiting 0 ++ older.take (limit - waiting) ↔
      seq ∈ older.take (limit - waiting)) := fun seq h => by
    rw [mem_append, or_iff_right fun hzero => h.ne' (eq_of_mem_replicate hzero)]
  refine ⟨fun seq hseq h => (hmem seq h).mp (mem_of_mem_take ((hpositive seq h).mp hseq)), fun seq hseq h hlt => ?_⟩
  refine (mem_take_or_lt hsorted ((hmem seq h).mpr ⟨hseq, hlt⟩) (limit - waiting)).imp (hpositive seq h).mpr ?_
  rintro ⟨hfull, habove⟩
  obtain ⟨x, hx⟩ := exists_mem_of_length_pos (by omega : 0 < (older.take (limit - waiting)).length)
  refine ⟨by rw [length_append, length_replicate, hfull]; omega,
    ⟨x, mem_append_right _ hx, ?_⟩, fun x hx hpos => ?_⟩
  · exact h.trans (habove x hx)
  · exact habove x ((hpositive x hpos).mp hx)

variable (t conversationId floorSeq) in
/-- The scan ends, and above the floor it finds what pages list. -/
theorem scanPages_spec (hlimit : 0 < limit) : ∀ (fuel beforeSeq : ℕ) (seqs : List ℕ), 0 < beforeSeq →
    min beforeSeq maxI64 ≤ fuel → (beforeSeq < maxI64 ∨ pendingCount t conversationId < limit) →
      ∃ found, scanPages t conversationId limit floorSeq fuel beforeSeq seqs = some found ∧
        ∀ seq, floorSeq < seq →
        (seq ∈ found ↔ seq ∈ seqs ∨ seq ∈ visibleSeqs t conversationId ∧ seq < min beforeSeq maxI64) := by
  intro fuel
  induction fuel with
  | zero =>
    intro beforeSeq seqs hpos hfuel
    exact absurd hfuel (lt_min hpos (by decide)).not_ge
  | succ fuel ih =>
    intro beforeSeq seqs hpos hfuel hpending
    obtain ⟨hpage, hrest⟩ := getByConversation_page hpos hpending hlimit
    rw [scanPages]
    generalize getByConversation t conversationId beforeSeq limit = page at hpage hrest ⊢
    dsimp only
    cases hmin : (page.filter (0 < ·)).min? with
    | none =>
      -- nothing but messages that wait: then no row is left to list
      have hnone : ∀ x ∈ page, ¬0 < x := fun x hx hpos =>
        filter_eq_nil_iff.mp (min?_eq_none_iff.mp hmin) x hx (decide_eq_true hpos)
      have hfound : ∀ seq, floorSeq < seq → ∀ found ∈ [seqs, seqs ++ page],
          (seq ∈ found ↔ seq ∈ seqs ∨ seq ∈ visibleSeqs t conversationId ∧ seq < min beforeSeq maxI64) := by
        intro seq hfloor found hfound
        have hpos := (Nat.zero_le _).trans_lt hfloor
        have hpage : seq ∉ page := fun hseq => hnone seq hseq hpos
        rw [or_iff_left]
        · rcases mem_pair.mp hfound with rfl | rfl
          · exact .rfl
          · rw [mem_append, or_iff_left hpage]
        · rintro ⟨hseq, hlt⟩
          rcases hrest seq hseq hpos hlt with hmem | ⟨-, ⟨x, hx, hpos⟩, -⟩
          · exact hpage hmem
          · exact hnone x hx hpos
      split
      · exact ⟨seqs, rfl, fun seq hfloor => hfound seq hfloor _ (by simp)⟩
      · exact ⟨seqs ++ page, by simp, fun seq hfloor => hfound seq hfloor _ (by simp)⟩
    | some minSeq =>
      obtain ⟨hmem, hminpos⟩ := mem_filter.mp (min?_mem hmin)
      rw [decide_eq_true_eq] at hminpos
      have hbounds := hpage minSeq hmem hminpos
      rw [if_neg (by simpa using ne_nil_of_mem hmem), Option.getD_some]
      split
      · next hends =>
        refine ⟨_, rfl, fun seq hfloor => ?_⟩
        rw [mem_append]
        refine or_congr_right ⟨fun h => hpage seq h (by omega), fun ⟨hseq, hlt⟩ => ?_⟩
        -- a full page that ends above the row is not the last one
        refine (hrest seq hseq (by omega) hlt).resolve_right fun ⟨hfull, _, habove⟩ => ?_
        have := habove minSeq hmem hminpos
        simp [hfull] at hends
        omega
      · obtain ⟨found, hfound, hiff⟩ := ih minSeq (seqs ++ page) hminpos (by omega) (.inl (by omega))
        refine ⟨found, hfound, fun seq hfloor => ?_⟩
        rw [hiff seq hfloor, mem_append, or_assoc]
        refine or_congr_right ⟨?_, fun ⟨hseq, hlt⟩ => ?_⟩
        · rintro (h | ⟨hseq, hlt⟩)
          · exact hpage seq h (by omega)
          · exact ⟨hseq, by omega⟩
        · exact (hrest seq hseq (by omega) hlt).imp_right fun h =>
            ⟨hseq, lt_min (h.2.2 minSeq hmem hminpos) (by omega)⟩

variable (t conversationId floorSeq) in
theorem exists_scanPages {fuel targetSeq : ℕ} (hlimit : 0 < limit) (hfuel : targetSeq < fuel) :
    ∃ found, scanPages t conversationId limit floorSeq fuel (min (targetSeq + 1) maxU64) [] = some found ∧
      ∀ seq, floorSeq < seq → seq ≤ targetSeq →
      (seq ∈ found ↔ seq ∈ scannedSeqs t conversationId limit targetSeq) := by
  have hmax : maxI64 < maxU64 := by decide
  unfold scannedSeqs
  split
  · next hfull =>
    obtain ⟨older, hpage, -⟩ := getByConversation_newest t conversationId (le_min hfull.1 hmax.le) limit
    obtain ⟨fuel, rfl⟩ := Nat.exists_eq_add_of_lt hfuel
    rw [take_append_of_le_length (by simpa using hfull.2), take_replicate, min_eq_left hfull.2] at hpage
    rw [scanPages, hpage]
    refine ⟨replicate limit 0, by simp [hlimit.ne'], fun seq hfloor _ => iff_of_false (fun hseq => ?_) not_mem_nil⟩
    have := eq_of_mem_replicate hseq
    omega
  · next hscan =>
    obtain ⟨found, hfound, hiff⟩ := scanPages_spec t conversationId floorSeq hlimit fuel
      (min (targetSeq + 1) maxU64) []
      (by omega) (by omega) (by omega)
    refine ⟨found, hfound, fun seq hfloor hle => ?_⟩
    rw [hiff seq hfloor, mem_filter, decide_eq_true_eq, or_iff_right not_mem_nil]
    exact and_congr_right fun _ => by omega

variable (t conversationId floorSeq) in
theorem pagedContiguousSeq_spec {fuel targetSeq : ℕ} (absentSeqs : List ℕ) (hlimit : 0 < limit)
    (hfuel : targetSeq < fuel) :
    ∃ c, pagedContiguousSeq t conversationId limit fuel targetSeq floorSeq absentSeqs = some c ∧
      IsGreatest {c | c ≤ targetSeq ∧ ∀ seq, floorSeq < seq → seq ≤ c →
        seq ∈ absentSeqs ∨ seq ∈ scannedSeqs t conversationId limit targetSeq} c := by
  unfold pagedContiguousSeq
  split
  · next hzero => exact ⟨0, rfl, ⟨Nat.zero_le _, fun seq _ hseq => by omega⟩, fun c hc => hzero ▸ hc.1⟩
  · obtain ⟨found, hfound, hiff⟩ := exists_scanPages t conversationId floorSeq hlimit hfuel
    have hcounted : ∀ c ≤ targetSeq, c ≤ maxContiguousSeq floorSeq
          (found ++ absentSeqs.filter fun seq => floorSeq < seq && seq ≤ targetSeq) ↔
        ∀ seq, floorSeq < seq → seq ≤ c → seq ∈ absentSeqs ∨
        seq ∈ scannedSeqs t conversationId limit targetSeq := by
      intro c hc
      rw [le_maxContiguousSeq_iff]
      refine forall₃_congr fun seq hfloor hseq => ?_
      rw [mem_append, hiff seq hfloor (hseq.trans hc), mem_filter, or_comm, and_iff_left (by simp; omega)]
    rw [hfound, Option.map_some]
    exact ⟨_, rfl, ⟨min_le_right _ _, (hcounted _ (min_le_right _ _)).mp (min_le_left _ _)⟩,
      fun c ⟨hc, h⟩ => le_min ((hcounted c hc).mpr h) hc⟩

theorem hasSeq_of_mem_scannedSeqs {targetSeq : ℕ} (h : seq ∈ scannedSeqs t conversationId limit targetSeq) :
    t.HasSeq conversationId seq := by
  unfold scannedSeqs at h
  split at h
  · exact absurd h not_mem_nil
  · obtain ⟨hvisible, hlt⟩ := mem_filter.mp h
    exact ((mem_visibleSeqs_iff (of_decide_eq_true hlt)).mp hvisible).2.1

/-- Such a count is right if what is neither missing nor declared absent is listed. -/
theorem isGreatest_noneMissing_iff {c targetSeq : ℕ}
    (h : IsGreatest {c | c ≤ targetSeq ∧ ∀ seq, floorSeq < seq → seq ≤ c →
      seq ∈ absentSeqs ∨ seq ∈ scannedSeqs t conversationId limit targetSeq} c) :
    IsGreatest {c | c ≤ targetSeq ∧ NoneMissing t conversationId floorSeq absentSeqs c} c ↔
      ∀ seq, floorSeq < seq → seq ≤ targetSeq → NoneMissing t conversationId floorSeq absentSeqs seq →
        seq ∈ absentSeqs ∨ seq ∈ scannedSeqs t conversationId limit targetSeq := by
  constructor
  · exact fun hgreatest seq hfloor hle hnone => h.1.2 seq hfloor (hgreatest.2 ⟨hle, hnone⟩)
  · intro hlisted
    refine ⟨⟨h.1.1, fun seq hfloor hle => (h.1.2 seq hfloor hle).imp_right hasSeq_of_mem_scannedSeqs⟩,
      fun c ⟨hc, hnone⟩ => h.2 ⟨hc, ?_⟩⟩
    exact fun seq hfloor hle => hlisted seq hfloor (hle.trans hc) fun q hq hqle => hnone q hq (hqle.trans hle)

theorem materializedContiguousSeq_spec (targetSeq : ℕ) (absentSeqs : List ℕ) :
    IsGreatest {c | c ≤ targetSeq ∧ ∀ seq, floorSeq < seq → seq ≤ c →
        seq ∈ absentSeqs ∨ seq ∈ scannedSeqs t conversationId scanPageLimit targetSeq}
      (materializedContiguousSeq t conversationId targetSeq floorSeq absentSeqs) := by
  obtain ⟨c, hc, hcounted⟩ := pagedContiguousSeq_spec t conversationId floorSeq absentSeqs
    (by decide : 0 < scanPageLimit) (Nat.lt_succ_self targetSeq)
  rwa [materializedContiguousSeq, hc]

/-- Every seq up to the contiguous one is at or below the floor, declared absent or a row. -/
theorem covered_of_le_materialized {targetSeq : ℕ} (hfloor : floorSeq < seq)
    (h : seq ≤ materializedContiguousSeq t conversationId targetSeq floorSeq absentSeqs) :
    seq ∈ absentSeqs ∨ t.HasSeq conversationId seq :=
  ((materializedContiguousSeq_spec targetSeq absentSeqs).1.2 seq hfloor h).imp_right hasSeq_of_mem_scannedSeqs

theorem materializedContiguousSeq_isGreatest {targetSeq : ℕ} (absentSeqs : List ℕ)
    (hcleared : t.clearedFloor conversationId ≤ floorSeq) (hcolumn : targetSeq + 1 < maxI64) :
    IsGreatest {c | c ≤ targetSeq ∧ NoneMissing t conversationId floorSeq absentSeqs c}
      (materializedContiguousSeq t conversationId targetSeq floorSeq absentSeqs) := by
  refine (isGreatest_noneMissing_iff (materializedContiguousSeq_spec _ _)).mpr fun seq hfloor hle hnone => ?_
  refine (hnone seq hfloor le_rfl).imp_right fun hrow => ?_
  rw [scannedSeqs, if_neg (by omega), mem_filter, decide_eq_true_eq, mem_visibleSeqs_iff (by omega)]
  refine ⟨⟨by omega, hrow, .inr ?_⟩, by omega⟩
  rw [asI64, if_pos (by omega)]
  omega

/-- The count reaches its target exactly if every seq above the floor is a row or declared absent. -/
theorem materializedContiguousSeq_eq_iff {targetSeq : ℕ}
    (hcleared : t.clearedFloor conversationId ≤ floorSeq) (hcolumn : targetSeq + 1 < maxI64) :
    materializedContiguousSeq t conversationId targetSeq floorSeq absentSeqs = targetSeq ↔
      NoneMissing t conversationId floorSeq absentSeqs targetSeq := by
  have hgreatest := materializedContiguousSeq_isGreatest absentSeqs hcleared hcolumn
  constructor
  · intro hreached
    exact hreached ▸ hgreatest.1.2
  · exact fun hcovered => le_antisymm hgreatest.1.1 (hgreatest.2 ⟨le_rfl, hcovered⟩)

@[simp] theorem mem_between :
    seq ∈ between low high seqs ↔ seq ∈ seqs ∧ low < seq ∧ seq ≤ high := by
  simp [between]

theorem between_append {mid : ℕ} (h : seqs.Pairwise (· < ·)) (hlow : low ≤ mid)
    (hhigh : mid ≤ high) : between low mid seqs ++ between mid high seqs = between low high seqs := by
  refine Pairwise.eq_of_mem_iff (pairwise_append.mpr ⟨h.filter _, h.filter _, fun a ha b hb => ?_⟩)
    (h.filter _) fun seq => ?_
  · rw [mem_between] at ha hb
    omega
  · rw [mem_append, mem_between, mem_between, mem_between, ← and_or_left]
    exact and_congr_right fun _ => by omega

section Unique

variable {rows : List ℕ} {newest : ℕ} (hrows : (visibleSeqs t conversationId).filter (· ≤ newest) = rows)
  (hunique : rows.Pairwise (· < ·)) (hsize : rows.length ≤ maxU32) (hcolumn : newest + 1 < maxI64)

include hrows hunique hsize hcolumn

/-- Where each seq has at most one row, a window is read whole. -/
theorem getByConversation_window (hhigh : high ≤ newest) :
    (between low high (getByConversation t conversationId (high + 1) (min (high - low) maxU32))).insertionSort
      (· ≤ ·) =
      between low high rows := by
  have hbelow : (visibleSeqs t conversationId).filter (· < high + 1) = rows.filter (· < high + 1) := by
    rw [← hrows, filter_filter]
    exact filter_congr fun seq _ => by grind
  rw [getByConversation_eq (Nat.succ_pos _) (by omega), hbelow]
  have hsorted : (rows.filter (· < high + 1)).reverse.Pairwise (· > ·) := pairwise_reverse.mpr (hunique.filter _)
  have hiff : ∀ x, x ∈ (rows.filter (· < high + 1)).reverse ↔ x ∈ rows ∧ x ≤ high := by
    simp only [mem_reverse, mem_filter, decide_eq_true_eq, Nat.lt_succ_iff, implies_true]
  generalize (rows.filter (· < high + 1)).reverse = older at hsorted hiff ⊢
  have hpage : (older.take (min (high - low) maxU32)).Nodup := (hsorted.imp ne_of_gt).sublist (take_sublist _ _)
  have hnodup := (perm_insertionSort (· ≤ ·) _).nodup_iff.mpr (hpage.filter fun seq => low < seq && seq ≤ high)
  refine Pairwise.eq_of_mem_iff (((pairwise_insertionSort _ _).and hnodup).imp fun h => lt_of_le_of_ne h.1 h.2)
    (hunique.filter _) fun seq => ?_
  rw [mem_insertionSort, mem_between, mem_between]
  refine ⟨fun ⟨hmem, hbounds⟩ => ⟨((hiff seq).mp (mem_of_mem_take hmem)).1, hbounds⟩,
    fun ⟨hmem, hbounds⟩ => ⟨?_, hbounds⟩⟩
  refine (mem_take_or_lt (hsorted.imp le_of_lt) ((hiff seq).mpr ⟨hmem, hbounds.2⟩) _).resolve_right
    fun ⟨hfull, habove⟩ => ?_
  -- a full page and the row that it leaves out are more than the window has seqs, or the table rows
  have hmore := nodup_cons.mpr ⟨fun hmem => lt_irrefl _ (habove _ hmem), hpage⟩
  have hwithin : ∀ x ∈ seq :: older.take (min (high - low) maxU32), low < x ∧ x ∈ rows ∧ x ≤ high := by
    rw [forall_mem_cons]
    exact ⟨⟨hbounds.1, hmem, hbounds.2⟩, fun x hx => ⟨hbounds.1.trans (habove x hx),
      (hiff x).mp (mem_of_mem_take hx)⟩⟩
  have hrows := (subperm_of_subset hmore fun x hx => (hwithin x hx).2.1).length_le
  have hspan : seq :: older.take (min (high - low) maxU32) ⊆ range' (low + 1) (high - low) := fun x hx => by
    have := hwithin x hx
    rw [mem_range'_1]
    omega
  have hseqs := (subperm_of_subset hmore hspan).length_le
  simp only [length_cons, hfull, length_range'] at hrows hseqs
  omega

theorem readUpwards_spec {afterSeq : ℕ} :
    ∀ {fuel low span : ℕ}, newest - low < fuel → 0 < span → afterSeq ≤ low →
      (readUpwards t conversationId limit newest fuel low span (between afterSeq low rows)).map (take limit) =
        some ((rows.filter (afterSeq < ·)).take limit) := by
  intro fuel
  induction fuel with
  | zero => intro low span hfuel; omega
  | succ fuel ih =>
    intro low span hfuel hspan hafter
    rw [readUpwards]
    split
    · next hgoes =>
      rw [Bool.and_eq_true, decide_eq_true_eq, decide_eq_true_eq] at hgoes
      dsimp only
      have hmax : maxI64 < maxU64 := by decide
      generalize hhigh : min (min (low + span) maxU64) newest = high
      rw [min_eq_left (by omega : high + 1 ≤ maxU64),
        getByConversation_window hrows hunique hsize hcolumn (by omega),
        between_append hunique hafter (by omega)]
      exact ih (by omega) (by omega) (by omega)
    · next hends =>
      rw [Bool.and_eq_true, decide_eq_true_eq, decide_eq_true_eq] at hends
      have hnewest : ∀ seq ∈ rows, seq ≤ newest := by
        rw [← hrows]
        exact fun seq hseq => of_decide_eq_true (mem_filter.mp hseq).2
      have hall : rows.filter (afterSeq < ·) = between afterSeq (max low newest) rows :=
        filter_congr fun seq hseq => by simp [hnewest seq hseq]
      rw [Option.map_some, hall, ← between_append hunique hafter (le_max_left low newest)]
      by_cases hfull : limit ≤ (between afterSeq low rows).length
      · rw [take_append_of_le_length hfull]
      · rw [max_eq_left (by omega), show between low low rows = [] from filter_eq_nil_iff.mpr (by simp), append_nil]

end Unique

/-- The read upwards sees the rows below the last two numbers of the column. -/
theorem getByConversationAfter_run {fuel : ℕ} (afterSeq limit : ℕ) (hunique : (visibleSeqs t conversationId).Nodup)
    (hsize : (visibleSeqs t conversationId).length ≤ maxU32)
    (hfuel : ∀ seq ∈ visibleSeqs t conversationId, seq < fuel) :
    getByConversationAfter t conversationId fuel afterSeq limit =
      some ((((visibleSeqs t conversationId).filter (· + 1 < maxI64)).filter (afterSeq < ·)).take limit) := by
  have hsorted : (visibleSeqs t conversationId).Pairwise (· < ·) :=
    ((pairwise_insertionSort _ _).and hunique).imp fun h => lt_of_le_of_ne h.1 h.2
  have hlow : (visibleSeqs t conversationId).filter (· < maxI64 - 1) =
    (visibleSeqs t conversationId).filter (· + 1 < maxI64) :=
    filter_congr fun seq _ => decide_eq_decide.mpr (by omega)
  rw [getByConversationAfter, getByConversation_eq (by decide) (by decide), hlow]
  split
  · next hlimit => rw [hlimit, take_zero]
  cases hnewest : ((visibleSeqs t conversationId).filter (· + 1 < maxI64)).reverse with
  | nil => rw [reverse_eq_nil_iff.mp hnewest]; simp
  | cons newest older =>
    obtain ⟨hmem, hcolumn⟩ := mem_filter.mp (mem_reverse.mp (hnewest ▸ mem_cons_self))
    rw [decide_eq_true_eq] at hcolumn
    -- the rows up to the newest one are all of these
    have hrows : (visibleSeqs t conversationId).filter (· ≤ newest) =
      (visibleSeqs t conversationId).filter (· + 1 < maxI64) := by
      have habove := pairwise_reverse.mpr (hsorted.filter (· + 1 < maxI64))
      rw [hnewest, pairwise_cons] at habove
      refine filter_congr fun seq hseq => decide_eq_decide.mpr ⟨by omega, fun hlt => ?_⟩
      rcases mem_cons.mp (hnewest ▸ mem_reverse.mpr (mem_filter.mpr ⟨hseq, decide_eq_true hlt⟩)) with rfl | hseq
      · exact le_rfl
      · exact (habove.1 seq hseq).le
    have hstart : between afterSeq afterSeq ((visibleSeqs t conversationId).filter (· + 1 < maxI64)) = [] :=
      filter_eq_nil_iff.mpr (by simp)
    have hbound := hfuel newest hmem
    rw [take_succ_cons, head?_cons]
    dsimp only
    rw [← hstart]
    exact readUpwards_spec hrows (hsorted.filter _) ((length_filter_le _ _).trans hsize) hcolumn
      (by omega) (by omega) le_rfl

theorem take_filter_eq_iff {p : ℕ → Bool} {limit : ℕ} :
    (seqs.filter p).take limit = seqs.take limit ↔ ∀ seq ∈ seqs.take limit, p seq := by
  refine ⟨fun h seq hseq => (mem_filter.mp (mem_of_mem_take (h ▸ hseq))).2, fun h => ?_⟩
  nth_rewrite 1 [← take_append_drop limit seqs]
  rw [filter_append, filter_eq_self.mpr h]
  by_cases hlength : limit ≤ seqs.length
  · exact take_left' (length_take_of_le hlength)
  · rw [drop_of_length_le (by omega), filter_nil, append_nil, take_take, min_self]

end Rows

/-! ### State -/

inductive CursorReason
  /-- Counted up over stored rows and these seqs, which the page declared absent. -/
  | contiguous (absentSeqs : List ℕ)
  /-- The watermark of a page taken for the tail of a cold start, with what it was requested from. -/
  | coldStartTail (requestedAfterSeq : ℕ) (requestedCursor : String)
  | snapshot

/-- A save of the conversation's cursor, with the message table of that moment. -/
structure CursorMove where
  reason : CursorReason
  before : ℕ
  after : ℕ
  messages : RowTable

structure SyncState where
  userId : String
  nowMs : ℕ
  messages : RowTable
  /-- By user and conversation, as they are read back. -/
  cursors : String → String → Option ℕ
  deduper : EventDeduper := {}
  /-- What the next store calls fail with. -/
  faults : List (Option FlareError) := []
  /-- For every page whose events were applied, newest first: their seqs, and whether they were. -/
  reports : List (List (ℕ × Bool)) := []
  /-- The saves of the cursor so far. -/
  moves : List CursorMove := []

abbrev SyncM := Prog SyncState FlareError

/-- What the sync was built with. -/
structure SyncContext where
  converger : IncomingMessageConverger
  /-- A notification that is not kept. -/
  isEphemeral : InboundMessage → Bool
  /-- The channel of a single chat, whose id its rows may have been stored under. -/
  channelAlias : String → Option String
  /-- Whether the conversation a rewrite moves from is stored; its cursors go with it. -/
  mergeDropsCursors : ConversationIdRewrite → Bool

namespace SyncState

def cursorSeq (s : SyncState) (userId conversationId : String) : ℕ := (s.cursors userId conversationId).getD 0

/-- `INSERT ... ON CONFLICT DO UPDATE SET last_seq = MAX(...)`, logged. -/
def withCursor (s : SyncState) (userId conversationId : String) (lastSeq : ℕ) (reason : CursorReason) : SyncState :=
  let before := s.cursorSeq userId conversationId
  let after := max before (storedSeq lastSeq)
  { s with
    cursors := Function.update s.cursors userId (Function.update (s.cursors userId) conversationId (some after))
    moves := s.moves ++ [⟨reason, before, after, s.messages⟩] }

/-- Cursors of the conversations that `dropped` selects are deleted, for every user. -/
def dropCursors (s : SyncState) (dropped : String → Bool) : SyncState :=
  { s with cursors := fun userId conversationId =>
      if dropped conversationId then none else s.cursors userId conversationId }

def withReport (s : SyncState) (report : List (ℕ × Bool)) : SyncState := { s with reports := report :: s.reports }

section

variable (s : SyncState) (userId conversationId : String) (lastSeq : ℕ) (reason : CursorReason)

@[simp] theorem cursorSeq_withCursor :
    (s.withCursor userId conversationId lastSeq reason).cursorSeq userId conversationId =
      max (s.cursorSeq userId conversationId) (storedSeq lastSeq) := by
  simp [withCursor, cursorSeq]

theorem cursorSeq_withCursor_le (u c : String) :
    (s.withCursor userId conversationId lastSeq reason).cursorSeq u c ≤ max (s.cursorSeq u c) lastSeq := by
  by_cases hkey : u = userId ∧ c = conversationId
  · obtain ⟨rfl, rfl⟩ := hkey
    rw [cursorSeq_withCursor]
    exact max_le_max le_rfl (storedSeq_le lastSeq)
  · have hsame : (s.withCursor userId conversationId lastSeq reason).cursors u c = s.cursors u c := by
      by_cases hu : u = userId
      · subst hu
        have hc : c ≠ conversationId := fun h => hkey ⟨rfl, h⟩
        simp [withCursor, Function.update_of_ne hc]
      · simp [withCursor, Function.update_of_ne hu]
    rw [cursorSeq, hsame, ← cursorSeq]
    exact le_max_left _ _

end

theorem cursorSeq_dropCursors_le (s : SyncState) (dropped : String → Bool) (userId conversationId : String) :
    (s.dropCursors dropped).cursorSeq userId conversationId ≤ s.cursorSeq userId conversationId := by
  unfold cursorSeq dropCursors
  dsimp only
  split
  · exact Nat.zero_le _
  · exact le_rfl

end SyncState

/-! ### Store calls -/

/-- The next store call fails or goes through. -/
def storeCall : SyncM Unit := ⟨fun s =>
  match s.faults with
  | [] => (.ok (), s)
  | none :: rest => (.ok (), { s with faults := rest })
  | some e :: rest => (.error e, { s with faults := rest })⟩

theorem storeCall_leads (s : SyncState) :
    storeCall.Leads s fun _ t => ∃ faults, t = { s with faults := faults } := by
  unfold Prog.Leads storeCall
  dsimp only
  split
  · exact ⟨s.faults, rfl⟩
  · exact ⟨_, rfl⟩
  · exact ⟨_, rfl⟩

/-- Nothing was logged and no cursor was raised; a conversation that is deleted or merged loses its
cursors. -/
structure Lowered (s t : SyncState) : Prop where
  userId : t.userId = s.userId
  moves : t.moves = s.moves
  reports : t.reports = s.reports
  cursors : ∀ userId conversationId, t.cursorSeq userId conversationId ≤ s.cursorSeq userId conversationId

instance : Std.Refl Lowered := ⟨fun _ => ⟨rfl, rfl, rfl, fun _ _ => le_rfl⟩⟩

instance : IsTrans SyncState Lowered := ⟨fun _ _ _ h h' =>
  ⟨h'.userId.trans h.userId, h'.moves.trans h.moves, h'.reports.trans h.reports,
    fun userId conversationId => (h'.cursors userId conversationId).trans (h.cursors userId conversationId)⟩⟩

theorem Lowered.withReport {s t : SyncState} (h : Lowered s t) (report : List (ℕ × Bool)) :
    Lowered (s.withReport report) (t.withReport report) :=
  ⟨h.userId, h.moves, congrArg (cons report) h.reports, h.cursors⟩

theorem lowered_storeCall : storeCall.Within Lowered := by
  intro s
  obtain ⟨faults, hfaults⟩ := storeCall_leads s
  rw [hfaults]
  exact ⟨rfl, rfl, rfl, fun _ _ => le_rfl⟩

theorem lowered_setMessages (f : SyncState → RowTable) :
    (Prog.modify fun s => { s with messages := f s } : SyncM Unit).Within Lowered :=
  .modify fun _ => ⟨rfl, rfl, rfl, fun _ _ => le_rfl⟩

section Cursors

variable (ctx : SyncContext) (userId conversationId : String)

def persistCursor (lastSeq : ℕ) (reason : CursorReason) : SyncM Unit := do
  storeCall
  Prog.modify (·.withCursor userId conversationId lastSeq reason)

/-- `save_watermark_with_remote`: no look at what is stored. -/
def saveWatermark (lastSeq : ℕ) (reason : CursorReason) : SyncM Unit :=
  if lastSeq = 0 then pure () else persistCursor userId conversationId lastSeq reason

/-- Rows of a single chat that were stored under its channel are moved to it before they are read. -/
def repairAlias (t : RowTable) : RowTable :=
  match ctx.channelAlias (trim conversationId) with
  | some channelId => t.rewriteConversationId channelId conversationId
  | none => t

@[simp] theorem clearedFloor_repairAlias (t : RowTable) :
    (repairAlias ctx conversationId t).clearedFloor = t.clearedFloor := by
  unfold repairAlias RowTable.rewriteConversationId
  split
  · split
    · rfl
    · rfl
  · rfl

/-- The alias repair comes before each page that the scan reads; after the first it has nothing
left to do, and an error in any of the pages ends the scan alike. -/
def localMaterializedContiguousSeq (targetSeq floorSeq : ℕ) (absentSeqs : List ℕ) : SyncM ℕ := do
  if targetSeq = 0 then
    pure 0
  else
    storeCall
    Prog.modify fun s => { s with messages := repairAlias ctx conversationId s.messages }
    let s ← Prog.get
    pure (materializedContiguousSeq s.messages conversationId targetSeq floorSeq absentSeqs)

theorem localMaterializedContiguousSeq_leads {targetSeq : ℕ} (floorSeq : ℕ) (absentSeqs : List ℕ)
    (h : 0 < targetSeq) (s : SyncState) :
    (localMaterializedContiguousSeq ctx conversationId targetSeq floorSeq absentSeqs).Leads s fun result t =>
      Lowered s t ∧ t.cursors = s.cursors ∧ ∀ seq, result = .ok seq →
        t.messages = repairAlias ctx conversationId s.messages ∧
        seq = materializedContiguousSeq t.messages conversationId targetSeq floorSeq absentSeqs := by
  unfold localMaterializedContiguousSeq
  rw [if_neg (by omega)]
  refine .bind (storeCall_leads s) ?_ ?_
  · rintro _ _ ⟨faults, rfl⟩
    refine .modify_bind (.get_bind (.pure ⟨⟨rfl, rfl, rfl, fun _ _ => le_rfl⟩, rfl, ?_⟩))
    rintro _ ⟨⟩
    exact ⟨rfl, rfl⟩
  · rintro e _ ⟨faults, rfl⟩
    exact ⟨⟨rfl, rfl, rfl, fun _ _ => le_rfl⟩, rfl, fun _ hok => absurd hok (by simp)⟩

/-- `save_cursor_with_remote`: the cursor never passes a seq that is neither stored nor absent. -/
def saveCursor (lastSeq : ℕ) (absentSeqs : List ℕ) : SyncM Unit := do
  storeCall
  storeCall
  let s ← Prog.get
  let floorSeq := max (s.cursorSeq userId conversationId) (s.messages.clearedFloor conversationId)
  if lastSeq ≤ floorSeq then
    pure ()
  else
    let safeLastSeq ← localMaterializedContiguousSeq ctx conversationId lastSeq floorSeq absentSeqs
    if safeLastSeq ≤ floorSeq then
      pure ()
    else
      persistCursor userId conversationId safeLastSeq (.contiguous absentSeqs)

variable {ctx userId conversationId}

/-- All that a save of the cursor does: it lowers, or it counts in the table it then logs. -/
theorem within_saveCursor {R : SyncState → SyncState → Prop} [Std.Refl R] [IsTrans SyncState R]
    {lastSeq : ℕ} (hlowered : ∀ s t, Lowered s t → t.cursors = s.cursors → R s t)
    (hsave : ∀ s : SyncState, R s (s.withCursor userId conversationId
      (materializedContiguousSeq s.messages conversationId lastSeq
        (max (s.cursorSeq userId conversationId) (s.messages.clearedFloor conversationId)) absentSeqs)
      (.contiguous absentSeqs))) :
    (saveCursor ctx userId conversationId lastSeq absentSeqs).Within R := by
  have hcall : storeCall.Within R := fun s => by
    obtain ⟨faults, hfaults⟩ := storeCall_leads s
    rw [hfaults]
    exact hlowered _ _ ⟨rfl, rfl, rfl, fun _ _ => le_rfl⟩ rfl
  refine .bind hcall fun _ => .bind hcall fun _ => .get_bind_of fun s => ?_
  dsimp only
  split
  · exact refl_of R s
  · next hpast =>
    refine .bind (localMaterializedContiguousSeq_leads ctx conversationId _ absentSeqs (by omega) s) ?_ ?_
    · rintro safeLastSeq t ⟨hlow, hcursors, hcounted⟩
      obtain ⟨hmessages, hsafe⟩ := hcounted safeLastSeq rfl
      split
      · exact hlowered s t hlow hcursors
      · have hcursor : t.cursorSeq userId conversationId = s.cursorSeq userId conversationId := by
          rw [SyncState.cursorSeq, hcursors, SyncState.cursorSeq]
        have hfloor : t.messages.clearedFloor = s.messages.clearedFloor := by
          rw [hmessages, clearedFloor_repairAlias]
        rw [← hcursor, ← hfloor] at hsafe
        subst hsafe
        have hwrite : ∀ faults, Lowered t { t with faults := faults } :=
          fun _ => ⟨rfl, rfl, rfl, fun _ _ => le_rfl⟩
        refine .bind (storeCall_leads t) ?_ ?_
        · rintro _ _ ⟨faults, rfl⟩
          exact trans_of R (hlowered _ _ (trans_of Lowered hlow (hwrite faults)) hcursors)
            (hsave { t with faults := faults })
        · rintro _ _ ⟨faults, rfl⟩
          exact hlowered _ _ (trans_of Lowered hlow (hwrite faults)) hcursors
    · rintro _ t ⟨hlow, hcursors, -⟩
      exact hlowered s t hlow hcursors

end Cursors

end FlareIm.Sync
