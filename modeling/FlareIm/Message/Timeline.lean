import Mathlib.Data.Nat.Basic
import FlareIm.Message.Model

/-! The order of a timeline. Two rows that the server has numbered are compared by their
numbers; every other pair by time, except that a pending row stays behind every numbered
one. The comparison is oriented and only ties rows with the same key. It is transitive on a
set of rows exactly when the local rows that are not pending do not stand between numbers and
times: a failed row between two numbered rows whose times run against their numbers, or one
that a numbered row outlives and a pending row does not, closes a cycle. -/

namespace FlareIm.Message

open Ordering

variable {a b n p : IMMessage}

namespace IMMessage

/-- The key under which a row is found again: the server's id, the client's, or its place. -/
def timelineKey (m : IMMessage) : String :=
  if !isBlank m.serverId then "server:" ++ m.serverId
  else if !isBlank m.clientMsgId then "client:" ++ m.clientMsgId
  else if m.conversationSeq > 0 then
    "seq:" ++ m.conversationId ++ ":" ++ toString m.conversationSeq
  else "ts:" ++ m.conversationId ++ ":" ++ toString m.timelineSortTs

def isLocalPendingForTimeline (m : IMMessage) : Bool :=
  m.conversationSeq == 0 && m.localState.isLocal && !m.localState.failed &&
    (m.localState.sending || m.localState.uploading)

variable (left right : IMMessage)

def compareForTimelineAsc : Ordering :=
  let leftSeq := left.conversationSeq
  let rightSeq := right.conversationSeq
  if leftSeq > 0 ∧ rightSeq > 0 then
    (compare leftSeq rightSeq).then ((compare left.timelineSortTs right.timelineSortTs).then
      (compare left.timelineKey right.timelineKey))
  else
    let leftPending := left.isLocalPendingForTimeline
    let rightPending := right.isLocalPendingForTimeline
    if leftPending ≠ rightPending ∧ (leftSeq > 0 ∨ rightSeq > 0) then
      if leftPending then .gt else .lt
    else
      (compare left.timelineSortTs right.timelineSortTs).then ((compare leftSeq rightSeq).then
        (compare left.timelineKey right.timelineKey))

def compareForLatestWindowDesc : Ordering :=
  compareForTimelineAsc right left

/-! ### Rows without a number that are not pending -/

/-- A local row that does not wait for the server: failed, or neither sending nor uploading. -/
def isSettledLocal (m : IMMessage) : Bool :=
  m.conversationSeq == 0 && !m.isLocalPendingForTimeline

/-- `left` does not sort behind `right`. -/
def NoLater : Prop := (compareForTimelineAsc left right).isLE
  deriving Decidable

def bySeq : IMMessage → IMMessage → Ordering :=
  compareLex (compareOn conversationSeq) (compareLex (compareOn timelineSortTs) (compareOn timelineKey))

/-- The order of all other rows, pending and numbered ones apart. -/
def byTime : IMMessage → IMMessage → Ordering :=
  compareLex (compareOn timelineSortTs) (compareLex (compareOn conversationSeq) (compareOn timelineKey))

instance : Std.TransCmp bySeq := inferInstanceAs (Std.TransCmp (compareLex _ _))

instance : Std.TransCmp byTime := inferInstanceAs (Std.TransCmp (compareLex _ _))

section Kinds

variable {m : IMMessage}

theorem kind_cases (m : IMMessage) :
    0 < m.conversationSeq ∨ m.isLocalPendingForTimeline = true ∨ m.isSettledLocal = true := by
  unfold isSettledLocal
  cases hp : m.isLocalPendingForTimeline with
  | true => exact .inr (.inl rfl)
  | false =>
    rcases Nat.eq_zero_or_pos m.conversationSeq with hz | hpos
    · exact .inr (.inr (by simp [hz]))
    · exact .inl hpos

theorem seq_eq_zero_of_pending (h : m.isLocalPendingForTimeline = true) : m.conversationSeq = 0 := by
  simp only [isLocalPendingForTimeline, Bool.and_eq_true, beq_iff_eq] at h
  exact h.1.1.1

theorem not_pending_of_seq_pos (h : 0 < m.conversationSeq) : m.isLocalPendingForTimeline = false := by
  rw [Bool.eq_false_iff]
  intro hp
  rw [seq_eq_zero_of_pending hp] at h
  exact Nat.lt_irrefl 0 h

theorem seq_eq_zero_of_settled (h : m.isSettledLocal = true) : m.conversationSeq = 0 := by
  simp only [isSettledLocal, Bool.and_eq_true, beq_iff_eq] at h
  exact h.1

theorem not_pending_of_settled (h : m.isSettledLocal = true) : m.isLocalPendingForTimeline = false := by
  simp only [isSettledLocal, Bool.and_eq_true, Bool.not_eq_true'] at h
  exact h.2

/-! ### The comparison, kind by kind -/

theorem compare_eq_bySeq (ha : 0 < a.conversationSeq) (hb : 0 < b.conversationSeq) :
    compareForTimelineAsc a b = bySeq a b := if_pos ⟨ha, hb⟩

theorem compare_eq_byTime (hseq : ¬ (0 < a.conversationSeq ∧ 0 < b.conversationSeq))
    (hpending : a.isLocalPendingForTimeline = b.isLocalPendingForTimeline ∨
      (a.conversationSeq = 0 ∧ b.conversationSeq = 0)) :
    compareForTimelineAsc a b = byTime a b := by
  unfold compareForTimelineAsc
  rw [if_neg hseq, if_neg]
  · rfl
  · rintro ⟨hne, hpos⟩
    rcases hpending with heq | ⟨ha, hb⟩
    · exact hne heq
    · omega

theorem compare_local (ha : a.conversationSeq = 0) (hb : b.conversationSeq = 0) :
    compareForTimelineAsc a b = byTime a b :=
  compare_eq_byTime (fun h => by omega) (.inr ⟨ha, hb⟩)

section

variable (ha : 0 < a.conversationSeq) (hp : p.isLocalPendingForTimeline = true)

include ha hp

theorem compare_numbered_pending : compareForTimelineAsc a p = .lt := by
  have hseq := seq_eq_zero_of_pending hp
  simp [compareForTimelineAsc, not_pending_of_seq_pos ha, hp, hseq, ha]

theorem compare_pending_numbered : compareForTimelineAsc p a = .gt := by
  have hseq := seq_eq_zero_of_pending hp
  simp [compareForTimelineAsc, not_pending_of_seq_pos ha, hp, hseq, ha]

end

/-- Times decide between a numbered row and a settled one. -/
theorem compare_settled (ha : 0 < a.conversationSeq) (hn : n.isSettledLocal = true) :
    compareForTimelineAsc a n = byTime a n ∧ compareForTimelineAsc n a = byTime n a := by
  have hzero := seq_eq_zero_of_settled hn
  have hpending : a.isLocalPendingForTimeline = n.isLocalPendingForTimeline := by
    rw [not_pending_of_seq_pos ha, not_pending_of_settled hn]
  exact ⟨compare_eq_byTime (by omega) (.inl hpending), compare_eq_byTime (by omega) (.inl hpending.symm)⟩

theorem byTime_isLE_iff : (byTime a b).isLE ↔ a.timelineSortTs < b.timelineSortTs ∨
    (a.timelineSortTs = b.timelineSortTs ∧ (a.conversationSeq < b.conversationSeq ∨
      (a.conversationSeq = b.conversationSeq ∧ (compare a.timelineKey b.timelineKey).isLE))) := by
  simp only [byTime, compareLex, compareOn, isLE_then_iff_or, Nat.compare_eq_lt, Nat.compare_eq_eq]

variable (ha : 0 < a.conversationSeq)

include ha

/-- A numbered row stands before a settled one only by time, and loses a tie. -/
theorem numbered_noLater_settled_iff (hn : n.isSettledLocal = true) :
    NoLater a n ↔ a.timelineSortTs < n.timelineSortTs := by
  rw [NoLater, (compare_settled ha hn).1, byTime_isLE_iff, seq_eq_zero_of_settled hn]
  omega

theorem settled_noLater_numbered_iff (hn : n.isSettledLocal = true) :
    NoLater n a ↔ n.timelineSortTs ≤ a.timelineSortTs := by
  rw [NoLater, (compare_settled ha hn).2, byTime_isLE_iff, seq_eq_zero_of_settled hn]
  omega

theorem numbered_noLater_pending (hp : p.isLocalPendingForTimeline = true) : NoLater a p := by
  rw [NoLater, compare_numbered_pending ha hp]
  rfl

theorem not_pending_noLater_numbered (hp : p.isLocalPendingForTimeline = true) : ¬ NoLater p a := by
  rw [NoLater, compare_pending_numbered ha hp]
  decide

end Kinds

/-! ### Orientation and ties -/

theorem compare_swap (a b : IMMessage) : compareForTimelineAsc b a = (compareForTimelineAsc a b).swap := by
  by_cases hseq : 0 < a.conversationSeq ∧ 0 < b.conversationSeq
  · rw [compare_eq_bySeq hseq.1 hseq.2, compare_eq_bySeq hseq.2 hseq.1]
    exact Std.OrientedCmp.eq_swap
  by_cases hpending : a.isLocalPendingForTimeline = b.isLocalPendingForTimeline ∨
      (a.conversationSeq = 0 ∧ b.conversationSeq = 0)
  · rw [compare_eq_byTime hseq hpending, compare_eq_byTime (fun h => hseq h.symm) (hpending.imp Eq.symm And.symm)]
    exact Std.OrientedCmp.eq_swap
  -- one row is pending and the other one numbered
  push Not at hpending
  obtain ⟨hne, hpos⟩ := hpending
  rcases Nat.eq_zero_or_pos a.conversationSeq with ha | ha
  · have hb : 0 < b.conversationSeq := Nat.pos_of_ne_zero (hpos ha)
    have hp : a.isLocalPendingForTimeline = true := by
      rw [not_pending_of_seq_pos hb] at hne
      exact (Bool.not_eq_false _).mp hne
    rw [compare_pending_numbered hb hp, compare_numbered_pending hb hp]
    rfl
  · have hp : b.isLocalPendingForTimeline = true := by
      rw [not_pending_of_seq_pos ha] at hne
      exact (Bool.not_eq_false _).mp hne.symm
    rw [compare_pending_numbered ha hp, compare_numbered_pending ha hp]
    rfl

theorem key_eq_of_compare_eq (h : compareForTimelineAsc a b = .eq) :
    a.timelineKey = b.timelineKey := by
  unfold compareForTimelineAsc at h
  dsimp only at h
  split at h
  · exact Std.LawfulEqOrd.eq_of_compare (then_eq_eq.mp (then_eq_eq.mp h).2).2
  split at h
  · split at h <;> cases h
  · exact Std.LawfulEqOrd.eq_of_compare (then_eq_eq.mp (then_eq_eq.mp h).2).2

theorem key_eq_of_noLater (h : NoLater a b) (h' : NoLater b a) : a.timelineKey = b.timelineKey := by
  refine key_eq_of_compare_eq ?_
  rw [NoLater, compare_swap a b] at h'
  rw [NoLater] at h
  cases hc : compareForTimelineAsc a b with
  | lt => rw [hc] at h'; exact absurd h' (by decide)
  | eq => rfl
  | gt => rw [hc] at h; exact absurd h (by decide)

end IMMessage

open IMMessage

/-! ### Transitivity -/

/-- The comparison is a total order on the rows: oriented, tying only rows with the same key,
and transitive. -/
structure TimelineOrdered (rows : List IMMessage) : Prop where
  oriented : ∀ a ∈ rows, ∀ b ∈ rows, compareForTimelineAsc b a = (compareForTimelineAsc a b).swap
  antisymm : ∀ a ∈ rows, ∀ b ∈ rows, NoLater a b → NoLater b a → a.timelineKey = b.timelineKey
  trans : ∀ a ∈ rows, ∀ b ∈ rows, ∀ c ∈ rows, NoLater a b → NoLater b c → NoLater a c

/-- The settled local rows do not stand between numbers and times. -/
structure SettledRowsFit (rows : List IMMessage) : Prop where
  /-- A settled row later than a numbered row is later than all that the server put before. -/
  numbered : ∀ n ∈ rows, ∀ a ∈ rows, ∀ b ∈ rows, n.isSettledLocal = true → 0 < a.conversationSeq →
    a.conversationSeq < b.conversationSeq → b.timelineSortTs < n.timelineSortTs →
    a.timelineSortTs < n.timelineSortTs
  /-- A settled row that is not later than every numbered row is before every pending row. -/
  pending : ∀ n ∈ rows, ∀ p ∈ rows, ∀ a ∈ rows, n.isSettledLocal = true →
    p.isLocalPendingForTimeline = true → 0 < a.conversationSeq →
    n.timelineSortTs ≤ a.timelineSortTs → n.timelineSortTs < p.timelineSortTs ∨
      (n.timelineSortTs = p.timelineSortTs ∧ compare n.timelineKey p.timelineKey = .lt)

section Transitivity

variable {rows : List IMMessage} {c : IMMessage}

/-- Pending and settled rows are ordered by time and key. -/
theorem noLater_local_iff (ha : a.conversationSeq = 0) (hb : b.conversationSeq = 0) :
    NoLater a b ↔ a.timelineSortTs < b.timelineSortTs ∨ (a.timelineSortTs = b.timelineSortTs ∧
      (compare a.timelineKey b.timelineKey).isLE) := by
  rw [NoLater, compare_local ha hb, byTime_isLE_iff, ha, hb]
  simp

theorem noLater_local_trans (ha : a.conversationSeq = 0) (hb : b.conversationSeq = 0)
    (hc : c.conversationSeq = 0) (hab : NoLater a b) (hbc : NoLater b c) : NoLater a c := by
  rw [NoLater, compare_local ha hb] at hab
  rw [NoLater, compare_local hb hc] at hbc
  rw [NoLater, compare_local ha hc]
  exact Std.TransCmp.isLE_trans hab hbc

/-- Before a settled row that some numbered row outlives, no pending row can stand. -/
theorem SettledRowsFit.not_pending_noLater (h : SettledRowsFit rows) (hn : n ∈ rows) (hp : p ∈ rows)
    (ha : a ∈ rows) (hsettled : n.isSettledLocal = true) (hpending : p.isLocalPendingForTimeline = true)
    (hseq : 0 < a.conversationSeq) (hts : n.timelineSortTs ≤ a.timelineSortTs) : ¬ NoLater p n := by
  rw [noLater_local_iff (seq_eq_zero_of_pending hpending) (seq_eq_zero_of_settled hsettled)]
  rcases h.pending n hn p hp a ha hsettled hpending hseq hts with hlt | ⟨heq, hkey⟩
  · omega
  · rintro (hlt | ⟨-, hle⟩)
    · omega
    · have hswap : compare p.timelineKey n.timelineKey =
          (compare n.timelineKey p.timelineKey).swap := Std.OrientedOrd.eq_swap
      rw [hswap, hkey] at hle
      exact absurd hle (by decide)

theorem noLater_numbered_iff (ha : 0 < a.conversationSeq) (hb : 0 < b.conversationSeq) :
    NoLater a b ↔ a.conversationSeq < b.conversationSeq ∨
      (a.conversationSeq = b.conversationSeq ∧ (a.timelineSortTs < b.timelineSortTs ∨
        (a.timelineSortTs = b.timelineSortTs ∧ (compare a.timelineKey b.timelineKey).isLE))) := by
  rw [NoLater, compare_eq_bySeq ha hb]
  simp only [bySeq, compareLex, compareOn, isLE_then_iff_or, Nat.compare_eq_lt, Nat.compare_eq_eq]

section Numbered

variable (h : SettledRowsFit rows) (hn : n ∈ rows) (ha : a ∈ rows) (hb : b ∈ rows)
  (hsettled : n.isSettledLocal = true) (hseq : 0 < a.conversationSeq) (hseq' : 0 < b.conversationSeq)

include h hn ha hb hsettled hseq hseq'

/-- The server's order and the times agree on both sides of a settled row. -/
theorem SettledRowsFit.lt_of_noLater (hab : NoLater a b) (hts : b.timelineSortTs < n.timelineSortTs) :
    a.timelineSortTs < n.timelineSortTs := by
  rcases (noLater_numbered_iff hseq hseq').mp hab with hlt | ⟨-, hlt | ⟨heq, -⟩⟩
  · exact h.numbered n hn a ha b hb hsettled hseq hlt hts
  · exact hlt.trans hts
  · exact heq ▸ hts

/-- The three ways in which a settled row can stand with two numbered ones. -/
theorem SettledRowsFit.numbered_trans :
    (NoLater a b → NoLater b n → NoLater a n) ∧ (NoLater a n → NoLater n b → NoLater a b) ∧
      (NoLater n a → NoLater a b → NoLater n b) := by
  rw [numbered_noLater_settled_iff hseq hsettled, numbered_noLater_settled_iff hseq' hsettled,
    settled_noLater_numbered_iff hseq hsettled, settled_noLater_numbered_iff hseq' hsettled]
  refine ⟨fun hab hbn => h.lt_of_noLater hn ha hb hsettled hseq hseq' hab hbn, fun han hnb => ?_, fun hna hab => ?_⟩
  · by_contra hnot
    -- otherwise `b` comes first, and its time would be before that of the settled row
    have hba : NoLater b a := by
      rw [NoLater, compare_swap a b]
      rw [NoLater] at hnot
      cases hc : compareForTimelineAsc a b with
      | gt => rfl
      | _ => rw [hc] at hnot; exact absurd rfl hnot
    have := h.lt_of_noLater hn hb ha hsettled hseq' hseq hba han
    omega
  · by_contra hnot
    have := h.lt_of_noLater hn ha hb hsettled hseq hseq' hab (by omega)
    omega

end Numbered

theorem le_of_noLater_local (ha : a.conversationSeq = 0) (hb : b.conversationSeq = 0)
    (h : NoLater a b) : a.timelineSortTs ≤ b.timelineSortTs := by
  rcases (noLater_local_iff ha hb).mp h with hlt | ⟨heq, -⟩
  · exact Nat.le_of_lt hlt
  · exact Nat.le_of_eq heq

section Trans

variable (h : SettledRowsFit rows) (ha : a ∈ rows) (hb : b ∈ rows) (hc : c ∈ rows)
  (hab : NoLater a b) (hbc : NoLater b c)

include h ha hb hc hab hbc

theorem SettledRowsFit.trans_of_numbered (sb : 0 < b.conversationSeq) : NoLater a c := by
  rcases kind_cases a with sa | pa | la
  · rcases kind_cases c with sc | pc | lc
    · rw [NoLater, compare_eq_bySeq sa sb] at hab
      rw [NoLater, compare_eq_bySeq sb sc] at hbc
      rw [NoLater, compare_eq_bySeq sa sc]
      exact Std.TransCmp.isLE_trans hab hbc
    · exact numbered_noLater_pending sa pc
    · exact (h.numbered_trans hc ha hb lc sa sb).1 hab hbc
  · exact absurd hab (not_pending_noLater_numbered sb pa)
  · have hts := (settled_noLater_numbered_iff sb la).mp hab
    rcases kind_cases c with sc | pc | lc
    · exact (h.numbered_trans ha hb hc la sb sc).2.2 hab hbc
    · rw [noLater_local_iff (seq_eq_zero_of_settled la) (seq_eq_zero_of_pending pc)]
      refine (h.pending a ha c hc b hb la pc sb hts).imp_right fun hkey => ⟨hkey.1, ?_⟩
      rw [hkey.2]
      rfl
    · have hts' := (numbered_noLater_settled_iff sb lc).mp hbc
      rw [noLater_local_iff (seq_eq_zero_of_settled la) (seq_eq_zero_of_settled lc)]
      exact .inl (by omega)

theorem SettledRowsFit.trans_of_pending (pb : b.isLocalPendingForTimeline = true) : NoLater a c := by
  rcases Nat.eq_zero_or_pos c.conversationSeq with zc | sc
  · rcases Nat.eq_zero_or_pos a.conversationSeq with za | sa
    · exact noLater_local_trans za (seq_eq_zero_of_pending pb) zc hab hbc
    rcases kind_cases c with sc | pc | lc
    · omega
    · exact numbered_noLater_pending sa pc
    · rw [numbered_noLater_settled_iff sa lc]
      by_contra hnot
      exact h.not_pending_noLater hc hb ha lc pb sa (Nat.le_of_not_lt hnot) hbc
  · exact absurd hbc (not_pending_noLater_numbered sc pb)

theorem SettledRowsFit.trans_of_settled (lb : b.isSettledLocal = true) : NoLater a c := by
  have zb := seq_eq_zero_of_settled lb
  rcases kind_cases a with sa | pa | la
  · have hts := (numbered_noLater_settled_iff sa lb).mp hab
    rcases kind_cases c with sc | pc | lc
    · exact (h.numbered_trans hb ha hc lb sa sc).2.1 hab hbc
    · exact numbered_noLater_pending sa pc
    · have hts' := le_of_noLater_local zb (seq_eq_zero_of_settled lc) hbc
      exact (numbered_noLater_settled_iff sa lc).mpr (by omega)
  · have za := seq_eq_zero_of_pending pa
    rcases Nat.eq_zero_or_pos c.conversationSeq with zc | sc
    · exact noLater_local_trans za zb zc hab hbc
    · have hts := (settled_noLater_numbered_iff sc lb).mp hbc
      exact absurd hab (h.not_pending_noLater hb ha hc lb pa sc hts)
  · have za := seq_eq_zero_of_settled la
    rcases Nat.eq_zero_or_pos c.conversationSeq with zc | sc
    · exact noLater_local_trans za zb zc hab hbc
    · have hts := le_of_noLater_local za zb hab
      have hts' := (settled_noLater_numbered_iff sc lb).mp hbc
      exact (settled_noLater_numbered_iff sc la).mpr (by omega)

end Trans

/-- The comparison orders the rows totally exactly when the settled local rows fit. -/
theorem timelineOrdered_iff (rows : List IMMessage) : TimelineOrdered rows ↔ SettledRowsFit rows := by
  constructor
  · intro h
    refine ⟨fun n hn a ha b hb ln sa hlt hts => ?_, fun n hn p hp a ha ln pp sa hts => ?_⟩
    · have hab : NoLater a b := (noLater_numbered_iff sa (by omega)).mpr (.inl hlt)
      have hbn : NoLater b n := (numbered_noLater_settled_iff (by omega) ln).mpr hts
      exact (numbered_noLater_settled_iff sa ln).mp (h.trans a ha b hb n hn hab hbn)
    · have hnot : ¬ NoLater p n := fun hpn => by
        have han := h.trans a ha p hp n hn (numbered_noLater_pending sa pp) hpn
        have := (numbered_noLater_settled_iff sa ln).mp han
        omega
      have zn := seq_eq_zero_of_settled ln
      have zp := seq_eq_zero_of_pending pp
      rw [noLater_local_iff zp zn] at hnot
      push Not at hnot
      rcases Nat.lt_or_eq_of_le hnot.1 with hlt | heq
      · exact .inl hlt
      · refine .inr ⟨heq, ?_⟩
        have hswap : compare n.timelineKey p.timelineKey =
            (compare p.timelineKey n.timelineKey).swap := Std.OrientedOrd.eq_swap
        have hkey := hnot.2 heq.symm
        cases hc : compare p.timelineKey n.timelineKey with
        | gt => rw [hswap, hc]; rfl
        | _ => rw [hc] at hkey; exact absurd rfl hkey
  · intro h
    refine ⟨fun a _ b _ => compare_swap a b, fun a _ b _ => key_eq_of_noLater, fun a ha b hb c hc hab hbc => ?_⟩
    rcases kind_cases b with sb | pb | lb
    · exact h.trans_of_numbered ha hb hc hab hbc sb
    · exact h.trans_of_pending ha hb hc hab hbc pb
    · exact h.trans_of_settled ha hb hc hab hbc lb

end Transitivity

/-- A row of the conversation with the given number, server time and local time. -/
def timelineRow (clientMsgId : String) (seq createdAt sortTs : ℕ) (failed : Bool) : IMMessage :=
  { clientMsgId := clientMsgId, conversationId := "conv", senderId := "u1", conversationSeq := seq
    createdAt := createdAt, status := 1, localState := { isLocal := seq == 0, failed := failed, sortTs := sortTs } }

/-- The server numbered two messages against their times, and a failed local message has a time
between the two. -/
def cyclicRows : List IMMessage :=
  [timelineRow "c1" 1 300 0 false, timelineRow "c2" 2 100 0 false, timelineRow "c3" 0 0 200 true]

theorem not_timelineOrdered_cyclicRows : ¬ TimelineOrdered cyclicRows := by
  intro h
  exact absurd (h.trans (timelineRow "c1" 1 300 0 false) (by decide) (timelineRow "c2" 2 100 0 false)
    (by decide) (timelineRow "c3" 0 0 200 true) (by decide) (by decide) (by decide)) (by decide)

end FlareIm.Message
