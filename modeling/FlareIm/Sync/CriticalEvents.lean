import FlareIm.Lib.Run
import FlareIm.Sync.State

/-! Replay of critical events. A page is applied event by event, and the cursor moves to the end of the
applied prefix. The prefix is read off the page in the order in which it stands, so an event that failed
is passed over when a later one was applied before it, or when another event of the same seq was. The loop
goes on while the server has more and names no seq above the prefix: also when the prefix has not moved. -/

namespace FlareIm.Sync

open List Lib

/-- `apply_critical_events`: the seqs of the events that were applied. -/
def appliedEventSeqs (report : List (ℕ × Bool)) : List ℕ := (report.filter Prod.snd).map Prod.fst

def maxAppliedEventPrefixSeq : ℕ → List ℕ → List ℕ → ℕ
  | cursor, [], _ => cursor
  | cursor, seq :: events, applied =>
    if seq ≤ cursor then maxAppliedEventPrefixSeq cursor events applied
    else if seq ∈ applied then maxAppliedEventPrefixSeq seq events applied
    else cursor

/-- An event above the known seq that failed: it has to be pulled again. -/
def isOpen (knownSeq : ℕ) (event : ℕ × Bool) : Bool := !event.2 && knownSeq < event.1

theorem isOpen_iff {knownSeq : ℕ} {event : ℕ × Bool} : isOpen knownSeq event ↔
    event.2 = false ∧ knownSeq < event.1 := by
  simp [isOpen]

theorem le_maxAppliedEventPrefixSeq (cursor : ℕ) (events applied : List ℕ) :
    cursor ≤ maxAppliedEventPrefixSeq cursor events applied := by
  fun_induction maxAppliedEventPrefixSeq cursor events applied <;> grind

/-- Up to the first open event the cursor moves to the highest seq. -/
theorem maxAppliedEventPrefixSeq_append {knownSeq cursor : ℕ} (rest applied : List ℕ) {start : List (ℕ × Bool)}
    (happlied : ∀ p ∈ start, p.2 = true → p.1 ∈ applied) (hclosed : ∀ p ∈ start, ¬isOpen knownSeq p)
    (hknown : knownSeq ≤ cursor) :
    maxAppliedEventPrefixSeq cursor (start.map Prod.fst ++ rest) applied =
      maxAppliedEventPrefixSeq ((start.map Prod.fst).foldl max cursor) rest applied := by
  induction start generalizing cursor with
  | nil => rfl
  | cons x start ih =>
    obtain ⟨hx, happlied⟩ := forall_mem_cons.mp happlied
    obtain ⟨hxclosed, hclosed⟩ := forall_mem_cons.mp hclosed
    rw [map_cons, cons_append, foldl_cons, maxAppliedEventPrefixSeq,
      ← ih happlied hclosed (hknown.trans (le_max_left cursor x.1))]
    rw [isOpen_iff, not_and', Bool.not_eq_false] at hxclosed
    split
    · next hle => rw [max_eq_left hle]
    · next hlt =>
      have hmem : x.1 ∈ applied := hx (hxclosed (hknown.trans_lt (not_le.mp hlt)))
      rw [if_pos hmem, max_eq_right (not_le.mp hlt).le]

/-- An event stays above the prefix of the page that starts with it only if the walk stops there. -/
theorem maxAppliedEventPrefixSeq_cons_lt {cursor seq : ℕ} {events applied : List ℕ} :
    maxAppliedEventPrefixSeq cursor (seq :: events) applied < seq ↔ cursor < seq ∧ seq ∉ applied := by
  rw [maxAppliedEventPrefixSeq]
  have hafter := le_maxAppliedEventPrefixSeq seq events applied
  have hcursor := le_maxAppliedEventPrefixSeq cursor events applied
  split_ifs with hle hmem
  · exact iff_of_false (fun h => (h.trans_le hle).not_ge hcursor) fun h => h.1.not_ge hle
  · exact iff_of_false hafter.not_gt fun h => h.2 hmem
  · exact iff_of_true (not_le.mp hle) ⟨not_le.mp hle, hmem⟩

theorem foldl_max_lt_iff {cursor bound : ℕ} {seqs : List ℕ} :
    seqs.foldl max cursor < bound ↔ cursor < bound ∧ ∀ seq ∈ seqs, seq < bound := by
  induction seqs generalizing cursor with
  | nil => simp
  | cons seq seqs ih => rw [foldl_cons, ih, max_lt_iff, forall_mem_cons, and_assoc]

/-- Every event up to the prefix was applied exactly when the open events are all above the events that stand
before the first of them, and the seq of that first one was not applied with another event. -/
theorem applied_of_le_maxAppliedEventPrefixSeq (knownSeq : ℕ) (report : List (ℕ × Bool)) :
    (∀ p ∈ report, knownSeq < p.1 →
        p.1 ≤ maxAppliedEventPrefixSeq knownSeq (report.map Prod.fst) (appliedEventSeqs report) → p.2 = true) ↔
      (∀ p ∈ report, isOpen knownSeq p → ∀ q ∈ report.takeWhile (!isOpen knownSeq ·), q.1 < p.1) ∧
        ∀ p ∈ report.find? (isOpen knownSeq), p.1 ∉ appliedEventSeqs report := by
  have hclaim : ∀ bound, (∀ p ∈ report, knownSeq < p.1 → p.1 ≤ bound → p.2 = true) ↔
      ∀ p ∈ report, isOpen knownSeq p → bound < p.1 := by
    grind [isOpen_iff]
  rw [hclaim, find?_eq_head?_dropWhile_not]
  -- the walk takes the events before the first open one and goes on with the rest
  have hclosed : ∀ p ∈ report.takeWhile (!isOpen knownSeq ·), ¬isOpen knownSeq p := fun p hp => by
    simpa using mem_takeWhile_imp hp
  have hwalk := maxAppliedEventPrefixSeq_append ((report.dropWhile (!isOpen knownSeq ·)).map Prod.fst)
    (appliedEventSeqs report)
    (fun p hp htrue => mem_map_of_mem (mem_filter.mpr ⟨takeWhile_subset _ hp, htrue⟩)) hclosed le_rfl
  have hsplit := takeWhile_append_dropWhile (p := fun p => !isOpen knownSeq p) (l := report)
  rw [← map_append, hsplit] at hwalk
  rw [hwalk]
  generalize appliedEventSeqs report = applied
  generalize report.takeWhile _ = start at hclosed hsplit ⊢
  have hmax : ∀ p : ℕ × Bool, isOpen knownSeq p →
    ((start.map Prod.fst).foldl max knownSeq < p.1 ↔ ∀ q ∈ start, q.1 < p.1) :=
    fun p hp =>
      foldl_max_lt_iff.trans (by rw [forall_mem_map, and_iff_right (isOpen_iff.mp hp).2])
  have hhead := head?_dropWhile_not (fun p => !isOpen knownSeq p) report
  cases hrest : report.dropWhile (!isOpen knownSeq ·) with
  | nil =>
    rw [hrest, append_nil] at hsplit
    rw [← hsplit]
    exact iff_of_true (fun p hp hopen => absurd hopen (hclosed p hp))
      ⟨fun p hp hopen => absurd hopen (hclosed p hp), nofun⟩
  | cons e rest =>
    rw [hrest] at hsplit hhead
    have hopen : isOpen knownSeq e := by simpa using hhead
    have he : e ∈ report := hsplit ▸ mem_append_right start mem_cons_self
    constructor
    · intro h
      refine ⟨fun p hp hopen => (hmax p hopen).mp ((le_maxAppliedEventPrefixSeq ..).trans_lt (h p hp hopen)),
        fun p hp => ?_⟩
      obtain rfl := Option.some.inj hp
      exact (maxAppliedEventPrefixSeq_cons_lt.mp (h e he hopen)).2
    · rintro ⟨habove, hfresh⟩ p hp hp'
      have hstop : (start.map Prod.fst).foldl max knownSeq < e.1 := (hmax e hopen).mpr (habove e he hopen)
      rw [map_cons, maxAppliedEventPrefixSeq, if_neg (not_le.mpr hstop), if_neg (hfresh e rfl)]
      exact (hmax p hp').mpr (habove p hp hp')

/-- The second event of the page comes first and is applied, the first one fails. -/
theorem not_applied_of_le_prefix_unsorted : (1, false) ∈ [(2, true), (1, false)] ∧
    1 ≤ maxAppliedEventPrefixSeq 0 [2, 1] (appliedEventSeqs [(2, true), (1, false)]) := by
  decide

/-! ### The pull -/

/-- What a query of events comes to. -/
inductive QueryEventsReply
  | failed
  | otherPayload
  | snapshotCutover
  | envelope (report : List (ℕ × Bool)) (maxConversationSeq : ℕ) (hasMore : Bool)

/-- One iteration of the loop: the `after_seq` that it goes on with, or nothing once it has left the loop. -/
def pullCriticalEvents (loop : Option ℤ) (reply : QueryEventsReply) : Option ℤ :=
  loop.bind fun afterSeq =>
    match reply with
    | .envelope report maxConversationSeq hasMore =>
      let knownSeq := afterSeq.toNat
      let safeEventSeq := maxAppliedEventPrefixSeq knownSeq (report.map Prod.fst) (appliedEventSeqs report)
      let afterSeq := if safeEventSeq > knownSeq then asI64 safeEventSeq else afterSeq
      if maxConversationSeq > safeEventSeq then none
      else if !hasMore || maxConversationSeq == 0 then none
      else some afterSeq
    | _ => none

def QueryEventsReply.seqs : QueryEventsReply → List ℕ
  | .envelope report _ _ => report.map Prod.fst
  | _ => []

/-- A server that has more names no seq, or one that was not asked for yet, or its first event above the seq
that was asked for is applied. -/
def HasNewMore (loop : Option ℤ) : QueryEventsReply → Prop
  | .envelope report maxConversationSeq true => maxConversationSeq = 0 ∨ ∀ afterSeq ∈ loop,
      afterSeq.toNat < maxConversationSeq ∨
        ∃ seq ∈ (report.map Prod.fst).find? (afterSeq.toNat < ·), seq ∈ appliedEventSeqs report
  | _ => True

section Pull

variable {afterSeq next : ℤ} {reply : QueryEventsReply} {bound : ℕ}

theorem maxAppliedEventPrefixSeq_mem (events applied : List ℕ) (cursor : ℕ) :
    maxAppliedEventPrefixSeq cursor events applied = cursor ∨
    maxAppliedEventPrefixSeq cursor events applied ∈ events := by
  fun_induction maxAppliedEventPrefixSeq cursor events applied <;> grind

theorem lt_maxAppliedEventPrefixSeq {events applied : List ℕ} {cursor seq : ℕ}
    (hfirst : seq ∈ events.find? (cursor < ·))
    (happlied : seq ∈ applied) : cursor < maxAppliedEventPrefixSeq cursor events applied := by
  induction events with
  | nil => cases hfirst
  | cons event events ih =>
    rw [maxAppliedEventPrefixSeq]
    by_cases hle : event ≤ cursor
    · rw [if_pos hle]
      exact ih (by simpa [hle] using hfirst)
    · have hlt := not_le.mp hle
      obtain rfl : event = seq := by simpa [hlt] using hfirst
      rw [if_neg hle, if_pos happlied]
      exact hlt.trans_le (le_maxAppliedEventPrefixSeq ..)

/-- Going on means going up, within the seqs of the reply. -/
theorem lt_of_pullCriticalEvents (hbound : ∀ seq ∈ reply.seqs, seq ≤ bound) (hfits : bound < 2 ^ 63)
    (hnew : HasNewMore (some afterSeq) reply) (h : pullCriticalEvents (some afterSeq) reply = some next) :
    afterSeq.toNat < next.toNat ∧ next.toNat ≤ bound := by
  rw [pullCriticalEvents, Option.bind_some] at h
  split at h
  · next report maxSeq hasMore =>
    have hmem := maxAppliedEventPrefixSeq_mem (report.map Prod.fst) (appliedEventSeqs report) afterSeq.toNat
    have hfirst := fun seq => @lt_maxAppliedEventPrefixSeq (report.map Prod.fst)
      (appliedEventSeqs report) afterSeq.toNat seq
    dsimp only at h
    generalize maxAppliedEventPrefixSeq _ _ _ = safe at h hmem hfirst
    rw [Option.ite_none_left_eq_some, Option.ite_none_left_eq_some] at h
    obtain ⟨habove, hend, h⟩ := h
    cases hasMore with
    | false => exact absurd rfl hend
    | true =>
      have hzero : maxSeq ≠ 0 := by simpa using hend
      have hlt : afterSeq.toNat < safe :=
        (hnew.resolve_left hzero _ rfl).elim (fun hlt => hlt.trans_le (not_lt.mp habove))
        fun ⟨seq, hseq, happlied⟩ => hfirst seq hseq happlied
      have hle : safe ≤ bound := hbound safe (hmem.resolve_left hlt.ne')
      rw [if_pos hlt, Option.some.injEq] at h
      have hcolumn : asI64 safe = safe := if_pos (Nat.le_of_lt_succ (hle.trans_lt hfits))
      rw [← h, hcolumn, Int.toNat_natCast]
      exact ⟨hlt, hle⟩
  · cases h

/-- While the loop goes on it has climbed a seq with every reply. -/
theorem exists_add_length_le_of_run (hfits : bound < 2 ^ 63) {replies : List QueryEventsReply} {loop : Option ℤ}
    (hbound : ∀ reply ∈ replies, ∀ seq ∈ reply.seqs, seq ≤ bound)
    (hnew : AllSteps pullCriticalEvents HasNewMore loop replies)
      (h : run pullCriticalEvents loop replies = some next) :
    ∃ seq ∈ loop, seq.toNat + replies.length ≤ next.toNat ∧ (replies = [] ∨ next.toNat ≤ bound) := by
  induction replies generalizing loop with
  | nil => exact ⟨next, h, le_rfl, .inl rfl⟩
  | cons reply replies ih =>
    obtain ⟨hreply, hbound⟩ := forall_mem_cons.mp hbound
    obtain ⟨middle, hmiddle, hclimb, hle⟩ := ih hbound hnew.2 h
    obtain ⟨seq, rfl, -⟩ := Option.bind_eq_some_iff.mp hmiddle
    have hstep := lt_of_pullCriticalEvents hreply hfits hnew.1 hmiddle
    refine ⟨seq, rfl, by rw [length_cons]; omega, .inr (hle.elim (fun hnil => ?_) id)⟩
    rw [hnil, run_cons, run_nil, hmiddle] at h
    exact Option.some.inj h ▸ hstep.2

end Pull

/-- Every iteration that goes on asks for a higher seq, and the loop is left before it has seen more replies
than there are seqs. -/
theorem pullCriticalEvents_terminates (afterSeq : ℤ) (bound : ℕ) (hfits : bound < 2 ^ 63)
    (replies : List QueryEventsReply) (hbound : ∀ reply ∈ replies, ∀ seq ∈ reply.seqs, seq ≤ bound)
    (hnew : AllSteps pullCriticalEvents HasNewMore (some afterSeq) replies) :
    AllSteps pullCriticalEvents (fun loop reply => ∀ seq ∈ loop, ∀ next ∈ pullCriticalEvents loop reply,
        seq.toNat < next.toNat) (some afterSeq) replies ∧
      (bound < replies.length → run pullCriticalEvents (some afterSeq) replies = none) := by
  constructor
  · refine .of_invariant (I := fun _ => True) (fun _ _ _ _ => trivial)
      (fun loop reply _ h seq hseq next hnext => ?_)
      replies _ trivial ((AllSteps.of_mem hbound).and hnew)
    obtain rfl := Option.mem_def.mp hseq
    exact (lt_of_pullCriticalEvents h.1 hfits h.2 hnext).1
  · intro hlong
    by_contra hsome
    obtain ⟨next, hnext⟩ := Option.ne_none_iff_exists'.mp hsome
    obtain ⟨_, -, hclimb, hle⟩ := exists_add_length_le_of_run hfits hbound hnew hnext
    have hle := hle.resolve_left (length_pos_iff.mp (by omega))
    omega

theorem pullCriticalEvents_terminates_two_pages :
    run pullCriticalEvents (some 0) [.envelope [(1, true)] 1 true, .envelope [(2, true)] 2 false, .failed] = none :=
  (pullCriticalEvents_terminates 0 2 (by decide) _ (by decide)
    (by exact ⟨.inr fun _ h => .inl (by cases h; decide), trivial, trivial, trivial⟩)).2 (by decide)

/-- The server has more, but brings nothing and names a seq that was passed. -/
theorem pullCriticalEvents_stays : pullCriticalEvents (some 1) (.envelope [] 1 true) = some 1 := rfl

end FlareIm.Sync
