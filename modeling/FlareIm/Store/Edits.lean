import FlareIm.Lib.Run
import FlareIm.Store.OneMessage

/-! Edits of one message, interleaved with saves of the message itself. An edit writes its
content and its number, and is refused when its number is not above the written one. A save
writes content and attributes of the message it brings: nothing of the stored edit survives
it. So the content is that of the newest edit as long as every saved message already carries
the newest edit the table has seen, and from a save that does not the table starts over. -/

namespace FlareIm.Store

open Lib Message List KeyedMap

namespace RowTable

/-- The number of the last edit that the attributes know of; 0 when there is none. -/
def editSeq (attributes : Attributes) : ℕ := messageAttributeSeq attributes "lastEditEventSeq"

/-! ### The edit number after a write -/

variable {m : InboundMessage} {now seq : ℕ}

section Attributes

variable (attributes existing : Attributes) (now : ℕ)

theorem editSeq_editedAttributes (h : seq ≤ maxU64) :
    editSeq (editedAttributes attributes now (some seq)) = seq := by
  have hvalue : (editedAttributes attributes now (some seq))["lastEditEventSeq"]? = some (toString seq) := by
    unfold editedAttributes
    rw [getElem?_insert_of_ne (by decide), getElem?_insert_of_ne (by decide),
      getElem?_insert_of_ne (by decide), Std.ExtTreeMap.getElem?_insert_self]
  rw [editSeq, messageAttributeSeq, hvalue, Option.bind_some, parseU64_toString h, Option.getD_some]

end Attributes

/-! ### The row of the message after a write -/

section Row

variable {t : RowTable} {sid : String} {now : ℕ}

@[simp] theorem editSeq_storedRow (t : RowTable) (now : ℕ) (m : InboundMessage) :
    editSeq (t.storedRow now m).attributes = editSeq m.attributes := by
  unfold storedRow
  split
  · rw [editSeq, messageAttributeSeq, getElem?_mergeMessageEventAttributes (by decide)]
    rfl
  · rfl

/-- A saved message is in the table with its own content and its own edit number. -/
theorem get_saveBatch (now : ℕ) (hsid : m.serverId = sid) (h : t.isPersistable m = true) :
    ∃ r, (t.saveBatch now [m]).get sid = some r ∧ r.encodedContent = m.encodedContent ∧
      editSeq r.attributes = editSeq m.attributes := by
  rw [get, rows_saveBatch_singleton, if_pos h, ← hsid]
  exact ⟨_, find?_insert_self _ _, rfl, editSeq_storedRow _ _ _⟩

theorem onlyOwn_saveBatch (hown : t.OnlyOwn sid) (hsid : m.serverId = sid) :
    (t.saveBatch now [m]).OnlyOwn sid := by
  intro r hr hcid
  rw [rows_saveBatch_singleton] at hr
  split at hr
  · rcases (mem_insert _ _ _).mp hr with rfl | ⟨hold, -⟩
    · exact hsid
    · exact hown r (mem_of_mem_removeConflictingRows hold) hcid
  · exact hown r hr hcid

/-- An edit that is applied leaves its content and its number in the message's row. -/
theorem applyEditEvent_spec (now : ℕ) (hown : t.OnlyOwn sid) (content : Content) (hseq : seq ≤ maxU64) :
    (t.get sid = none ∧ t.applyEditEvent now sid content (some seq) = (.notFound, t)) ∨
    ∃ r, t.get sid = some r ∧ ((seq ≤ editSeq r.attributes ∧
          t.applyEditEvent now sid content (some seq) = (.ignoredStale, t)) ∨
        (editSeq r.attributes < seq ∧ ∃ u, t.applyEditEvent now sid content (some seq) = (.applied, u) ∧
          u.OnlyOwn sid ∧
            u.clearedFloor = t.clearedFloor ∧
            ∃ r', u.get sid = some r' ∧ r'.encodedContent = content ∧ editSeq r'.attributes = seq)) := by
  unfold applyEditEvent
  rw [firstAnswering_eq_get hown]
  cases hget : t.get sid with
  | none => exact .inl ⟨rfl, rfl⟩
  | some r =>
    refine .inr ⟨r, rfl, ?_⟩
    by_cases hstale : seq ≤ editSeq r.attributes
    · exact .inl ⟨hstale, if_pos (by simpa [editSeq] using hstale)⟩
    · refine .inr ⟨not_le.mp hstale, _, if_neg (by simpa [editSeq] using hstale), ?_, rfl, ?_⟩
      · intro r' hr' hcid
        obtain ⟨r₀, hr₀, rfl⟩ := mem_map.mp hr'
        by_cases hans : answersTo sid r₀ = true <;>
          simp only [hans, if_true, Bool.false_eq_true, if_false] at hcid ⊢
        · exact hown r₀ hr₀ hcid
        · exact hown r₀ hr₀ hcid
      · have hans : answersTo sid r = true := by
          have hkey := key_of_find? hget
          simp [answersTo, hkey]
        refine ⟨editedRow content now (editedAttributes r.attributes now (some seq)) r, ?_, rfl,
          editSeq_editedAttributes _ _ hseq⟩
        refine (get_updateWhere t _ _ _ sid).trans ?_
        rw [hget, Option.map_some, if_pos hans]

end Row

/-! ### Runs -/

inductive EditStep
  | edit (now seq : ℕ)
  | save (now : ℕ) (message : InboundMessage)

/-- The table, and the numbers of the edits that reached the message: applied ones, newest first,
and those that saved rows carried. -/
structure EditRun where
  table : RowTable
  applied : List ℕ
  carried : List ℕ

namespace EditRun

variable (sid : String) (body : ℕ → Content)

def start (t : RowTable) : EditRun := ⟨t, [], []⟩

variable (s : EditRun)

/-- Edit number `seq` of the message brings the content `body seq`. -/
def step : EditStep → EditRun
  | .edit now seq =>
    let (result, table) := s.table.applyEditEvent now sid (body seq) (some seq)
    { s with table := table, applied := if result = .applied then seq :: s.applied else s.applied }
  | .save now m =>
    { s with
      table := s.table.saveBatch now [m]
      carried := if s.table.isPersistable m ∧ 0 < editSeq m.attributes then
        editSeq m.attributes :: s.carried else s.carried }

/-- Edits have positive numbers, saves bring the message, and a message that carries an edit has
its content. -/
def IsOf : EditStep → Prop
  | .edit _ seq => 0 < seq ∧ seq ≤ maxU64
  | .save _ m =>
    m.serverId = sid ∧ (0 < editSeq m.attributes → m.encodedContent = body (editSeq m.attributes))

/-- A saved message carries the newest edit that the stored row knows of, or a newer one. -/
def CarriesEdit : EditStep → Prop
  | .edit _ _ => True
  | .save _ m => s.table.isPersistable m = true →
      ((s.table.get sid).elim 0 fun r => editSeq r.attributes) ≤ editSeq m.attributes

instance : (e : EditStep) → Decidable (IsOf sid body e)
  | .edit _ _ => inferInstanceAs (Decidable (_ ∧ _))
  | .save _ _ => inferInstanceAs (Decidable (_ ∧ (_ → _)))

instance (s : EditRun) : (e : EditStep) → Decidable (CarriesEdit sid s e)
  | .edit _ _ => inferInstanceAs (Decidable True)
  | .save _ _ => inferInstanceAs (Decidable (_ → _))

/-- The number of the newest edit that reached the message. -/
def newest : ℕ := (s.applied ++ s.carried).foldr max 0

theorem newest_cons_applied (seq : ℕ) :
    newest { s with applied := seq :: s.applied } = max seq s.newest := rfl

theorem newest_cons_carried (seq : ℕ) :
    newest { s with carried := seq :: s.carried } = max seq s.newest := by
  have key : ∀ (xs ys : List ℕ), (xs ++ seq :: ys).foldr max 0 = max seq ((xs ++ ys).foldr max 0) := by
    intro xs ys
    induction xs with
    | nil => rfl
    | cons x xs ih =>
      rw [cons_append, foldr_cons, ih, cons_append, foldr_cons, Nat.max_left_comm]
  exact key s.applied s.carried

theorem le_newest {s : EditRun} (h : seq ∈ s.applied ++ s.carried) : seq ≤ s.newest := by
  unfold newest
  generalize s.applied ++ s.carried = seqs at h
  induction seqs with
  | nil => exact absurd h not_mem_nil
  | cons x xs ih =>
    rcases mem_cons.mp h with rfl | h
    · exact le_max_left _ _
    · exact (ih h).trans (le_max_right _ _)

/-- The row knows the newest edit, and has its content. -/
structure Current (s : EditRun) : Prop where
  onlyOwn : s.table.OnlyOwn sid
  absent : s.table.get sid = none → s.applied = [] ∧ s.carried = []
  newest : ∀ r, s.table.get sid = some r → editSeq r.attributes = s.newest
  content : ∀ r, s.table.get sid = some r → 0 < s.newest → r.encodedContent = body s.newest
  positive : ∀ seq ∈ s.applied ++ s.carried, 0 < seq
  below : ∀ seq ∈ s.applied, seq ≤ s.newest
  increasing : s.applied.Pairwise (· > ·)

variable {sid body}

theorem current_edit {s : EditRun} (h : s.Current sid body) (hpos : 0 < seq) (hseq : seq ≤ maxU64) :
    (step sid body s (.edit now seq)).Current sid body := by
  rw [step]
  rcases applyEditEvent_spec now h.onlyOwn (body seq) hseq with
    ⟨-, hrun⟩ | ⟨r, hr, ⟨-, hrun⟩ | ⟨hfresh, u, hrun, hown, -, r', hr', hcontent, hnumber⟩⟩
  · rw [hrun]
    exact h
  · rw [hrun]
    exact h
  · rw [hrun]
    simp only [if_true]
    have hnewest : newest { s with table := u, applied := seq :: s.applied } = seq := by
      refine (newest_cons_applied s seq).trans (max_eq_left ?_)
      rw [← h.newest r hr]
      exact hfresh.le
    refine ⟨hown, fun hnone => ?_, fun q hq => ?_, fun q hq _ => ?_,
      forall_mem_cons.mpr ⟨hpos, h.positive⟩, fun k hk => ?_, ?_⟩
    · rw [hr'] at hnone
      exact absurd hnone (by simp)
    · rw [hnewest]
      cases hr'.symm.trans hq
      exact hnumber
    · rw [hnewest]
      cases hr'.symm.trans hq
      exact hcontent
    · rw [hnewest]
      rcases mem_cons.mp hk with rfl | hk
      · exact le_rfl
      · exact (h.below k hk).trans ((h.newest r hr).symm.le.trans hfresh.le)
    · refine pairwise_cons.mpr ⟨fun k hk => ?_, h.increasing⟩
      have := h.below k hk
      rw [← h.newest r hr] at this
      omega

theorem current_save {s : EditRun} (h : s.Current sid body)
    (hof : IsOf sid body (.save now m)) (hcarries : CarriesEdit sid s (.save now m)) :
    (step sid body s (.save now m)).Current sid body := by
  rw [step]
  by_cases hp : s.table.isPersistable m = true
  · obtain ⟨r, hr, hcontent, hnumber⟩ := get_saveBatch now hof.1 hp
    -- The stored edit, if any, is not newer than the one the message carries.
    have hle : s.newest ≤ editSeq m.attributes := by
      refine le_trans ?_ (hcarries hp)
      cases hget : s.table.get sid with
      | none =>
        obtain ⟨happlied, hcarried⟩ := h.absent hget
        simp [newest, happlied, hcarried]
      | some q => exact (h.newest q hget).ge
    have hnewest : newest { s with
        table := s.table.saveBatch now [m]
        carried := if s.table.isPersistable m ∧ 0 < editSeq m.attributes then
          editSeq m.attributes :: s.carried else s.carried } = editSeq m.attributes := by
      by_cases hpos : 0 < editSeq m.attributes
      · rw [if_pos ⟨hp, hpos⟩]
        exact (newest_cons_carried s _).trans (max_eq_left hle)
      · rw [if_neg fun hcon => hpos hcon.2]
        change s.newest = _
        omega
    refine ⟨onlyOwn_saveBatch h.onlyOwn hof.1, fun hnone => ?_, fun q hq => ?_, fun q hq hpos => ?_,
      fun k hk => ?_, fun k hk => ?_, h.increasing⟩
    · exact absurd (hr.symm.trans hnone) (by simp)
    · rw [hnewest]
      cases hr.symm.trans hq
      exact hnumber
    · rw [hnewest] at hpos ⊢
      cases hr.symm.trans hq
      exact hcontent.trans (hof.2 hpos)
    · dsimp only at hk
      split at hk
      · next hcarried =>
        rcases mem_append.mp hk with hk | hk
        · exact h.positive k (mem_append_left _ hk)
        · rcases mem_cons.mp hk with rfl | hk
          · exact hcarried.2
          · exact h.positive k (mem_append_right _ hk)
      · exact h.positive k hk
    · rw [hnewest]
      exact (h.below k hk).trans hle
  · have hsame : s.table.saveBatch now [m] = s.table := by
      simp [saveBatch, hp, chunks, messageSaveBatchInsertChunkSize]
    rw [hsame, if_neg fun hcon => hp hcon.1]
    exact h

theorem current_start {t : RowTable} (h : ∀ r ∈ t.rows.items, answersTo sid r = false) :
    (start t).Current sid body where
  onlyOwn r hr hcid := absurd (h r hr) (by simp [answersTo, hcid])
  absent _ := ⟨rfl, rfl⟩
  newest r hr := absurd (h r (mem_of_find? hr)) (by simp [answersTo, key_of_find? hr])
  content r hr := absurd (h r (mem_of_find? hr)) (by simp [answersTo, key_of_find? hr])
  positive _ hk := absurd hk not_mem_nil
  below _ hk := absurd hk not_mem_nil
  increasing := List.Pairwise.nil

theorem current_step (s : EditRun) (e : EditStep) (h : s.Current sid body)
    (hc : IsOf sid body e ∧ CarriesEdit sid s e) : (step sid body s e).Current sid body := by
  cases e with
  | edit now seq => exact current_edit h hc.1.1 hc.1.2
  | save now m => exact current_save h hc.1 hc.2

/-- The message has the content of the newest edit that was applied or came with a saved row, and
no edit is applied whose number is not above those of the applied ones. -/
theorem content_eq_newest_edit (sid : String) (body : ℕ → Content) (t : RowTable)
    (habsent : ∀ r ∈ t.rows.items, answersTo sid r = false) (es : List EditStep)
    (hof : ∀ e ∈ es, IsOf sid body e)
    (hcarries : AllSteps (step sid body) (CarriesEdit sid) (start t) es) :
    let s := run (step sid body) (start t) es
    ((s.applied ++ s.carried ≠ []) → ∃ r, s.table.get sid = some r ∧ r.encodedContent = body s.newest) ∧
    s.applied.Pairwise (· > ·) := by
  intro s
  have hcurrent : s.Current sid body :=
    run_invariant current_step es _ (current_start habsent) ((AllSteps.of_mem hof).and hcarries)
  refine ⟨fun hsome => ?_, hcurrent.increasing⟩
  have hpos : 0 < s.newest := by
    obtain ⟨seq, hseq⟩ := exists_mem_of_ne_nil _ hsome
    exact (hcurrent.positive seq hseq).trans_le (le_newest hseq)
  cases hget : s.table.get sid with
  | none =>
    obtain ⟨happlied, hcarried⟩ := hcurrent.absent hget
    exact absurd (by rw [happlied, hcarried]; rfl) hsome
  | some r => exact ⟨r, rfl, hcurrent.content r hget hpos⟩

def emptyTable : RowTable := { rows := .empty, reactions := .empty, clearedFloor := fun _ => 0 }

def sampleMessage (content : Content) (attributes : Attributes) : InboundMessage where
  serverId := "m1"
  clientMsgId := "c1"
  conversationId := "conv"
  senderId := "alice"
  conversationSeq := 1
  status := 1
  encodedContent := content
  attributes := attributes

def sampleBody (seq : ℕ) : Content := [UInt8.ofNat seq]

/-- Edit 3, a save that brings edit 5, edit 4 too late, and edit 9. -/
def carriedEdits : List EditStep :=
  [.save 10 (sampleMessage [] ∅), .edit 11 3,
    .save 12 (sampleMessage [5] (Std.ExtTreeMap.ofList [("lastEditEventSeq", "5")])),
    .edit 13 4, .edit 14 9]

theorem content_eq_newest_edit_carriedEdits :
    let s := run (step "m1" sampleBody) (start emptyTable) carriedEdits
    s.applied = [9, 3] ∧ s.carried = [5] ∧
    ((s.applied ++ s.carried ≠ []) → ∃ r, s.table.get "m1" = some r ∧ r.encodedContent = sampleBody s.newest) ∧
    s.applied.Pairwise (· > ·) :=
  ⟨by decide, by decide, content_eq_newest_edit "m1" sampleBody emptyTable (by decide) carriedEdits
      (by decide) (by decide)⟩

/-- Edit 5, a save that does not know of it, and edit 3. -/
def forgottenEdit : List EditStep :=
  [.save 10 (sampleMessage [] ∅), .edit 11 5, .save 12 (sampleMessage [] ∅), .edit 13 3]

/-- The save takes the number of edit 5 out of the row, so that edit 3 is applied after it. -/
theorem not_content_eq_newest_edit_forgottenEdit :
    let s := run (step "m1" sampleBody) (start emptyTable) forgottenEdit
    (∀ e ∈ forgottenEdit, IsOf "m1" sampleBody e) ∧ s.applied ++ s.carried = [3, 5] ∧
    ¬ (∃ r, s.table.get "m1" = some r ∧ r.encodedContent = sampleBody s.newest) ∧
    ¬ s.applied.Pairwise (· > ·) := by
  refine ⟨by decide, by decide, ?_, by decide⟩
  rintro ⟨r, hr, hcontent⟩
  have hstored : ((run (step "m1" sampleBody) (start emptyTable) forgottenEdit).table.get "m1").map
      (·.encodedContent) = some (sampleBody 3) := by decide
  rw [hr, Option.map_some, hcontent] at hstored
  exact absurd hstored (by decide)

end EditRun

end RowTable

end FlareIm.Store
