import FlareIm.Store.EventRows
import FlareIm.Store.NewRows

/-! The rows of one message. Events address a message by its server id, and a save looks for the
stored row by server id and by client id; both can meet rows of other messages, or another copy. Here
is what happens to the row under the server id when they do not. -/

namespace FlareIm.Store

open Lib Message List KeyedMap

namespace RowTable

variable {id sid : String} {r : MessageRow} {t : RowTable} {m : InboundMessage}

section Row

variable {now : ℕ}

/-- The id is not blank and has no blanks around it. -/
def isTrimmed (id : String) : Bool := !isBlank id && trim id = id

theorem isTrimmed_iff : isTrimmed id = true ↔ isBlank id = false ∧ trim id = id := by
  simp [isTrimmed]

theorem serverId_of_get (h : t.get sid = some r) : r.serverId = sid :=
  ((t.rows.find?_eq_some_iff sid r).mp h).2

/-- Only the message's own row answers to its id. -/
def OnlyOwn (t : RowTable) (sid : String) : Prop :=
  ∀ r ∈ t.rows.items, r.clientMsgId = sid → r.serverId = sid
  deriving Decidable

theorem answersTo_iff_of_onlyOwn (h : t.OnlyOwn sid) (hr : r ∈ t.rows.items) :
    answersTo sid r = true ↔ r.serverId = sid := by
  simp only [answersTo, Bool.or_eq_true, decide_eq_true_eq]
  exact ⟨fun hor => hor.elim id (h r hr), .inl⟩

theorem firstAnswering_eq_get (h : t.OnlyOwn sid) : t.firstAnswering sid = t.get sid :=
  t.rows.find?_items_eq fun _ hr => answersTo_iff_of_onlyOwn h hr

def OneAnswers (t : RowTable) (id : String) : Prop :=
  ∀ r ∈ t.rows.items, ∀ r' ∈ t.rows.items, answersTo id r = true → answersTo id r' = true → r.serverId = r'.serverId
  deriving Decidable

theorem OnlyOwn.oneAnswers (h : t.OnlyOwn sid) : t.OneAnswers sid := by
  intro r hr r' hr' hanswers hanswers'
  rw [(answersTo_iff_of_onlyOwn h hr).mp hanswers, (answersTo_iff_of_onlyOwn h hr').mp hanswers']

section One

theorem map_answering (hone : t.OneAnswers id) (hr : t.firstAnswering id = some r) (f : MessageRow → MessageRow)
    (sid : String) : ((t.get sid).map fun x => if answersTo id x then f x else x) =
      if sid = r.serverId then some (f r) else t.get sid := by
  have hmem : r ∈ t.rows.items := mem_of_find?_eq_some hr
  have hanswers : answersTo id r = true := find?_some hr
  split
  · next heq =>
    rw [heq, show t.get r.serverId = some r from t.rows.find?_of_mem hmem, Option.map_some, if_pos hanswers]
  · next hne =>
    cases hget : t.get sid with
    | none => rfl
    | some x =>
      have hother : ¬ answersTo id x = true := fun hx =>
        hne ((serverId_of_get hget).symm.trans (hone x (mem_of_find? hget) r hmem hx hanswers))
      rw [Option.map_some, if_neg hother]

/-- An event that only one row can take is applied if that row takes it. -/
theorem fst_applyMessageExtraWithSeq_of_one (hone : t.OneAnswers id) (hr : t.firstAnswering id = some r)
    (seqKey : String)
    (eventSeq : Option ℕ) (apply : Attributes → Attributes) :
    (t.applyMessageExtraWithSeq id seqKey eventSeq apply).1 =
      if isStaleOperation r.attributes seqKey eventSeq then .ignoredStale else .applied := by
  have hstored : r ∈ t.rows.items := mem_of_find?_eq_some hr
  have hmem : r ∈ t.rows.items.filter (answersTo id) := mem_filter.mpr ⟨hstored, find?_some hr⟩
  have honly : ∀ r' ∈ t.rows.items.filter (answersTo id), r' = r := by
    intro r' hr'
    obtain ⟨hr', hanswers⟩ := mem_filter.mp hr'
    exact t.rows.eq_of_key_eq hr' hstored (hone r' hr' r hstored hanswers (find?_some hr))
  have hany : ((t.rows.items.filter (answersTo id)).any fun r' => !isStaleOperation r'.attributes seqKey eventSeq) =
      !isStaleOperation r.attributes seqKey eventSeq := by
    rw [Bool.eq_iff_iff, any_eq_true]
    constructor
    · rintro ⟨r', hr', hfresh⟩
      rwa [honly r' hr'] at hfresh
    · exact fun hfresh => ⟨r, hmem, hfresh⟩
  unfold applyMessageExtraWithSeq
  rw [if_neg (by simpa using ne_nil_of_mem hmem), hany]
  cases isStaleOperation r.attributes seqKey eventSeq <;> rfl

theorem applyMessageExtraWithSeq_of_none (hr : t.firstAnswering id = none) (seqKey : String) (eventSeq : Option ℕ)
    (apply : Attributes → Attributes) : t.applyMessageExtraWithSeq id seqKey eventSeq apply = (.notFound, t) := by
  have hnone : t.rows.items.filter (answersTo id) = [] :=
    filter_eq_nil_iff.mpr fun r hr' => find?_eq_none.mp hr r hr'
  rw [applyMessageExtraWithSeq, hnone]
  rfl

end One

/-! ### Saving the message -/

theorem rows_saveBatch_singleton (t : RowTable) (now : ℕ) (m : InboundMessage) :
    (t.saveBatch now [m]).rows = if t.isPersistable m then
      let cleaned := t.removeConflictingLocalClientMsgRows m.clientMsgId m.serverId
      cleaned.rows.insert (cleaned.storedRow now m) else t.rows := by
  rw [saveBatch_singleton, apply_ite rows, saveChunk_eq]
  rfl

theorem mem_of_mem_removeConflictingRows {cid : String}
    (h : r ∈ (t.removeConflictingLocalClientMsgRows cid sid).rows.items) : r ∈ t.rows.items := by
  unfold removeConflictingLocalClientMsgRows at h
  split at h
  · exact h
  · exact (mem_filter.mp h).1

@[simp] theorem storedRow_serverId (t : RowTable) (now : ℕ) (m : InboundMessage) :
    (t.storedRow now m).serverId = m.serverId := rfl

@[simp] theorem reactions_removeConflictingLocal (t : RowTable) (cid sid : String) :
    (t.removeConflictingLocalClientMsgRows cid sid).reactions = t.reactions := by
  unfold removeConflictingLocalClientMsgRows
  split <;> rfl

/-- Only other rows are in the way of a message. -/
theorem get_removeConflictingLocal (cid : String) (hsid : trim sid = sid) :
    (t.removeConflictingLocalClientMsgRows cid sid).get sid = t.get sid := by
  unfold removeConflictingLocalClientMsgRows
  split
  · rfl
  · rw [deleteRows, get, KeyedMap.find?_filter]
    cases hrow : t.rows.find? sid with
    | none => exact hrow.symm
    | some r =>
      have hkey : r.serverId = sid := serverId_of_get hrow
      rw [get, hrow, Option.filter_some, if_pos]
      simp [hkey, hsid]

/-- Rows with the client id of the message are its own, or are removed when it is saved. -/
def SoleCopy (t : RowTable) (sid : String) (m : InboundMessage) : Prop :=
  isBlank m.clientMsgId = false → ∀ r ∈ t.rows.items, r.clientMsgId = trim m.clientMsgId →
    r.serverId = sid ∨ MessageTable.isLocalSending r.toIMMessage = true
  deriving Decidable

/-- The attributes of a saved message are merged with those of its own row. -/
theorem existingRow_removeConflictingLocal (hsid : trim sid = sid) (hblank : isBlank sid = false)
    (hm : m.serverId = sid) (h : t.SoleCopy sid m) :
    (t.removeConflictingLocalClientMsgRows m.clientMsgId m.serverId).existingRow m = t.get sid := by
  rw [← get_removeConflictingLocal m.clientMsgId hsid, hm]
  unfold existingRow
  rw [hm, hsid, hblank]
  cases hclient : isBlank m.clientMsgId with
  | true => exact find?_items_eq _ fun r _ => decide_eq_true_iff
  | false =>
    refine find?_items_eq _ fun r hr => ?_
    simp only [Bool.or_eq_true, decide_eq_true_eq]
    refine or_iff_left_of_imp fun hcid => ?_
    rcases h hclient r (mem_of_mem_removeConflictingRows hr) hcid with hown | hsending
    · exact hown
    · -- a row that is still being sent was removed
      by_contra hne
      unfold removeConflictingLocalClientMsgRows at hr
      rw [hclient, hblank] at hr
      have hkept := (mem_filter.mp hr).2
      simp [hcid, hsid, hne, hsending] at hkept

end Row

/-! ### Attributes of the message's row -/

/-- The entry in the message's row. -/
def entry (t : RowTable) (sid key : String) : Option String := (t.get sid).bind fun r => r.attributes[key]?

def entrySeq (t : RowTable) (sid key : String) : ℕ := ((t.entry sid key).bind parseU64).getD 0

section Entry

variable {key : String}

section

variable (h : t.get sid = some r)

include h

theorem entry_of_get : t.entry sid key = r.attributes[key]? := by
  rw [entry, h, Option.bind_some]

theorem entrySeq_of_get : t.entrySeq sid key = messageAttributeSeq r.attributes key := by
  rw [entrySeq, entry_of_get h, messageAttributeSeq]

theorem get_applyMessageExtraWithSeq_self (seqKey : String)
    (eventSeq : Option ℕ) (apply : Attributes → Attributes) :
    (t.applyMessageExtraWithSeq sid seqKey eventSeq apply).2.get sid =
      some { r with attributes := eventAttributes seqKey eventSeq apply r.attributes } := by
  have hanswers : answersTo sid r = true := by simp [answersTo, serverId_of_get h]
  rw [get_applyMessageExtraWithSeq, h, Option.map_some, if_pos hanswers]

end

/-- A save keeps the entry of a key that no version guards, unless it brings one of its own. -/
theorem entry_saveBatch_singleton (now : ℕ) (hsid : trim sid = sid) (hblank : isBlank sid = false)
    (hm : m.serverId = sid) (hsole : t.SoleCopy sid m) (hkey : isVersioned key = false) :
    (t.saveBatch now [m]).entry sid key = if t.isPersistable m then
      (if isPreserved key then m.attributes[key]?.or (t.entry sid key) else m.attributes[key]?)
    else t.entry sid key := by
  by_cases hkept : t.isPersistable m = true
  · have hget : (t.saveBatch now [m]).get sid = some
        ((t.removeConflictingLocalClientMsgRows m.clientMsgId m.serverId).storedRow now m) := by
      rw [get, rows_saveBatch_singleton, if_pos hkept, ← hm]
      exact find?_insert_self _ _
    rw [if_pos hkept, entry_of_get hget, storedRow, existingRow_removeConflictingLocal hsid hblank hm hsole]
    cases hrow : t.get sid with
    | none => simp only [entry, hrow, Option.bind_none, Option.or_none, ite_self]
    | some r => rw [entry_of_get hrow]; exact getElem?_merge_of_not_versioned hkey
  · rw [saveBatch_singleton, if_neg hkept, if_neg hkept]

end Entry

end RowTable

end FlareIm.Store
