import FlareIm.Store.Rows

/-! What a numbered event does to the rows it addresses. Every row takes it or leaves it by its own
attributes, so the table after the event is the table before with each answering row changed for
itself. -/

namespace FlareIm.Store

open Lib Message

namespace RowTable

/-- The attributes with the number of the event that changes them; an event numbered 0 leaves none. -/
def numberedAttributes (seqKey : String) (eventSeq : Option ℕ) (attributes : Attributes) : Attributes :=
  match eventSeq.filter (0 < ·) with
  | some seq => attributes.insert seqKey (toString seq)
  | none => attributes

def eventAttributes (seqKey : String) (eventSeq : Option ℕ) (apply : Attributes → Attributes)
    (attributes : Attributes) : Attributes :=
  if isStaleOperation attributes seqKey eventSeq then attributes
  else apply (numberedAttributes seqKey eventSeq attributes)

section Stale

theorem filter_some_succ (n : ℕ) : (some (n + 1)).filter (0 < ·) = some (n + 1) := rfl

variable {attributes : Attributes} {seqKey : String} {seq : ℕ}

theorem isStaleOperation_some_iff :
    isStaleOperation attributes seqKey (some seq) = true ↔
    0 < seq ∧ seq ≤ messageAttributeSeq attributes seqKey := by
  cases seq with
  | zero => exact iff_of_false Bool.false_ne_true fun h => absurd h.1 (by decide)
  | succ n =>
    simp only [isStaleOperation, filter_some_succ, Bool.and_eq_true, decide_eq_true_eq]
    omega

theorem messageAttributeSeq_insert_self (h : seq ≤ maxU64) :
    messageAttributeSeq (attributes.insert seqKey (toString seq)) seqKey = seq := by
  rw [messageAttributeSeq, Std.ExtTreeMap.getElem?_insert_self, Option.bind_some,
    parseU64_toString h, Option.getD_some]

theorem getElem?_numberedAttributes_of_ne {eventSeq : Option ℕ} {key : String} (h : seqKey ≠ key) :
    (numberedAttributes seqKey eventSeq attributes)[key]? = attributes[key]? := by
  unfold numberedAttributes
  split
  · exact getElem?_insert_of_ne h _
  · rfl

theorem messageAttributeSeq_numberedAttributes (h : seq ≤ maxU64) :
    messageAttributeSeq (numberedAttributes seqKey (some seq) attributes) seqKey =
      if seq = 0 then messageAttributeSeq attributes seqKey else seq := by
  cases seq with
  | zero => rfl
  | succ n =>
    rw [if_neg n.succ_ne_zero, numberedAttributes, filter_some_succ]
    exact messageAttributeSeq_insert_self h

end Stale

theorem get_applyMessageExtraWithSeq (t : RowTable) (id seqKey : String) (eventSeq : Option ℕ)
    (apply : Attributes → Attributes) (sid : String) :
    (t.applyMessageExtraWithSeq id seqKey eventSeq apply).2.get sid = (t.get sid).map fun r =>
      if answersTo id r then { r with attributes := eventAttributes seqKey eventSeq apply r.attributes }
      else r := by
  unfold applyMessageExtraWithSeq
  dsimp only
  split
  · next hnone =>
    cases hrow : t.get sid with
    | none => rfl
    | some r =>
      have hanswers : answersTo id r = false := by
        have hall := List.filter_eq_nil_iff.mp (List.isEmpty_iff.mp hnone) r (KeyedMap.mem_of_find? hrow)
        simpa using hall
      rw [Option.map_some, hanswers]
      rfl
  · rw [get_updateWhere]
    refine congrArg (Option.map · (t.get sid)) (funext fun r => ?_)
    cases hanswers : answersTo id r with
    | false => simp
    | true =>
      cases hstale : isStaleOperation r.attributes seqKey eventSeq with
      | true => simp [eventAttributes, hstale]
      | false =>
        simp only [eventAttributes, hstale, Bool.not_false, Bool.and_self, if_true]
        rfl

end RowTable

end FlareIm.Store
