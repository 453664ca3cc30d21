import FlareIm.Lib.Run
import FlareIm.Store.OneMessage

/-! Retention and edits of the same rows. A purge, and an expiry that hides the content, empty it and
leave their number under a key of their own; an edit asks only for the number of the last edit. So an
edit from before a purge that arrives after it brings content back, unless a later edit was applied
first. -/

namespace FlareIm.Store

open Lib Message

namespace RowTable

inductive RetentionStep
  | schedule (id : String) (policy : MessageRetentionPolicy) (state : MessageRetentionState) (scheduledAt : ℤ)
      (eventSeq : Option ℕ)
  | expire (now : ℕ) (id : String) (state : MessageRetentionState) (expiredAt : ℤ) (eventSeq : Option ℕ)
  | purge (now : ℕ) (id : String) (state : MessageRetentionState) (purgedAt : ℤ) (eventSeq : Option ℕ)
  | edit (now : ℕ) (id : String) (newContent : Content) (eventSeq : Option ℕ)
  | save (now : ℕ) (messages : List InboundMessage)

/-- The table, and which rows lost their content to which event. -/
structure RetentionRun where
  table : RowTable
  hidden : List (String × ℕ) := []

namespace RetentionRun

/-- The rows that a numbered event hid, when it was applied. -/
def hides (t : RowTable) (id : String) (result : ApplyResult) (eventSeq : Option ℕ) : List (String × ℕ) :=
  match result, eventSeq with
  | .applied, some seq => (t.rows.items.filter (answersTo id)).map fun r => (r.serverId, seq)
  | _, _ => []

variable (s : RetentionRun)

def step : RetentionStep → RetentionRun
  | .schedule id policy state scheduledAt eventSeq =>
    { s with table := (s.table.applyRetentionScheduledEvent id policy state scheduledAt eventSeq).2 }
  | .expire now id state expiredAt eventSeq =>
    let outcome := s.table.applyRetentionExpiredEvent now id state expiredAt eventSeq
    ⟨outcome.2, if retentionHidesContent state then hides s.table id outcome.1 eventSeq ++ s.hidden else s.hidden⟩
  | .purge now id state purgedAt eventSeq =>
    let outcome := s.table.applyRetentionPurgedEvent now id state purgedAt eventSeq
    ⟨outcome.2, hides s.table id outcome.1 eventSeq ++ s.hidden⟩
  | .edit now id newContent eventSeq => { s with table := (s.table.applyEditEvent now id newContent eventSeq).2 }
  | .save now messages => { s with table := s.table.saveBatch now messages }

def start (t : RowTable) : RetentionRun := ⟨t, []⟩

/-- An event above `seq` has hidden the row's content. -/
def HiddenAbove (sid : String) (seq : ℕ) : Prop := ∃ h ∈ s.hidden, h.1 = sid ∧ seq < h.2
  deriving Decidable

/-- An edit from before the event that hid a row leaves its content, or none. -/
def NothingRevived : RetentionStep → Prop
  | .edit now id newContent (some seq) => ∀ r ∈ s.table.rows.items, s.HiddenAbove r.serverId seq →
    ∃ r', (step s (.edit now id newContent (some seq))).table.get r.serverId = some r' ∧
      (r'.encodedContent = r.encodedContent ∨ r'.encodedContent = [])
  | _ => True

/-- Such an edit is not above the last edit that the addressed row knows of, or brings nothing new. -/
def EditsOutOfDate : RetentionStep → Prop
  | .edit _ id newContent (some seq) => ∀ r ∈ s.table.rows.items, s.HiddenAbove r.serverId seq →
      answersTo id r = true →
    ((s.table.firstAnswering id).all fun row =>
      seq ≤ messageAttributeSeq row.attributes "lastEditEventSeq") = true ∨
      newContent = r.encodedContent ∨ newContent = []
  | _ => True

/-- An edit changes the content of every row it addresses, by the number of the first one. -/
theorem get_applyEditEvent (t : RowTable) (now : ℕ) (id : String) (newContent : Content) (seq : ℕ) {r : MessageRow}
    (hr : r ∈ t.rows.items) :
    ∃ r', (t.applyEditEvent now id newContent (some seq)).2.get r.serverId = some r' ∧
      r'.encodedContent = if ((t.firstAnswering id).all fun row =>
        seq ≤ messageAttributeSeq row.attributes "lastEditEventSeq") = false ∧ answersTo id r = true then newContent
        else r.encodedContent := by
  have hget : t.get r.serverId = some r := t.rows.find?_of_mem hr
  unfold applyEditEvent
  cases t.firstAnswering id with
  | none => exact ⟨r, hget, by simp⟩
  | some row =>
    simp only [Option.any_some, Option.all_some]
    by_cases hstale : seq ≤ messageAttributeSeq row.attributes "lastEditEventSeq"
    · exact ⟨r, by simpa [hstale] using hget, by simp [hstale]⟩
    · rw [if_neg (by simpa using hstale)]
      have hafter := get_updateWhere t (answersTo id)
        (editedRow newContent now (editedAttributes row.attributes now (some seq))) (fun _ => rfl) r.serverId
      rw [hget, Option.map_some] at hafter
      refine ⟨_, hafter, ?_⟩
      by_cases hanswers : answersTo id r = true <;> simp [hanswers, hstale, editedRow]

theorem nothingRevived_iff (e : RetentionStep) : s.NothingRevived e ↔ s.EditsOutOfDate e := by
  cases e with
  | edit now id newContent eventSeq =>
    cases eventSeq with
    | none => exact Iff.rfl
    | some seq =>
      refine forall₂_congr fun r hr => forall_congr' fun _ => ?_
      obtain ⟨r', hget, hcontent⟩ := get_applyEditEvent s.table now id newContent seq hr
      have hafter : (step s (.edit now id newContent (some seq))).table.get r.serverId = some r' := hget
      rw [hafter]
      simp only [Option.some.injEq, exists_eq_left', hcontent]
      generalize (s.table.firstAnswering id).all
        (fun row => decide (seq ≤ messageAttributeSeq row.attributes "lastEditEventSeq")) = outOfDate
      cases outOfDate <;> cases answersTo id r <;> simp
  | _ => exact Iff.rfl

/-- No edit brings content back in a run if and only if every edit that comes too late is out of date. -/
theorem allSteps_nothingRevived_iff (t : RowTable) (steps : List RetentionStep) :
    AllSteps step NothingRevived (start t) steps ↔ AllSteps step EditsOutOfDate (start t) steps :=
  AllSteps.congr nothingRevived_iff

def storedMessage : InboundMessage where
  serverId := "s1"
  clientMsgId := "c1"
  conversationId := "conv"
  senderId := "alice"
  conversationSeq := 1
  status := 2
  encodedContent := [1]

def purgedState : MessageRetentionState := ⟨.purged, []⟩

/-- The message is purged by event 10, and edit 5 arrives after that. -/
def editAfterPurge : List RetentionStep :=
  [.save 1 [storedMessage], .purge 2 "s1" purgedState 2 (some 10), .edit 3 "s1" [7] (some 5)]

/-- Event 10 hides the content with an expiry, and edit 5 arrives after that. -/
def editAfterExpiry : List RetentionStep :=
  [.save 1 [storedMessage], .expire 2 "s1" ⟨.hidden, []⟩ 2 (some 10), .edit 3 "s1" [7] (some 5)]

def contentAfter (steps : List RetentionStep) : Option Content :=
  ((run step (start empty) steps).table.get "s1").map fun r => r.encodedContent

theorem contentAfter_late_edit :
    (contentAfter (editAfterPurge.take 2) = some [] ∧ contentAfter editAfterPurge = some [7]) ∧
    contentAfter (editAfterExpiry.take 2) = some [] ∧ contentAfter editAfterExpiry = some [7] := by
  decide

end RetentionRun

end RowTable

end FlareIm.Store
