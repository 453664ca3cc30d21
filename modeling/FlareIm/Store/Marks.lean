import FlareIm.Lib.NumberedWrites
import FlareIm.Store.EventRows

/-! Marks of a message. A mark event is guarded by the last number of its mark type, but the mark
that a row shows is one for all types, so the last event taken sets it whatever its number. What is
shown in the end depends on the order in which the events arrive, unless the events that no other
event of their type outnumbers agree. -/

namespace FlareIm.Store

open Lib Message Std.ExtTreeMap RowTable

structure MarkEvent where
  markType : ℤ
  color : Option String
  setMark : Bool
  eventSeq : ℕ
  eventSeq_le : eventSeq ≤ maxU64

abbrev Mark := Option String × Option String

def markOf (attributes : Attributes) : Mark := (attributes["markType"]?, attributes["markColor"]?)

namespace MarkEvent

def seqKey (markType : ℤ) : String := "lastMarkEventSeq:" ++ toString markType

/-- What the event leaves. -/
def mark (e : MarkEvent) : Mark :=
  if e.setMark then (some (toString e.markType), (e.color.filter fun c => !isBlank c).map trim) else (none, none)

def markedAttributes (e : MarkEvent) (attributes : Attributes) : Attributes :=
  if e.setMark then
    let attributes := attributes.insert "markType" (toString e.markType)
    match e.color with
    | some c => if isBlank c then attributes.erase "markColor" else attributes.insert "markColor" (trim c)
    | none => attributes.erase "markColor"
  else (attributes.erase "markType").erase "markColor"

variable (attributes : Attributes) (e : MarkEvent)

/-- The attributes of a row that the event addresses, after it. -/
def attributesAfter : Attributes :=
  eventAttributes (seqKey e.markType) (some e.eventSeq) e.markedAttributes attributes

/-- The event is taken by the row whatever of the others comes before it. -/
def Decides (attributes : Attributes) (events : List MarkEvent) : Prop :=
  isStaleOperation attributes (seqKey e.markType) (some e.eventSeq) = false ∧
    (e.eventSeq = 0 ∨ ∀ e' ∈ events, e'.markType = e.markType → e'.eventSeq ≤ e.eventSeq)
  deriving Decidable

/-! ### Mark events are numbered writes to one place -/

theorem seqKey_injective : Function.Injective seqKey := fun _ _ h =>
  toString_int_injective ((String.append_right_inj _).mp h)

theorem seqKey_ne {key : String} (h : startsWith "lastMarkEventSeq:" key = false) (markType : ℤ) :
    seqKey markType ≠ key := by
  rintro rfl
  rw [seqKey, startsWith_append] at h
  exact absurd h (by decide)

theorem markOf_insert_color (color : String) :
    markOf (attributes.insert "markColor" color) = (attributes["markType"]?, some color) := by
  rw [markOf, getElem?_insert_of_ne (by decide), getElem?_insert_self]

theorem markOf_erase_color :
    markOf (attributes.erase "markColor") = (attributes["markType"]?, none) := by
  rw [markOf, getElem?_erase_of_ne (by decide), getElem?_erase_self]

theorem markOf_markedAttributes (attributes : Attributes) : markOf (e.markedAttributes attributes) = e.mark := by
  unfold markedAttributes mark
  split
  · cases e.color with
    | none => rw [markOf_erase_color, getElem?_insert_self]; rfl
    | some c =>
      cases hblank : isBlank c with
      | true => simp only [if_true, markOf_erase_color, getElem?_insert_self, Option.filter, hblank]; rfl
      | false => simp only [Bool.false_eq_true, if_false, markOf_insert_color, getElem?_insert_self,
          Option.filter, hblank]; rfl
  · rw [markOf_erase_color, getElem?_erase_self]

theorem getElem?_markedAttributes (attributes : Attributes) {key : String} (htype : "markType" ≠ key)
    (hcolor : "markColor" ≠ key) : (e.markedAttributes attributes)[key]? = attributes[key]? := by
  unfold markedAttributes
  split
  · cases e.color with
    | none => rw [getElem?_erase_of_ne hcolor, getElem?_insert_of_ne htype]
    | some c =>
      dsimp only
      split
      · rw [getElem?_erase_of_ne hcolor, getElem?_insert_of_ne htype]
      · rw [getElem?_insert_of_ne hcolor, getElem?_insert_of_ne htype]
  · rw [getElem?_erase_of_ne hcolor, getElem?_erase_of_ne htype]

def toWrite : NumberedWrite ℤ Mark := ⟨e.markType, e.eventSeq, e.mark⟩

def board : Board ℤ Unit Mark :=
  ⟨fun markType => messageAttributeSeq attributes (seqKey markType), fun _ => markOf attributes⟩

variable {attributes : Attributes} {e : MarkEvent}

theorem stale_board_iff : (board attributes).Stale e.toWrite ↔
      isStaleOperation attributes (seqKey e.markType) (some e.eventSeq) = true :=
  isStaleOperation_some_iff.symm

theorem decides_board_iff {events : List MarkEvent} :
    (board attributes).Decides (events.map toWrite) e.toWrite ↔ e.Decides attributes events := by
  rw [Board.Decides, stale_board_iff, Bool.not_eq_true, List.forall_mem_map]
  exact Iff.rfl

theorem board_attributesAfter :
    board (attributesAfter attributes e) = (board attributes).write (fun _ => ()) e.toWrite := by
  unfold attributesAfter eventAttributes
  by_cases hstale : isStaleOperation attributes (seqKey e.markType) (some e.eventSeq) = true
  · rw [if_pos hstale, Board.write_of_stale (stale_board_iff.mpr hstale)]
  · rw [if_neg hstale, Board.write, if_neg (mt stale_board_iff.mp hstale)]
    refine Board.ext (funext fun markType => ?_) (funext fun _ => markOf_markedAttributes _ _)
    show messageAttributeSeq _ (seqKey markType) = _
    rw [messageAttributeSeq, getElem?_markedAttributes e _ (seqKey_ne (by decide) _).symm
      (seqKey_ne (by decide) _).symm, ← messageAttributeSeq]
    by_cases htype : markType = e.markType
    · subst htype
      rw [messageAttributeSeq_numberedAttributes e.eventSeq_le]
      split <;> simp_all [toWrite, board]
    · have hkey : seqKey e.markType ≠ seqKey markType := fun h => htype (seqKey_injective h).symm
      rw [messageAttributeSeq, getElem?_numberedAttributes_of_ne hkey]
      dsimp only
      split
      · rfl
      · have hother : markType ≠ e.toWrite.cls := htype
        rw [Function.update_of_ne hother]
        rfl

theorem board_foldl (events : List MarkEvent) (attributes : Attributes) :
    board (events.foldl attributesAfter attributes) = run (Board.write fun _ => ())
      (board attributes) (events.map toWrite) := by
  induction events generalizing attributes with
  | nil => rfl
  | cons e events ih => rw [List.foldl_cons, ih, board_attributesAfter, List.map_cons, run_cons]

end MarkEvent

namespace RowTable

open MarkEvent (attributesAfter)

def applyMark (id : String) (t : RowTable) (e : MarkEvent) : RowTable :=
  (t.applyMarkEvent id e.markType e.color e.setMark (some e.eventSeq)).2

def shownMark (t : RowTable) (sid : String) : Option Mark := (t.get sid).map fun r => markOf r.attributes

theorem get_run_applyMark {t : RowTable} {id sid : String} {r : MessageRow} (hrow : t.get sid = some r)
    (hid : answersTo id r = true) (events : List MarkEvent) :
    (run (applyMark id) t events).get sid =
      some { r with attributes := events.foldl attributesAfter r.attributes } := by
  induction events generalizing t r with
  | nil => exact hrow
  | cons e events ih =>
    have hnext : (t.applyMark id e).get sid = some { r with attributes := attributesAfter r.attributes e } := by
      rw [applyMark, applyMarkEvent, get_applyMessageExtraWithSeq, hrow, Option.map_some, if_pos hid]
      rfl
    exact ih hnext hid

/-- The mark that a row shows in the end does not depend on the order of the events if and only if the events
that decide leave the same mark. -/
theorem shownMark_order_independent_iff (t : RowTable) (id : String) (events : List MarkEvent)
    (hseqs : (events.map MarkEvent.eventSeq).Nodup) (r : MessageRow) (hrow : t.get r.serverId = some r)
    (hid : answersTo id r = true) :
    (∀ es fs : List MarkEvent, es.Perm events → fs.Perm events →
      (run (applyMark id) t es).shownMark r.serverId = (run (applyMark id) t fs).shownMark r.serverId) ↔
    ∀ e ∈ events, ∀ e' ∈ events, e.Decides r.attributes events → e'.Decides r.attributes events →
    e.mark = e'.mark := by
  have hshown : ∀ es : List MarkEvent, (run (applyMark id) t es).shownMark r.serverId =
      some ((run (Board.write fun _ => ()) (MarkEvent.board r.attributes) (es.map MarkEvent.toWrite)).val ()) := by
    intro es
    rw [shownMark, get_run_applyMark hrow hid, ← MarkEvent.board_foldl]
    rfl
  have hiff := Board.val_run_perm_iff (fun _ => ()) MarkEvent.toWrite (MarkEvent.board r.attributes) hseqs ()
  simp only [MarkEvent.decides_board_iff, forall_const] at hiff
  simp only [hshown, Option.some.injEq]
  exact hiff

def unmarkedRow : MessageRow :=
  { serverId := "s1", clientMsgId := "c1", conversationId := "conv", senderId := "u1", status := 2 }

def unmarkedTable : RowTable := { empty with rows := KeyedMap.empty.insert unmarkedRow }

def sampleMark (markType : ℤ) (color : Option String) (setMark : Bool) (seq : UInt64) : MarkEvent :=
  ⟨markType, color, setMark, seq.toNat, uint64_le_maxU64 seq⟩

/-- The message is marked, and unmarked later. -/
def markThenUnmark : List MarkEvent := [sampleMark 1 (some "red") true 1, sampleMark 1 none false 2]

theorem shownMark_order_independent_markThenUnmark : unmarkedTable.get "s1" = some unmarkedRow ∧
    ∀ es fs : List MarkEvent, es.Perm markThenUnmark → fs.Perm markThenUnmark →
      (run (applyMark "s1") unmarkedTable es).shownMark "s1" =
        (run (applyMark "s1") unmarkedTable fs).shownMark "s1" :=
  ⟨by decide, (shownMark_order_independent_iff unmarkedTable "s1" markThenUnmark (by decide) unmarkedRow
    (by decide) (by decide)).mpr (by decide)⟩

/-- The message is marked red as type 1, and later blue as type 2. -/
def markTwice : List MarkEvent := [sampleMark 1 (some "red") true 1, sampleMark 2 (some "blue") true 2]

theorem shownMark_markTwice :
    (run (applyMark "s1") unmarkedTable markTwice).shownMark "s1" = some (some "2", some "blue") ∧
    (run (applyMark "s1") unmarkedTable markTwice.reverse).shownMark "s1" = some (some "1", some "red") := by
  decide

end RowTable

end FlareIm.Store
