import FlareIm.Lib.Contiguous
import FlareIm.Lib.KeyedMap
import FlareIm.Lib.OrderedSet
import FlareIm.Store.Attributes

/-! Waterline pings: the server tells up to which seq a conversation should be known, and the
client pulls the conversation unless it is there already. At most one pull of a conversation
runs at a time; pings that come meanwhile are merged into one pending target, which the task
looks at when its pull is over. Seqs of operation events have no message row, so the ones
applied are kept in a bounded registry that the check counts as filled. -/

namespace FlareIm.Dispatcher

open Lib Message Store

/-! ### Seqs of applied operation events -/

structure ConversationSeqs where
  conversationId : String
  seqs : OrderedSet ℕ := .empty
  touchedAtMs : ℕ := 0

abbrev AppliedEventSeqs := KeyedMap String ConversationSeqs ConversationSeqs.conversationId

namespace AppliedEventSeqs

def maxConversations : ℕ := 2048

def maxSeqsPerConversation : ℕ := 1024

/-- The conversation that was not touched for the longest time. -/
def oldest : List ConversationSeqs → Option ConversationSeqs
  | [] => none
  | entry :: entries => match oldest entries with
    | none => some entry
    | some other => if entry.touchedAtMs ≤ other.touchedAtMs then some entry else some other

variable (applied : AppliedEventSeqs)

/-- Room for one more conversation. -/
def evict : AppliedEventSeqs :=
  if maxConversations ≤ applied.size then
    match oldest applied.items with
    | some entry => applied.erase entry.conversationId
    | none => applied
  else applied

def record (now : ℕ) (conversationId : String) (seq : ℕ) : AppliedEventSeqs :=
  if seq = 0 || isBlank conversationId then applied
  else
    let conversationId := trim conversationId
    match applied.find? conversationId with
    | some entry => applied.insert
        { entry with seqs := (entry.seqs.insert seq).keepLargest maxSeqsPerConversation, touchedAtMs := now }
    | none => applied.evict.insert
        { conversationId := conversationId
          seqs := (OrderedSet.empty.insert seq).keepLargest maxSeqsPerConversation
          touchedAtMs := now }

variable (conversationId : String)

/-- Takes a record back when the event could not be applied. -/
def unrecord (seq : ℕ) : AppliedEventSeqs :=
  if seq = 0 || isBlank conversationId then applied
  else
    match applied.find? (trim conversationId) with
    | none => applied
    | some entry =>
      let seqs := entry.seqs.erase seq
      if seqs.toList.isEmpty then applied.erase (trim conversationId)
      else applied.insert { entry with seqs := seqs }

def contains (seq : ℕ) : Bool :=
  (applied.find? (trim conversationId)).any (seq ∈ ·.seqs)

def seqsInRange (above upto : ℕ) : List ℕ :=
  if upto ≤ above then []
  else ((applied.find? (trim conversationId)).map (·.seqs.between above upto)).getD []

end AppliedEventSeqs

/-! ### Whether a seq has been reached -/

/-- What the stores answer. A read that fails is answered like one that finds nothing. -/
structure LocalStores where
  syncVisibilityFloor : String → Option ℕ
  conversationCursor : String → String → Option ℕ
  /-- The seqs of the newest rows below a seq, at most so many. -/
  getByConversation : String → ℕ → ℕ → List ℕ

def waterlineContinuityMaxSpan : ℕ := 128

section

variable (stores : Option LocalStores) (applied : AppliedEventSeqs) (userId conversationId : String)

def localWaterlineReachedWithStores (targetSeq : ℕ) : Bool :=
  if targetSeq = 0 then false
  else match stores with
  | none => false
  | some stores =>
    if (stores.syncVisibilityFloor conversationId).any (targetSeq ≤ ·) then true
    else if isBlank userId then false
    else
      let cursorSeq := (stores.conversationCursor (trim userId) conversationId).getD 0
      let rowsUpTo := fun limit => stores.getByConversation conversationId (min (targetSeq + 1) maxU64) limit
      if targetSeq ≤ cursorSeq then
        -- The cursor alone does not show that the target's own row or event is here.
        applied.contains conversationId targetSeq || (rowsUpTo 1).any (· = targetSeq)
      else
        let span := targetSeq - cursorSeq
        if waterlineContinuityMaxSpan < span then false
        else
          let window := (rowsUpTo span).filter (cursorSeq < ·) ++
            applied.seqsInRange conversationId cursorSeq targetSeq
          targetSeq ≤ maxContiguousSeq cursorSeq window

@[simp] theorem not_reached_zero :
    localWaterlineReachedWithStores stores applied userId conversationId 0 = false := rfl

end

/-! ### Pings -/

def waterlineControlTypes : List String :=
  ["sync.waterline", "conversation.waterline", "conversation_waterline", "waterline"]

def eqIgnoreAsciiCase (a b : String) : Bool := a.toList.map Char.toLower = b.toList.map Char.toLower

def attrNonEmpty (attributes : Attributes) (key : String) : Option String :=
  (attributes[key]?.map trim).filter (· ≠ "")

def attrU64 (attributes : Attributes) (key : String) : Option ℕ :=
  (attrNonEmpty attributes key).bind parseU64

def isWaterlinePing (kind : String) (attributes : Attributes) : Bool :=
  waterlineControlTypes.any (eqIgnoreAsciiCase kind) ||
    (attrNonEmpty attributes "kind").any fun value => waterlineControlTypes.any (eqIgnoreAsciiCase value)

structure WaterlinePing where
  kind : String
  conversationId : Option String
  attributes : Attributes

namespace WaterlinePing

def pingedConversation (p : WaterlinePing) : Option String :=
  ((p.conversationId.map trim).filter (· ≠ "")).or
    ((attrNonEmpty p.attributes "conversation_id").or (attrNonEmpty p.attributes "conversationId"))

/-- The seq the ping names; 0 when it names none. -/
def targetSeq (p : WaterlinePing) : ℕ :=
  ((attrU64 p.attributes "max_conversation_seq").or (attrU64 p.attributes "maxConversationSeq")).getD 0

/-- The ping that an event or an envelope stands for. -/
def ofSeq (conversationId : String) (seq : ℕ) : WaterlinePing where
  kind := "conversation.waterline"
  conversationId := some conversationId
  attributes := (∅ : Attributes).insert "max_conversation_seq" (toString seq)

theorem isWaterlinePing_ofSeq (conversationId : String) (seq : ℕ) :
    isWaterlinePing (ofSeq conversationId seq).kind (ofSeq conversationId seq).attributes = true := by
  have hkind : waterlineControlTypes.any (eqIgnoreAsciiCase "conversation.waterline") = true := by decide
  rw [isWaterlinePing]
  exact Bool.or_eq_true_iff.mpr (.inl hkind)

theorem targetSeq_ofSeq (conversationId : String) {seq : ℕ} (h : seq ≤ maxU64) :
    (ofSeq conversationId seq).targetSeq = seq := by
  have hvalue : attrU64 (ofSeq conversationId seq).attributes "max_conversation_seq" = some seq := by
    rw [attrU64, attrNonEmpty, ofSeq, Std.ExtTreeMap.getElem?_insert_self, Option.map_some, trim_toString,
      Option.filter_some, if_pos (by simp), Option.bind_some, parseU64_toString h]
  rw [targetSeq, hvalue]
  rfl

end WaterlinePing

/-! ### The pull of one conversation -/

structure WaterlinePullState where
  inFlight : Bool := false
  pending : Bool := false
  pendingTargetSeq : ℕ := 0
  deriving DecidableEq, Repr

/-- Where the background task of a pull is: in the pull itself, about to look at the pending
target it took, or about to remove the entry since the target is there. -/
inductive PullPhase
  | pulling
  | checking (pendingTargetSeq : ℕ)
  | concluding
  deriving DecidableEq, Repr

/-- The target that is being looked up. -/
def PullPhase.target? : PullPhase → Option ℕ
  | .checking pendingTargetSeq => some pendingTargetSeq
  | _ => none

structure PullTask where
  userId : String
  phase : PullPhase
  deriving DecidableEq, Repr

/-- One conversation's entry in `waterline_pull_state`, and the task that serves it. -/
structure WaterlinePull where
  entry : Option WaterlinePullState := none
  task : Option PullTask := none
  deriving DecidableEq, Repr

namespace WaterlinePull

def isRunning (w : WaterlinePull) : Bool := w.task.isSome

@[simp] theorem isRunning_empty : isRunning {} = false := rfl

@[simp] theorem isRunning_mk (entry : Option WaterlinePullState) (task : PullTask) :
    isRunning ⟨entry, some task⟩ = true := rfl

/-- What `maybe_trigger_waterline_pull` does with a target that is not reached. -/
def request (w : WaterlinePull) (userId : String) (targetSeq : ℕ) : WaterlinePull :=
  let state := w.entry.getD {}
  if state.inFlight then
    { w with entry := some { state with
        pending := true, pendingTargetSeq := max state.pendingTargetSeq targetSeq } }
  else
    { entry := some { inFlight := true }, task := some { userId := userId, phase := .pulling } }

/-- The entry is removed and the task ends. -/
def finished : WaterlinePull := {}

section

variable (w : WaterlinePull) (task : PullTask)

/-- `request_message_sync` has returned. -/
def pullFinished : WaterlinePull :=
  match w.entry with
  | none => { w with task := none }
  | some state =>
    if !state.pending then finished
    else
      { entry := some { state with pending := false, pendingTargetSeq := 0 }
        task := some { task with phase := .checking state.pendingTargetSeq } }

/-- The pending target has been looked up. -/
def checked (reached : Bool) : WaterlinePull :=
  { w with task := some { task with phase := if reached then .concluding else .pulling } }

/-- The target was there: the task ends unless a ping came meanwhile. -/
def conclude : WaterlinePull :=
  match w.entry with
  | some state => if !state.pending then finished else { w with task := some { task with phase := .pulling } }
  | none => { w with task := some { task with phase := .pulling } }

end

/-- There is an entry exactly as long as a task runs, and no target is pending without a ping. -/
def Coherent (w : WaterlinePull) : Prop :=
  w = {} ∨ ∃ pending target task, w = ⟨some ⟨true, pending, target⟩, some task⟩ ∧ (pending = false → target = 0)

variable {w : WaterlinePull} (h : w.Coherent) (userId : String) (targetSeq : ℕ)

include h

theorem Coherent.isRunning_request : (w.request userId targetSeq).isRunning = true := by
  rcases h with rfl | ⟨pending, target, task, rfl, -⟩ <;> rfl

theorem Coherent.request : (w.request userId targetSeq).Coherent := by
  rcases h with rfl | ⟨pending, target, task, rfl, -⟩
  · exact .inr ⟨_, _, _, rfl, fun _ => rfl⟩
  · exact .inr ⟨_, _, _, rfl, by simp⟩

end WaterlinePull

/-! ### A small instance, for concrete runs -/

/-- Stores with the rows of one conversation and a cursor. -/
def sampleStores (cursorSeq : ℕ) (rows : List ℕ) : LocalStores where
  syncVisibilityFloor _ := none
  conversationCursor _ _ := some cursorSeq
  getByConversation _ beforeSeq limit :=
    ((rows.insertionSort (· ≥ ·)).filter (· < beforeSeq)).take limit

end FlareIm.Dispatcher
