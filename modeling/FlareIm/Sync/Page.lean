import FlareIm.Events.Model

/-! One page of a conversation sync as the server sends it, and what decoding takes from it.
An item is a message, an operation event, or the server's word that a seq carries neither; items
at or below the seq that is known already count for nothing, except that operation events are
applied wherever they stand. -/

namespace FlareIm.Sync

open Message Store Events

inductive SyncSliceItemPayload
  | skip
  | tombstone
  | event (event : Event)
  | message (message : InboundMessage)
  deriving DecidableEq

structure SyncSliceItem where
  conversationSeq : ℕ
  payload : Option SyncSliceItemPayload
  deriving DecidableEq

structure SingleConversationSyncRes where
  items : List SyncSliceItem
  maxConversationSeq : ℕ
  hasMore : Bool := false
  nextCursor : String := ""
  /-- `snapshot_cutover_required` of the page's stale context and hints. -/
  snapshotCutover : Bool := false
  deriving DecidableEq

/-- The server says that the seq has no message and never will. -/
def SingleConversationSyncRes.DeclaresAbsent (page : SingleConversationSyncRes) (seq : ℕ) : Prop :=
  ∃ item ∈ page.items, item.conversationSeq = seq ∧ (item.payload = some .skip ∨ item.payload = some .tombstone)
  deriving Decidable

/-! ### Decoding -/

def syncItemSeq (itemSeq payloadSeq : ℕ) : ℕ := if 0 < itemSeq then itemSeq else payloadSeq

def isValidSyncEvent (ev : Event) : Bool := ev.payload.isSome && ev.type ≠ 0

def isValidSyncMessage (m : InboundMessage) : Bool :=
  0 < m.conversationSeq || !isBlank m.serverId || !isBlank m.clientMsgId || !isBlank m.conversationId

inductive DecodedItem
  | absent (seq : ℕ)
  | message (seq : ℕ) (message : InboundMessage)
  | event (seq : ℕ) (event : Event)
  /-- Without a payload, or with one that is not valid. -/
  | rejected

def decodeItem (item : SyncSliceItem) : DecodedItem :=
  match item.payload with
  | some .skip => .absent item.conversationSeq
  | some .tombstone => .absent item.conversationSeq
  | some (.event ev) =>
    if isValidSyncEvent ev then
      let seq := syncItemSeq item.conversationSeq ev.conversationSeq
      match ev.message? with
      | some m => .message seq m
      | none => .event seq ev
    else .rejected
  | some (.message m) =>
    if isValidSyncMessage m then .message (syncItemSeq item.conversationSeq m.conversationSeq) m
    else .rejected
  | none => .rejected

namespace DecodedItem

variable (knownSeq : ℕ)

/-- The seq of a message or of an absent item above `knownSeq`. -/
def coveredSeq : DecodedItem → Option ℕ
  | .absent seq => if knownSeq < seq then some seq else none
  | .message seq _ => if knownSeq < seq then some seq else none
  | _ => none

def absentSeq : DecodedItem → Option ℕ
  | .absent seq => if knownSeq < seq then some seq else none
  | _ => none

def freshMessage : DecodedItem → Option InboundMessage
  | .message seq m => if knownSeq < seq then some m else none
  | _ => none

def operation : DecodedItem → Option (ℕ × Event)
  | .event seq ev => some (seq, ev)
  | _ => none

def isDecoded : DecodedItem → Bool
  | .absent seq => knownSeq < seq
  | .rejected => false
  | _ => true

end DecodedItem

structure DecodedSingleConversationItems where
  messages : List InboundMessage
  /-- The operation events with the seq of their items. -/
  operations : List (ℕ × Event)
  coveredItemSeqs : List ℕ
  absentItemSeqs : List ℕ
  hasDecodedItems : Bool

def decodeSingleConversationItems (page : SingleConversationSyncRes) (knownSeq : ℕ) :
    DecodedSingleConversationItems :=
  let items := page.items.map decodeItem
  { messages := items.filterMap (·.freshMessage knownSeq)
    operations := items.filterMap (·.operation)
    coveredItemSeqs := items.filterMap (·.coveredSeq knownSeq)
    absentItemSeqs := items.filterMap (·.absentSeq knownSeq)
    hasDecodedItems := items.any (·.isDecoded knownSeq) }

/-- The seqs of the operation events, wherever they stand. -/
def SingleConversationSyncRes.operationSeqs (page : SingleConversationSyncRes) : List ℕ :=
  ((page.items.map decodeItem).filterMap (·.operation)).map Prod.fst

/-- `event_item_seqs`: an event at or below the known seq is applied, but counts for nothing. -/
def eventItemSeq (knownSeq itemSeq : ℕ) : ℕ := if knownSeq < itemSeq then itemSeq else 0

theorem declaresAbsent_of_mem {page : SingleConversationSyncRes} {knownSeq seq : ℕ}
    (h : seq ∈ (decodeSingleConversationItems page knownSeq).absentItemSeqs) : page.DeclaresAbsent seq := by
  obtain ⟨decoded, hdecoded, hseq⟩ := List.mem_filterMap.mp h
  obtain ⟨item, hitem, rfl⟩ := List.mem_map.mp hdecoded
  refine ⟨item, hitem, ?_⟩
  unfold decodeItem at hseq
  split at hseq
  · next hskip =>
    rw [DecodedItem.absentSeq, Option.ite_none_right_eq_some] at hseq
    exact ⟨Option.some.inj hseq.2, .inl hskip⟩
  · next htombstone =>
    rw [DecodedItem.absentSeq, Option.ite_none_right_eq_some] at hseq
    exact ⟨Option.some.inj hseq.2, .inr htombstone⟩
  · split at hseq
    · dsimp only at hseq
      split at hseq <;> exact absurd hseq (by simp [DecodedItem.absentSeq])
    · exact absurd hseq (by simp [DecodedItem.absentSeq])
  · split at hseq <;> exact absurd hseq (by simp [DecodedItem.absentSeq])
  · exact absurd hseq (by simp [DecodedItem.absentSeq])

end FlareIm.Sync
