import FlareIm.Store.Rows

/-! Downlink events and the window of recently seen ones. An event carries one operation on a
message, a conversation or a read position, and takes its seq from the same allocator as the
messages of its conversation. -/

namespace FlareIm.Events

open Lib Message Store

/-! ### Payloads -/

/-- The shared state of a plugin card, once `from_parts` has accepted it. -/
structure SharedState where
  entity : String
  version : ℕ
  valuesJson : String
  deriving DecidableEq, Repr

inductive Payload
  | message (message : InboundMessage)
  | recall (serverMsgId : String)
  | edit (serverMsgId : String) (newContent : Option Content)
  | reaction (serverMsgId userId emoji : String) (action : ℤ)
  | delete (serverMsgId : String) (scope : Option ℤ) (targetUserId : Option String)
  | read (userId : String) (readSeq : ℕ)
  | retentionScheduled (serverMsgId : String) (policy : Option MessageRetentionPolicy)
      (state : Option MessageRetentionState) (scheduledAt : ℤ)
  | retentionExpired (serverMsgId : String) (state : Option MessageRetentionState) (expiredAt : ℤ)
  | retentionPurged (serverMsgId : String) (state : Option MessageRetentionState) (purgedAt : ℤ)
  | pin (serverMsgId : String) (scope : ℤ) (pinnedBy : String)
  | unpin (serverMsgId : String) (scope : ℤ) (unpinnedBy : String)
  | mark (serverMsgId : String) (markType : ℤ) (color : String)
  | unmark (serverMsgId : String) (markType : ℤ)
  /-- `none` for entity, version and values that make no shared state. -/
  | pluginState (serverMsgId pluginId : String) (state : Option SharedState)
  | custom
  | conversation (conversationId : String) (unreadCount : ℕ) (historyClearedThroughSeq : Option ℕ)
  | conversationDelete
  deriving DecidableEq

@[ext] structure Event where
  eventId : String := ""
  conversationId : String
  type : ℤ := 0
  conversationSeq : ℕ
  requestId : Option String := none
  payload : Option Payload
  seq_le : conversationSeq ≤ maxU64

instance : DecidableEq Event := fun _ _ => decidable_of_iff' _ Event.ext_iff

variable (ev : Event)

def Event.operationSeq : Option ℕ :=
  if 0 < ev.conversationSeq then some ev.conversationSeq else none

def Event.isMessage : Bool :=
  match ev.payload with
  | some (.message _) => true
  | _ => false

def Event.message? : Option InboundMessage :=
  match ev.payload with
  | some (.message m) => some m
  | _ => none

theorem Event.isMessage_eq : ev.isMessage = ev.message?.isSome := by
  obtain ⟨_, _, _, _, _, _ | payload, _⟩ := ev
  · rfl
  · cases payload <;> rfl

/-- `event_conversation_id` of the dispatcher. -/
def Event.eventConversationId : String :=
  if !isBlank ev.conversationId then trim ev.conversationId
  else match ev.payload with
    | some (.conversation conversationId _ _) => trim conversationId
    | _ => ""

/-- What the wire codecs tell about a content. -/
class EventCodes extends RowCodes where
  isPluginCard : Content → Bool
  /-- The plugin that the card's envelope names. -/
  pluginMessage : Content → Option String

/-- Core never edits a plugin card nor turns a message into one. -/
def inboundEditAllowed [codes : EventCodes] (stored : MessageRow) (newContent : Content) : Bool :=
  !codes.isPluginCard stored.encodedContent && !codes.isPluginCard newContent

/-! ### Shared plugin state -/

/-- `write_plugin_shared_state`: only a newer version is written. -/
def isNewerThan (state : SharedState) (attributes : Attributes) : Bool :=
  (pluginSharedStateVersion attributes).all (· < state.version)

def writePluginSharedState (attributes : Attributes) (state : SharedState) : Attributes :=
  ((attributes.insert pluginSharedStateJsonKey state.valuesJson).insert pluginSharedStateVersionKey
    (toString state.version)).insert pluginSharedEntityKey state.entity

def storePluginSharedState (t : RowTable) (id : String) (state : SharedState) : ApplyResult × RowTable :=
  let answering := t.rows.items.filter (RowTable.answersTo (trim id))
  if isBlank id || answering.isEmpty then (.notFound, t)
  else
    (if answering.any (fun r => isNewerThan state r.attributes) then .applied else .ignoredStale,
      t.updateWhere (fun r => RowTable.answersTo (trim id) r && isNewerThan state r.attributes)
        (fun r => { r with attributes := writePluginSharedState r.attributes state }) fun _ => rfl)

inductive PluginSharedStateOutcome
  | applied
  | ignored
  | rejected
  | notFound
  deriving DecidableEq, Repr

def applyPluginSharedState [codes : EventCodes] (t : RowTable) (serverMsgId pluginId : String)
    (state : Option SharedState) : PluginSharedStateOutcome × RowTable :=
  match state with
  | none => (.rejected, t)
  | some state =>
    if isBlank serverMsgId then (.rejected, t)
    else match t.get (trim serverMsgId) with
      | none => (.notFound, t)
      | some stored =>
        if codes.pluginMessage stored.encodedContent ≠ some pluginId then (.rejected, t)
        else match storePluginSharedState t (trim serverMsgId) state with
          | (.applied, t) => (.applied, t)
          | (.ignoredStale, t) => (.ignored, t)
          | (.notFound, t) => (.notFound, t)

/-! ### Events seen lately -/

inductive EventDedupeKey
  | eventId (eventId : String)
  | seq (conversationId : String) (eventType : ℤ) (seq : ℕ)
  | requestId (conversationId : String) (eventType : ℤ) (requestId : String)
  deriving DecidableEq, Repr

def dedupeKeyForEvent : Option EventDedupeKey :=
  if !isBlank ev.eventId then some (.eventId ev.eventId)
  else if 0 < ev.conversationSeq then some (.seq ev.conversationId ev.type ev.conversationSeq)
  else match ev.requestId with
    | some requestId =>
      if !isBlank requestId then some (.requestId ev.conversationId ev.type requestId) else none
    | none => none

/-- The keys in the order in which they came, without repetition. -/
structure EventDeduper where
  capacity : ℕ := 4096
  order : List EventDedupeKey := []
  nodup : order.Nodup := by exact List.nodup_nil

namespace EventDeduper

/-- Whether the event is new, and the window that knows it. -/
def recordIfNew (d : EventDeduper) (ev : Event) : Bool × EventDeduper :=
  match dedupeKeyForEvent ev with
  | none => (true, d)
  | some key =>
    if h : key ∈ d.order then (false, d)
    else
      let order := d.order ++ [key]
      (true, { d with
        order := order.drop (order.length - d.capacity)
        nodup := by
          refine List.Nodup.sublist (List.drop_sublist _ _) (List.nodup_append.mpr ⟨d.nodup, by simp, ?_⟩)
          rintro a ha b hb rfl
          exact h (List.mem_singleton.mp hb ▸ ha) })

def forget (d : EventDeduper) (ev : Event) : EventDeduper :=
  match dedupeKeyForEvent ev with
  | none => d
  | some key => { d with order := d.order.filter (· ≠ key), nodup := d.nodup.filter _ }

end EventDeduper

end FlareIm.Events
