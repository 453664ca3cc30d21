import FlareIm.Store.Reactions

/-! The message store that keeps its messages in memory. It has a pin guard of its own; for edits,
deletions, reactions, marks and retention it has what the trait gives every store, which knows no
numbers, no marks and no retention. Messages carry their reactions with them. -/

namespace FlareIm.Store

open Lib Message

def storageKey (m : InboundMessage) : String := if m.serverId ≠ "" then m.serverId else m.clientMsgId

/-- The order of a hash map's entries means nothing; where the code takes the first that it meets, so
does the model. -/
abbrev MemoryMessageStore := KeyedMap String InboundMessage storageKey

namespace MemoryMessageStore

def answersTo (id : String) (m : InboundMessage) : Bool := m.serverId = id || m.clientMsgId = id

/-! ### Saving -/

def existingAttributes (data : MemoryMessageStore) (m : InboundMessage) : Option Attributes :=
  if !isBlank m.serverId then (data.items.find? fun stored => stored.serverId = m.serverId).map (·.attributes)
  else (data.items.find? fun stored =>
    !isBlank m.clientMsgId && stored.clientMsgId = m.clientMsgId).map (·.attributes)

/-- A copy whose upload is under way counts as being sent, other than in the table. -/
def isInTheWay (clientMsgId keepKey : String) (stored : InboundMessage) : Bool :=
  !(storageKey stored = keepKey || stored.clientMsgId ≠ clientMsgId || !stored.localState.isLocal ||
    stored.localState.failed || !(stored.localState.sending || stored.localState.uploading))

section

variable (data : MemoryMessageStore)

def removeConflictingLocalClientMsgRows (clientMsgId keepKey : String) : MemoryMessageStore :=
  if isBlank clientMsgId then data else data.filter fun stored => !isInTheWay (trim clientMsgId) keepKey stored

def mergedMessage (m : InboundMessage) : InboundMessage :=
  match data.existingAttributes m with
  | some existing => { m with attributes := mergeMessageEventAttributes m.attributes existing }
  | none => m

def saveOne (m : InboundMessage) : MemoryMessageStore :=
  (data.removeConflictingLocalClientMsgRows m.clientMsgId (storageKey m)).insert (data.mergedMessage m)

def saveBatch (messages : List InboundMessage) : MemoryMessageStore :=
  messages.foldl saveOne data

/-! ### Events -/

/-- `get_mut_by_any_message_id`, and the same search in `update_content` and `apply_reaction`. -/
def getByAnyMessageId (id : String) : Option InboundMessage :=
  (data.find? id).or (data.items.find? (answersTo id))

/-- `update_content`, which the trait's `apply_edit_event` calls without the event's number. -/
def applyEditEvent (id : String) (newContent : Content) : ApplyResult × MemoryMessageStore :=
  match data.getByAnyMessageId id with
  | none => (.notFound, data)
  | some m => (.applied, data.insert { m with encodedContent := newContent, isEdited := true })

/-- The trait's `apply_delete_event`; the id must be the key. -/
def applyDeleteEvent (id : String) : ApplyResult × MemoryMessageStore := (.applied, data.erase id)

end

def numberedPin (eventSeq : Option ℕ) (attributes : Attributes) : Attributes :=
  match eventSeq with
  | some seq => attributes.insert "lastPinEventSeq" (toString seq)
  | none => attributes

section

variable (data : MemoryMessageStore)

def applyPinEvent (id : String) (enabled : Bool) (eventSeq : Option ℕ) :
    ApplyResult × MemoryMessageStore :=
  if isBlank id then (.notFound, data)
  else match data.getByAnyMessageId (trim id) with
    | none => (.notFound, data)
    | some m =>
      if eventSeq.any (· < messageAttributeSeq m.attributes "lastPinEventSeq") then (.ignoredStale, data)
      else
        (.applied, data.insert { m with
          attributes := (numberedPin eventSeq m.attributes).insert "pinned" (if enabled then "true" else "false") })

/-- The trait's `apply_mark_event`: neither `set_message_mark` nor `clear_message_mark` does anything. -/
def applyMarkEvent : ApplyResult × MemoryMessageStore := (.applied, data)

/-- The trait's retention events. -/
def applyRetentionEvent : ApplyResult × MemoryMessageStore := (.notFound, data)

end

section Reactions

variable [codes : RowCodes]

def writeReactionsToAttributes (attributes : Attributes) (reactions : List ReactionEntry) : Attributes :=
  if reactions.isEmpty then attributes.erase "reactionsJson"
  else attributes.insert "reactionsJson" (codes.reactionsJson reactions)

/-- `apply_reaction_change` of a message. -/
def changeReaction (m : InboundMessage) (userId emoji : String) (action : ℤ) : InboundMessage :=
  let reactions := applyReactionChange m.reactions userId emoji action
  if userId = "" ∨ emoji = "" ∨ (action ≠ codes.reactionAdd ∧ action ≠ codes.reactionRemove) then m
  else { m with reactions := reactions, attributes := writeReactionsToAttributes m.attributes reactions }

/-- The trait's `apply_reaction_event`, which calls `apply_reaction` without the event's number. -/
def applyReactionEvent (data : MemoryMessageStore) (id userId emoji : String) (action : ℤ) :
    ApplyResult × MemoryMessageStore :=
  if isBlank id ∨ isBlank userId ∨ isBlank emoji then (.applied, data)
  else match data.getByAnyMessageId (trim id) with
    | none => (.applied, data)
    | some m => (.applied, data.insert (changeReaction m (trim userId) (trim emoji) action))

end Reactions

end MemoryMessageStore

end FlareIm.Store
