import FlareIm.Store.Acks

/-! What the converger does with messages coming in before they are saved. It moves the rows of a
single chat to the conversation id that the two users give it, drops a message that is stored
already, and turns the echo of a message sent from here into its acknowledgement. Rows are looked
up once for the whole batch. -/

namespace FlareIm.Dispatcher

open Lib Message Store List

structure ConversationIdRewrite where
  fromId : String
  toId : String
  deriving DecidableEq, Repr

structure IncomingMessageConverger where
  /-- The conversation id of a single chat of the user, `none` for a message of another kind. It
  reads the type and the channel of the message, which are not among the columns here. -/
  singleChatConversationId : String → InboundMessage → Option String
  /-- The visibility floors once the conversation is merged. -/
  mergeConversationIdentity : ConversationIdRewrite → (String → ℕ) → String → ℕ
  /-- What the sending queue makes of an acknowledgement. -/
  reliableQueue : Option (SendAck → RowTable → RowTable)

namespace IncomingMessageConverger

variable (c : IncomingMessageConverger)

def canonicalizeSingleChatMessage (userId : String) (m : InboundMessage) :
    InboundMessage × Option ConversationIdRewrite :=
  match c.singleChatConversationId userId m with
  | none => (m, none)
  | some canonical =>
    let old := trim m.conversationId
    ({ m with conversationId := canonical },
      if old = "" ∨ old = canonical then none else some ⟨old, canonical⟩)

def canonicalizeIncomingMessages (userId : String) (messages : List InboundMessage) :
    List InboundMessage × List ConversationIdRewrite :=
  (messages.map fun m => (c.canonicalizeSingleChatMessage userId m).1,
    (messages.filterMap fun m => (c.canonicalizeSingleChatMessage userId m).2).eraseDups)

def applyIdentityRewrite (t : RowTable) (r : ConversationIdRewrite) : RowTable :=
  if r.fromId = r.toId then t
  else { t.rewriteConversationId r.fromId r.toId with
    clearedFloor := c.mergeConversationIdentity r t.clearedFloor }

def localByClientMsgId (t : RowTable) (m : IMMessage) : Option IMMessage :=
  if isBlank m.clientMsgId then none else t.base.getByClientMsgId (trim m.clientMsgId)

def localByServerId (t : RowTable) (m : IMMessage) : Option IMMessage :=
  if isBlank m.serverId then none else (t.get (trim m.serverId)).map (·.toIMMessage)

variable [codes : RowCodes]

/-- One message of a batch, with the rows `found` when the batch began. -/
def convergeMessage (userId : String) (now : ℕ) (found : RowTable) (acc : List InboundMessage × RowTable)
    (m : InboundMessage) : List InboundMessage × RowTable :=
  let byClient := localByClientMsgId found m.toIMMessage
  let byServer := localByServerId found m.toIMMessage
  match decideIncomingMessageConvergence userId m.toIMMessage byClient byServer with
  | .emitReceived => (acc.1 ++ [m], acc.2)
  | .mergePendingAndAck =>
    (acc.1, match c.reliableQueue with
      | some onAck => onAck (syntheticAckFromIncoming m.toIMMessage) acc.2
      | none => acc.2.updateAfterAck now m.clientMsgId
          { m with toIMMessage := mergeIncomingAsSent byClient m.toIMMessage })
  | .dropDuplicate =>
    (acc.1, if byServer.any (fun l => l.status < m.status) && !isBlank m.serverId then
        (acc.2.updateStatus m.serverId m.status).2
      else acc.2)

def normalized (m : InboundMessage) : InboundMessage :=
  { m with toIMMessage := normalizeIncomingServerState m.toIMMessage }

/-- The messages left to be saved, and the table. -/
def convergeMessages (t : RowTable) (now : ℕ) (userId : String) (messages : List InboundMessage) :
    List InboundMessage × RowTable :=
  let (messages, rewrites) := c.canonicalizeIncomingMessages userId messages
  let rewritten := rewrites.foldl c.applyIdentityRewrite t
  (messages.map normalized).foldl (c.convergeMessage userId now rewritten) ([], rewritten)

/-! ### New messages -/

def received (userId : String) (m : InboundMessage) : InboundMessage :=
  normalized (c.canonicalizeSingleChatMessage userId m).1

section

variable (userId : String) (m : InboundMessage)

omit codes in
theorem ids_canonicalizeSingleChatMessage : (c.canonicalizeSingleChatMessage userId m).1.serverId = m.serverId ∧
      (c.canonicalizeSingleChatMessage userId m).1.clientMsgId = m.clientMsgId := by
  unfold canonicalizeSingleChatMessage
  split <;> exact ⟨rfl, rfl⟩

@[simp] theorem received_serverId : (c.received userId m).serverId = m.serverId :=
  (normalizeIncomingServerState_serverId _).trans (c.ids_canonicalizeSingleChatMessage userId m).1

@[simp] theorem received_clientMsgId : (c.received userId m).clientMsgId = m.clientMsgId :=
  (normalizeIncomingServerState_clientMsgId _).trans (c.ids_canonicalizeSingleChatMessage userId m).2

@[simp] theorem received_conversationSeq : (c.received userId m).conversationSeq = m.conversationSeq := by
  unfold received normalized normalizeIncomingServerState canonicalizeSingleChatMessage
  split
  · dsimp only
    split <;> rfl
  · dsimp only
    split <;> rfl

end

variable {m : InboundMessage} {t : RowTable}

omit codes in
theorem localByServerId_of_newTo (h : t.NewTo m.toIMMessage) : localByServerId t m.toIMMessage = none := by
  unfold localByServerId
  split
  · rfl
  · rw [Option.map_eq_none_iff]
    refine (t.rows.find?_eq_none_iff _).mpr fun hkey => ?_
    obtain ⟨r, hr, heq⟩ := (t.rows.mem_keys _).mp hkey
    exact (h r hr).serverId_ne heq

omit codes in
theorem localByClientMsgId_of_newTo (h : t.NewTo m.toIMMessage) : localByClientMsgId t m.toIMMessage = none := by
  unfold localByClientMsgId
  split
  · rfl
  · next hclient =>
    have hnone : t.base.copies (trim m.clientMsgId) = [] := by
      refine filter_eq_nil_iff.mpr fun r hr => ?_
      obtain ⟨row, hrow, rfl⟩ := mem_map.mp hr
      simpa using (h row hrow).clientMsgId_ne (Bool.eq_false_of_not_eq_true hclient)
    rw [MessageTable.getByClientMsgId, hnone]
    rfl

section

variable {found : RowTable} (now : ℕ) (userId : String)

theorem convergeMessage_of_newTo
    (hm : found.NewTo m.toIMMessage) (acc : List InboundMessage × RowTable) :
    c.convergeMessage userId now found acc m = (acc.1 ++ [m], acc.2) := by
  unfold convergeMessage
  dsimp only
  rw [localByServerId_of_newTo hm, localByClientMsgId_of_newTo hm, decideIncomingMessageConvergence_of_none]

theorem foldl_convergeMessage_of_newTo
    (ms out : List InboundMessage) (hnew : ∀ m ∈ ms, found.NewTo m.toIMMessage) :
    ms.foldl (c.convergeMessage userId now found) (out, t) = (out ++ ms, t) := by
  induction ms generalizing out with
  | nil => rw [foldl_nil, append_nil]
  | cons m ms ih =>
    have hm := hnew m mem_cons_self
    rw [foldl_cons, c.convergeMessage_of_newTo now userId hm,
      ih _ fun m' hm' => hnew m' (mem_cons_of_mem m hm'), ← append_cons]

end

variable {ms : List InboundMessage} {userId : String}

omit codes in
theorem rewrites_of_canonical (hcanonical : ∀ m ∈ ms, (c.canonicalizeSingleChatMessage userId m).2 = none) :
    (c.canonicalizeIncomingMessages userId ms).2 = [] := by
  have hrewrites : (ms.filterMap fun m => (c.canonicalizeSingleChatMessage userId m).2) = [] :=
    filterMap_eq_nil_iff.mpr hcanonical
  unfold canonicalizeIncomingMessages
  rw [hrewrites]
  rfl

theorem convergeMessages_of_canonical (now : ℕ)
    (hcanonical : ∀ m ∈ ms, (c.canonicalizeSingleChatMessage userId m).2 = none) :
    c.convergeMessages t now userId ms = (ms.map (c.received userId)).foldl
    (c.convergeMessage userId now t) ([], t) := by
  have hreceived : ((ms.map fun m => (c.canonicalizeSingleChatMessage userId m).1).map normalized) =
      ms.map (c.received userId) := map_map
  unfold convergeMessages
  dsimp only
  rw [c.rewrites_of_canonical hcanonical, ← hreceived]
  rfl

theorem newTo_received : t.NewTo (c.received userId m).toIMMessage ↔ t.NewTo m.toIMMessage := by
  unfold RowTable.NewTo Apart
  rw [received_serverId, received_clientMsgId]

end IncomingMessageConverger

end FlareIm.Dispatcher
