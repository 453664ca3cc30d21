import FlareIm.Lib.Run
import FlareIm.Store.Acks

/-! The read mark of own messages. A receipt of the peer marks every own message up to its seq, and
nothing takes a mark back on purpose; but the mark is a column of the row, and whoever writes the whole
row writes it too. A saved copy brings the mark it carries, and an acknowledgement brings none. So a
mark lasts as long as no unread copy and no acknowledgement of a marked message reaches the table. -/

namespace FlareIm.Store

open Lib Message

namespace RowTable

/-! ### Runs -/

section

variable [RowCodes] (t : RowTable) (conversationId senderUserId : String) (peerReadSeq : ℕ)

/-- `reconcile_outgoing_read_by_peer_seq`: a summary of the conversation is a receipt too. -/
def reconcileOutgoingReadByPeerSeq : RowTable :=
  if isBlank conversationId || isBlank senderUserId then t
  else if 0 < peerReadSeq then t.markOutgoingReadUptoSeq conversationId senderUserId peerReadSeq
  else t

theorem reconcileOutgoingReadByPeerSeq_eq :
    t.reconcileOutgoingReadByPeerSeq conversationId senderUserId peerReadSeq =
      t.markOutgoingReadUptoSeq conversationId senderUserId peerReadSeq := by
  unfold reconcileOutgoingReadByPeerSeq
  split
  · next hblank => rw [markOutgoingReadUptoSeq, if_pos (by simp [hblank])]
  · split
    · rfl
    · next hzero => rw [markOutgoingReadUptoSeq, if_pos (by simp; omega)]

end

inductive ReadStep
  | save (now : ℕ) (messages : List InboundMessage)
  | ack (now : ℕ) (clientMsgId : String) (message : InboundMessage)
  | status (id : String) (status : ℤ)
  | read (conversationId senderUserId : String) (readSeq : ℕ)
  | reconcile (conversationId senderUserId : String) (peerReadSeq : ℕ)

/-- The table, and the server ids of the messages that a receipt has marked. -/
structure ReadRun where
  table : RowTable
  marked : List String

namespace ReadRun

section Run

variable [RowCodes]

def start (t : RowTable) : ReadRun := ⟨t, []⟩

/-- The messages that a receipt marks. -/
def covered (t : RowTable) (conversationId senderUserId : String) (readSeq : ℕ) : List String :=
  if isBlank conversationId || isBlank senderUserId || readSeq = 0 then []
  else (t.rows.items.filter (isReadBy conversationId senderUserId readSeq)).map (·.serverId)

def step (s : ReadRun) : ReadStep → ReadRun
  | .save now messages => { s with table := s.table.saveBatch now messages }
  | .ack now clientMsgId message => { s with table := s.table.updateAfterAck now clientMsgId message }
  | .status id status => { s with table := (s.table.updateStatus id status).2 }
  | .read conversationId senderUserId readSeq =>
    { table := s.table.markOutgoingReadUptoSeq conversationId senderUserId readSeq
      marked := covered s.table conversationId senderUserId readSeq ++ s.marked }
  | .reconcile conversationId senderUserId peerReadSeq =>
    { table := s.table.reconcileOutgoingReadByPeerSeq conversationId senderUserId peerReadSeq
      marked := covered s.table conversationId senderUserId peerReadSeq ++ s.marked }

/-- No unread copy of a marked message is saved, and none is acknowledged. -/
def KeepsMarks (s : ReadRun) : ReadStep → Prop
  | .save _ messages => ∀ m ∈ messages, s.table.isPersistable m = true → m.serverId ∈ s.marked → m.isRead = true
  | .ack _ _ message => message.serverId ∉ s.marked
  | _ => True

instance (s : ReadRun) : (e : ReadStep) → Decidable (KeepsMarks s e)
  | .save _ _ => List.decidableBAll _ _
  | .ack _ _ _ => inferInstanceAs (Decidable (¬ _))
  | .status _ _ => inferInstanceAs (Decidable True)
  | .read _ _ _ => inferInstanceAs (Decidable True)
  | .reconcile _ _ _ => inferInstanceAs (Decidable True)

/-- Every marked message that is stored is read. -/
def NoneUnread (s : ReadRun) : Prop :=
  ∀ r ∈ s.table.rows.items, r.serverId ∈ s.marked → r.isRead = true

section Steps

variable {s : ReadRun}

omit [RowCodes] in
theorem noneUnread_save (h : s.NoneUnread) {now : ℕ} {messages : List InboundMessage}
    (hcopies : ∀ m ∈ messages, s.table.isPersistable m = true → m.serverId ∈ s.marked → m.isRead = true) :
    NoneUnread { s with table := s.table.saveBatch now messages } := by
  intro r hr hmarked
  rcases mem_saveBatch hr with ⟨r₀, hr₀, hsame⟩ | ⟨m, hm, hpersistable, hrow⟩
  · rw [← hsame] at hmarked ⊢
    exact h r₀ hr₀ hmarked
  · rw [hrow] at hmarked ⊢
    exact hcopies m hm hpersistable hmarked

theorem noneUnread_ack (h : s.NoneUnread) {now : ℕ} {clientMsgId : String} {message : InboundMessage}
    (hack : message.serverId ∉ s.marked) :
    NoneUnread { s with table := s.table.updateAfterAck now clientMsgId message } := by
  intro r hr hmarked
  rcases mem_updateAfterAck hr with rfl | ⟨hold, -⟩
  · exact absurd (carriedMessage_serverId.symm ▸ hmarked) hack
  · exact h r hold hmarked

omit [RowCodes] in
/-- An update that turns no mark off keeps the marks, and those of the rows it turns on. -/
theorem noneUnread_updateWhere (h : s.NoneUnread) {p : MessageRow → Bool} {f : MessageRow → MessageRow}
    (hf : ∀ r, (f r).serverId = r.serverId) (hread : ∀ r, r.isRead = true → (f r).isRead = true)
    {marked : List String} (hmarked : ∀ r ∈ s.table.rows.items, r.serverId ∈ marked → r.serverId ∉ s.marked →
      p r = true ∧ (f r).isRead = true) :
    NoneUnread { table := s.table.updateWhere p f hf, marked := marked } := by
  intro r hr hmem
  obtain ⟨r₀, hr₀, rfl⟩ := List.mem_map.mp hr
  have hid : (if p r₀ = true then f r₀ else r₀).serverId = r₀.serverId := by
    split
    · exact hf r₀
    · rfl
  rw [hid] at hmem
  by_cases hbefore : r₀.serverId ∈ s.marked
  · have hr₀read := h r₀ hr₀ hbefore
    split
    · exact hread r₀ hr₀read
    · exact hr₀read
  · obtain ⟨hp, hnew⟩ := hmarked r₀ hr₀ hmem hbefore
    rw [if_pos hp]
    exact hnew

theorem noneUnread_read (h : s.NoneUnread) (conversationId senderUserId : String) (readSeq : ℕ) : NoneUnread
      { table := s.table.markOutgoingReadUptoSeq conversationId senderUserId readSeq
        marked := covered s.table conversationId senderUserId readSeq ++ s.marked } := by
  unfold markOutgoingReadUptoSeq covered
  split
  · exact h
  · refine noneUnread_updateWhere h _ (fun _ _ => rfl) fun r hr hmem hbefore => ⟨?_, rfl⟩
    obtain ⟨r', hr', hid⟩ := List.mem_map.mp ((List.mem_append.mp hmem).resolve_right hbefore)
    obtain ⟨hmem', hcovered⟩ := List.mem_filter.mp hr'
    rwa [← s.table.rows.eq_of_key_eq hmem' hr hid]

theorem noneUnread_step (s : ReadRun) (e : ReadStep) (h : s.NoneUnread) (hc : KeepsMarks s e) :
    (step s e).NoneUnread := by
  cases e with
  | save now messages => exact noneUnread_save h hc
  | ack now clientMsgId message => exact noneUnread_ack h hc
  | status id status =>
    apply noneUnread_updateWhere h
    · exact fun _ => rfl
    · exact fun _ hread => hread
    · exact fun _ _ hmem hnot => absurd hmem hnot
  | read conversationId senderUserId readSeq => exact noneUnread_read h conversationId senderUserId readSeq
  | reconcile conversationId senderUserId peerReadSeq =>
    rw [step, reconcileOutgoingReadByPeerSeq_eq]
    exact noneUnread_read h conversationId senderUserId peerReadSeq

end Steps

/-- A message that a receipt has marked stays read, from any table on. -/
theorem isRead_of_marked (t : RowTable) (es : List ReadStep)
    (hkeeps : AllSteps step KeepsMarks (start t) es) {id : String} {r : MessageRow}
    (hmarked : id ∈ (run step (start t) es).marked) (hr : (run step (start t) es).table.get id = some r) :
    r.isRead = true := by
  have hnone : (run step (start t) es).NoneUnread :=
    run_invariant noneUnread_step es _ (fun _ _ hmem => absurd hmem List.not_mem_nil) hkeeps
  exact hnone r (KeyedMap.mem_of_find? hr) (KeyedMap.key_of_find? hr ▸ hmarked)

end Run

/-! ### Three runs -/

def sampleMessage (isRead : Bool) : InboundMessage where
  serverId := "m1"
  clientMsgId := "c1"
  conversationId := "conv"
  senderId := "alice"
  conversationSeq := 1
  status := 2
  isRead := isRead

/-- The message is saved, the peer has read up to it, and then comes the rest. -/
def receiptThen (rest : List ReadStep) : List ReadStep :=
  .save 10 [sampleMessage false] :: .read "conv" "alice" 1 :: rest

/-- A copy that knows of the receipt, a status, and a summary that lags behind. -/
def readCopy : List ReadStep :=
  receiptThen [.save 11 [sampleMessage true], .status "m1" 3, .reconcile "conv" "alice" 0]

def runSample (es : List ReadStep) : ReadRun := run (@step sampleRowCodes) (start .empty) es

theorem isRead_of_marked_readCopy : "m1" ∈ (runSample readCopy).marked ∧
      ∃ r, (runSample readCopy).table.get "m1" = some r ∧ r.isRead = true := by
  have hmarked : "m1" ∈ (runSample readCopy).marked := by decide
  have hstored : ((runSample readCopy).table.get "m1").isSome = true := by decide
  obtain ⟨r, hr⟩ := Option.isSome_iff_exists.mp hstored
  exact ⟨hmarked, r, hr, @isRead_of_marked sampleRowCodes .empty readCopy (by decide) "m1" r hmarked hr⟩

/-- A copy that does not know of the receipt takes the mark away, and an acknowledgement does so whatever
copy it is given. -/
theorem not_isRead_of_marked : ("m1" ∈ (runSample (receiptThen [.save 11 [sampleMessage false]])).marked ∧
      ((runSample (receiptThen [.save 11 [sampleMessage false]])).table.get "m1").map (·.isRead) = some false) ∧
    ("m1" ∈ (runSample (receiptThen [.ack 11 "c1" (sampleMessage true)])).marked ∧
      ((runSample (receiptThen [.ack 11 "c1" (sampleMessage true)])).table.get "m1").map (·.isRead) =
        some false) := by
  decide

end ReadRun

end RowTable

end FlareIm.Store
