import FlareIm.Events.KeptIds
import FlareIm.Store.Acks

/-! Which seqs of a conversation have a row. A save and an acknowledgement replace rows under the same
server id and remove rows with the same client id, so a seq can lose the row it had. It does not where
messages and rows that share an id stand at one seq: what goes is then replaced at its seq, and every
message that is written has a row at its own. -/

namespace FlareIm.Store.RowTable

open Lib Message List MessageTable

def HasSeq (t : RowTable) (conversationId : String) (seq : ℕ) : Prop :=
  ∃ r ∈ t.rows.items, r.conversationId = conversationId ∧ r.conversationSeq = seq
  deriving Decidable

variable {a b : IMMessage} {m : InboundMessage} {q r : MessageRow} {t : RowTable}

section Places

variable (h : place q = place r)

include h

theorem conversationId_of_place : q.conversationId = r.conversationId :=
  (Prod.mk.inj (Prod.mk.inj h).2).1

theorem conversationSeq_of_place : q.conversationSeq = r.conversationSeq :=
  (Prod.mk.inj (Prod.mk.inj h).2).2

theorem serverId_of_place : q.serverId = r.serverId := (Prod.mk.inj (Prod.mk.inj h).1).1

theorem apart_iff_of_place (m : IMMessage) : Apart q.toIMMessage m ↔ Apart r.toIMMessage m := by
  obtain ⟨hserver, hclient⟩ := Prod.mk.inj (Prod.mk.inj h).1
  rw [Apart, Apart, hserver, hclient]

theorem apart_right_iff_of_place (m : IMMessage) : Apart m q.toIMMessage ↔ Apart m r.toIMMessage := by
  obtain ⟨hserver, hclient⟩ := Prod.mk.inj (Prod.mk.inj h).1
  rw [Apart, Apart, hserver, hclient]

end Places

theorem not_apart_of_serverId (h : trim a.serverId = trim b.serverId) : ¬ Apart a b :=
  fun hapart => hapart.1 h

theorem not_apart_of_clientMsgId (hblank : isBlank b.clientMsgId = false)
    (h : a.clientMsgId = trim b.clientMsgId) : ¬ Apart a b :=
  fun hapart => hapart.clientMsgId_ne hblank h

/-! ### What a write leaves -/

/-- A message that is written has its row, or one that shares an id with it does; a row goes only for a
message that shares an id with it. -/
structure Writes (written : List InboundMessage) (t u : RowTable) : Prop where
  rows : ∀ r ∈ u.rows.items, (∃ q ∈ t.rows.items, place q = place r) ∨ ∃ m ∈ written, place m.toMessageRow = place r
  stays : ∀ r ∈ t.rows.items, (∃ q ∈ u.rows.items, place q = place r) ∨
    ∃ m ∈ written, ¬ Apart r.toIMMessage m.toIMMessage
  stored : ∀ m ∈ written, ∃ m' ∈ written, ¬ Apart m'.toIMMessage m.toIMMessage ∧
    ∃ r ∈ u.rows.items, place m'.toMessageRow = place r
  floor : u.clearedFloor = t.clearedFloor

section Writes

theorem writes_refl (t : RowTable) : Writes [] t t :=
  ⟨fun r hr => .inl ⟨r, hr, rfl⟩, fun r hr => .inl ⟨r, hr, rfl⟩, fun _ hm => absurd hm not_mem_nil, rfl⟩

theorem writes_saveBatch (t : RowTable) (now : ℕ) (ms : List InboundMessage) :
    Writes (ms.filter t.isPersistable) t (t.saveBatch now ms) := by
  have hbase : ∀ {x : IMMessage}, x ∈ (t.base.saveBatch now (ms.map (·.toIMMessage))).rows.items →
      ∃ r ∈ (t.saveBatch now ms).rows.items, r.toIMMessage = x := by
    intro x hx
    rw [← base_saveBatch] at hx
    exact mem_map.mp hx
  refine ⟨fun r hr => ?_, fun r hr => ?_, fun m hm => ?_, clearedFloor_saveBatch t now ms⟩
  · rcases mem_saveBatch hr with ⟨q, hq, hsame⟩ | ⟨m, hm, hpersistable, hrow⟩
    · exact .inl ⟨q, hq, by rw [place, place, hsame]⟩
    · exact .inr ⟨m, mem_filter.mpr ⟨hm, hpersistable⟩, by rw [place, place, hrow]; rfl⟩
  · have hmem : r.toIMMessage ∈ t.base.rows.items := mem_map_of_mem hr
    rcases mem_saveBatch_or now (ms.map (·.toIMMessage)) hmem with hstays | ⟨x, hx, hpersistable, hid⟩
    · obtain ⟨q, hq, hsame⟩ := hbase hstays
      exact .inl ⟨q, hq, by rw [place, place, hsame]⟩
    · obtain ⟨m, hm, rfl⟩ := mem_map.mp hx
      refine .inr ⟨m, mem_filter.mpr ⟨hm, hpersistable⟩, ?_⟩
      rcases hid with hserver | ⟨hblank, hclient⟩
      · exact not_apart_of_serverId (congrArg trim hserver)
      · exact not_apart_of_clientMsgId hblank hclient
  · obtain ⟨hmem, hpersistable⟩ := mem_filter.mp hm
    obtain ⟨x, hx, hpersistable', hserver, hrow⟩ := exists_persisted_mem_saveBatch now
      (mem_map_of_mem (f := fun m : InboundMessage => m.toIMMessage) hmem) hpersistable
    obtain ⟨m', hm', rfl⟩ := mem_map.mp hx
    obtain ⟨r, hr, hsame⟩ := hbase hrow
    exact ⟨m', mem_filter.mpr ⟨hm', hpersistable'⟩, not_apart_of_serverId hserver, r, hr,
      by rw [place, place, hsame]; rfl⟩

/-- A row stays, or the acknowledged message has an id of it. -/
theorem mem_updateAfterAck_or [RowCodes] (now : ℕ) (m : InboundMessage) (h : r ∈ t.rows.items) :
    r ∈ (t.updateAfterAck now m.clientMsgId m).rows.items ∨ ¬ Apart r.toIMMessage m.toIMMessage := by
  by_cases hserver : r.serverId = m.serverId
  · exact .inr (not_apart_of_serverId (congrArg trim hserver))
  · by_cases hclient : isBlank m.clientMsgId = false ∧ r.clientMsgId = trim m.clientMsgId
    · exact .inr (not_apart_of_clientMsgId hclient.1 hclient.2)
    · left
      have hkept : ∀ {sid conversationId : String} {u : RowTable}, r ∈ u.rows.items →
          r ∈ (u.removeConflictingClientMsgRows now m.clientMsgId sid conversationId).rows.items := by
        intro sid conversationId u hr
        refine mem_removeConflictingClientMsgRows.mpr ⟨hr, ?_⟩
        cases hblank : isBlank m.clientMsgId with
        | true => rfl
        | false =>
          have hother : r.clientMsgId ≠ trim m.clientMsgId := fun heq => hclient ⟨hblank, heq⟩
          simp [hother]
      have hsame : (ackedRow m.clientMsgId m.toIMMessage).clientMsgId = m.clientMsgId :=
        ackedRow_clientMsgId rfl
      unfold updateAfterAck
      rw [rows_replaceReactionSnapshotRows, if_neg (by rw [hsame]; exact fun h => h rfl)]
      refine (KeyedMap.mem_insert _ _ _).mpr (.inr ⟨hkept h, fun heq => hserver ?_⟩)
      exact heq.trans (ackedRow_serverId m.clientMsgId m.toIMMessage)

variable [RowCodes] (t : RowTable)

theorem place_carriedMessage (now : ℕ) (m : InboundMessage) :
    place (newRow now (t.carriedMessage m.clientMsgId m)) = place m.toMessageRow := by
  have hclient : (ackedRow m.clientMsgId m.toIMMessage).clientMsgId = m.clientMsgId :=
    ackedRow_clientMsgId rfl
  have hrest : (ackedRow m.clientMsgId m.toIMMessage).conversationId = m.conversationId ∧
      (ackedRow m.clientMsgId m.toIMMessage).conversationSeq = m.conversationSeq := by
    unfold ackedRow sanitizeSendAckMessage applySendAckState
    dsimp only
    split <;> exact ⟨rfl, rfl⟩
  have hserver := ackedRow_serverId m.clientMsgId m.toIMMessage
  exact Prod.ext (Prod.ext hserver hclient) (Prod.ext hrest.1 hrest.2)

/-- An acknowledgement writes its message, and whatever it says besides. -/
theorem writes_updateAfterAck (now : ℕ)
    (acked : InboundMessage) (hacked : place acked.toMessageRow = place m.toMessageRow) :
    Writes [m] t (t.updateAfterAck now acked.clientMsgId acked) := by
  have hrow := KeyedMap.mem_of_find? (get_updateAfterAck t now acked.clientMsgId acked)
  have hplace : place m.toMessageRow = place (newRow now (t.carriedMessage acked.clientMsgId acked)) :=
    ((place_carriedMessage t now acked).trans hacked).symm
  refine ⟨fun r hr => ?_, fun r hr => ?_, fun m' hm' => ?_, clearedFloor_updateAfterAck t now _ acked⟩
  · rcases mem_updateAfterAck hr with rfl | ⟨hold, -⟩
    · exact .inr ⟨m, mem_singleton.mpr rfl, hplace⟩
    · exact .inl ⟨r, hold, rfl⟩
  · rcases mem_updateAfterAck_or now acked hr with hstays | hshares
    · exact .inl ⟨r, hstays, rfl⟩
    · exact .inr ⟨m, mem_singleton.mpr rfl, mt (apart_right_iff_of_place hacked _).mpr hshares⟩
  · rw [mem_singleton.mp hm']
    exact ⟨m, mem_singleton.mpr rfl, not_apart_of_serverId rfl, _, hrow, hplace⟩

theorem writes_updateStatus (id : String) (status : ℤ) : Writes [] t (t.updateStatus id status).2 := by
  refine ⟨fun r hr => .inl ((Traces.updateWhere t (answersTo id) fun _ => by rfl).rows r hr), fun r hr => .inl ?_,
    fun _ hm => absurd hm not_mem_nil, rfl⟩
  refine ⟨_, mem_map_of_mem hr, ?_⟩
  split <;> rfl

end Writes

/-! ### Seqs that keep their rows -/

/-- The row stands where the message does, or it is a copy without a seq under another server id. -/
def StandsFor (conversationId : String) (m r : IMMessage) : Prop :=
  (r.conversationId = conversationId ∧ r.conversationSeq = m.conversationSeq) ∨
    (r.conversationSeq = 0 ∧ trim r.serverId ≠ trim m.serverId)
  deriving Decidable

/-- Messages of the conversation, and rows, that share an id stand at one seq. -/
structure Agrees (t : RowTable) (conversationId : String) (ms : List InboundMessage) : Prop where
  conversation : ∀ m ∈ ms, m.conversationId = conversationId
  messages : ∀ m ∈ ms, ∀ m' ∈ ms, ¬ Apart m'.toIMMessage m.toIMMessage → m'.conversationSeq = m.conversationSeq
  rows : ∀ m ∈ ms, ∀ r ∈ t.rows.items, ¬ Apart r.toIMMessage m.toIMMessage →
    StandsFor conversationId m.toIMMessage r.toIMMessage

instance (t : RowTable) (conversationId : String) (ms : List InboundMessage) :
    Decidable (Agrees t conversationId ms) :=
  decidable_of_iff ((∀ m ∈ ms, m.conversationId = conversationId) ∧
    (∀ m ∈ ms, ∀ m' ∈ ms, ¬ Apart m'.toIMMessage m.toIMMessage → m'.conversationSeq = m.conversationSeq) ∧
    ∀ m ∈ ms, ∀ r ∈ t.rows.items, ¬ Apart r.toIMMessage m.toIMMessage →
      StandsFor conversationId m.toIMMessage r.toIMMessage)
    ⟨fun h => ⟨h.1, h.2.1, h.2.2⟩, fun h => ⟨h.conversation, h.messages, h.rows⟩⟩

section Agrees

variable {u v : RowTable} {conversationId : String} {ms written : List InboundMessage} {m' : InboundMessage}

theorem StandsFor.of_place (h : StandsFor conversationId m.toIMMessage q.toIMMessage) (hplace : place q = place r) :
    StandsFor conversationId m.toIMMessage r.toIMMessage := by
  rwa [StandsFor, conversationId_of_place hplace, conversationSeq_of_place hplace, serverId_of_place hplace] at h

/-- What a write leaves of the seqs: none loses its row, and messages and rows still agree. -/
structure KeepsSeqs (conversationId : String) (ms : List InboundMessage) (t u : RowTable) : Prop where
  agrees : Agrees u conversationId ms
  seqs : ∀ seq, 0 < seq → t.HasSeq conversationId seq → u.HasSeq conversationId seq
  floor : u.clearedFloor = t.clearedFloor

theorem KeepsSeqs.trans (h : KeepsSeqs conversationId ms t u) (h' : KeepsSeqs conversationId ms u v) :
    KeepsSeqs conversationId ms t v :=
  ⟨h'.agrees, fun seq hpos hseq => h'.seqs seq hpos (h.seqs seq hpos hseq), h'.floor.trans h.floor⟩

variable (h : Agrees t conversationId ms)

include h

/-- Rows that are gone, and changes that move no row, make no difference. -/
theorem Agrees.of_rows (hrows : ∀ r ∈ u.rows.items, ∃ q ∈ t.rows.items, place q = place r) :
    Agrees u conversationId ms := by
  refine ⟨h.conversation, h.messages, fun m hm r hr hshares => ?_⟩
  obtain ⟨q, hq, hplace⟩ := hrows r hr
  exact (h.rows m hm q hq (mt (apart_iff_of_place hplace _).mp hshares)).of_place hplace

theorem Agrees.writes (hwritten : written ⊆ ms) (hwrites : Writes written t u) : Agrees u conversationId ms := by
  refine ⟨h.conversation, h.messages, fun m hm r hr hshares => ?_⟩
  rcases hwrites.rows r hr with ⟨q, hq, hplace⟩ | ⟨m', hm', hplace⟩
  · exact (h.rows m hm q hq (mt (apart_iff_of_place hplace _).mp hshares)).of_place hplace
  · refine .inl ⟨(conversationId_of_place hplace).symm.trans (h.conversation m' (hwritten hm')), ?_⟩
    rw [← conversationSeq_of_place hplace]
    exact h.messages m hm m' (hwritten hm') (mt (apart_iff_of_place hplace _).mp hshares)

/-- A message that is written has a row at its seq. -/
theorem Agrees.hasSeq_of_writes (hwritten : written ⊆ ms) (hwrites : Writes written t u)
    (hm : m ∈ written) : u.HasSeq conversationId m.conversationSeq := by
  obtain ⟨m', hm', hshares, r, hr, hplace⟩ := hwrites.stored m hm
  refine ⟨r, hr, (conversationId_of_place hplace).symm.trans (h.conversation m' (hwritten hm')), ?_⟩
  rw [← conversationSeq_of_place hplace]
  exact h.messages m (hwritten hm) m' (hwritten hm') hshares

/-- A message whose server id is that of a row has a row at its seq. -/
theorem Agrees.hasSeq_of_serverId (hm : m ∈ ms) (hr : r ∈ t.rows.items)
    (hserver : r.serverId = trim m.serverId) : t.HasSeq conversationId m.conversationSeq := by
  have hsame : trim r.serverId = trim m.serverId := by rw [hserver, trim_trim]
  rcases h.rows m hm r hr (not_apart_of_serverId hsame) with hstands | ⟨-, hne⟩
  · exact ⟨r, hr, hstands⟩
  · exact absurd hsame hne

theorem KeepsSeqs.refl : KeepsSeqs conversationId ms t t := ⟨h, fun _ _ hseq => hseq, rfl⟩

theorem Agrees.keepsSeqs (hwritten : written ⊆ ms) (hwrites : Writes written t u) :
    KeepsSeqs conversationId ms t u := by
  refine ⟨h.writes hwritten hwrites, fun seq hpos hseq => ?_, hwrites.floor⟩
  obtain ⟨r, hr, hconversation, rfl⟩ := hseq
  rcases hwrites.stays r hr with ⟨q, hq, hplace⟩ | ⟨m, hm, hshares⟩
  · exact ⟨q, hq, (conversationId_of_place hplace).trans hconversation, conversationSeq_of_place hplace⟩
  · -- The row went for a message, which stands at its seq.
    rcases h.rows m (hwritten hm) r hr hshares with ⟨-, hsame⟩ | ⟨hzero, -⟩
    · rw [hsame]
      exact h.hasSeq_of_writes hwritten hwrites hm
    · omega

end Agrees

end FlareIm.Store.RowTable
