import FlareIm.Store.KeptSeqs
import FlareIm.Sync.Pull

/-! The rows that applying a page leaves. Operation events bring none, and a message brings at most a row
at its own seq: as it is saved, or as the acknowledgement of the copy it was sent from. A message that is
not kept brings none, unless a stored row has one of its ids. Cursor and visibility floor of the
conversation stay what they were, as long as no event deletes the conversation and no message makes it
part of another. -/

namespace FlareIm.Sync

open Lib Message Store Events Dispatcher List RowTable IncomingMessageConverger

/-! ### Tables -/

/-- A row of `u` stands where one of `t` does, or at a new seq. -/
structure Receives (new : ℕ → Prop) (t u : RowTable) : Prop where
  rows : ∀ r ∈ u.rows.items, (∃ q ∈ t.rows.items, q.conversationId = r.conversationId ∧
    q.conversationSeq = r.conversationSeq) ∨ new r.conversationSeq
  floor : u.clearedFloor = t.clearedFloor

variable {conversationId userId : String} {ms : List InboundMessage} {new : ℕ → Prop}

section Tables

variable {new' : ℕ → Prop} {t u v : RowTable}

theorem Receives.refl (t : RowTable) : Receives new t t := ⟨fun r hr => .inl ⟨r, hr, rfl, rfl⟩, rfl⟩

theorem Receives.trans (h : Receives new t u) (h' : Receives new u v) : Receives new t v := by
  refine ⟨fun r hr => ?_, h'.floor.trans h.floor⟩
  rcases h'.rows r hr with ⟨q, hq, hconversation, hseq⟩ | hnew
  · rw [← hconversation, ← hseq]
    exact h.rows q hq
  · exact .inr hnew

theorem Receives.mono (h : Receives new t u) (hnew : ∀ seq, new seq → new' seq) : Receives new' t u :=
  ⟨fun r hr => (h.rows r hr).imp_right (hnew _), h.floor⟩

theorem receives_of_traces (h : t.Traces u) : Receives new t u := by
  refine ⟨fun r hr => ?_, h.floor⟩
  obtain ⟨q, hq, hplace⟩ := h.rows r hr
  exact .inl ⟨q, hq, conversationId_of_place hplace, conversationSeq_of_place hplace⟩

theorem receives_of_writes (h : Writes ms t u) (hnew : ∀ m ∈ ms, new m.conversationSeq) :
    Receives new t u := by
  refine ⟨fun r hr => ?_, h.floor⟩
  rcases h.rows r hr with ⟨q, hq, hplace⟩ | ⟨m, hm, hplace⟩
  · exact .inl ⟨q, hq, conversationId_of_place hplace, conversationSeq_of_place hplace⟩
  · exact .inr (conversationSeq_of_place hplace ▸ hnew m hm)

/-- The sending queue writes nothing but the row of the message it acknowledges. -/
def AcksOnly (onAck : SendAck → RowTable → RowTable) : Prop :=
  ∀ ack t, Receives (fun seq => ∃ accepted, ack.result = some (.accepted accepted) ∧
    accepted.conversationSeq = seq) t
    (onAck ack t)

variable [RowCodes] {c : IncomingMessageConverger} {found : RowTable}

/-- A message that meets stored rows may be written as an acknowledgement; a new one only passes. -/
theorem receives_convergeMessage {m : InboundMessage} (userId : String)
    (hqueue : ∀ onAck ∈ c.reliableQueue, AcksOnly onAck) (now : ℕ)
    (hm : ¬ found.NewTo m.toIMMessage → new m.conversationSeq) (acc : List InboundMessage × RowTable) :
    Receives new acc.2 (c.convergeMessage userId now found acc m).2 ∧
      (c.convergeMessage userId now found acc m).1 ⊆ acc.1 ++ [m] := by
  by_cases hnew : found.NewTo m.toIMMessage
  · rw [c.convergeMessage_of_newTo now userId hnew]
    exact ⟨.refl _, List.Subset.refl _⟩
  · have hseq := hm hnew
    unfold convergeMessage
    dsimp only
    split
    · exact ⟨.refl _, List.Subset.refl _⟩
    · refine ⟨?_, subset_append_left _ _⟩
      split
      · next onAck hsome =>
        refine (hqueue onAck hsome _ acc.2).mono ?_
        rintro seq ⟨accepted, haccepted, rfl⟩
        rw [← SendAckResult.accepted.inj (Option.some.inj haccepted)]
        exact hseq
      · refine receives_of_writes (writes_updateAfterAck (m := m) acc.2 now _ rfl) fun n hn => ?_
        rwa [mem_singleton.mp hn]
    · refine ⟨?_, subset_append_left _ _⟩
      split
      · exact receives_of_traces (.updateWhere acc.2 _ fun _ => by rfl)
      · exact .refl _

theorem receives_foldl_convergeMessage (userId : String)
    (hqueue : ∀ onAck ∈ c.reliableQueue, AcksOnly onAck) (now : ℕ) (ms : List InboundMessage)
    (hms : ∀ m ∈ ms, ¬ found.NewTo m.toIMMessage → new m.conversationSeq) (acc : List InboundMessage × RowTable) :
    Receives new acc.2 (ms.foldl (c.convergeMessage userId now found) acc).2 ∧
      (ms.foldl (c.convergeMessage userId now found) acc).1 ⊆ acc.1 ++ ms := by
  induction ms generalizing acc with
  | nil => exact ⟨.refl _, subset_append_left _ _⟩
  | cons m ms ih =>
    obtain ⟨hrow, hout⟩ := receives_convergeMessage userId hqueue now (hms m mem_cons_self) acc
    obtain ⟨hrows, houts⟩ := ih (fun m' hm' => hms m' (mem_cons_of_mem m hm'))
      (c.convergeMessage userId now found acc m)
    refine ⟨hrow.trans hrows, fun m' hm' => ?_⟩
    rw [append_cons]
    exact (mem_append.mp (houts hm')).elim (fun h => mem_append_left _ (hout h)) (mem_append_right _)

end Tables

/-! ### Events -/

/-- Nothing that the conversation counts from has moved, and every row stands where one did. -/
structure Unmoved (conversationId : String) (s t : SyncState) : Prop where
  userId : t.userId = s.userId
  cursor : ∀ userId, t.cursorSeq userId conversationId = s.cursorSeq userId conversationId
  floor : t.messages.clearedFloor conversationId = s.messages.clearedFloor conversationId
  rows : ∀ r ∈ t.messages.rows.items, ∃ q ∈ s.messages.rows.items, place q = place r

variable {s t u : SyncState}

section Events

instance : Std.Refl (Unmoved conversationId) := ⟨fun _ => ⟨rfl, fun _ => rfl, rfl, fun r hr => ⟨r, hr, rfl⟩⟩⟩

theorem Unmoved.trans (h : Unmoved conversationId s t) (h' : Unmoved conversationId t u) :
    Unmoved conversationId s u := by
  refine ⟨h'.userId.trans h.userId, fun userId => (h'.cursor userId).trans (h.cursor userId),
    h'.floor.trans h.floor, ?_⟩
  intro r hr
  obtain ⟨q, hq, hplace⟩ := h'.rows r hr
  obtain ⟨p, hp, hplace'⟩ := h.rows q hq
  exact ⟨p, hp, hplace'.trans hplace⟩

instance : IsTrans SyncState (Unmoved conversationId) := ⟨fun _ _ _ => .trans⟩

theorem Unmoved.newTo {m : IMMessage} (h : Unmoved conversationId s t) (hnew : s.messages.NewTo m) :
    t.messages.NewTo m := by
  intro r hr
  obtain ⟨q, hq, hplace⟩ := h.rows r hr
  exact (apart_iff_of_place hplace m).mp (hnew q hq)

theorem unmoved_storeCall : storeCall.Within (Unmoved conversationId) := by
  intro s
  obtain ⟨faults, hfaults⟩ := storeCall_leads s
  rw [hfaults]
  exact ⟨rfl, fun _ => rfl, rfl, fun r hr => ⟨r, hr, rfl⟩⟩

theorem unmoved_missingTargetIsAlreadyCovered (userId : String) (ev : Event) :
    (missingTargetIsAlreadyCovered userId ev).Within (Unmoved conversationId) := by
  refine .ite (.pure _) (.bind unmoved_storeCall fun _ => .get_bind fun s => .ite (.pure _) ?_)
  exact .bind unmoved_storeCall fun _ => .ite (.pure _) (.bind unmoved_storeCall fun _ => .pure _)

variable [EventCodes]

theorem unmoved_replayEvent (ev : Event) : (replayEvent userId ev).Within (Unmoved conversationId) := by
  refine .bind (.ite unmoved_storeCall (.pure _)) fun _ => .get_bind_of fun s => ?_
  have htraces := traces_applyReplay s.messages s.nowMs userId ev
  have hset : Unmoved conversationId s { s with messages := (applyReplay s.messages s.nowMs userId ev).2 } :=
    ⟨rfl, fun _ => rfl, congrFun htraces.floor conversationId, htraces.rows⟩
  refine .modify_bind ?_
  split
  · exact hset
  · exact hset
  · exact hset.trans (unmoved_missingTargetIsAlreadyCovered userId ev _)

theorem unmoved_applyNewEvent {ev : Event} (hev : ev.payload = some .conversationDelete →
    ev.conversationId ≠ conversationId) :
    (applyNewEvent userId ev).Within (Unmoved conversationId) := by
  have happly : (applyEvent userId ev).Within (Unmoved conversationId) := by
    unfold applyEvent
    split
    · next hdelete =>
      have hne := hev hdelete
      refine .bind (.attempt (.bind unmoved_storeCall fun _ => .modify fun s =>
        ⟨rfl, fun userId => ?_, ?_, fun r hr => ?_⟩))
        fun _ => .pure _
      · simp [SyncState.cursorSeq, deletedConversation, SyncState.dropCursors, hne.symm]
      · exact Function.update_of_ne hne.symm _ _
      · exact (RowTable.Traces.deleteConversation s.messages _).rows r hr
    · exact unmoved_replayEvent ev
  have hdeduper : ∀ f : SyncState → EventDeduper,
      (Prog.modify fun s => { s with deduper := f s } : SyncM Unit).Within (Unmoved conversationId) := fun _ =>
    .modify fun _ => ⟨rfl, fun _ => rfl, rfl, fun r hr => ⟨r, hr, rfl⟩⟩
  refine .get_bind fun s => .ite (.pure _) (.bind (hdeduper _) fun _ => .bind (.attempt happly) fun result => ?_)
  split
  · exact .pure _
  · exact .bind (hdeduper _) fun _ => .pure _

theorem unmoved_applyEvents (userId : String) {events : List Event}
    (hevents : ∀ ev ∈ events, ev.payload = some .conversationDelete → ev.conversationId ≠ conversationId) :
    (applyEvents userId events).Within (Unmoved conversationId) :=
  .foldlM_mem (fun _ ev hev => .bind (unmoved_applyNewEvent (hevents ev hev)) fun _ => .pure _) _

end Events

/-! ### Pages -/

/-- What applying a page leaves: nothing moved, and rows at most where rows were and at new seqs. -/
structure PageLeaves (conversationId : String) (new : ℕ → Prop) (s t : SyncState) : Prop where
  userId : t.userId = s.userId
  cursor : ∀ userId, t.cursorSeq userId conversationId = s.cursorSeq userId conversationId
  floor : t.messages.clearedFloor conversationId = s.messages.clearedFloor conversationId
  rows : ∀ r ∈ t.messages.rows.items, (∃ q ∈ s.messages.rows.items, q.conversationId = r.conversationId ∧
    q.conversationSeq = r.conversationSeq) ∨ new r.conversationSeq

section Pages

instance : Std.Refl (PageLeaves conversationId new) :=
  ⟨fun _ => ⟨rfl, fun _ => rfl, rfl, fun r hr => .inl ⟨r, hr, rfl, rfl⟩⟩⟩

theorem PageLeaves.trans (h : PageLeaves conversationId new s t) (h' : PageLeaves conversationId new t u) :
    PageLeaves conversationId new s u := by
  refine ⟨h'.userId.trans h.userId, fun userId => (h'.cursor userId).trans (h.cursor userId),
    h'.floor.trans h.floor, ?_⟩
  intro r hr
  rcases h'.rows r hr with ⟨q, hq, hconversation, hseq⟩ | hnew
  · rw [← hconversation, ← hseq]
    exact h.rows q hq
  · exact .inr hnew

theorem Unmoved.pageLeaves (h : Unmoved conversationId s t) : PageLeaves conversationId new s t := by
  refine ⟨h.userId, h.cursor, h.floor, fun r hr => ?_⟩
  obtain ⟨q, hq, hplace⟩ := h.rows r hr
  exact .inl ⟨q, hq, conversationId_of_place hplace, conversationSeq_of_place hplace⟩

theorem pageLeaves_storeCall : storeCall.Within (PageLeaves conversationId new) :=
  unmoved_storeCall.mono fun _ _ => Unmoved.pageLeaves

theorem pageLeaves_setMessages {messages : RowTable} (h : Receives new s.messages messages) :
    PageLeaves conversationId new s { s with messages := messages } :=
  ⟨rfl, fun _ => rfl, congrFun h.floor conversationId, h.rows⟩

variable [EventCodes] {ctx : SyncContext}

/-- The messages need no other conversation id, and the queue writes what it acknowledges. -/
structure StayInConversation (ctx : SyncContext) (userId : String) (ms : List InboundMessage) : Prop where
  canonical : ∀ m ∈ ms, (ctx.converger.canonicalizeSingleChatMessage userId m).2 = none
  queue : ∀ onAck ∈ ctx.converger.reliableQueue, AcksOnly onAck

variable (conversationId) in
theorem convergeMessages_leads (hstay : StayInConversation ctx userId ms) (s : SyncState)
    (hnew : ∀ m ∈ ms, ¬ s.messages.NewTo m.toIMMessage → new m.conversationSeq) :
    (convergeMessages ctx userId ms).Leads s fun result t => PageLeaves conversationId new s t ∧
      ∀ converged, result = .ok converged → ∀ m ∈ converged, ∃ m₀ ∈ ms, ctx.converger.received userId m₀ = m := by
  unfold convergeMessages
  split
  · refine .pure ⟨refl_of (PageLeaves conversationId new) s, fun converged hok m hm => ?_⟩
    rw [← Except.ok.inj hok] at hm
    exact absurd hm not_mem_nil
  · refine .bind (Q := fun _ t => ∃ faults, t = { s with faults := faults }) (storeCall_leads s) ?_ ?_
    · rintro _ _ ⟨faults, rfl⟩
      have hrewrites : (ctx.converger.canonicalizeIncomingMessages userId ms).2 = [] := by
        unfold canonicalizeIncomingMessages
        rw [filterMap_eq_nil_iff.mpr hstay.canonical]
        rfl
      have hseqs : ∀ m ∈ ms.map (ctx.converger.received userId), ¬ s.messages.NewTo m.toIMMessage →
          new m.conversationSeq := by
        intro m hm hold
        obtain ⟨m₀, hm₀, rfl⟩ := mem_map.mp hm
        rw [received_conversationSeq]
        exact hnew m₀ hm₀ fun h => hold (ctx.converger.newTo_received.mpr h)
      have hconverged := receives_foldl_convergeMessage userId hstay.queue s.nowMs _ hseqs ([], s.messages)
      refine .get_bind ?_
      rw [ctx.converger.convergeMessages_of_canonical s.nowMs hstay.canonical, hrewrites]
      refine .modify_bind (.pure ⟨?_, fun converged hok m hm => ?_⟩)
      · exact ⟨rfl, fun _ => rfl, congrFun hconverged.1.floor conversationId, hconverged.1.rows⟩
      · rw [← Except.ok.inj hok] at hm
        obtain ⟨m₀, hm₀, rfl⟩ := mem_map.mp (hconverged.2 hm)
        exact ⟨m₀, hm₀, rfl⟩
    · rintro e _ ⟨faults, rfl⟩
      exact ⟨⟨rfl, fun _ => rfl, rfl, fun r hr => .inl ⟨r, hr, rfl, rfl⟩⟩, fun _ hok => absurd hok (by simp)⟩

variable (conversationId) in
theorem persistConvergedMessages_leads (hstay : StayInConversation ctx userId ms) (s : SyncState)
    (hnew : ∀ m ∈ ms, ctx.isEphemeral (ctx.converger.received userId m) = false ∨ ¬ s.messages.NewTo m.toIMMessage →
      new m.conversationSeq) :
    (persistConvergedMessages ctx userId conversationId ms).Leads s fun _ t =>
      PageLeaves conversationId new s t := by
  have hfaults : ∀ faults, PageLeaves conversationId new s { s with faults := faults } := fun _ =>
    ⟨rfl, fun _ => rfl, rfl, fun r hr => .inl ⟨r, hr, rfl, rfl⟩⟩
  refine .bind (storeCall_leads s) ?_ ?_
  · rintro _ _ ⟨faults, rfl⟩
    refine .get_bind (.bind (convergeMessages_leads conversationId hstay { s with faults := faults }
      fun m hm hold => hnew m hm (.inr hold)) ?_ ?_)
    · rintro converged t ⟨hconverge, hconverged⟩
      have hleft := (hfaults faults).trans hconverge
      dsimp only
      split
      · exact .pure hleft
      · refine .bind (Q := fun _ u => PageLeaves conversationId new s u) (hleft.trans (pageLeaves_storeCall t)) ?_
          fun _ _ h => h
        intro _ u hu
        refine .modify_bind ((hu.trans (pageLeaves_setMessages
          (receives_of_writes (writes_saveBatch ..) fun m hm => ?_))).trans (pageLeaves_storeCall _))
        obtain ⟨hfresh, hdurable⟩ := mem_filter.mp (mem_of_mem_filter hm)
        obtain ⟨m₀, hm₀, rfl⟩ := hconverged converged rfl m (mem_of_mem_filter hfresh)
        rw [received_conversationSeq]
        exact hnew m₀ hm₀ (.inl (by simpa using hdurable))
    · exact fun _ _ h => (hfaults faults).trans h.1
  · rintro _ _ ⟨faults, rfl⟩
    exact hfaults faults

/-- The conversation is neither deleted nor made part of another by the page: none of its messages needs
another conversation id than its own. -/
structure StaysPut (ctx : SyncContext) (userId conversationId : String) (page : SingleConversationSyncRes)
    (knownSeq : ℕ) :
    Prop where
  events : ∀ op ∈ (decodeSingleConversationItems page knownSeq).operations,
    op.2.payload = some .conversationDelete → op.2.conversationId ≠ conversationId
  messages : StayInConversation ctx userId (decodeSingleConversationItems page knownSeq).messages

/-- Applying the page leaves rows at most where rows were, and at the seqs of messages that are kept or known. -/
theorem absorbPage_leaves {advancesCursor : Bool} {page : SingleConversationSyncRes}
    {requestedAfterSeq : ℕ} (s : SyncState)
    (hput : StaysPut ctx s.userId conversationId page
      (decodeAfterSeq advancesCursor conversationId s requestedAfterSeq))
    (hnew : ∀ m ∈ (decodeSingleConversationItems page
        (decodeAfterSeq advancesCursor conversationId s requestedAfterSeq)).messages,
      ctx.isEphemeral (ctx.converger.received s.userId m) = false ∨ ¬ s.messages.NewTo m.toIMMessage →
      new m.conversationSeq) :
    (absorbPage ctx advancesCursor conversationId page requestedAfterSeq).Leads s fun _ t =>
      PageLeaves conversationId new s t := by
  have hread : (if s.userId = "" then pure () else storeCall : SyncM Unit).Within (Unmoved conversationId) :=
    .ite (.pure _) unmoved_storeCall
  refine .get_bind (.bind (Q := fun _ t => Unmoved conversationId s t) (hread s)
    (fun _ t ht => ?_) fun _ _ h => h.pageLeaves)
  refine .bind (Q := fun _ t => Unmoved conversationId s t) (ht.trans (unmoved_storeCall t)) (fun _ u hu => ?_)
    fun _ _ h => h.pageLeaves
  generalize decodeAfterSeq advancesCursor conversationId s requestedAfterSeq = knownSeq at hput hnew ⊢
  refine .bind (Q := fun _ t => PageLeaves conversationId new s t) ?_ (fun _ _ h => .pure h) fun _ _ h => h
  have hdeletes : ∀ ev ∈ (decodeSingleConversationItems page knownSeq).operations.map Prod.snd,
      ev.payload = some .conversationDelete → ev.conversationId ≠ conversationId := by
    intro ev hev
    obtain ⟨op, hop, rfl⟩ := mem_map.mp hev
    exact hput.events op hop
  have hevents := unmoved_applyEvents s.userId hdeletes
  refine .bind (Q := fun _ t => Unmoved conversationId s t) (hu.trans (hevents u)) (fun outcomes v hv => ?_)
    fun _ _ h => h.pageLeaves
  refine .modify_bind (.bind (Q := fun _ t => PageLeaves conversationId new s t) ?_
    (fun _ _ h => .pure h) fun _ _ h => h)
  have hreported : Unmoved conversationId s (v.withReport (eventReport page knownSeq outcomes)) :=
    ⟨hv.userId, hv.cursor, hv.floor, hv.rows⟩
  have hmessages := persistConvergedMessages_leads conversationId hput.messages
    (v.withReport (eventReport page knownSeq outcomes)) fun m hm hor =>
      hnew m hm (hor.imp_right (mt hreported.newTo))
  exact hreported.pageLeaves.trans hmessages

end Pages

end FlareIm.Sync
