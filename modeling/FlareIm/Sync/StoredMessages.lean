import FlareIm.Store.KeptSeqs
import FlareIm.Sync.PageRows

/-! What becomes of the messages of a page. A message that comes in is saved, or it is a duplicate of a
row, or it is the echo of a message that was sent from here: the echo is written as the acknowledgement
of the pending copy, or handed to the sending queue if there is one, which writes it later. Of the
messages that are left, those below the visibility floor and those that are not kept are not saved. Where
messages and rows that share an id stand at one seq, every other message has a row at its seq afterwards. -/

namespace FlareIm.Sync

open Lib Message Store Events Dispatcher List MessageTable IncomingMessageConverger

/-! ### Convergence -/

/-- The sending queue takes an acknowledgement, and writes it at a time of its own. -/
def Defers (c : IncomingMessageConverger) : Prop := ∀ onAck ∈ c.reliableQueue, ∀ ack t, onAck ack t = t

variable {all ms : List InboundMessage} {conversationId : String}

section Converge

variable [RowCodes] (c : IncomingMessageConverger) (userId : String) (found : RowTable)

/-- The message is handed to the sending queue as an acknowledgement. -/
def handsOver (m : InboundMessage) : Bool :=
  c.reliableQueue.isSome && decideIncomingMessageConvergence userId m.toIMMessage
    (IncomingMessageConverger.localByClientMsgId found m.toIMMessage)
    (IncomingMessageConverger.localByServerId found m.toIMMessage) = .mergePendingAndAck

variable {c userId found} {now : ℕ} {m : InboundMessage}

omit [RowCodes] in
theorem exists_row_of_localByServerId {l : IMMessage}
    (h : localByServerId found m.toIMMessage = some l) :
    ∃ r ∈ found.rows.items, r.serverId = trim m.serverId := by
  unfold localByServerId at h
  split at h
  · exact absurd h (by simp)
  · obtain ⟨r, hr, -⟩ := Option.map_eq_some_iff.mp h
    exact ⟨r, (found.rows.find?_eq_some_iff _ r).mp hr⟩

variable (userId found now m) in
theorem convergeMessage_cases (hqueue : Defers c) (acc : List InboundMessage × RowTable) :
    (c.convergeMessage userId now found acc m = (acc.1 ++ [m], acc.2)) ∨
    (c.convergeMessage userId now found acc m = acc ∧ handsOver c userId found m = true) ∨
    ((c.convergeMessage userId now found acc m).1 = acc.1 ∧
      RowTable.Writes [m] acc.2 (c.convergeMessage userId now found acc m).2) ∨
    ((c.convergeMessage userId now found acc m).1 = acc.1 ∧
      RowTable.Writes [] acc.2 (c.convergeMessage userId now found acc m).2 ∧
      ∃ r ∈ found.rows.items, r.serverId = trim m.serverId) := by
  unfold convergeMessage handsOver
  dsimp only
  split
  · exact .inl rfl
  · next hmerge =>
    right
    cases hsome : c.reliableQueue with
    | some onAck => exact .inl ⟨Prod.ext rfl (hqueue onAck hsome _ _), by simp [hmerge]⟩
    | none => exact .inr (.inl ⟨rfl, RowTable.writes_updateAfterAck acc.2 now
        { m with toIMMessage := mergeIncomingAsSent _ m.toIMMessage } rfl⟩)
  · next hdrop =>
    refine .inr (.inr (.inr ⟨rfl, ?_, ?_⟩))
    · split
      · exact RowTable.writes_updateStatus _ _ _
      · exact RowTable.writes_refl _
    · obtain ⟨l, hl⟩ := Option.isSome_iff_exists.mp (decideIncomingMessageConvergence_eq_dropDuplicate.mp hdrop)
      exact exists_row_of_localByServerId hl

variable (userId) in
/-- A message is left to be saved, or handed over, or it has a row at its seq. -/
theorem convergeMessage_keeps (hqueue : Defers c) (now : ℕ)
    (hfound : found.Agrees conversationId all) (hm : m ∈ all)
    {acc : List InboundMessage × RowTable} (hacc : RowTable.KeepsSeqs conversationId all found acc.2) :
    RowTable.KeepsSeqs conversationId all acc.2 (c.convergeMessage userId now found acc m).2 ∧
      ∃ emitted ⊆ [m], (c.convergeMessage userId now found acc m).1 = acc.1 ++ emitted ∧
        (0 < m.conversationSeq → m ∈ emitted ∨ handsOver c userId found m = true ∨
          (c.convergeMessage userId now found acc m).2.HasSeq conversationId m.conversationSeq) := by
  have hkeeps : RowTable.KeepsSeqs conversationId all acc.2 acc.2 := .refl hacc.agrees
  rcases convergeMessage_cases userId found now m hqueue acc with
    hemits | ⟨hsame, hhands⟩ | ⟨hout, hwrites⟩ | ⟨hout, hwrites, r, hr, hserver⟩
  · rw [hemits]
    exact ⟨hkeeps, [m], List.Subset.refl _, rfl, fun _ => .inl (mem_singleton.mpr rfl)⟩
  · rw [hsame]
    exact ⟨hkeeps, [], nil_subset _, (append_nil _).symm, fun _ => .inr (.inl hhands)⟩
  · have hmem : [m] ⊆ all := cons_subset.mpr ⟨hm, nil_subset _⟩
    refine ⟨hacc.agrees.keepsSeqs hmem hwrites, [], nil_subset _, hout.trans (append_nil _).symm, fun _ => ?_⟩
    exact .inr (.inr (hacc.agrees.hasSeq_of_writes hmem hwrites (mem_singleton.mpr rfl)))
  · have hnext := hacc.agrees.keepsSeqs (nil_subset _) hwrites
    refine ⟨hnext, [], nil_subset _, hout.trans (append_nil _).symm, fun hpos => ?_⟩
    have hseq := hacc.seqs _ hpos (hfound.hasSeq_of_serverId hm hr hserver)
    exact .inr (.inr (hnext.seqs _ hpos hseq))

variable (userId) in
theorem foldl_convergeMessage_keeps (hqueue : Defers c) (now : ℕ) (hfound : found.Agrees conversationId all)
    (hms : ms ⊆ all) (acc : List InboundMessage × RowTable)
    (hacc : RowTable.KeepsSeqs conversationId all found acc.2) :
    RowTable.KeepsSeqs conversationId all acc.2 (ms.foldl (c.convergeMessage userId now found) acc).2 ∧
      ∃ emitted ⊆ ms, (ms.foldl (c.convergeMessage userId now found) acc).1 = acc.1 ++ emitted ∧
        ∀ m ∈ ms, 0 < m.conversationSeq → m ∈ emitted ∨ handsOver c userId found m = true ∨
          (ms.foldl (c.convergeMessage userId now found) acc).2.HasSeq conversationId m.conversationSeq := by
  induction ms generalizing acc with
  | nil => exact ⟨.refl hacc.agrees, [], List.Subset.refl _, (append_nil _).symm, fun m hm => absurd hm not_mem_nil⟩
  | cons m ms ih =>
    obtain ⟨hm, hrest⟩ := cons_subset.mp hms
    obtain ⟨hnext, emitted, hemitted, hout, hstored⟩ := convergeMessage_keeps userId hqueue now hfound hm hacc
    obtain ⟨hlast, emitted', hemitted', hout', hstored'⟩ := ih hrest _ (hacc.trans hnext)
    rw [foldl_cons]
    refine ⟨hnext.trans hlast, emitted ++ emitted', ?_, ?_, fun n hn hpos => ?_⟩
    · exact append_subset.mpr ⟨List.Subset.trans hemitted (cons_subset.mpr ⟨mem_cons_self, nil_subset _⟩),
        List.Subset.trans hemitted' (subset_cons_self m ms)⟩
    · rw [hout', hout, append_assoc]
    · rcases mem_cons.mp hn with rfl | hn
      · rcases hstored hpos with hmem | hhands | hseq
        · exact .inl (mem_append_left _ hmem)
        · exact .inr (.inl hhands)
        · exact .inr (.inr (hlast.seqs _ hpos hseq))
      · rcases hstored' n hn hpos with hmem | hother
        · exact .inl (mem_append_right _ hmem)
        · exact .inr hother

end Converge

/-! ### Saving -/

section Save

variable [EventCodes] {ctx : SyncContext} {userId : String} {s : SyncState}

/-- The messages are of the conversation, under the one id it has here, and messages and rows that share an
id stand at one seq. -/
structure Sent (ctx : SyncContext) (userId conversationId : String) (ms : List InboundMessage) (t : RowTable) :
    Prop where
  named : isBlank conversationId = false
  trimmed : trim conversationId = conversationId
  canonical : ∀ m ∈ ms, (ctx.converger.canonicalizeSingleChatMessage userId m).2 = none
  agrees : t.Agrees conversationId (ms.map (ctx.converger.received userId))

/-- The message gets no row at its seq: it is not kept, it is hidden, or the sending queue has been given it. -/
def Unkept (ctx : SyncContext) (userId conversationId : String) (found : RowTable) (m : InboundMessage) : Prop :=
  ctx.isEphemeral (ctx.converger.received userId m) = true ∨ m.conversationSeq ≤ found.clearedFloor conversationId ∨
    handsOver ctx.converger userId found (ctx.converger.received userId m) = true

theorem convergeMessages_yields (hqueue : Defers ctx.converger)
    (hsent : Sent ctx userId conversationId all s.messages)
    (hms : ms ⊆ all) : (convergeMessages ctx userId ms).Yields s fun converged t =>
      RowTable.KeepsSeqs conversationId (all.map (ctx.converger.received userId)) s.messages t.messages ∧
      t.userId = s.userId ∧ converged ⊆ ms.map (ctx.converger.received userId) ∧
      ∀ m ∈ ms, 0 < m.conversationSeq → ctx.converger.received userId m ∈ converged ∨
        handsOver ctx.converger userId s.messages (ctx.converger.received userId m) = true ∨
        t.messages.HasSeq conversationId m.conversationSeq := by
  unfold convergeMessages
  split
  · next hempty =>
    rw [isEmpty_iff.mp hempty]
    exact .pure ⟨.refl hsent.agrees, rfl, List.Subset.refl _, fun m hm => absurd hm not_mem_nil⟩
  · refine (storeCall_leads s).yields.bind ?_
    rintro _ _ ⟨faults, rfl⟩
    refine .get_bind ?_
    rw [ctx.converger.convergeMessages_of_canonical s.nowMs fun m hm => hsent.canonical m (hms hm)]
    obtain ⟨hkeeps, emitted, hemitted, hout, hstored⟩ :=
      foldl_convergeMessage_keeps userId hqueue s.nowMs hsent.agrees
      (map_subset (ctx.converger.received userId) hms) ([], s.messages) (.refl hsent.agrees)
    rw [nil_append] at hout
    refine .modify_bind (.pure ⟨hkeeps, rfl, hout ▸ hemitted, fun m hm hpos => ?_⟩)
    have hseq : (ctx.converger.received userId m).conversationSeq = m.conversationSeq :=
      ctx.converger.received_conversationSeq userId m
    have hconverged := hstored _ (mem_map_of_mem hm) (hseq ▸ hpos)
    rwa [← hout, hseq] at hconverged

/-- Messages that are left are saved, unless they are hidden or not kept. -/
theorem unkept_or_mem_durable {t : RowTable} (hsent : Sent ctx userId conversationId all s.messages)
    {m : InboundMessage}
    (hm : m ∈ all) (hfloor : t.clearedFloor = s.messages.clearedFloor) {converged : List InboundMessage}
    (hmem : ctx.converger.received userId m ∈ converged) :
    Unkept ctx userId conversationId s.messages m ∨ ctx.converger.received userId m ∈
      (((converged.filter fun m => messageVisibleAfterClear m.toIMMessage
        (s.messages.clearedFloor conversationId)).filter fun m => !ctx.isEphemeral m).filter t.isPersistable) := by
  have hconversation : (ctx.converger.received userId m).conversationId = conversationId :=
    hsent.agrees.conversation _ (mem_map_of_mem hm)
  by_cases hephemeral : ctx.isEphemeral (ctx.converger.received userId m) = true
  · exact .inl (.inl hephemeral)
  · by_cases hhidden : m.conversationSeq ≤ s.messages.clearedFloor conversationId
    · exact .inl (.inr (.inl hhidden))
    · have hvisible : messageVisibleAfterClear (ctx.converger.received userId m).toIMMessage
          (s.messages.clearedFloor conversationId) = true := by
        simp [messageVisibleAfterClear, not_le.mp hhidden]
      have hpersistable : t.isPersistable (ctx.converger.received userId m) = true := by
        have hbase : t.base.clearedFloor = s.messages.clearedFloor := hfloor
        rw [RowTable.isPersistable, isPersistable, hconversation, hsent.trimmed, hbase, hsent.named, hvisible]
        rfl
      refine .inr (mem_filter.mpr ⟨mem_filter.mpr ⟨mem_filter.mpr ⟨hmem, hvisible⟩, ?_⟩, hpersistable⟩)
      simp [hephemeral]

/-- A message of the page that is kept has a row at its seq once the page is saved. -/
theorem persistConvergedMessages_yields (hqueue : Defers ctx.converger)
    (hsent : Sent ctx userId conversationId all s.messages) (hms : ms ⊆ all) :
    (persistConvergedMessages ctx userId conversationId ms).Yields s fun _ t =>
      RowTable.KeepsSeqs conversationId (all.map (ctx.converger.received userId)) s.messages t.messages ∧
      t.userId = s.userId ∧
      ∀ m ∈ ms, 0 < m.conversationSeq → Unkept ctx userId conversationId s.messages m ∨
        t.messages.HasSeq conversationId m.conversationSeq := by
  refine (storeCall_leads s).yields.bind ?_
  rintro _ _ ⟨faults, rfl⟩
  refine .get_bind ((convergeMessages_yields (s := { s with faults := faults }) hqueue hsent hms).bind ?_)
  rintro converged t ⟨hkeeps, huser, hconverged, hstored⟩
  dsimp only at hkeeps huser hstored ⊢
  split
  · next hnone =>
    refine .pure ⟨hkeeps, huser, fun m hm hpos => ?_⟩
    rcases hstored m hm hpos with hmem | hhands | hseq
    · refine (unkept_or_mem_durable hsent (hms hm) hkeeps.floor hmem).imp_right fun hdurable => ?_
      rw [isEmpty_iff.mp hnone] at hdurable
      exact absurd hdurable not_mem_nil
    · exact .inl (.inr (.inr hhands))
    · exact .inr hseq
  · refine (storeCall_leads t).yields.bind ?_
    rintro _ _ ⟨faults', rfl⟩
    have hwrites := RowTable.writes_saveBatch t.messages t.nowMs ((converged.filter fun m =>
      messageVisibleAfterClear m.toIMMessage (s.messages.clearedFloor conversationId)).filter
        fun m => !ctx.isEphemeral m)
    have hwritten : ((((converged.filter fun m => messageVisibleAfterClear m.toIMMessage
        (s.messages.clearedFloor conversationId)).filter fun m => !ctx.isEphemeral m).filter
          t.messages.isPersistable)) ⊆
        all.map (ctx.converger.received userId) := fun m hm => map_subset _ hms
      (hconverged (mem_of_mem_filter (mem_of_mem_filter (mem_of_mem_filter hm))))
    have hsaved := hkeeps.agrees.keepsSeqs hwritten hwrites
    refine .modify_bind ((storeCall_leads _).yields.mono ?_)
    rintro _ _ ⟨faults'', rfl⟩
    refine ⟨hkeeps.trans hsaved, huser, fun m hm hpos => ?_⟩
    rcases hstored m hm hpos with hmem | hhands | hseq
    · refine (unkept_or_mem_durable hsent (hms hm) hkeeps.floor hmem).imp_right fun hdurable => ?_
      rw [← ctx.converger.received_conversationSeq userId m]
      exact hkeeps.agrees.hasSeq_of_writes hwritten hwrites hdurable
    · exact .inl (.inr (.inr hhands))
    · exact .inr (hsaved.seqs _ hpos hseq)

end Save

end FlareIm.Sync
