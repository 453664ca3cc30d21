import FlareIm.Events.Apply

/-! An operation event changes rows or removes them. It never brings a row, nor gives a row another
id, conversation or seq, so a message that is new to the table is new to it after any number of
operations, and a seq that no row has stays free. -/

namespace FlareIm.Store.RowTable

open Lib Message

/-- Every row of `u` has the ids of a row of `t`. -/
def KeepsIds (t u : RowTable) : Prop :=
  ∀ r ∈ u.rows.items, ∃ q ∈ t.rows.items, q.serverId = r.serverId ∧ q.clientMsgId = r.clientMsgId

variable {f : MessageRow → MessageRow} {t u v : RowTable}

namespace KeepsIds

theorem refl (t : RowTable) : t.KeepsIds t := fun r hr => ⟨r, hr, rfl, rfl⟩

theorem trans (h : t.KeepsIds u) (h' : u.KeepsIds v) : t.KeepsIds v := by
  intro r hr
  obtain ⟨q, hq, hserver, hclient⟩ := h' r hr
  obtain ⟨p, hp, hserver', hclient'⟩ := h q hq
  exact ⟨p, hp, hserver'.trans hserver, hclient'.trans hclient⟩

end KeepsIds

/-- What no event changes of a row. -/
def place (r : MessageRow) : (String × String) × String × ℕ :=
  ((r.serverId, r.clientMsgId), r.conversationId, r.conversationSeq)

/-- Every row of `u` stands where a row of `t` does, and the history is visible from where it was. -/
structure Traces (t u : RowTable) : Prop where
  rows : ∀ r ∈ u.rows.items, ∃ q ∈ t.rows.items, place q = place r
  floor : u.clearedFloor = t.clearedFloor

namespace Traces

theorem refl (t : RowTable) : t.Traces t := ⟨fun r hr => ⟨r, hr, rfl⟩, rfl⟩

theorem trans (h : t.Traces u) (h' : u.Traces v) : t.Traces v := by
  refine ⟨fun r hr => ?_, h'.floor.trans h.floor⟩
  obtain ⟨q, hq, hplace⟩ := h'.rows r hr
  obtain ⟨p, hp, hplace'⟩ := h.rows q hq
  exact ⟨p, hp, hplace'.trans hplace⟩

theorem keepsIds (h : t.Traces u) : t.KeepsIds u := by
  intro r hr
  obtain ⟨q, hq, hplace⟩ := h.rows r hr
  have hids := (Prod.mk.inj hplace).1
  exact ⟨q, hq, (Prod.mk.inj hids).1, (Prod.mk.inj hids).2⟩

variable (t : RowTable)

theorem updateWhere (p : MessageRow → Bool) (hplace : ∀ r, place (f r) = place r) :
    t.Traces (t.updateWhere p f fun r => congrArg (·.1.1) (hplace r)) := by
  refine ⟨fun r hr => ?_, rfl⟩
  obtain ⟨q, hq, rfl⟩ := List.mem_map.mp hr
  refine ⟨q, hq, ?_⟩
  split
  · exact (hplace q).symm
  · rfl

theorem deleteRows (p : MessageRow → Bool) : t.Traces (t.deleteRows p) :=
  ⟨fun r hr => ⟨r, List.mem_of_mem_filter hr, rfl⟩, rfl⟩

theorem deleteReactions (p : ReactionRow → Bool) : t.Traces (t.deleteReactions p) := ⟨fun r hr => ⟨r, hr, rfl⟩, rfl⟩

theorem insertReaction (reaction : ReactionRow) : t.Traces (t.insertReaction reaction) :=
  ⟨fun r hr => ⟨r, hr, rfl⟩, rfl⟩

theorem deleteConversation (conversationId : String) : t.Traces (t.deleteConversation conversationId) :=
  (deleteReactions t _).trans (deleteRows _ _)

theorem applyEditEvent (now : ℕ) (id : String) (content : Content) (seq : Option ℕ) :
    t.Traces (t.applyEditEvent now id content seq).2 := by
  unfold RowTable.applyEditEvent
  split
  · exact refl t
  · split
    · exact refl t
    · exact updateWhere t _ fun _ => by rfl

theorem applyMessageExtraWithSeq (id key : String) (seq : Option ℕ) (f : Attributes → Attributes) :
    t.Traces (t.applyMessageExtraWithSeq id key seq f).2 := by
  unfold RowTable.applyMessageExtraWithSeq
  dsimp only
  split
  · exact refl t
  · exact updateWhere t _ fun _ => by rfl

theorem refreshReactionsJsonSnapshot [RowCodes] (id : String) : t.Traces (t.refreshReactionsJsonSnapshot id) := by
  unfold RowTable.refreshReactionsJsonSnapshot
  split
  · exact refl t
  · split
    · exact refl t
    · split
      · exact refl t
      · exact updateWhere t _ fun _ => by rfl

theorem applyReactionEvent [RowCodes] (now : ℕ) (conversationId id userId emoji : String) (action : ℤ)
    (seq : Option ℕ) : t.Traces (t.applyReactionEvent now conversationId id userId emoji action seq).2 := by
  have hmarked := applyMessageExtraWithSeq t id ("lastReactionEventSeq:" ++ userId ++ ":" ++ emoji) seq
    fun attributes => attributes
  unfold RowTable.applyReactionEvent
  split
  · exact refl t
  · split
    · exact refl t
    · dsimp only
      split
      · exact hmarked
      · split
        · exact (hmarked.trans (deleteReactions _ _)).trans (refreshReactionsJsonSnapshot _ id)
        · exact (hmarked.trans (insertReaction _ _)).trans (refreshReactionsJsonSnapshot _ id)

theorem applyDeleteEvent (id : String) (seq : Option ℕ) : t.Traces (t.applyDeleteEvent id seq).2 := by
  unfold RowTable.applyDeleteEvent
  split
  · exact refl t
  · split
    · exact refl t
    · exact (deleteReactions t _).trans (deleteRows _ _)

theorem retainRows {outcome : ApplyResult × RowTable} (h : t.Traces outcome.2) (id : String)
    (hplace : ∀ r, place (f r) = place r) :
    t.Traces (retainRows outcome id f fun r => congrArg (·.1.1) (hplace r)).2 := by
  unfold RowTable.retainRows
  split
  · exact trans h (updateWhere _ _ hplace)
  · exact h

theorem markOutgoingReadUptoSeq [RowCodes] (conversationId userId : String) (readSeq : ℕ) :
    t.Traces (t.markOutgoingReadUptoSeq conversationId userId readSeq) := by
  unfold RowTable.markOutgoingReadUptoSeq
  split
  · exact refl t
  · exact updateWhere t _ fun _ => by rfl

end Traces

end FlareIm.Store.RowTable

namespace FlareIm.Events

open Lib Message Store RowTable

theorem traces_storePluginSharedState (t : RowTable) (id : String) (state : SharedState) :
    t.Traces (storePluginSharedState t id state).2 := by
  unfold storePluginSharedState
  dsimp only
  split
  · exact .refl t
  · exact .updateWhere t _ fun _ => by rfl

variable [EventCodes]

theorem traces_applyPluginSharedState (t : RowTable) (id pluginId : String) (state : Option SharedState) :
    t.Traces (applyPluginSharedState t id pluginId state).2 := by
  unfold applyPluginSharedState
  split
  · exact .refl t
  · next state =>
    split
    · exact .refl t
    · split
      · exact .refl t
      · split
        · exact .refl t
        · have h := traces_storePluginSharedState t (trim id) state
          generalize storePluginSharedState t (trim id) state = stored at h ⊢
          obtain ⟨_ | _ | _, u⟩ := stored <;> exact h

variable (t : RowTable) (now : ℕ) (userId : String) (ev : Event)

/-- No operation event brings a row. -/
theorem traces_applyRealtime : t.Traces (applyRealtime t now userId ev).2 := by
  unfold applyRealtime
  split
  · rw [snd_recallReported]
    exact .updateWhere t _ fun _ => by rfl
  · exact .refl t
  · split
    · exact .refl t
    · exact .applyEditEvent t now _ _ _
  · exact .applyReactionEvent t now _ _ _ _ _ _
  · split
    · exact .applyDeleteEvent t _ _
    · exact .refl t
  · split
    · exact .markOutgoingReadUptoSeq t _ _ _
    · exact .refl t
  · exact .retainRows t (.applyMessageExtraWithSeq t _ _ _ _) _ fun _ => by rfl
  · exact .refl t
  · exact .retainRows t (.applyMessageExtraWithSeq t _ _ _ _) _ fun _ => by rfl
  · exact .refl t
  · exact .retainRows t (.applyMessageExtraWithSeq t _ _ _ _) _ fun _ => by rfl
  · exact .refl t
  · exact .applyMessageExtraWithSeq t _ _ _ _
  · exact .applyMessageExtraWithSeq t _ _ _ _
  · exact .applyMessageExtraWithSeq t _ _ _ _
  · exact .applyMessageExtraWithSeq t _ _ _ _
  · next id pluginId state _ =>
    have h := traces_applyPluginSharedState t id pluginId state
    generalize applyPluginSharedState t id pluginId state = stored at h ⊢
    obtain ⟨_ | _ | _ | _, u⟩ := stored <;> exact h
  · exact .deleteConversation t _
  all_goals exact .refl t

theorem traces_applyReplay : t.Traces (applyReplay t now userId ev).2 := by
  unfold applyReplay
  split
  · split
    · exact .refl t
    · exact .updateWhere t _ fun _ => by rfl
  · exact .refl t
  · split
    · exact .refl t
    · exact .applyEditEvent t now _ _ _
  · exact .applyReactionEvent t now _ _ _ _ _ _
  · split
    · exact .applyDeleteEvent t _ _
    · exact .refl t
  · split
    · exact .markOutgoingReadUptoSeq t _ _ _
    · exact .refl t
  · exact .retainRows t (.applyMessageExtraWithSeq t _ _ _ _) _ fun _ => by rfl
  · exact .refl t
  · exact .retainRows t (.applyMessageExtraWithSeq t _ _ _ _) _ fun _ => by rfl
  · exact .refl t
  · exact .retainRows t (.applyMessageExtraWithSeq t _ _ _ _) _ fun _ => by rfl
  · exact .refl t
  · split
    · exact .refl t
    · exact .applyMessageExtraWithSeq t _ _ _ _
  · split
    · exact .refl t
    · exact .applyMessageExtraWithSeq t _ _ _ _
  · exact .applyMessageExtraWithSeq t _ _ _ _
  · exact .applyMessageExtraWithSeq t _ _ _ _
  · next id pluginId state _ =>
    have h := traces_applyPluginSharedState t id pluginId state
    generalize applyPluginSharedState t id pluginId state = stored at h ⊢
    obtain ⟨_ | _ | _ | _, u⟩ := stored <;> exact h
  · exact .deleteConversation t _
  all_goals exact .refl t

end FlareIm.Events
