import FlareIm.Store.MemoryStore
import FlareIm.Store.Versions

/-! The table and the memory store side by side. Calls that both treat alike leave the same messages with
the same content, pin, marks and reactions, and answer the same. What the two keep besides differs: only the
table numbers edits and reactions, so the attributes are compared without the keys of those. -/

namespace FlareIm.Store

open Lib Message RowTable List KeyedMap MessageTable Std.ExtTreeMap ReactionEvent

/-! ### Attributes that only one of the stores keeps -/

def isPrivate (key : String) : Bool :=
  key ∈ ["lastEditEventSeq", "currentEditVersion", "messageFsmState", "lastEditedAt", "reactionsJson"] ||
    startsWith "lastReactionEventSeq:" key

def Agree (a b : Attributes) : Prop := ∀ key, isPrivate key = false → a[key]? = b[key]?

section Agree

variable {a b incoming existing existing' : Attributes} {key : String}

theorem messageAttributeSeq_congr (h : a[key]? = b[key]?) :
    messageAttributeSeq a key = messageAttributeSeq b key := by
  rw [messageAttributeSeq, h, messageAttributeSeq]

theorem copyAttribute_congr (h : existing[key]? = existing'[key]?) :
    copyAttribute incoming existing key = copyAttribute incoming existing' key := by
  rw [copyAttribute, h, copyAttribute]

theorem preserve_congr (h : existing[key]? = existing'[key]?) :
    preserveAttributeIfMissing incoming existing key = preserveAttributeIfMissing incoming existing' key := by
  rw [preserveAttributeIfMissing, h, preserveAttributeIfMissing]

section

variable (h : Agree a b)

include h

theorem Agree.insert (key value : String) : Agree (a.insert key value) (b.insert key value) := by
  intro k hk
  rw [Std.ExtTreeMap.getElem?_insert, Std.ExtTreeMap.getElem?_insert, h k hk]

theorem Agree.insert_left (hkey : isPrivate key = true) (value : String) : Agree (a.insert key value) b := by
  intro k hk
  rw [getElem?_insert_of_ne _ value, h k hk]
  rintro rfl
  exact absurd hkey (by simp [hk])

theorem Agree.erase_left (hkey : isPrivate key = true) : Agree (a.erase key) b := by
  intro k hk
  rw [getElem?_erase_of_ne, h k hk]
  rintro rfl
  exact absurd hkey (by simp [hk])

theorem Agree.symm : Agree b a := fun k hk => (h k hk).symm

variable (existing : Attributes) (key : String)

theorem Agree.copy : Agree (copyAttribute a existing key) (copyAttribute b existing key) := by
  unfold copyAttribute
  split
  · exact h.insert key _
  · intro k hk
    rw [getElem?_erase, getElem?_erase, h k hk]

theorem Agree.preserve (hkey : isPrivate key = false) :
    Agree (preserveAttributeIfMissing a existing key) (preserveAttributeIfMissing b existing key) := by
  unfold preserveAttributeIfMissing
  rw [h key hkey]
  split
  · exact h.insert key _
  · exact h

end

theorem Agree.foldl (f : Attributes → String → Attributes)
    (hf : ∀ a b key, Agree a b → Agree (f a key) (f b key)) (keys : List String) (h : Agree a b) :
    Agree (keys.foldl f a) (keys.foldl f b) := by
  induction keys generalizing a b with
  | nil => exact h
  | cons key keys ih => exact ih (hf a b key h)

theorem isPrivate_of_startsWith_mark (h : startsWith "lastMarkEventSeq:" key = true) : isPrivate key = false := by
  rw [isPrivate, Bool.or_eq_false_iff, decide_eq_false_iff_not]
  constructor
  · intro hmem
    have hnone : ∀ key ∈ ["lastEditEventSeq", "currentEditVersion", "messageFsmState",
      "lastEditedAt", "reactionsJson"],
        startsWith "lastMarkEventSeq:" key = false := by decide
    rw [hnone key hmem] at h
    exact Bool.noConfusion h
  · by_contra hreaction
    have hboth := startsWith_or_startsWith h (by simpa using hreaction)
    exact absurd hboth (by decide)

section Existing

variable (h : Agree existing existing')

include h

/-- A merge looks at the stored row's own keys only. -/
theorem mergePin_congr : mergePin incoming existing = mergePin incoming existing' := by
  have hseq := h "lastPinEventSeq" (by decide)
  have hflag := h "pinned" (by decide)
  rw [mergePin, mergePin, messageAttributeSeq_congr hseq, copyAttribute_congr hflag, preserve_congr hseq,
    preserve_congr hflag]

theorem mergeMark_congr (hkey : startsWith "lastMarkEventSeq:" key = true) :
    mergeMark existing incoming key = mergeMark existing' incoming key := by
  have hseq := h key (isPrivate_of_startsWith_mark hkey)
  have htype := h "markType" (by decide)
  have hcolor := h "markColor" (by decide)
  rw [mergeMark, mergeMark, messageAttributeSeq_congr hseq, preserve_congr hseq, copyAttribute_congr htype,
    copyAttribute_congr hcolor]

theorem markKeys_congr :
    existing.keys.filter (startsWith "lastMarkEventSeq:") =
      existing'.keys.filter (startsWith "lastMarkEventSeq:") := by
  rw [← keys_filter_key, ← keys_filter_key]
  refine congrArg Std.ExtTreeMap.keys (ext_getElem? fun k => ?_)
  rw [getElem?_filter', getElem?_filter']
  cases hk : startsWith "lastMarkEventSeq:" k with
  | true => rw [h k (isPrivate_of_startsWith_mark hk)]
  | false => simp

theorem agree_mergeMarksAndReactions :
    Agree (mergeMarksAndReactions incoming existing) (mergeMarksAndReactions incoming existing') := by
  have hmarks : (existing.keys.filter (startsWith "lastMarkEventSeq:")).foldl (mergeMark existing) incoming =
      (existing'.keys.filter (startsWith "lastMarkEventSeq:")).foldl (mergeMark existing') incoming := by
    rw [markKeys_congr h]
    refine foldl_ext _ _ _ fun attributes key hkey => ?_
    exact mergeMark_congr h (mem_filter.mp hkey).2
  intro k hk
  have hnot : ∀ existing : Attributes, k ∉ existing.keys.filter (startsWith "lastReactionEventSeq:") := fun _ =>
    not_mem_filter_of_startsWith (Bool.or_eq_false_iff.mp hk).2
  unfold mergeMarksAndReactions
  dsimp only
  rw [hmarks, getElem?_foldl_preserve, getElem?_foldl_preserve, h k hk]
  refine if_congr ?_ rfl rfl
  simp only [mem_append, hnot, or_false]

theorem carryPluginSharedState_congr :
    carryPluginSharedState incoming existing = carryPluginSharedState incoming existing' := by
  have hjson := h pluginSharedStateJsonKey (by decide)
  have hversion := h pluginSharedStateVersionKey (by decide)
  have hentity := h pluginSharedEntityKey (by decide)
  unfold carryPluginSharedState pluginSharedStateVersion
  simp only [foldl_cons, foldl_nil]
  rw [preserve_congr hentity, hjson, hversion]

theorem carryPluginMessageState_congr :
    carryPluginMessageState incoming existing = carryPluginMessageState incoming existing' := by
  have hjson := h pluginStateJsonKey (by decide)
  have hversion := h pluginStateVersionKey (by decide)
  have hbased := h pluginStateBasedOnKey (by decide)
  unfold carryPluginMessageState
  dsimp only
  rw [carryPluginSharedState_congr h, hjson, messageAttributeSeq_congr hversion]
  split
  · rfl
  · rw [copyAttribute_congr hbased]

end Existing

theorem pluginSharedStateVersion_congr (h : Agree a b) :
    pluginSharedStateVersion a = pluginSharedStateVersion b := by
  rw [pluginSharedStateVersion, h pluginSharedStateJsonKey (by decide),
    h pluginSharedStateVersionKey (by decide), pluginSharedStateVersion]

theorem Agree.carryShared (h : Agree a b) (existing : Attributes) :
    Agree (carryPluginSharedState a existing) (carryPluginSharedState b existing) := by
  have hkept := h.preserve existing pluginSharedEntityKey (by decide)
  unfold carryPluginSharedState
  dsimp only
  split
  · exact hkept
  · rw [pluginSharedStateVersion_congr hkept]
    split
    · exact hkept
    · refine hkept.foldl _ (fun _ _ key h => ?_) _
      split
      · exact h.insert key _
      · exact h

theorem Agree.carry (h : Agree a b) (existing : Attributes) :
    Agree (carryPluginMessageState a existing) (carryPluginMessageState b existing) := by
  have hshared := h.carryShared existing
  have hjson := hshared pluginStateJsonKey (by decide)
  have hversion := hshared pluginStateVersionKey (by decide)
  unfold carryPluginMessageState
  dsimp only
  split
  · exact hshared
  · rw [contains_eq_isSome_getElem?, contains_eq_isSome_getElem?, hjson,
      messageAttributeSeq_congr hversion]
    split
    · exact hshared
    · exact ((hshared.insert _ _).insert _ _).copy _ _

theorem agree_merge (h : Agree existing existing') :
    Agree (mergeMessageEventAttributes incoming existing) (mergeMessageEventAttributes incoming existing') := by
  rw [mergeMessageEventAttributes_eq, mergeMessageEventAttributes_eq, mergePin_congr h,
    carryPluginMessageState_congr h]
  exact (agree_mergeMarksAndReactions h).carry existing'

end Agree

/-! ### The same messages -/

/-- What both stores show of a message, and what saving it again looks at. -/
structure SameMessage (r : MessageRow) (m : InboundMessage) : Prop where
  serverId : r.serverId = m.serverId
  clientMsgId : r.clientMsgId = m.clientMsgId
  sending : isLocalSending r.toIMMessage = isLocalSending m.toIMMessage
  content : r.encodedContent = m.encodedContent
  attributes : Agree r.attributes m.attributes

/-- A user and an emoji, as they can be in the reactions of a message. -/
def IsNamed (pair : String × String) : Prop := isBlank pair.1 = false ∧ isBlank pair.2 = false

structure InStep (t : RowTable) (data : MemoryMessageStore) : Prop where
  rows : ∀ sid, Option.Rel SameMessage (t.get sid) (data.find? sid)
  reactions : ∀ {sid m}, data.find? sid = some m → ∀ p, IsNamed p →
    (t.hasReaction sid p = true ↔ Reacted m.reactions p.2 p.1)
  named : ∀ m ∈ data.items, m.serverId ≠ ""

section InStep

variable {t t' : RowTable} {data : MemoryMessageStore} {sid id : String} {r r' : MessageRow} {m m' : InboundMessage}

theorem storageKey_of_ne (h : m.serverId ≠ "") : storageKey m = m.serverId := if_pos h

theorem InStep.exists_message (h : InStep t data) (hr : t.get sid = some r) :
    ∃ m, data.find? sid = some m ∧ SameMessage r m := by
  have hrel := h.rows sid
  rw [hr] at hrel
  cases hm : data.find? sid with
  | none => rw [hm] at hrel; cases hrel
  | some m =>
    rw [hm] at hrel
    cases hrel with
    | some hsame => exact ⟨m, rfl, hsame⟩

theorem InStep.exists_row (h : InStep t data) (hm : data.find? sid = some m) :
    ∃ r, t.get sid = some r ∧ SameMessage r m := by
  have hrel := h.rows sid
  rw [hm] at hrel
  cases hr : t.get sid with
  | none => rw [hr] at hrel; cases hrel
  | some r =>
    rw [hr] at hrel
    cases hrel with
    | some hsame => exact ⟨r, rfl, hsame⟩

theorem InStep.find?_of_mem (h : InStep t data) (hm : m ∈ data.items) : data.find? m.serverId = some m := by
  rw [← storageKey_of_ne (h.named m hm)]
  exact KeyedMap.find?_of_mem data hm

theorem SameMessage.answersTo (h : SameMessage r m) :
    RowTable.answersTo id r = MemoryMessageStore.answersTo id m := by
  rw [RowTable.answersTo, MemoryMessageStore.answersTo, h.serverId, h.clientMsgId]

section

variable (h : InStep t data)

include h

theorem InStep.getByAny_of_some (hone : t.OneAnswers id) (hr : t.firstAnswering id = some r) :
    ∃ m, data.getByAnyMessageId id = some m ∧ data.find? r.serverId = some m ∧ SameMessage r m := by
  have hmem : r ∈ t.rows.items := mem_of_find?_eq_some hr
  have hanswers : RowTable.answersTo id r = true := find?_some hr
  obtain ⟨m, hm, hsame⟩ := h.exists_message (t.rows.find?_of_mem hmem)
  -- whatever message answers to the id, its row does, and there is only one
  have honly : ∀ m' ∈ data.items, MemoryMessageStore.answersTo id m' = true → m' = m := by
    intro m' hm' hanswers'
    obtain ⟨r', hr', hsame'⟩ := h.exists_row (h.find?_of_mem hm')
    have hkey : r'.serverId = r.serverId := hone r' (mem_of_find? hr') r hmem
      (hsame'.answersTo.trans hanswers') hanswers
    have hfind := h.find?_of_mem hm'
    rw [← hsame'.serverId, hkey, hm] at hfind
    exact (Option.some.inj hfind).symm
  refine ⟨m, ?_, hm, hsame⟩
  unfold MemoryMessageStore.getByAnyMessageId
  cases hkey : find? data id with
  | some m' =>
    have hserver : m'.serverId = id := by
      rw [← storageKey_of_ne (h.named m' (mem_of_find? hkey))]
      exact ((data.find?_eq_some_iff id m').mp hkey).2
    rw [Option.some_or, honly m' (mem_of_find? hkey) (by simp [MemoryMessageStore.answersTo, hserver])]
  | none =>
    rw [Option.none_or]
    cases hfound : data.items.find? (MemoryMessageStore.answersTo id) with
    | some m' => rw [honly m' (mem_of_find?_eq_some hfound) (find?_some hfound)]
    | none =>
      have hnot := find?_eq_none.mp hfound m (mem_of_find? hm)
      exact absurd (hsame.answersTo.symm.trans hanswers) hnot

theorem InStep.getByAny_of_none (hr : t.firstAnswering id = none) : data.getByAnyMessageId id = none := by
  have hnone : ∀ m ∈ data.items, MemoryMessageStore.answersTo id m = false := by
    intro m hm
    obtain ⟨r, hget, hsame⟩ := h.exists_row (h.find?_of_mem hm)
    rw [← hsame.answersTo]
    simpa using find?_eq_none.mp hr r (mem_of_find? hget)
  unfold MemoryMessageStore.getByAnyMessageId
  rw [Option.or_eq_none_iff]
  constructor
  · refine (data.find?_eq_none_iff id).mpr fun hkey => ?_
    obtain ⟨m, hm, heq⟩ := (data.mem_keys id).mp hkey
    rw [storageKey_of_ne (h.named m hm)] at heq
    have hnot := hnone m hm
    simp [MemoryMessageStore.answersTo, heq] at hnot
  · exact find?_eq_none.mpr fun m hm => by simp [hnone m hm]

theorem InStep.insert (r' : MessageRow) (hnamed : m'.serverId ≠ "") (hsame : SameMessage r' m')
    (hget : ∀ sid, t'.get sid = if sid = m'.serverId then some r' else t.get sid)
    (hothers : ∀ sid, sid ≠ m'.serverId → ∀ p, t'.hasReaction sid p = t.hasReaction sid p)
    (hown : ∀ p, IsNamed p → (t'.hasReaction m'.serverId p = true ↔ Reacted m'.reactions p.2 p.1)) :
      InStep t' (KeyedMap.insert data m') where
  rows sid := by
    rw [hget, find?_insert, storageKey_of_ne hnamed]
    split
    · exact .some hsame
    · exact h.rows sid
  reactions {sid m} hm p hp := by
    rw [find?_insert, storageKey_of_ne hnamed] at hm
    split at hm
    · next heq =>
      obtain rfl := Option.some.inj hm
      rw [heq]
      exact hown p hp
    · next hne =>
      rw [hothers sid hne]
      exact h.reactions hm p hp
  named m hm := by
    rcases (mem_insert _ _ _).mp hm with rfl | ⟨hold, -⟩
    · exact hnamed
    · exact h.named m hold

theorem InStep.congr (hget : ∀ sid, t'.get sid = t.get sid)
    (hreactions : t'.reactions = t.reactions) : InStep t' data where
  rows sid := hget sid ▸ h.rows sid
  reactions hm p hp := by
    rw [hasReaction, hreactions]
    exact h.reactions hm p hp
  named := h.named

end

/-! Edits and pins -/

theorem agree_editedAttributes (h : Agree r.attributes m.attributes) (now : ℕ) (eventSeq : Option ℕ) :
    Agree (editedAttributes r.attributes now eventSeq) m.attributes := by
  refine ((Agree.insert_left ?_ (by decide) _).insert_left (by decide) _).insert_left (by decide) _
  split
  · exact h.insert_left (by decide) _
  · exact h

/-- Both stores change the message, but not its reactions. -/
theorem InStep.change (h : InStep t data) (hm : data.find? sid = some m) (hsame : SameMessage r' m')
    (hkey : m'.serverId = sid) (hkept : m'.reactions = m.reactions)
    (hget : ∀ sid', t'.get sid' = if sid' = sid then some r' else t.get sid')
    (hreactions : t'.reactions = t.reactions) : InStep t' (KeyedMap.insert data m') := by
  have hmem : m ∈ data.items := mem_of_find? hm
  have hserver : m.serverId = sid := by
    rw [← storageKey_of_ne (h.named m hmem)]
    exact ((data.find?_eq_some_iff sid m).mp hm).2
  have hsaid : ∀ sid p, t'.hasReaction sid p = t.hasReaction sid p := fun sid p => by
    rw [hasReaction, hreactions, hasReaction]
  refine h.insert r' (hkey.trans hserver.symm ▸ h.named m hmem) hsame (hkey ▸ hget) (fun sid _ p => hsaid sid p) ?_
  intro p hp
  rw [hsaid, hkey, hkept]
  exact h.reactions hm p hp

variable {eventSeq : Option ℕ}

theorem inStep_applyEditEvent (h : InStep t data) (now : ℕ) (newContent : Content)
    (hone : t.OneAnswers id) (hfresh : ∀ r ∈ t.firstAnswering id, ∀ seq ∈ eventSeq,
      messageAttributeSeq r.attributes "lastEditEventSeq" < seq) :
    (t.applyEditEvent now id newContent eventSeq).1 = (data.applyEditEvent id newContent).1 ∧
      InStep (t.applyEditEvent now id newContent eventSeq).2 (data.applyEditEvent id newContent).2 := by
  unfold applyEditEvent MemoryMessageStore.applyEditEvent
  cases hr : t.firstAnswering id with
  | none =>
    rw [h.getByAny_of_none hr]
    exact ⟨rfl, h⟩
  | some r =>
    obtain ⟨m, hany, hm, hsame⟩ := h.getByAny_of_some hone hr
    have hnot : ¬ eventSeq.any (· ≤ messageAttributeSeq r.attributes "lastEditEventSeq") = true := by
      cases eventSeq with
      | none => simp
      | some seq => simpa using hfresh r hr seq rfl
    rw [hany]
    dsimp only
    rw [if_neg hnot]
    have hedited : SameMessage (editedRow newContent now (editedAttributes r.attributes now eventSeq) r)
        { m with encodedContent := newContent, isEdited := true } :=
      ⟨hsame.serverId, hsame.clientMsgId, hsame.sending, rfl, agree_editedAttributes hsame.attributes now eventSeq⟩
    refine ⟨rfl, h.change hm hedited hsame.serverId.symm rfl (fun sid' => ?_) rfl⟩
    exact (get_updateWhere t _ _ (by exact fun _ => rfl) sid').trans (map_answering hone hr _ sid')

theorem agree_pinned (h : Agree r.attributes m.attributes) (flag : String) (hpositive : ∀ seq ∈ eventSeq, 0 < seq) :
    Agree ((numberedAttributes "lastPinEventSeq" eventSeq r.attributes).insert "pinned" flag)
      ((MemoryMessageStore.numberedPin eventSeq m.attributes).insert "pinned" flag) := by
  refine .insert ?_ _ _
  cases eventSeq with
  | none => exact h
  | some seq =>
    rw [numberedAttributes, Option.filter_some, if_pos (decide_eq_true (hpositive seq rfl))]
    exact h.insert _ _

/-- The table refuses a number that is not above the stored one, the memory store one that is below. -/
theorem isStaleOperation_eq_any (h : Agree r.attributes m.attributes) (hpositive : ∀ seq ∈ eventSeq, 0 < seq)
    (hnew : ∀ seq ∈ eventSeq, seq ≠ messageAttributeSeq r.attributes "lastPinEventSeq") :
    isStaleOperation r.attributes "lastPinEventSeq" eventSeq =
      eventSeq.any (· < messageAttributeSeq m.attributes "lastPinEventSeq") := by
  rw [← messageAttributeSeq_congr (h "lastPinEventSeq" (by decide))]
  cases eventSeq with
  | none => rfl
  | some seq =>
    rw [Bool.eq_iff_iff, isStaleOperation_some_iff, Option.any_some, decide_eq_true_eq,
      and_iff_right (hpositive seq rfl)]
    exact ⟨fun hle => lt_of_le_of_ne hle (hnew seq rfl), le_of_lt⟩

theorem inStep_applyPinEvent (h : InStep t data) (enabled : Bool) (hid : isTrimmed id = true)
    (hone : t.OneAnswers id) (hpositive : ∀ seq ∈ eventSeq, 0 < seq)
    (hnew : ∀ r ∈ t.firstAnswering id, ∀ seq ∈ eventSeq, seq ≠ messageAttributeSeq r.attributes "lastPinEventSeq") :
    (t.applyPinEvent id enabled eventSeq).1 = (data.applyPinEvent id enabled eventSeq).1 ∧
      InStep (t.applyPinEvent id enabled eventSeq).2 (data.applyPinEvent id enabled eventSeq).2 := by
  rw [isTrimmed_iff] at hid
  unfold applyPinEvent MemoryMessageStore.applyPinEvent
  rw [hid.1, hid.2, if_neg Bool.false_ne_true]
  cases hr : t.firstAnswering id with
  | none =>
    rw [h.getByAny_of_none hr, applyMessageExtraWithSeq_of_none hr]
    exact ⟨rfl, h⟩
  | some r =>
    obtain ⟨m, hany, hm, hsame⟩ := h.getByAny_of_some hone hr
    have hstale := isStaleOperation_eq_any hsame.attributes hpositive (hnew r hr)
    rw [hany, fst_applyMessageExtraWithSeq_of_one hone hr, hstale]
    generalize (if enabled then "true" else "false") = flag
    have hget : ∀ sid', (t.applyMessageExtraWithSeq id "lastPinEventSeq" eventSeq fun attributes =>
        attributes.insert "pinned" flag).2.get sid' = _ := fun sid' =>
      (get_applyMessageExtraWithSeq t id "lastPinEventSeq" eventSeq _ sid').trans (map_answering hone hr _ sid')
    dsimp only
    cases hany' : eventSeq.any (· < messageAttributeSeq m.attributes "lastPinEventSeq") with
    | true =>
      rw [hany'] at hstale
      refine ⟨rfl, h.congr (fun sid' => ?_) (reactions_applyMessageExtraWithSeq ..)⟩
      rw [hget, eventAttributes, if_pos hstale]
      split
      · next heq => rw [heq]; exact (t.rows.find?_of_mem (mem_of_find?_eq_some hr)).symm
      · rfl
    | false =>
      rw [hany'] at hstale
      have hpinned : SameMessage
          { r with attributes := (numberedAttributes "lastPinEventSeq" eventSeq r.attributes).insert "pinned" flag }
          { m with attributes := (MemoryMessageStore.numberedPin eventSeq m.attributes).insert "pinned" flag } :=
        ⟨hsame.serverId, hsame.clientMsgId, hsame.sending, hsame.content, agree_pinned hsame.attributes _ hpositive⟩
      refine ⟨rfl, h.change hm hpinned hsame.serverId.symm rfl (fun sid' => ?_)
        (reactions_applyMessageExtraWithSeq ..)⟩
      rw [hget, eventAttributes, if_neg (Bool.eq_false_iff.mp hstale)]

/-! Deletions -/

theorem inStep_applyDeleteEvent (h : InStep t data) (hown : t.OnlyOwn id) (hr : t.get id = some r)
    (hfresh : isStaleOperation r.attributes "lastDeleteEventSeq" eventSeq = false) :
    (t.applyDeleteEvent id eventSeq).1 = (data.applyDeleteEvent id).1 ∧
      InStep (t.applyDeleteEvent id eventSeq).2 (data.applyDeleteEvent id).2 := by
  have happlied : t.applyDeleteEvent id eventSeq = (.applied, t.delete id) := by
    rw [applyDeleteEvent, firstAnswering_eq_get hown, hr]
    exact if_neg (Bool.eq_false_iff.mp hfresh)
  have hanswers : ∀ {sid x}, t.get sid = some x → (answersTo id x = true ↔ sid = id) := fun {sid x} hx => by
    rw [answersTo_iff_of_onlyOwn hown (mem_of_find? hx), serverId_of_get hx]
  have hget : ∀ sid, (t.delete id).get sid = if sid = id then none else t.get sid := fun sid => by
    refine (KeyedMap.find?_filter t.rows _ sid).trans ?_
    rw [show t.rows.find? sid = t.get sid from rfl]
    cases hx : t.get sid with
    | none => rw [ite_self]; rfl
    | some x =>
      by_cases hsid : sid = id
      · rw [if_pos hsid, Option.filter_some, (hanswers hx).mpr hsid]
        rfl
      · rw [if_neg hsid, Option.filter_some, Bool.eq_false_iff.mpr (mt (hanswers hx).mp hsid)]
        rfl
  have hreactions : ∀ {sid}, sid ≠ id → ∀ p, (t.delete id).hasReaction sid p = t.hasReaction sid p :=
    fun {sid} hne p => by
    have hstays : ∀ x ∈ t.reactions.find? (sid, p.2, p.1), (!(decide (x.messageServerId = id) ||
        decide (x.messageServerId ∈ (t.rows.items.filter (answersTo id)).map fun r => r.serverId))) = true := by
      intro x hx
      have hkey : x.key = (sid, p.2, p.1) := key_of_find? hx
      have hsid : x.messageServerId = sid := (Prod.mk.inj hkey).1
      simp only [hsid, hne, decide_false, Bool.false_or, Bool.not_eq_true', decide_eq_false_iff_not]
      intro hmem
      obtain ⟨row, hrow, heq⟩ := mem_map.mp hmem
      obtain ⟨hrow, hmeets⟩ := mem_filter.mp hrow
      exact hne (heq.symm.trans ((answersTo_iff_of_onlyOwn hown hrow).mp hmeets))
    refine (congrArg Option.isSome (KeyedMap.find?_filter t.reactions _ (sid, p.2, p.1))).trans ?_
    rw [hasReaction]
    cases hx : t.reactions.find? (sid, p.2, p.1) with
    | none => rfl
    | some x => rw [Option.filter_some, if_pos (hstays x hx)]
  rw [happlied]
  refine ⟨rfl, ⟨fun sid => ?_, fun {sid m} hm p hp => ?_, fun m hm => ?_⟩⟩
  · rw [hget, MemoryMessageStore.applyDeleteEvent, find?_erase]
    split
    · exact .none
    · exact h.rows sid
  · rw [MemoryMessageStore.applyDeleteEvent, find?_erase] at hm
    split at hm
    · exact absurd hm (by simp)
    · next hne =>
      rw [hreactions hne]
      exact h.reactions hm p hp
  · exact h.named m (mem_of_mem_filter hm)

/-! Reactions -/

/-- The rows are the same but for attributes that only the table keeps. -/
def PrivateChange (t t' : RowTable) : Prop :=
  ∀ sid, Option.Rel (fun r r' : MessageRow => ∃ attributes, r' = { r with attributes := attributes } ∧
    Agree attributes r.attributes) (t.get sid) (t'.get sid)

theorem InStep.privateChange (h : InStep t data) (hchange : PrivateChange t t')
    (hreactions : t'.reactions = t.reactions) :
    InStep t' data where
  rows sid := by
    have hrel := hchange sid
    have hrow := h.rows sid
    generalize t'.get sid = changed at hrel ⊢
    cases hr : t.get sid with
    | none =>
      rw [hr] at hrel hrow
      cases hrel
      exact hrow
    | some r =>
      obtain ⟨m, hm, hsame⟩ := h.exists_message hr
      rw [hr] at hrel
      rw [hm]
      cases hrel with
      | some hprivate =>
        obtain ⟨attributes, rfl, hagree⟩ := hprivate
        exact .some ⟨hsame.serverId, hsame.clientMsgId, hsame.sending, hsame.content, fun key hkey =>
          (hagree key hkey).trans (hsame.attributes key hkey)⟩
  reactions hm p hp := by
    rw [hasReaction, hreactions]
    exact h.reactions hm p hp
  named := h.named

theorem agree_eventAttributes {seqKey : String} (hkey : isPrivate seqKey = true) (eventSeq : Option ℕ)
    (attributes : Attributes) :
      Agree (eventAttributes seqKey eventSeq (fun attributes => attributes) attributes) attributes := by
  unfold eventAttributes numberedAttributes
  split
  · exact fun _ _ => rfl
  · split
    · exact .insert_left (fun _ _ => rfl) hkey _
    · exact fun _ _ => rfl

theorem privateChange_applyMessageExtraWithSeq {seqKey : String} (hkey : isPrivate seqKey = true) (id : String)
    (eventSeq : Option ℕ) :
    PrivateChange t (t.applyMessageExtraWithSeq id seqKey eventSeq fun attributes => attributes).2 := by
  intro sid
  rw [get_applyMessageExtraWithSeq]
  cases t.get sid with
  | none => exact .none
  | some r =>
    rw [Option.map_some]
    split
    · exact .some ⟨_, rfl, agree_eventAttributes hkey eventSeq r.attributes⟩
    · exact .some ⟨r.attributes, rfl, fun _ _ => rfl⟩

section Reactions

variable [codes : RowCodes]

theorem privateChange_refresh (t : RowTable) (id : String) :
    PrivateChange t (t.refreshReactionsJsonSnapshot id) := by
  have hsame : PrivateChange t t := fun sid => by
    cases t.get sid with
    | none => exact .none
    | some r => exact .some ⟨r.attributes, rfl, fun _ _ => rfl⟩
  unfold refreshReactionsJsonSnapshot
  split
  · exact hsame
  · split
    · exact hsame
    · next row hrow =>
      split
      · exact hsame
      · intro sid
        rw [get_updateWhere]
        cases hget : t.get sid with
        | none => exact .none
        | some r =>
          rw [Option.map_some]
          split
          · next hkey =>
            have heq : r = row := t.rows.eq_of_key_eq (mem_of_find? hget) (mem_of_find?_eq_some hrow)
              (of_decide_eq_true hkey)
            subst heq
            refine .some ⟨_, rfl, ?_⟩
            split
            · exact .erase_left (fun _ _ => rfl) (by decide)
            · exact .insert_left (fun _ _ => rfl) (by decide) _
          · exact .some ⟨r.attributes, rfl, fun _ _ => rfl⟩

theorem get_changeReactionRow (t : RowTable) (now : ℕ) (conversationId id userId emoji : String) (action : ℤ) :
    (t.changeReactionRow now conversationId id userId emoji action).get = t.get := by
  unfold changeReactionRow
  split <;> rfl

theorem hasReaction_changeReactionRow_of_ne (t : RowTable) (now : ℕ)
    (conversationId userId emoji : String) (action : ℤ)
    (hne : sid ≠ id) (p : String × String) :
    (t.changeReactionRow now conversationId id userId emoji action).hasReaction sid p = t.hasReaction sid p := by
  have hkey : (sid, p.2, p.1) ≠ (id, emoji, userId) := fun heq => hne (Prod.mk.inj heq).1
  unfold changeReactionRow
  split
  · have herase : (t.deleteReactions fun r => r.key = (id, emoji, userId)).reactions =
      t.reactions.erase (id, emoji, userId) :=
      congrArg t.reactions.filter (funext fun _ => (decide_not).symm)
    rw [hasReaction, herase, find?_erase, if_neg hkey, hasReaction]
  · rw [hasReaction, insertReaction, find?_insert, hasReaction]
    exact congrArg Option.isSome (if_neg hkey)

theorem agree_writeReactionsToAttributes (attributes : Attributes) (reactions : List ReactionEntry) :
    Agree attributes (MemoryMessageStore.writeReactionsToAttributes attributes reactions) := by
  unfold MemoryMessageStore.writeReactionsToAttributes
  split
  · exact (Agree.erase_left (fun _ _ => rfl) (by decide)).symm
  · exact (Agree.insert_left (fun _ _ => rfl) (by decide) _).symm

/-- The table takes a reaction unless all rows that answer refuse its number; where none answers it takes it too. -/
def TakesReaction (t : RowTable) (id userId emoji : String) (eventSeq : Option ℕ) : Prop :=
  (t.applyMessageExtraWithSeq id (seqKey (userId, emoji)) eventSeq fun attributes => attributes).1 ≠ .ignoredStale
  deriving Decidable

theorem inStep_applyReactionEvent (h : InStep t data) {userId emoji : String} {action : ℤ} (now : ℕ)
    (conversationId : String) (hid : isTrimmed id = true) (huser : isTrimmed userId = true)
    (hemoji : isTrimmed emoji = true)
    (haction : action = codes.reactionAdd ∨ action = codes.reactionRemove)
    (hrow : t.firstAnswering id = none ∨ (t.get id).isSome) (htakes : TakesReaction t id userId emoji eventSeq)
    (hnodup : ∀ m ∈ data.find? id, (m.reactions.map ReactionEntry.emoji).Nodup) :
    (t.applyReactionEvent now conversationId id userId emoji action eventSeq).1 =
        (data.applyReactionEvent id userId emoji action).1 ∧
      InStep (t.applyReactionEvent now conversationId id userId emoji action eventSeq).2
        (data.applyReactionEvent id userId emoji action).2 := by
  rw [isTrimmed_iff] at hid huser hemoji
  have hne : ∀ {s : String}, isBlank s = false → s ≠ "" := by
    rintro s hblank rfl
    exact absurd hblank (by decide)
  have hkey : isPrivate (seqKey (userId, emoji)) = true := by
    rw [isPrivate, startsWith_seqKey, Bool.or_true]
  have hmarked : InStep (t.applyMessageExtraWithSeq id (seqKey (userId, emoji)) eventSeq
      fun attributes => attributes).2 data :=
    h.privateChange (privateChange_applyMessageExtraWithSeq hkey id eventSeq)
    (reactions_applyMessageExtraWithSeq ..)
  unfold MemoryMessageStore.applyReactionEvent
  rw [hid.1, hid.2, huser.1, huser.2, hemoji.1, hemoji.2, if_neg (by simp),
    applyReactionEvent_eq t (hne hid.1) (hne huser.1) (hne hemoji.1) haction, if_neg htakes]
  generalize (t.applyMessageExtraWithSeq id (seqKey (userId, emoji)) eventSeq fun attributes => attributes).2 =
    marked at hmarked ⊢
  rcases hrow with hnone | hsome
  · -- only the table keeps the reaction, under an id that no message has
    rw [h.getByAny_of_none hnone]
    refine ⟨rfl, InStep.privateChange ⟨fun sid => ?_, fun {sid m} hm p hp => ?_, h.named⟩
      (privateChange_refresh _ _)
      (reactions_refresh _ _)⟩
    · rw [get_changeReactionRow]
      exact hmarked.rows sid
    · have hother : sid ≠ id := by
        rintro rfl
        obtain ⟨r, hr, -⟩ := h.exists_row hm
        have hnot := find?_eq_none.mp hnone r (mem_of_find? hr)
        simp [RowTable.answersTo, serverId_of_get hr] at hnot
      rw [hasReaction_changeReactionRow_of_ne _ _ _ _ _ _ hother]
      exact hmarked.reactions hm p hp
  · obtain ⟨r, hr⟩ := Option.isSome_iff_exists.mp hsome
    obtain ⟨m, hm, hsame⟩ := h.exists_message hr
    obtain ⟨r', hr', hsame'⟩ := hmarked.exists_row hm
    have hid' : m.serverId = id := hsame.serverId.symm.trans (serverId_of_get hr)
    have hany : data.getByAnyMessageId id = some m := by
      rw [MemoryMessageStore.getByAnyMessageId, hm, Option.some_or]
    rw [hany]
    dsimp only
    rw [MemoryMessageStore.changeReaction, if_neg
      (not_or.mpr ⟨hne huser.1, not_or.mpr ⟨hne hemoji.1, fun h => haction.elim h.1 h.2⟩⟩)]
    refine ⟨rfl, InStep.privateChange ?_ (privateChange_refresh _ _) (reactions_refresh _ _)⟩
    refine hmarked.insert r' (hid' ▸ hne hid.1) ⟨hsame'.serverId, hsame'.clientMsgId,
      hsame'.sending, hsame'.content,
      fun key hkey => (hsame'.attributes key hkey).trans (agree_writeReactionsToAttributes _ _ key hkey)⟩ ?_ ?_ ?_
    · intro sid
      rw [get_changeReactionRow]
      split
      · next heq => rw [heq, hid', hr']
      · rfl
    · exact fun sid hsid p => hasReaction_changeReactionRow_of_ne _ _ _ _ _ _ (hid' ▸ hsid) p
    · intro p hp
      have hreacted := hmarked.reactions hm p hp
      rw [hid', reacted_applyReactionChange (hne huser.1) (hne hemoji.1) haction (hnodup m hm), ← hreacted]
      refine (Bool.eq_iff_iff.mp
        (hasReaction_changeReactionRow _ now conversationId (userId, emoji) p action)).trans ?_
      split
      · exact decide_eq_true_iff
      · rfl

end Reactions

/-! Saves -/

theorem isInTheWay_eq_goesFor (hblank : isBlank m.serverId = false) (htrim : trim m.serverId = m.serverId)
    (hclient : isBlank m.clientMsgId = false) {m₀ : InboundMessage} (hsame : SameMessage r m₀)
    (hnamed : m₀.serverId ≠ "")
    (hsole : r.clientMsgId = trim m.clientMsgId →
      r.serverId = m.serverId ∨ isLocalSending r.toIMMessage = true) :
    MemoryMessageStore.isInTheWay (trim m.clientMsgId) m.serverId m₀ = goesFor m r := by
  have hsending := hsame.sending
  rw [MemoryMessageStore.isInTheWay, goesFor, storageKey_of_ne hnamed, ← hsame.serverId,
    ← hsame.clientMsgId, hclient, hblank,
    htrim, hsending]
  by_cases hcid : r.clientMsgId = trim m.clientMsgId
  · by_cases hsid : r.serverId = m.serverId
    · simp [hsid]
    · have hlocal := (hsole hcid).resolve_left hsid
      rw [hsending, isLocalSending] at hlocal
      simp only [Bool.and_eq_true, Bool.not_eq_true'] at hlocal
      simp [hcid, hsid, isLocalSending, hlocal.1.1, hlocal.1.2, hlocal.2]
  · simp [hcid]

/-- Both stores remove the copies that are still being sent. -/
theorem inStep_removeConflictingLocal (h : InStep t data) (hid : isTrimmed m.serverId = true)
    (hsole : t.SoleCopy m.serverId m) : InStep (t.removeConflictingLocalClientMsgRows m.clientMsgId m.serverId)
      (data.removeConflictingLocalClientMsgRows m.clientMsgId (storageKey m)) := by
  rw [isTrimmed_iff] at hid
  have hkey : storageKey m = m.serverId := storageKey_of_ne fun hempty => by
    rw [hempty] at hid
    exact absurd hid.1 (by decide)
  cases hclient : isBlank m.clientMsgId with
  | true =>
    rw [RowTable.removeConflictingLocalClientMsgRows,
      MemoryMessageStore.removeConflictingLocalClientMsgRows, hclient]
    exact h
  | false =>
    have hdata : data.removeConflictingLocalClientMsgRows m.clientMsgId (storageKey m) =
        data.filter fun stored => !MemoryMessageStore.isInTheWay (trim m.clientMsgId) m.serverId stored := by
      rw [MemoryMessageStore.removeConflictingLocalClientMsgRows, hclient, hkey]
      rfl
    rw [removeConflictingLocal_eq, hdata]
    refine ⟨fun sid => ?_, fun {sid m'} hm' p hp => ?_, fun m' hm' => h.named m' (mem_of_mem_filter hm')⟩
    · rw [KeyedMap.find?_filter]
      refine (congrArg (Option.Rel SameMessage · _) (KeyedMap.find?_filter t.rows _ sid)).mpr ?_
      have hrow := h.rows sid
      cases hr : t.get sid with
      | none =>
        rw [hr] at hrow
        rw [show t.rows.find? sid = none from hr]
        generalize find? data sid = found at hrow ⊢
        cases hrow
        exact .none
      | some r =>
        obtain ⟨m₀, hm₀, hsame⟩ := h.exists_message hr
        have hgoes := isInTheWay_eq_goesFor hid.1 hid.2 hclient hsame (h.named m₀ (mem_of_find? hm₀))
          (hsole hclient r (mem_of_find? hr))
        rw [show t.rows.find? sid = some r from hr, hm₀, Option.filter_some, Option.filter_some, hgoes]
        cases goesFor m r with
        | true => exact .none
        | false => exact .some hsame
    · rw [KeyedMap.find?_filter] at hm'
      exact h.reactions (Option.filter_eq_some_iff.mp hm').1 p hp

theorem existingAttributes_eq (h : InStep t data) (hblank : isBlank m.serverId = false) :
    data.existingAttributes m = (data.find? m.serverId).map (·.attributes) := by
  rw [MemoryMessageStore.existingAttributes, hblank]
  refine congrArg (Option.map _) (find?_items_eq data fun stored hstored => ?_)
  rw [storageKey_of_ne (h.named stored hstored)]
  exact decide_eq_true_iff

theorem agree_storedRow (h : InStep t data) (now : ℕ) (hid : isTrimmed m.serverId = true)
    (hsole : t.SoleCopy m.serverId m) :
    Agree ((t.removeConflictingLocalClientMsgRows m.clientMsgId m.serverId).storedRow now m).attributes
      (data.mergedMessage m).attributes := by
  rw [isTrimmed_iff] at hid
  rw [storedRow, existingRow_removeConflictingLocal hid.2 hid.1 rfl hsole, MemoryMessageStore.mergedMessage,
    existingAttributes_eq h hid.1]
  have hrow := h.rows m.serverId
  cases hr : t.get m.serverId with
  | none =>
    rw [hr] at hrow
    generalize find? data m.serverId = found at hrow ⊢
    cases hrow
    exact fun _ _ => rfl
  | some r =>
    obtain ⟨m₀, hm₀, hsame⟩ := h.exists_message hr
    rw [hm₀]
    exact agree_merge hsame.attributes

/-- A merge changes the attributes and nothing else. -/
theorem mergedMessage_eq (data : MemoryMessageStore) (m : InboundMessage) :
    data.mergedMessage m = { m with attributes := (data.mergedMessage m).attributes } := by
  unfold MemoryMessageStore.mergedMessage
  split <;> rfl

/-- The message brings its reactions, or none are stored. -/
def BringsReactions (t : RowTable) (m : InboundMessage) : Prop :=
  carriesReactionSnapshot m = true ∨ ∀ r ∈ t.reactions.items, r.messageServerId ≠ m.serverId
  deriving Decidable

variable {p : String × String}

theorem mem_snapshotPairs_iff (hp : IsNamed p) :
    p ∈ snapshotPairs m ↔ Reacted m.reactions p.2 p.1 := by
  simp only [snapshotPairs, snapshotReactions, map_flatMap, mem_flatMap, mem_map, mem_filter,
    Bool.not_eq_true', Reacted]
  constructor
  · rintro ⟨entry, ⟨hentry, -⟩, -, ⟨user, ⟨huser, -⟩, rfl⟩, rfl⟩
    exact ⟨entry, hentry, rfl, huser⟩
  · rintro ⟨entry, hentry, hemoji, huser⟩
    exact ⟨entry, ⟨hentry, hemoji ▸ hp.2⟩, _, ⟨p.1, ⟨huser, hp.1⟩, rfl⟩, Prod.ext rfl hemoji⟩

theorem hasReaction_save_iff (now : ℕ) (hkept : t.isPersistable m = true) (hnamed : m.serverId ≠ "")
    (hreactions : BringsReactions t m) (hp : IsNamed p) :
    (t.saveBatch now [m]).hasReaction m.serverId p = true ↔ Reacted m.reactions p.2 p.1 := by
  rw [hasReaction_saveBatch_singleton now hkept]
  by_cases hcarries : carriesReactionSnapshot m = true
  · rw [if_pos ⟨hcarries, rfl⟩, decide_eq_true_eq, mem_snapshotPairs_iff hp]
  · have hempty : m.reactions = [] := by
      simp only [carriesReactionSnapshot, Bool.and_eq_true, Bool.or_eq_true, decide_eq_true_eq] at hcarries
      by_contra hsome
      exact hcarries ⟨hnamed, .inr (by simpa using hsome)⟩
    rw [if_neg fun h => hcarries h.1, hempty]
    refine iff_of_false (fun hsome => ?_) (by simp [Reacted])
    obtain ⟨r, hr⟩ := Option.isSome_iff_exists.mp hsome
    have hkey : r.key = (m.serverId, p.2, p.1) := key_of_find? hr
    exact hreactions.resolve_left hcarries r (mem_of_find? hr) (Prod.mk.inj hkey).1

theorem inStep_saveOne (h : InStep t data) (now : ℕ) (hkept : t.isPersistable m = true)
    (hid : isTrimmed m.serverId = true)
    (hsole : t.SoleCopy m.serverId m) (hreactions : BringsReactions t m) :
    InStep (t.saveBatch now [m]) (data.saveOne m) := by
  have hnamed : m.serverId ≠ "" := fun hempty => by
    rw [hempty] at hid
    exact absurd hid (by decide)
  have hagree := agree_storedRow h now hid hsole
  have hcleaned : ∀ sid p, (t.removeConflictingLocalClientMsgRows m.clientMsgId m.serverId).hasReaction sid p =
      t.hasReaction sid p := fun sid p => by
    rw [hasReaction, reactions_removeConflictingLocal, hasReaction]
  rw [MemoryMessageStore.saveOne, mergedMessage_eq]
  refine (inStep_removeConflictingLocal h hid hsole).insert
    ((t.removeConflictingLocalClientMsgRows m.clientMsgId m.serverId).storedRow now m) hnamed
    ⟨rfl, rfl, rfl, rfl, hagree⟩ (fun sid => ?_) (fun sid hsid p => ?_) fun p hp => ?_
  · rw [RowTable.get, rows_saveBatch_singleton, if_pos hkept]
    exact find?_insert _ _ sid
  · rw [hasReaction_saveBatch_singleton now hkept, if_neg fun h => hsid h.2, hcleaned]
  · exact hasReaction_save_iff now hkept hnamed hreactions hp

end InStep

end FlareIm.Store
