import FlareIm.Lib.Newest
import FlareIm.Lib.Run
import FlareIm.Events.Model
import FlareIm.Store.Acks
import FlareIm.Store.OneMessage

/-! The three parts of a row that carry a version: the pin with the number of its event, and the local
and the shared state of a plugin card with theirs. All three live in the attributes. A save merges them
with those of the stored row, an acknowledgement carries the plugin states of the copies it replaces but
not their pin, and an edit writes the attributes of the first row that answers to every row that does. -/

namespace FlareIm.Store

open Lib Message Events List Std.ExtTreeMap Option

/-! ### Writing the local state -/

/-- The local state of a plugin card, once `encode_plugin_message_state` has accepted it. -/
structure PluginMessageState where
  version : ℕ
  valuesJson : String
  basedOnVersion : Option ℕ := none
  deriving DecidableEq, Repr

/-- `write_plugin_message_state` refuses an older version only. -/
def acceptsState (state : PluginMessageState) (attributes : Attributes) : Bool :=
  !(attributes.contains pluginStateJsonKey && state.version < messageAttributeSeq attributes pluginStateVersionKey)

def writePluginMessageState (attributes : Attributes) (state : PluginMessageState) : Attributes :=
  let written := (attributes.insert pluginStateJsonKey state.valuesJson).insert pluginStateVersionKey
    (toString state.version)
  match state.basedOnVersion with
  | some basedOn => written.insert pluginStateBasedOnKey (toString basedOn)
  | none => written.erase pluginStateBasedOnKey

def applyPluginMessageState (t : RowTable) (id : String) (state : PluginMessageState) : ApplyResult × RowTable :=
  let answering := t.rows.items.filter (RowTable.answersTo (trim id))
  if isBlank id || answering.isEmpty then (.notFound, t)
  else
    (if answering.any (fun r => acceptsState state r.attributes) then .applied else .ignoredStale,
      t.updateWhere (fun r => RowTable.answersTo (trim id) r && acceptsState state r.attributes)
        (fun r => { r with attributes := writePluginMessageState r.attributes state }) fun _ => rfl)

/-! ### Versions and values -/

inductive Part
  | pin
  | pluginState
  | pluginShared
  deriving DecidableEq, Repr

structure Reading where
  version : ℕ
  value : Option String
  basedOn : Option String := none
  deriving DecidableEq, Repr

/-- What the attributes hold of a part; a row always has a pin, which is not set at first. -/
def reading (attributes : Attributes) : Part → Option Reading
  | .pin => some ⟨messageAttributeSeq attributes "lastPinEventSeq", attributes["pinned"]?, none⟩
  | .pluginState => attributes[pluginStateJsonKey]?.map fun values =>
    ⟨messageAttributeSeq attributes pluginStateVersionKey, some values, attributes[pluginStateBasedOnKey]?⟩
  | .pluginShared => (pluginSharedStateVersion attributes).map fun version =>
    ⟨version, attributes[pluginSharedStateJsonKey]?, none⟩

def partKeys : Part → List String
  | .pin => ["lastPinEventSeq", "pinned"]
  | .pluginState => [pluginStateJsonKey, pluginStateVersionKey, pluginStateBasedOnKey]
  | .pluginShared => [pluginSharedStateJsonKey, pluginSharedStateVersionKey]

variable {key : String}

section Reading

variable {incoming existing a b : Attributes} {part : Part}

theorem reading_congr (h : ∀ key ∈ partKeys part, a[key]? = b[key]?) : reading a part = reading b part := by
  cases part with
  | pin =>
    have hseq := h "lastPinEventSeq" (by decide)
    have hflag := h "pinned" (by decide)
    simp only [reading, messageAttributeSeq, hseq, hflag]
  | pluginState =>
    have hjson := h pluginStateJsonKey (by decide)
    have hversion := h pluginStateVersionKey (by decide)
    have hbased := h pluginStateBasedOnKey (by decide)
    simp only [reading, messageAttributeSeq, hjson, hversion, hbased]
  | pluginShared =>
    have hjson := h pluginSharedStateJsonKey (by decide)
    have hversion := h pluginSharedStateVersionKey (by decide)
    simp only [reading, pluginSharedStateVersion, hjson, hversion]

section

variable (h : key ∉ partKeys part) (attributes : Attributes)

include h

theorem reading_insert (value : String) : reading (attributes.insert key value) part = reading attributes part :=
  reading_congr fun _ hk => getElem?_insert_of_ne (ne_of_mem_of_not_mem hk h).symm value

theorem reading_erase : reading (attributes.erase key) part = reading attributes part :=
  reading_congr fun _ hk => getElem?_erase_of_ne (ne_of_mem_of_not_mem hk h).symm

end

theorem not_mem_partKeys {own : Part} (h : part ≠ own) : ∀ key ∈ partKeys own, key ∉ partKeys part := by
  cases part <;> cases own <;> first | exact absurd rfl h | decide

section

variable {values : String} {version : ℕ} (hle : version ≤ maxU64)

include hle

theorem reading_state_eq
    (hvalues : a[pluginStateJsonKey]? = some values)
    (hversion : a[pluginStateVersionKey]? = some (toString version)) :
    reading a .pluginState = some ⟨version, some values, a[pluginStateBasedOnKey]?⟩ := by
  simp only [reading, messageAttributeSeq, hvalues, hversion, map_some, bind_some, parseU64_toString hle,
    getD_some]

end

/-! Carrying the plugin states over -/

theorem reading_pin_carry : reading (carryPluginMessageState incoming existing) .pin = reading incoming .pin := by
  refine reading_congr fun key hkey => ?_
  have hne : ∀ key ∈ partKeys .pin, pluginStateJsonKey ≠ key ∧ pluginStateVersionKey ≠ key ∧
      pluginStateBasedOnKey ≠ key ∧ pluginSharedStateJsonKey ≠ key ∧ pluginSharedStateVersionKey ≠ key ∧
      pluginSharedEntityKey ≠ key := by decide
  obtain ⟨hjson, hversion, hbased, hsharedJson, hsharedVersion, hentity⟩ := hne key hkey
  exact getElem?_carryPluginMessageState hjson hversion hbased hsharedJson hsharedVersion hentity

theorem reading_shared_carryShared : reading (carryPluginSharedState incoming existing) .pluginShared =
      newer Reading.version (reading existing .pluginShared) (reading incoming .pluginShared) := by
  have hentity : ∀ key ∈ partKeys .pluginShared, pluginSharedEntityKey ≠ key := by decide
  have hkept : reading (preserveAttributeIfMissing incoming existing pluginSharedEntityKey) .pluginShared =
      reading incoming .pluginShared :=
    reading_congr fun key hkey => getElem?_preserve_of_ne (hentity key hkey)
  unfold carryPluginSharedState
  cases hversion : pluginSharedStateVersion existing with
  | none =>
    rw [hkept]
    simp only [reading, hversion, map_none, newer]
  | some version =>
    have hstored : reading existing .pluginShared =
        some ⟨version, existing[pluginSharedStateJsonKey]?, none⟩ := by rw [reading, hversion, map_some]
    dsimp only
    rw [hstored, ← hkept]
    generalize preserveAttributeIfMissing incoming existing pluginSharedEntityKey = offered
    split
    · next hnewer =>
      cases hoffered : pluginSharedStateVersion offered with
      | none => simp [hoffered] at hnewer
      | some version' =>
        have hlt : version < version' := by simpa [hoffered] using hnewer
        simp only [reading, hoffered, map_some, newer, if_pos hlt]
    · next hnot =>
      -- both entries of the stored state are taken over
      refine (reading_congr (b := existing) fun key hkey => ?_).trans ?_
      · obtain ⟨values, hvalues, htext⟩ := bind_eq_some_iff.mp hversion
        obtain ⟨text, htext, -⟩ := bind_eq_some_iff.mp htext
        simp only [foldl_cons, foldl_nil, hvalues, htext]
        rcases mem_pair.mp hkey with rfl | rfl
        · rw [getElem?_insert_of_ne (by decide), getElem?_insert_self, hvalues]
        · rw [getElem?_insert_self, htext]
      rw [hstored]
      cases hoffered : pluginSharedStateVersion offered with
      | none => simp only [reading, hoffered, map_none, newer]
      | some version' =>
        have hle : ¬ version < version' := by simpa [hoffered] using hnot
        simp only [reading, hoffered, map_some, newer, if_neg hle]

theorem reading_shared_carry : reading (carryPluginMessageState incoming existing) .pluginShared =
      newer Reading.version (reading existing .pluginShared) (reading incoming .pluginShared) := by
  refine Eq.trans (reading_congr fun key hkey => ?_) reading_shared_carryShared
  have hne : ∀ key ∈ partKeys .pluginShared, pluginStateJsonKey ≠ key ∧ pluginStateVersionKey ≠ key ∧
      pluginStateBasedOnKey ≠ key := by decide
  obtain ⟨hjson, hversion, hbased⟩ := hne key hkey
  unfold carryPluginMessageState
  dsimp only
  split
  · rfl
  · split
    · rfl
    · rw [getElem?_copyAttribute_of_ne hbased, getElem?_insert_of_ne hversion, getElem?_insert_of_ne hjson]

theorem getElem?_copyAttribute_self : (copyAttribute incoming existing key)[key]? = existing[key]? := by
  unfold copyAttribute
  split
  · next hvalue => rw [getElem?_insert_self, hvalue]
  · next hnone => rw [getElem?_erase_self, hnone]

theorem reading_state_carry : reading (carryPluginMessageState incoming existing) .pluginState =
      newer Reading.version (reading existing .pluginState) (reading incoming .pluginState) := by
  have hne : ∀ key ∈ partKeys .pluginState, pluginSharedStateJsonKey ≠ key ∧ pluginSharedStateVersionKey ≠ key ∧
      pluginSharedEntityKey ≠ key := by decide
  have hkept : reading (carryPluginSharedState incoming existing) .pluginState = reading incoming .pluginState :=
    reading_congr fun key hkey => getElem?_carryPluginSharedState (hne key hkey).1
    (hne key hkey).2.1 (hne key hkey).2.2
  unfold carryPluginMessageState
  rw [← hkept]
  generalize carryPluginSharedState incoming existing = offered
  cases hstored : existing[pluginStateJsonKey]? with
  | none => simp only [reading, hstored, map_none, newer]
  | some values =>
    dsimp only
    split
    · next hnewer =>
      have hcontains := hnewer.1
      rw [contains_eq_isSome_getElem?] at hcontains
      obtain ⟨values', hvalues'⟩ := isSome_iff_exists.mp hcontains
      simp only [reading, hstored, hvalues', map_some, newer, if_pos hnewer.2]
    · next hnot =>
      set carried := copyAttribute ((offered.insert pluginStateJsonKey values).insert pluginStateVersionKey
        (toString (messageAttributeSeq existing pluginStateVersionKey))) existing pluginStateBasedOnKey
      have hvalues : carried[pluginStateJsonKey]? = some values := by
        rw [getElem?_copyAttribute_of_ne (by decide), getElem?_insert_of_ne (by decide),
          getElem?_insert_self]
      have hversion : carried[pluginStateVersionKey]? =
          some (toString (messageAttributeSeq existing pluginStateVersionKey)) := by
        rw [getElem?_copyAttribute_of_ne (by decide), getElem?_insert_self]
      have hcopied : reading carried .pluginState = reading existing .pluginState := by
        rw [reading_state_eq (messageAttributeSeq_le ..) hvalues hversion, getElem?_copyAttribute_self]
        simp only [reading, hstored, map_some]
      rw [hcopied]
      cases hoffered : offered[pluginStateJsonKey]? with
      | none => simp only [reading, hstored, hoffered, map_none, map_some, newer]
      | some values' =>
        have hle : ¬ messageAttributeSeq existing pluginStateVersionKey <
            messageAttributeSeq offered pluginStateVersionKey := by
          intro hlt
          refine hnot ⟨?_, hlt⟩
          rw [contains_eq_isSome_getElem?, hoffered]
          rfl
        simp only [reading, hstored, hoffered, map_some, newer, if_neg hle]

/-! Saving over a stored row -/

/-- The part of a merge between the pin and the plugin states. -/
def mergeMarksAndReactions (incoming existing : Attributes) : Attributes :=
  let markKeys := existing.keys.filter (startsWith "lastMarkEventSeq:")
  let reactionKeys := existing.keys.filter (startsWith "lastReactionEventSeq:")
  (["markType", "markColor", "reactionsJson"] ++ reactionKeys ++ retentionKeys).foldl
    (fun attributes key => preserveAttributeIfMissing attributes existing key)
      (markKeys.foldl (mergeMark existing) incoming)

theorem mergeMessageEventAttributes_eq : mergeMessageEventAttributes incoming existing =
    carryPluginMessageState (mergeMarksAndReactions (mergePin incoming existing) existing) existing := rfl

theorem partKeys_apart (part : Part) : ∀ key ∈ partKeys part, key ∉ ["markType", "markColor", "reactionsJson"] ∧
    key ∉ retentionKeys ∧ startsWith "lastMarkEventSeq:" key = false ∧
    startsWith "lastReactionEventSeq:" key = false := by
  cases part <;> decide

theorem reading_mergeMarksAndReactions :
    reading (mergeMarksAndReactions incoming existing) part = reading incoming part := by
  refine reading_congr fun key hkey => ?_
  obtain ⟨hfixed, hretention, hmark, hreaction⟩ := partKeys_apart part key hkey
  have htype : "markType" ≠ key := fun heq => hfixed (heq ▸ mem_cons_self)
  have hcolor : "markColor" ≠ key := fun heq => hfixed (heq ▸ mem_cons_of_mem _ mem_cons_self)
  have hkeys : key ∉ ["markType", "markColor", "reactionsJson"] ++
      existing.keys.filter (startsWith "lastReactionEventSeq:") ++ retentionKeys := by
    rw [mem_append, mem_append, not_or, not_or]
    exact ⟨⟨hfixed, not_mem_filter_of_startsWith hreaction⟩, hretention⟩
  unfold mergeMarksAndReactions
  rw [getElem?_foldl_preserve, if_neg hkeys, getElem?_foldl_of_ne]
  intro attributes markKey hmarkKey
  exact getElem?_mergeMark_of_ne (fun heq => not_mem_filter_of_startsWith hmark (heq ▸ hmarkKey)) htype hcolor

theorem reading_merge_of_ne_pin (h : part ≠ .pin) : reading (mergeMessageEventAttributes incoming existing) part =
    newer Reading.version (reading existing part) (reading incoming part) := by
  have hne := not_mem_partKeys h
  have hpin : reading (mergePin incoming existing) part = reading incoming part :=
    reading_congr fun key hkey =>
      getElem?_mergePin_of_ne (ne_of_mem_of_not_mem hkey (hne "pinned" (by decide))).symm
      (ne_of_mem_of_not_mem hkey (hne "lastPinEventSeq" (by decide))).symm
  rw [mergeMessageEventAttributes_eq, ← hpin,
    ← @reading_mergeMarksAndReactions (mergePin incoming existing) existing part]
  cases part with
  | pin => exact absurd rfl h
  | pluginState => exact reading_state_carry
  | pluginShared => exact reading_shared_carry

/-- The pin of a row with a higher number is kept; otherwise that of the saved row, if it has one. -/
theorem reading_merge_pin : reading (mergeMessageEventAttributes incoming existing) .pin =
    if messageAttributeSeq incoming "lastPinEventSeq" < messageAttributeSeq existing "lastPinEventSeq" then
      reading existing .pin
    else some ⟨messageAttributeSeq incoming "lastPinEventSeq",
      incoming["pinned"]?.or existing["pinned"]?, none⟩ := by
  rw [mergeMessageEventAttributes_eq, reading_pin_carry, reading_mergeMarksAndReactions]
  unfold mergePin
  dsimp only
  split
  · next hlt =>
    simp only [reading]
    rw [RowTable.messageAttributeSeq_insert_self (messageAttributeSeq_le ..), getElem?_insert_of_ne (by decide),
      getElem?_copyAttribute_self]
  · next hnot =>
    simp only [reading, messageAttributeSeq] at hnot ⊢
    rw [getElem?_preserve_self, getElem?_preserve_of_ne (by decide), getElem?_preserve_of_ne (by decide),
      getElem?_preserve_self]
    cases hincoming : incoming["lastPinEventSeq"]? with
    | some text => rfl
    | none =>
      -- the number of the stored row is then 0 as well
      rw [hincoming] at hnot
      rw [none_or, Nat.eq_zero_of_not_pos hnot]
      rfl

end Reading

namespace RowTable

/-! ### Steps on the table -/

/-- The events that have no version of their own in the parts. -/
inductive RowEvent
  | edit (now : ℕ) (id : String) (newContent : Content) (eventSeq : Option ℕ)
  | reaction (now : ℕ) (conversationId id userId emoji : String) (action : ℤ) (eventSeq : Option ℕ)
  | delete (id : String) (eventSeq : Option ℕ)
  | mark (id : String) (markType : ℤ) (color : Option String) (setMark : Bool) (eventSeq : Option ℕ)
  | retentionScheduled (id : String) (policy : MessageRetentionPolicy) (state : MessageRetentionState)
      (scheduledAt : ℤ) (eventSeq : Option ℕ)
  | retentionExpired (now : ℕ) (id : String) (state : MessageRetentionState) (expiredAt : ℤ) (eventSeq : Option ℕ)
  | retentionPurged (now : ℕ) (id : String) (state : MessageRetentionState) (purgedAt : ℤ) (eventSeq : Option ℕ)

def applyRowEvent [RowCodes] (t : RowTable) : RowEvent → RowTable
  | .edit now id newContent eventSeq => (t.applyEditEvent now id newContent eventSeq).2
  | .reaction now conversationId id userId emoji action eventSeq =>
    (t.applyReactionEvent now conversationId id userId emoji action eventSeq).2
  | .delete id eventSeq => (t.applyDeleteEvent id eventSeq).2
  | .mark id markType color setMark eventSeq => (t.applyMarkEvent id markType color setMark eventSeq).2
  | .retentionScheduled id policy state scheduledAt eventSeq =>
    (t.applyRetentionScheduledEvent id policy state scheduledAt eventSeq).2
  | .retentionExpired now id state expiredAt eventSeq =>
      (t.applyRetentionExpiredEvent now id state expiredAt eventSeq).2
  | .retentionPurged now id state purgedAt eventSeq =>
      (t.applyRetentionPurgedEvent now id state purgedAt eventSeq).2

/-- Every row was there before with the same parts. -/
def PartsKept (t t' : RowTable) : Prop :=
  ∀ r' ∈ t'.rows.items, ∃ r, t.get r'.serverId = some r ∧ reading r'.attributes = reading r.attributes

section Kept

variable {t t' t'' : RowTable}

theorem PartsKept.refl (t : RowTable) : PartsKept t t := fun r hr => ⟨r, t.rows.find?_of_mem hr, rfl⟩

theorem PartsKept.of_rows (h : t'.rows = t.rows) : PartsKept t t' := fun r hr =>
  ⟨r, t.rows.find?_of_mem (h ▸ hr), rfl⟩

theorem PartsKept.trans (h : PartsKept t t') (h' : PartsKept t' t'') : PartsKept t t'' := by
  intro r'' hr''
  obtain ⟨r', hr', hparts'⟩ := h' r'' hr''
  obtain ⟨r, hr, hparts⟩ := h r' (KeyedMap.mem_of_find? hr')
  rw [serverId_of_get hr'] at hr
  exact ⟨r, hr, hparts'.trans hparts⟩

variable {f : MessageRow → MessageRow} {id : String}

theorem partsKept_updateWhere {p : MessageRow → Bool}
    (hf : ∀ r, (f r).serverId = r.serverId)
    (hparts : ∀ r ∈ t.rows.items, p r = true → reading (f r).attributes = reading r.attributes) :
    PartsKept t (t.updateWhere p f hf) := by
  intro r' hr'
  obtain ⟨r, hr, rfl⟩ := mem_map.mp hr'
  split
  · next hp => exact ⟨r, by rw [hf]; exact t.rows.find?_of_mem hr, hparts r hr hp⟩
  · exact ⟨r, t.rows.find?_of_mem hr, rfl⟩

theorem partsKept_deleteRows (t : RowTable) (p : MessageRow → Bool) : PartsKept t (t.deleteRows p) :=
  fun r hr => ⟨r, t.rows.find?_of_mem (mem_filter.mp hr).1, rfl⟩

/-- The key belongs to no part. -/
def IsApart (key : String) : Prop := ∀ part, key ∉ partKeys part

section

variable (h : IsApart key) (attributes : Attributes)

include h

theorem reading_insert_of_isApart (value : String) : reading (attributes.insert key value) = reading attributes :=
  funext fun part => reading_insert (h part) attributes value

theorem reading_erase_of_isApart : reading (attributes.erase key) = reading attributes :=
  funext fun part => reading_erase (h part) attributes

end

theorem partsKept_applyMessageExtraWithSeq (t : RowTable) (id : String) {seqKey : String} (eventSeq : Option ℕ)
    {apply : Attributes → Attributes} (hkey : IsApart seqKey)
    (happly : ∀ attributes, reading (apply attributes) = reading attributes) :
    PartsKept t (t.applyMessageExtraWithSeq id seqKey eventSeq apply).2 := by
  unfold applyMessageExtraWithSeq
  dsimp only
  split
  · exact .refl t
  · refine partsKept_updateWhere (by exact fun _ => rfl) fun r _ _ => ?_
    rw [happly]
    split
    · exact reading_insert_of_isApart hkey _ _
    · rfl

theorem partsKept_retainRows {outcome : ApplyResult × RowTable}
    (hf : ∀ r, (f r).serverId = r.serverId) (hattributes : ∀ r, (f r).attributes = r.attributes)
    (h : PartsKept t outcome.2) : PartsKept t (retainRows outcome id f hf).2 := by
  obtain ⟨result, marked⟩ := outcome
  cases result with
  | applied => exact h.trans (partsKept_updateWhere hf fun r _ _ => by rw [hattributes])
  | ignoredStale => exact h
  | notFound => exact h

theorem isApart_of_startsWith {start : String}
    (hparts : ∀ part, ∀ key ∈ partKeys part, startsWith start key = false)
    (rest : String) : IsApart (start ++ rest) := by
  intro part hmem
  have hnot := hparts part _ hmem
  rw [startsWith_append] at hnot
  exact Bool.noConfusion hnot

instance (key : String) : Decidable (IsApart key) :=
  decidable_of_iff (key ∉ partKeys .pin ∧ key ∉ partKeys .pluginState ∧ key ∉ partKeys .pluginShared)
    ⟨fun h part => by cases part <;> [exact h.1; exact h.2.1; exact h.2.2], fun h => ⟨h _, h _, h _⟩⟩

theorem reading_editedAttributes (attributes : Attributes) (now : ℕ) (eventSeq : Option ℕ) :
    reading (editedAttributes attributes now eventSeq) = reading attributes := by
  have hapart : IsApart "currentEditVersion" ∧ IsApart "messageFsmState" ∧ IsApart "lastEditedAt" ∧
      IsApart "lastEditEventSeq" := by decide
  unfold editedAttributes
  rw [reading_insert_of_isApart hapart.2.2.1, reading_insert_of_isApart hapart.2.1,
    reading_insert_of_isApart hapart.1]
  split
  · exact reading_insert_of_isApart hapart.2.2.2 _ _
  · rfl

theorem partsKept_applyEditEvent (now : ℕ) (newContent : Content) (eventSeq : Option ℕ)
    (h : t.OneAnswers id) : PartsKept t (t.applyEditEvent now id newContent eventSeq).2 := by
  unfold applyEditEvent
  cases hfirst : t.firstAnswering id with
  | none => exact .refl t
  | some row =>
    dsimp only
    split
    · exact .refl t
    · refine partsKept_updateWhere (by exact fun _ => rfl) fun r hr hanswers => ?_
      -- the attributes are written from the first row, which is this one
      have hrow : row ∈ t.rows.items := mem_of_find?_eq_some hfirst
      have hsame : row = r :=
        t.rows.eq_of_key_eq hrow hr (h row hrow r hr (find?_some hfirst) hanswers)
      rw [← hsame]
      exact reading_editedAttributes row.attributes now eventSeq

theorem partsKept_refreshReactionsJsonSnapshot [RowCodes] (t : RowTable) (id : String) :
    PartsKept t (t.refreshReactionsJsonSnapshot id) := by
  unfold refreshReactionsJsonSnapshot
  split
  · exact .refl t
  · cases hfirst : t.firstAnswering (trim id) with
    | none => exact .refl t
    | some row =>
      dsimp only
      split
      · exact .refl t
      · refine partsKept_updateWhere (by exact fun _ => rfl) fun r hr hkey => ?_
        have hrow : row ∈ t.rows.items := mem_of_find?_eq_some hfirst
        have hsame : r = row := t.rows.eq_of_key_eq hr hrow (of_decide_eq_true hkey)
        have hapart : IsApart "reactionsJson" := by decide
        rw [hsame]
        split
        · exact reading_erase_of_isApart hapart _
        · exact reading_insert_of_isApart hapart _ _

theorem partsKept_applyReactionEvent [RowCodes] (t : RowTable) (now : ℕ) (conversationId id userId emoji : String)
    (action : ℤ) (eventSeq : Option ℕ) :
    PartsKept t (t.applyReactionEvent now conversationId id userId emoji action eventSeq).2 := by
  have hkey : IsApart ("lastReactionEventSeq:" ++ userId ++ ":" ++ emoji) := by
    rw [String.append_assoc, String.append_assoc]
    exact isApart_of_startsWith (fun part key hkey => (partKeys_apart part key hkey).2.2.2) _
  have hmarked : PartsKept t
    (t.applyMessageExtraWithSeq id ("lastReactionEventSeq:" ++ userId ++ ":" ++ emoji) eventSeq
      fun attributes => attributes).2 := partsKept_applyMessageExtraWithSeq t id eventSeq hkey fun _ => rfl
  unfold applyReactionEvent
  split
  · exact .refl t
  · split
    · exact .refl t
    · generalize t.applyMessageExtraWithSeq id ("lastReactionEventSeq:" ++ userId ++ ":" ++ emoji) eventSeq
        (fun attributes => attributes) = outcome at hmarked ⊢
      obtain ⟨result, marked⟩ := outcome
      dsimp only
      split
      · exact hmarked
      · split
        · exact hmarked.trans (.trans (.of_rows rfl) (partsKept_refreshReactionsJsonSnapshot _ id))
        · exact hmarked.trans (.trans (.of_rows rfl) (partsKept_refreshReactionsJsonSnapshot _ id))

theorem partsKept_applyDeleteEvent (t : RowTable) (id : String) (eventSeq : Option ℕ) :
    PartsKept t (t.applyDeleteEvent id eventSeq).2 := by
  unfold applyDeleteEvent
  split
  · exact .refl t
  · split
    · exact .refl t
    · exact .trans (.of_rows rfl) (partsKept_deleteRows _ _)

theorem partsKept_applyMarkEvent (t : RowTable) (id : String) (markType : ℤ) (color : Option String)
    (setMark : Bool)
    (eventSeq : Option ℕ) : PartsKept t (t.applyMarkEvent id markType color setMark eventSeq).2 := by
  have hapart : IsApart "markType" ∧ IsApart "markColor" := by decide
  refine partsKept_applyMessageExtraWithSeq t id eventSeq
    (isApart_of_startsWith (fun part key hkey => (partKeys_apart part key hkey).2.2.1) _) fun attributes => ?_
  split
  · split
    · split
      · rw [reading_erase_of_isApart hapart.2, reading_insert_of_isApart hapart.1]
      · rw [reading_insert_of_isApart hapart.2, reading_insert_of_isApart hapart.1]
    · rw [reading_erase_of_isApart hapart.2, reading_insert_of_isApart hapart.1]
  · rw [reading_erase_of_isApart hapart.2, reading_erase_of_isApart hapart.1]

/-- An edit must not meet two rows. -/
def RowEvent.MeetsOne (t : RowTable) : RowEvent → Prop
  | .edit _ id _ _ => t.OneAnswers id
  | _ => True

instance : (e : RowEvent) → Decidable (e.MeetsOne t)
  | .edit _ id _ _ => inferInstanceAs (Decidable (t.OneAnswers id))
  | .reaction .. => isTrue trivial
  | .delete .. => isTrue trivial
  | .mark .. => isTrue trivial
  | .retentionScheduled .. => isTrue trivial
  | .retentionExpired .. => isTrue trivial
  | .retentionPurged .. => isTrue trivial

theorem partsKept_applyRowEvent [RowCodes] (t : RowTable) (e : RowEvent) (h : e.MeetsOne t) :
    PartsKept t (t.applyRowEvent e) := by
  have hapart : IsApart "retention_event" ∧ IsApart "retention_placeholder" ∧
    IsApart "lastRetentionScheduledEventSeq" ∧
      IsApart "lastRetentionExpiredEventSeq" ∧ IsApart "lastRetentionPurgedEventSeq" := by decide
  obtain ⟨hevent, hplaceholder, hscheduled, hexpired, hpurged⟩ := hapart
  cases e with
  | edit now id newContent eventSeq => exact partsKept_applyEditEvent now newContent eventSeq h
  | reaction now conversationId id userId emoji action eventSeq =>
    exact partsKept_applyReactionEvent t now conversationId id userId emoji action eventSeq
  | delete id eventSeq => exact partsKept_applyDeleteEvent t id eventSeq
  | mark id markType color setMark eventSeq => exact partsKept_applyMarkEvent t id markType color setMark eventSeq
  | retentionScheduled id policy state scheduledAt eventSeq =>
    refine partsKept_retainRows (by exact fun _ => rfl) (by exact fun _ => rfl) ?_
    exact partsKept_applyMessageExtraWithSeq t id eventSeq hscheduled fun _ => reading_insert_of_isApart hevent _ _
  | retentionExpired now id state expiredAt eventSeq =>
    refine partsKept_retainRows (by exact fun _ => rfl) (by exact fun _ => rfl) ?_
    refine partsKept_applyMessageExtraWithSeq t id eventSeq hexpired fun _ => ?_
    rw [reading_insert_of_isApart hplaceholder, reading_insert_of_isApart hevent]
  | retentionPurged now id state purgedAt eventSeq =>
    refine partsKept_retainRows (by exact fun _ => rfl) (by exact fun _ => rfl) ?_
    refine partsKept_applyMessageExtraWithSeq t id eventSeq hpurged fun _ => ?_
    rw [reading_insert_of_isApart hplaceholder, reading_insert_of_isApart hevent]

end Kept

end RowTable

end FlareIm.Store
