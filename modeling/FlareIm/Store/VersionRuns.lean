import FlareIm.Store.Versions

/-! Runs of saves, acknowledgements and events on the message table, and what every row has seen of its
versioned parts. A row that a save or an acknowledgement writes takes over from the rows it replaces, and
has seen what they saw; an event without a number counts with the number that the row has. -/

namespace FlareIm.Store

open Lib Message Events List KeyedMap Std.ExtTreeMap Option

namespace RowTable

inductive VersionStep
  | save (now : ℕ) (m : InboundMessage)
  | ack (now : ℕ) (clientMsgId : String) (m : InboundMessage)
  | pin (id : String) (enabled : Bool) (eventSeq : Option ℕ)
  | pluginState (id : String) (state : PluginMessageState)
  | pluginShared (id : String) (state : SharedState)
  | event (e : RowEvent)

def applyStep [RowCodes] (t : RowTable) : VersionStep → RowTable
  | .save now m => t.saveBatch now [m]
  | .ack now clientMsgId m => t.updateAfterAck now clientMsgId m
  | .pin id enabled eventSeq => (t.applyPinEvent id enabled eventSeq).2
  | .pluginState id state => (applyPluginMessageState t id state).2
  | .pluginShared id state => (storePluginSharedState t id state).2
  | .event e => t.applyRowEvent e

/-- What a step has to say about a part of the row under `sid`. -/
def brings (t : RowTable) (sid : String) (part : Part) : VersionStep → List Reading
  | .save _ m => if m.serverId = sid ∧ t.isPersistable m = true then (reading m.attributes part).toList else []
  | .ack _ _ m => if m.serverId = sid then (reading m.attributes part).toList else []
  | .pin id enabled eventSeq =>
    if part = .pin then ((t.get sid).filter (answersTo id)).toList.map fun r =>
      ⟨(eventSeq.filter (0 < ·)).getD (messageAttributeSeq r.attributes "lastPinEventSeq"),
        some (if enabled then "true" else "false"), none⟩
    else []
  | .pluginState id state =>
    if part = .pluginState then ((t.get sid).filter fun r =>
      !isBlank id && answersTo (trim id) r).toList.map fun _ =>
      ⟨state.version, some state.valuesJson, state.basedOnVersion.map toString⟩
    else []
  | .pluginShared id state =>
    if part = .pluginShared ∧ 0 < state.version then
      ((t.get sid).filter fun r => !isBlank id && answersTo (trim id) r).toList.map fun _ =>
        ⟨state.version, some state.valuesJson, none⟩
    else []
  | .event _ => []

/-- The rows that the row under `sid` takes over from. -/
def replaced [RowCodes] (t : RowTable) (sid : String) : VersionStep → List MessageRow
  | .save _ m =>
    if m.serverId = sid ∧ t.isPersistable m = true then t.rows.items.filter fun r =>
      r.serverId = sid || r ∉ (t.removeConflictingLocalClientMsgRows m.clientMsgId m.serverId).rows.items
    else (t.get sid).toList
  | .ack _ clientMsgId m =>
    if m.serverId = sid then t.rows.items.filter fun r => r.serverId = sid || r ∈ t.ackedCopies clientMsgId m
    else (t.get sid).toList
  | _ => (t.get sid).toList

/-! ### The condition on steps -/

/-- A copy with a higher pin number than the stored row has a pin of its own, if that row has one. -/
def BringsPin (t : RowTable) (m : InboundMessage) : Prop :=
  ∀ r ∈ t.get m.serverId, messageAttributeSeq r.attributes "lastPinEventSeq" <
    messageAttributeSeq m.attributes "lastPinEventSeq" →
    r.attributes["pinned"]? = none ∨ m.attributes["pinned"]? ≠ none
  deriving Decidable

/-- The rows that a save removes have nothing above what the message or its stored row has. -/
def RemovesOlder [RowCodes] (t : RowTable) (now : ℕ) (m : InboundMessage) : Prop :=
  ∀ r ∈ t.replaced m.serverId (.save now m), ∀ part, ∀ x ∈ reading r.attributes part,
    ∃ y ∈ (reading m.attributes part).toList ++ (t.get m.serverId).toList.filterMap fun r =>
      reading r.attributes part,
      x.version ≤ y.version

def Careful [RowCodes] (t : RowTable) : VersionStep → Prop
  | .save now m => t.isPersistable m = true →
    isTrimmed m.serverId = true ∧ t.SoleCopy m.serverId m ∧ t.BringsPin m ∧ t.RemovesOlder now m
  | .ack now clientMsgId m => isTrimmed m.serverId = true ∧
    ∀ r ∈ t.replaced m.serverId (.ack now clientMsgId m),
      messageAttributeSeq r.attributes "lastPinEventSeq" ≤ messageAttributeSeq m.attributes "lastPinEventSeq"
  | .event e => e.MeetsOne t
  | _ => True

instance {p : Part → Prop} [DecidablePred p] : Decidable (∀ part, p part) :=
  decidable_of_iff (p .pin ∧ p .pluginState ∧ p .pluginShared)
    ⟨fun h part => by cases part <;> [exact h.1; exact h.2.1; exact h.2.2], fun h => ⟨h _, h _, h _⟩⟩

instance {_ : RowCodes} (t : RowTable) (now : ℕ) (m : InboundMessage) : Decidable (t.RemovesOlder now m) :=
  inferInstanceAs (Decidable (∀ r ∈ t.replaced m.serverId (.save now m), _))

instance {_ : RowCodes} (t : RowTable) : (e : VersionStep) → Decidable (t.Careful e)
  | .save _ _ => inferInstanceAs (Decidable (_ = true → _ ∧ _))
  | .ack _ _ _ => inferInstanceAs (Decidable (_ ∧ _))
  | .pin _ _ _ => isTrue trivial
  | .pluginState _ _ => isTrue trivial
  | .pluginShared _ _ => isTrue trivial
  | .event e => inferInstanceAs (Decidable (e.MeetsOne t))

/-- The numbers of the step are `u64` values. -/
def VersionStep.Fits : VersionStep → Prop
  | .pin _ _ eventSeq => ∀ seq ∈ eventSeq, seq ≤ maxU64
  | .pluginState _ state => state.version ≤ maxU64
  | .pluginShared _ state => state.version ≤ maxU64
  | _ => True

/-! ### One step -/

/-- A row's part is a newest of what is brought and of what the rows before held. -/
abbrev TakesNewest (part : Part) (attributes : Attributes) (brought : List Reading) (before : List MessageRow) :
    Prop :=
  IsNewest Reading.version (reading attributes part)
  (brought ++ before.filterMap fun r => reading r.attributes part)

variable {r : MessageRow} {m : InboundMessage} {now : ℕ} {r' : MessageRow} {sid : String} {t : RowTable}
  {state : PluginMessageState}

section Step

variable {part : Part}

theorem filterMap_reading (r : MessageRow) :
    (some r).toList.filterMap (fun r => reading r.attributes part) = (reading r.attributes part).toList := by
  rw [toList_some, filterMap_cons]
  cases reading r.attributes part <;> rfl

theorem isNewest_of_kept {attributes : Attributes} (hparts : reading attributes part = reading r.attributes part) :
    TakesNewest part attributes [] (some r).toList := by
  rw [TakesNewest, hparts, nil_append, filterMap_reading]
  exact isNewest_toList _

/-- Both plugin states are written to the answering rows that accept them. -/
theorem get_updateAnswering (t : RowTable) (id : String) (accepts : Attributes → Bool)
    (write : Attributes → Attributes)
    (result : ApplyResult) (sid : String) :
    (if isBlank id || (t.rows.items.filter (answersTo (trim id))).isEmpty then (ApplyResult.notFound, t)
      else (result, t.updateWhere (fun r => answersTo (trim id) r && accepts r.attributes)
        (fun r => { r with attributes := write r.attributes }) fun _ => rfl)).2.get sid =
      (t.get sid).map fun r => if !isBlank id && answersTo (trim id) r then
        { r with attributes := if accepts r.attributes then write r.attributes else r.attributes } else r := by
  split
  · next hnone =>
    cases hrow : t.get sid with
    | none => rfl
    | some r =>
      refine congrArg some (if_neg fun hanswers => ?_).symm
      rw [Bool.and_eq_true, Bool.not_eq_true'] at hanswers
      rw [hanswers.1, Bool.false_or, List.isEmpty_iff, List.filter_eq_nil_iff] at hnone
      exact hnone r (mem_of_find? hrow) hanswers.2
  · next hsome =>
    rw [Bool.or_eq_true, not_or, Bool.not_eq_true] at hsome
    refine (get_updateWhere t _ _ (by exact fun _ => rfl) sid).trans
      (congrArg (Option.map · (t.get sid)) (funext fun r => ?_))
    rw [hsome.1]
    cases answersTo (trim id) r <;> cases accepts r.attributes <;> rfl

/-- Each answering row has one value to take for a part, unless it keeps one that is not older. -/
theorem isNewest_written {answers : MessageRow → Bool} (write : Attributes → Attributes) {own : Part}
    {x : MessageRow → Reading}
    (hown : ∀ r : MessageRow, (reading (write r.attributes) own = some (x r) ∧
        ∀ y ∈ reading r.attributes own, y.version ≤ (x r).version) ∨
      (reading (write r.attributes) own = reading r.attributes own ∧
        ∃ y ∈ reading r.attributes own, (x r).version ≤ y.version))
    (hothers : ∀ attributes, part ≠ own → reading (write attributes) part = reading attributes part)
    (hr' : ((t.get sid).map fun r => if answers r then { r with attributes := write r.attributes } else r) =
      some r') :
    TakesNewest part r'.attributes (if part = own then ((t.get sid).filter answers).toList.map x else [])
      (t.get sid).toList := by
  obtain ⟨r, hget, rfl⟩ := map_eq_some_iff.mp hr'
  rw [hget, filter_some]
  by_cases hanswers : answers r = true
  · rw [if_pos hanswers, if_pos hanswers]
    by_cases hpart : part = own
    · subst hpart
      rw [TakesNewest, filterMap_reading, if_pos rfl, toList_some, map_singleton, singleton_append]
      rcases hown r with ⟨htaken, hle⟩ | ⟨hkept, y, hy, hle⟩
      · rw [htaken]
        exact isNewest_take fun y hy => hle y (mem_toList.mp hy)
      · rw [hkept, mem_def.mp hy]
        exact isNewest_keep hle
    · rw [if_neg hpart]
      exact isNewest_of_kept (hothers r.attributes hpart)
  · rw [if_neg hanswers, if_neg hanswers, toList_none, map_nil, ite_self]
    exact isNewest_of_kept rfl

variable (attributes : Attributes)

theorem reading_pinned (eventSeq : Option ℕ) (flag : String) (hfits : ∀ seq ∈ eventSeq, seq ≤ maxU64) :
    reading ((numberedAttributes "lastPinEventSeq" eventSeq attributes).insert "pinned" flag) .pin =
      some ⟨(eventSeq.filter (0 < ·)).getD (messageAttributeSeq attributes "lastPinEventSeq"),
        some flag, none⟩ := by
  have hseq : messageAttributeSeq ((numberedAttributes "lastPinEventSeq" eventSeq attributes).insert "pinned" flag)
      "lastPinEventSeq" = (eventSeq.filter (0 < ·)).getD (messageAttributeSeq attributes "lastPinEventSeq") := by
    rw [messageAttributeSeq, getElem?_insert_of_ne (by decide), numberedAttributes]
    cases hnumber : eventSeq.filter (0 < ·) with
    | none => rfl
    | some seq =>
      have hle : seq ≤ maxU64 := hfits seq (filter_eq_some_iff.mp hnumber).1
      exact messageAttributeSeq_insert_self hle
  rw [reading, hseq, getElem?_insert_self]

/-- An event is out of date if its number is not above the stored one; without a number it never is. -/
theorem isStaleOperation_eq (seqKey : String) (eventSeq : Option ℕ) :
    if isStaleOperation attributes seqKey eventSeq then
      (eventSeq.filter (0 < ·)).getD (messageAttributeSeq attributes seqKey) ≤ messageAttributeSeq attributes seqKey
    else messageAttributeSeq attributes seqKey ≤
      (eventSeq.filter (0 < ·)).getD (messageAttributeSeq attributes seqKey) := by
  unfold isStaleOperation
  cases eventSeq.filter (0 < ·) with
  | none => exact le_rfl
  | some seq =>
    dsimp only
    split
    · next hstale =>
      simp only [Bool.and_eq_true, decide_eq_true_eq] at hstale
      exact hstale.2
    · next hfresh =>
      simp only [Bool.and_eq_true, decide_eq_true_eq, not_and, not_le] at hfresh
      rcases Nat.eq_zero_or_pos (messageAttributeSeq attributes seqKey) with hzero | hpos
      · exact hzero ▸ Nat.zero_le _
      · exact (hfresh hpos).le

variable {id : String}

theorem isNewest_applyPinEvent {enabled : Bool} {eventSeq : Option ℕ}
    (hfits : ∀ seq ∈ eventSeq, seq ≤ maxU64) (hr' : (t.applyPinEvent id enabled eventSeq).2.get sid = some r') :
    TakesNewest part r'.attributes (t.brings sid part (.pin id enabled eventSeq)) (t.get sid).toList := by
  rw [applyPinEvent, get_applyMessageExtraWithSeq] at hr'
  refine isNewest_written _ (fun r => ?_) (fun attributes hpart => ?_) hr'
  · have hseq := isStaleOperation_eq r.attributes "lastPinEventSeq" eventSeq
    unfold eventAttributes
    split at hseq
    · next hstale =>
      rw [if_pos hstale]
      exact .inr ⟨rfl, _, rfl, hseq⟩
    · next hfresh =>
      rw [if_neg hfresh]
      refine .inl ⟨reading_pinned _ _ _ hfits, fun y hy => ?_⟩
      obtain rfl := some.inj hy
      exact hseq
  · have hne := not_mem_partKeys hpart
    unfold eventAttributes numberedAttributes
    split
    · rfl
    · rw [reading_insert (hne "pinned" (by decide))]
      split
      · exact reading_insert (hne "lastPinEventSeq" (by decide)) _ _
      · rfl

theorem reading_writePluginMessageState (hfits : state.version ≤ maxU64) :
    reading (writePluginMessageState attributes state) .pluginState =
      some ⟨state.version, some state.valuesJson, state.basedOnVersion.map toString⟩ := by
  have hvalues : ((attributes.insert pluginStateJsonKey state.valuesJson).insert pluginStateVersionKey
      (toString state.version))[pluginStateJsonKey]? = some state.valuesJson := by
    rw [getElem?_insert_of_ne (by decide), getElem?_insert_self]
  have hversion : ((attributes.insert pluginStateJsonKey state.valuesJson).insert pluginStateVersionKey
      (toString state.version))[pluginStateVersionKey]? = some (toString state.version) :=
    getElem?_insert_self
  unfold writePluginMessageState
  cases state.basedOnVersion with
  | some basedOn =>
    refine (reading_state_eq hfits ((getElem?_insert_of_ne (by decide) _).trans hvalues)
      ((getElem?_insert_of_ne (by decide) _).trans hversion)).trans ?_
    rw [getElem?_insert_self, map_some]
  | none =>
    refine (reading_state_eq hfits ((getElem?_erase_of_ne (by decide)).trans hvalues)
      ((getElem?_erase_of_ne (by decide)).trans hversion)).trans ?_
    rw [getElem?_erase_self, map_none]

theorem reading_writePluginMessageState_of_ne (state : PluginMessageState)
    (h : part ≠ .pluginState) :
      reading (writePluginMessageState attributes state) part = reading attributes part := by
  have hne := not_mem_partKeys h
  have hjson := hne pluginStateJsonKey (by decide)
  have hversion := hne pluginStateVersionKey (by decide)
  have hbased := hne pluginStateBasedOnKey (by decide)
  unfold writePluginMessageState
  split
  · rw [reading_insert hbased, reading_insert hversion, reading_insert hjson]
  · rw [reading_erase hbased, reading_insert hversion, reading_insert hjson]

theorem isNewest_applyPluginMessageState
    (hfits : state.version ≤ maxU64) (hr' : (applyPluginMessageState t id state).2.get sid = some r') :
    TakesNewest part r'.attributes (t.brings sid part (.pluginState id state)) (t.get sid).toList := by
  have hwritten := (get_updateAnswering t id (acceptsState state)
    (writePluginMessageState · state) _ sid).symm.trans hr'
  refine isNewest_written
    (fun a => if acceptsState state a then writePluginMessageState a state else a) (fun r => ?_)
    (fun attributes hpart => ?_) hwritten
  · dsimp only
    split
    · next haccepts =>
      refine .inl ⟨reading_writePluginMessageState _ hfits, fun y hy => ?_⟩
      obtain ⟨values, hvalues, rfl⟩ := map_eq_some_iff.mp hy
      have hcontains : r.attributes.contains pluginStateJsonKey = true := by
        rw [contains_eq_isSome_getElem?, hvalues]
        rfl
      simpa [acceptsState, hcontains] using haccepts
    · next hrefused =>
      simp only [acceptsState, Bool.not_eq_true, Bool.not_eq_false', Bool.and_eq_true, decide_eq_true_eq,
        contains_eq_isSome_getElem?] at hrefused
      obtain ⟨values, hvalues⟩ := isSome_iff_exists.mp hrefused.1
      exact .inr ⟨rfl, _, map_eq_some_iff.mpr ⟨values, hvalues, rfl⟩, hrefused.2.le⟩
  · split
    · exact reading_writePluginMessageState_of_ne _ state hpart
    · rfl

theorem reading_writePluginSharedState {state : SharedState} (hfits : state.version ≤ maxU64) :
    reading (writePluginSharedState attributes state) .pluginShared =
      if 0 < state.version then some ⟨state.version, some state.valuesJson, none⟩ else none := by
  unfold writePluginSharedState
  simp (disch := decide) only [reading, pluginSharedStateVersion, getElem?_insert_of_ne, getElem?_insert_self,
    bind_eq_bind, bind_some, parseU64_toString hfits]
  split <;> rfl

theorem reading_writePluginSharedState_of_ne (state : SharedState)
    (h : part ≠ .pluginShared) :
      reading (writePluginSharedState attributes state) part = reading attributes part := by
  have hne := not_mem_partKeys h
  have hentity : IsApart pluginSharedEntityKey := by decide
  rw [writePluginSharedState, reading_insert (hentity part),
    reading_insert (hne pluginSharedStateVersionKey (by decide)),
    reading_insert (hne pluginSharedStateJsonKey (by decide))]

theorem isNewest_storePluginSharedState {state : SharedState}
    (hfits : state.version ≤ maxU64) (hr' : (storePluginSharedState t id state).2.get sid = some r') :
    TakesNewest part r'.attributes (t.brings sid part (.pluginShared id state)) (t.get sid).toList := by
  have hwritten := (get_updateAnswering t id (isNewerThan state)
    (writePluginSharedState · state) _ sid).symm.trans hr'
  by_cases hpositive : 0 < state.version
  · simp only [brings, hpositive, and_true]
    refine isNewest_written
      (fun a => if isNewerThan state a then writePluginSharedState a state else a) (fun r => ?_)
      (fun attributes hpart => ?_) hwritten
    · dsimp only
      split
      · next haccepts =>
        refine .inl ⟨by rw [reading_writePluginSharedState _ hfits, if_pos hpositive], fun y hy => ?_⟩
        obtain ⟨version, hversion, rfl⟩ := map_eq_some_iff.mp hy
        have hlt : version < state.version := by simpa [isNewerThan, hversion] using haccepts
        exact hlt.le
      · next hrefused =>
        cases hversion : pluginSharedStateVersion r.attributes with
        | none => simp [isNewerThan, hversion] at hrefused
        | some version =>
          have hle : state.version ≤ version := by simpa [isNewerThan, hversion] using hrefused
          exact .inr ⟨rfl, _, map_eq_some_iff.mpr ⟨version, hversion, rfl⟩, hle⟩
    · split
      · exact reading_writePluginSharedState_of_ne _ state hpart
      · rfl
  · -- a state without a version does not count: no row takes it
    simp only [brings, hpositive, and_false, if_false]
    obtain ⟨r, hget, rfl⟩ := map_eq_some_iff.mp hwritten
    rw [hget]
    refine isNewest_of_kept ?_
    split
    · dsimp only
      split
      · next haccepted =>
        by_cases hpart : part = .pluginShared
        · subst hpart
          rw [reading_writePluginSharedState r.attributes hfits, if_neg hpositive]
          cases hversion : pluginSharedStateVersion r.attributes with
          | none => simp only [reading, hversion, map_none]
          | some version =>
            have hlt : version < state.version := by simpa [isNewerThan, hversion] using haccepted
            exact absurd (Nat.zero_lt_of_lt hlt) hpositive
        · exact reading_writePluginSharedState_of_ne _ state hpart
      · rfl
    · rfl

/-! Saving -/

theorem isNewest_merge {incoming existing : Attributes}
    (hpin : messageAttributeSeq existing "lastPinEventSeq" < messageAttributeSeq incoming "lastPinEventSeq" →
      existing["pinned"]? = none ∨ incoming["pinned"]? ≠ none) :
    IsNewest Reading.version (reading (mergeMessageEventAttributes incoming existing) part)
      ((reading incoming part).toList ++ (reading existing part).toList) := by
  by_cases hpart : part = .pin
  · subst hpart
    rw [reading_merge_pin]
    split
    · next hlt => exact isNewest_keep hlt.le
    · next hle =>
      rw [not_lt] at hle
      cases hincoming : incoming["pinned"]? with
      | some flag =>
        rw [some_or, ← hincoming]
        exact isNewest_take fun y hy => (mem_singleton.mp hy) ▸ hle
      | none =>
        rw [none_or]
        rcases hle.eq_or_lt with heq | hlt
        · -- the stored flag at the number that both have
          rw [← heq]
          exact isNewest_keep heq.ge
        · have hnone : existing["pinned"]? = none := (hpin hlt).resolve_right fun h => h hincoming
          have htaken : reading incoming .pin = some ⟨messageAttributeSeq incoming "lastPinEventSeq",
            none, none⟩ := by
            rw [reading, hincoming]
          rw [hnone, htaken]
          exact isNewest_take fun y hy => (mem_singleton.mp hy) ▸ hle
  · rw [reading_merge_of_ne_pin hpart]
    refine ((isNewest_toList _).newer (isNewest_toList _)).congr fun x => ?_
    rw [mem_append, mem_append, or_comm]

theorem isNewest_storedRow (hserver : isTrimmed m.serverId = true)
    (hsole : t.SoleCopy m.serverId m) (hpin : t.BringsPin m) :
    TakesNewest part ((t.removeConflictingLocalClientMsgRows m.clientMsgId m.serverId).storedRow now m).attributes
      (reading m.attributes part).toList (t.get m.serverId).toList := by
  rw [isTrimmed_iff] at hserver
  rw [storedRow, existingRow_removeConflictingLocal hserver.2 hserver.1 rfl hsole]
  cases hrow : t.get m.serverId with
  | none =>
    rw [TakesNewest, toList_none, filterMap_nil, append_nil]
    exact isNewest_toList _
  | some r =>
    rw [TakesNewest, filterMap_reading]
    exact isNewest_merge (hpin r hrow)

section

variable (copies : List MessageRow) (attributes : Attributes)

/-- The plugin states of the copies are carried one after the other. -/
theorem reading_foldl_carry (hpart : part ≠ .pin) :
    reading (copies.foldl (fun attributes r => carryPluginMessageState attributes r.attributes) attributes) part =
      copies.foldl (fun kept r => newer Reading.version (reading r.attributes part) kept)
        (reading attributes part) := by
  induction copies generalizing attributes with
  | nil => rfl
  | cons r copies ih =>
    rw [foldl_cons, ih, foldl_cons]
    cases part with
    | pin => exact absurd rfl hpart
    | pluginState => rw [reading_state_carry]
    | pluginShared => rw [reading_shared_carry]

theorem reading_pin_foldl_carry :
    reading (copies.foldl (fun attributes r => carryPluginMessageState attributes r.attributes) attributes) .pin =
      reading attributes .pin := by
  induction copies generalizing attributes with
  | nil => rfl
  | cons r copies ih => rw [foldl_cons, ih, reading_pin_carry]

end

section Rows

variable [RowCodes]

theorem isNewest_saveBatch (hcareful : t.Careful (.save now m)) (hr' : r' ∈ (t.saveBatch now [m]).rows.items) :
    TakesNewest part r'.attributes (t.brings r'.serverId part (.save now m))
      (t.replaced r'.serverId (.save now m)) := by
  rw [rows_saveBatch_singleton] at hr'
  by_cases hkept : t.isPersistable m = true
  · rw [if_pos hkept] at hr'
    obtain ⟨hserver, hsole, hpin, holder⟩ := hcareful hkept
    rcases (mem_insert _ _ _).mp hr' with rfl | ⟨hold, hne⟩
    · rw [storedRow_serverId, brings, if_pos ⟨rfl, hkept⟩]
      refine (isNewest_storedRow hserver hsole hpin).extend (fun x hx => ?_) fun y hy => ?_
      · rcases mem_append.mp hx with hnew | hstored
        · exact mem_append_left _ hnew
        · obtain ⟨r, hr, hx⟩ := mem_filterMap.mp hstored
          have hrow : t.get m.serverId = some r := mem_toList.mp hr
          refine mem_append_right _ (mem_filterMap.mpr ⟨r, ?_, hx⟩)
          rw [replaced, if_pos ⟨rfl, hkept⟩, mem_filter]
          exact ⟨mem_of_find? hrow, by simp [serverId_of_get hrow]⟩
      · rcases mem_append.mp hy with hnew | hreplaced
        · exact ⟨y, mem_append_left _ hnew, le_rfl⟩
        · obtain ⟨r, hr, hy⟩ := mem_filterMap.mp hreplaced
          exact holder r hr part y hy
    · have hne' : m.serverId ≠ r'.serverId := fun heq => hne heq.symm
      rw [brings, replaced, if_neg fun h => hne' h.1, if_neg fun h => hne' h.1,
        show t.get r'.serverId = some r' from t.rows.find?_of_mem (mem_of_mem_removeConflictingRows hold)]
      exact isNewest_of_kept rfl
  · rw [if_neg hkept] at hr'
    rw [brings, replaced, if_neg fun h => hkept h.2, if_neg fun h => hkept h.2,
      show t.get r'.serverId = some r' from t.rows.find?_of_mem hr']
    exact isNewest_of_kept rfl

/-! Acknowledgements -/

variable {clientMsgId : String}

theorem mem_of_mem_ackedCopies (h : r ∈ t.ackedCopies clientMsgId m) : r ∈ t.rows.items := by
  obtain ⟨id, -, hr⟩ := mem_flatMap.mp h
  exact (mem_filter.mp hr).1

theorem mem_ackedCopies_of_serverId (hserver : isTrimmed m.serverId = true)
    (hr : r ∈ t.rows.items) (hkey : r.serverId = m.serverId) : r ∈ t.ackedCopies clientMsgId m := by
  rw [isTrimmed_iff] at hserver
  have hid : trim (ackedMessage clientMsgId m).serverId = m.serverId := by
    rw [ackedMessage, ackedRow_serverId, hserver.2]
  have hne : m.serverId ≠ "" := by
    intro hempty
    rw [hempty] at hserver
    exact absurd hserver.1 (by decide)
  refine mem_flatMap.mpr ⟨m.serverId, ?_, mem_filter.mpr ⟨hr, by simp [answersTo, hkey]⟩⟩
  rw [hid, filter_cons_of_pos (by simpa using hne)]
  exact mem_destutter' _ (fun a b => a ≠ b) _

theorem attributes_carried (clientMsgId : String) : (newRow now (t.carriedMessage clientMsgId m)).attributes =
    (t.ackedCopies clientMsgId m).foldl (fun attributes r => carryPluginMessageState attributes r.attributes)
      m.attributes := by
  rw [newRow, carriedMessage]

theorem isNewest_updateAfterAck (hcareful : t.Careful (.ack now clientMsgId m))
    (hr' : r' ∈ (t.updateAfterAck now clientMsgId m).rows.items) :
    TakesNewest part r'.attributes (t.brings r'.serverId part (.ack now clientMsgId m))
      (t.replaced r'.serverId (.ack now clientMsgId m)) := by
  obtain ⟨hserver, hpin⟩ := hcareful
  rcases mem_updateAfterAck hr' with rfl | ⟨hold, hne⟩
  · have hkey : (newRow now (t.carriedMessage clientMsgId m)).serverId = m.serverId := carriedMessage_serverId
    rw [TakesNewest, hkey, brings, if_pos rfl]
    have hmem : ∀ r, r ∈ t.replaced m.serverId (.ack now clientMsgId m) ↔ r ∈ t.ackedCopies clientMsgId m := by
      intro r
      rw [replaced, if_pos rfl, mem_filter, Bool.or_eq_true, decide_eq_true_eq, decide_eq_true_eq]
      refine ⟨fun h => h.2.elim (mem_ackedCopies_of_serverId hserver h.1) id,
        fun h => ⟨mem_of_mem_ackedCopies h, .inr h⟩⟩
    by_cases hpart : part = .pin
    · subst hpart
      have hreading : reading m.attributes .pin =
        some ⟨messageAttributeSeq m.attributes "lastPinEventSeq", m.attributes["pinned"]?, none⟩ := rfl
      rw [attributes_carried, reading_pin_foldl_carry, hreading, toList_some, singleton_append]
      refine isNewest_take fun y hy => ?_
      obtain ⟨r, hr, hy⟩ := mem_filterMap.mp hy
      obtain rfl := some.inj hy
      exact hpin r hr
    · rw [attributes_carried, reading_foldl_carry _ _ hpart]
      refine (isNewest_foldl_newer _ _ (isNewest_toList _)).congr fun x => ?_
      simp only [mem_append, mem_filterMap, hmem]
  · have hne' : m.serverId ≠ r'.serverId := fun heq => hne heq.symm
    rw [brings, replaced, if_neg hne', if_neg hne', show t.get r'.serverId = some r' from t.rows.find?_of_mem hold]
    exact isNewest_of_kept rfl

end Rows

end Step

variable {e : VersionStep}

/-- What a row holds after a step is the newest of what the step brings and of what the rows held that it
takes over from. -/
theorem isNewest_applyStep [RowCodes] (hfits : e.Fits) (hcareful : t.Careful e)
    (hr' : r' ∈ (t.applyStep e).rows.items) (part : Part) :
    TakesNewest part r'.attributes (t.brings r'.serverId part e) (t.replaced r'.serverId e) := by
  cases e with
  | save now m => exact isNewest_saveBatch hcareful hr'
  | ack now clientMsgId m => exact isNewest_updateAfterAck hcareful hr'
  | pin id enabled eventSeq => exact isNewest_applyPinEvent hfits (find?_of_mem _ hr')
  | pluginState id state => exact isNewest_applyPluginMessageState hfits (find?_of_mem _ hr')
  | pluginShared id state => exact isNewest_storePluginSharedState hfits (find?_of_mem _ hr')
  | event e =>
    obtain ⟨r, hget, hparts⟩ := partsKept_applyRowEvent t e hcareful r' hr'
    rw [brings, replaced, hget]
    · exact isNewest_of_kept (congrFun hparts part)
    · exact fun _ _ h => VersionStep.noConfusion h
    · exact fun _ _ _ h => VersionStep.noConfusion h

theorem mem_rows_of_mem_replaced [RowCodes]
    (h : r ∈ t.replaced sid e) : r ∈ t.rows.items := by
  have hstored : ∀ r ∈ (t.get sid).toList, r ∈ t.rows.items := fun r hr =>
    mem_of_find? (mem_toList.mp hr)
  unfold replaced at h
  split at h
  · split at h
    · exact (mem_filter.mp h).1
    · exact hstored r h
  · split at h
    · exact (mem_filter.mp h).1
    · exact hstored r h
  · exact hstored r h

/-- The table, and what every row has seen of its parts. -/
structure VersionRun where
  table : RowTable
  seen : String → Part → List Reading

namespace VersionRun

section Newest

variable [RowCodes]

def step (s : VersionRun) (e : VersionStep) : VersionRun where
  table := s.table.applyStep e
  seen sid part := s.table.brings sid part e ++ (s.table.replaced sid e).flatMap fun r => s.seen r.serverId part

def start (t : RowTable) : VersionRun :=
  ⟨t, fun sid part => ((t.get sid).bind fun r => reading r.attributes part).toList⟩

def version (attributes : Attributes) (part : Part) : ℕ := ((reading attributes part).map Reading.version).getD 0

/-- Every row holds a newest of all that it has seen. -/
def HoldsNewest (s : VersionRun) : Prop :=
  ∀ r ∈ s.table.rows.items, ∀ part, IsNewest Reading.version (reading r.attributes part) (s.seen r.serverId part)

/-- After the step every row holds a newest, and no version is below that of a row it takes over from. -/
def KeepsNewest (s : VersionRun) (e : VersionStep) : Prop :=
  (step s e).HoldsNewest ∧ ∀ r' ∈ (step s e).table.rows.items, ∀ r ∈ s.table.replaced r'.serverId e,
    ∀ part, version r.attributes part ≤ version r'.attributes part

omit [RowCodes] in
theorem holdsNewest_start (t : RowTable) : (start t).HoldsNewest := by
  intro r hr part
  have hget : t.get r.serverId = some r := t.rows.find?_of_mem hr
  show IsNewest _ _ ((t.get r.serverId).bind fun r => reading r.attributes part).toList
  rw [hget, bind_some]
  exact isNewest_toList _

theorem keepsNewest_of_careful {s : VersionRun} (hs : s.HoldsNewest)
    (h : s.table.Careful e ∧ e.Fits) : KeepsNewest s e := by
  refine ⟨fun r' hr' part => ?_, fun r' hr' r hr part => ?_⟩
  · exact (isNewest_applyStep h.2 h.1 hr' part).of_places fun r hr => hs r (mem_rows_of_mem_replaced hr) part
  · cases hreading : reading r.attributes part with
    | none => rw [version, hreading]; exact Nat.zero_le _
    | some x =>
      have hmem : x ∈ s.table.brings r'.serverId part e ++
          (s.table.replaced r'.serverId e).filterMap fun r => reading r.attributes part :=
        mem_append_right _ (mem_filterMap.mpr ⟨r, hr, hreading⟩)
      obtain ⟨y, hy, hle⟩ := (isNewest_applyStep h.2 h.1 hr' part).le x hmem
      rw [version, version, hreading, mem_def.mp hy]
      exact hle

end Newest

def cardMessage : InboundMessage where
  serverId := "s1"
  clientMsgId := "c1"
  conversationId := "conv"
  senderId := "alice"
  conversationSeq := 1
  status := 2

def sendingMessage : InboundMessage :=
  { cardMessage with serverId := "c1", conversationSeq := 0, localState := { isLocal := true, sending := true } }

/-- A plugin state on the message that is being sent, the acknowledgement, then later versions and a copy. -/
def ackThenEvents : List VersionStep :=
  [.save 1 sendingMessage, .pluginState "c1" ⟨2, "open", none⟩, .ack 2 "c1" cardMessage, .pin "s1" true (some 5),
    .pluginState "s1" ⟨3, "done", some 2⟩, .pluginShared "s1" ⟨"poll", 4, "votes"⟩, .pin "s1" false (some 3),
    .save 3 cardMessage]

/-- What the row under the id holds of a part after the steps. -/
def readingAfter (sid : String) (part : Part) (steps : List VersionStep) : Option Reading :=
  ((run (@step sampleRowCodes) (start empty) steps).table.get sid).bind fun r => reading r.attributes part

/-- The message comes with a sync and is pinned before its acknowledgement arrives. -/
def pinThenAck : List VersionStep := [.save 1 cardMessage, .pin "s1" true (some 5), .ack 2 "c1" cardMessage]

/-- The message has a plugin state while it is being sent, and comes with a sync before its acknowledgement. -/
def stateThenSave : List VersionStep :=
  [.save 1 sendingMessage, .pluginState "c1" ⟨2, "open", none⟩, .save 2 cardMessage]

def failedMessage : InboundMessage := { sendingMessage with localState := { isLocal := true, failed := true } }

/-- A copy that failed to be sent answers to the client id before the message does. -/
def pinThenEdit : List VersionStep :=
  [.save 1 cardMessage, .save 2 failedMessage, .pin "s1" true (some 5), .event (.edit 3 "c1" [1] (some 6))]

end VersionRun

end RowTable

end FlareIm.Store
