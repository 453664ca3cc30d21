import FlareIm.Events.Apply

/-! Whether the dispatcher and the sync applier leave the same message store after the same
event. Both end in the same store operation for edits, deletes, marks, retention and plugin
state. They part on pins, which only the replay keeps from users it is not meant for; on the
conversation id, which only the dispatcher trims; and on a recall of a message that is stored
under its client id alone, which only the dispatcher finds. -/

namespace FlareIm.Events

open Lib Message Store List KeyedMap RowTable

/-! ### When two updates of the table are the same -/

variable {c c' : String} {f : MessageRow → MessageRow}
  {hf : ∀ r, (f r).serverId = r.serverId} {p : MessageRow → Bool} {seq : Option ℕ}
  {t : RowTable}

section Table

theorem rowTable_eq_iff {u : RowTable} :
    t = u ↔ t.rows = u.rows ∧ t.reactions = u.reactions ∧ t.clearedFloor = u.clearedFloor := by
  cases t
  cases u
  simp

theorem updateWhere_eq_updateWhere_iff {q : MessageRow → Bool} {g : MessageRow → MessageRow}
    {hg : ∀ r, (g r).serverId = r.serverId} :
    t.updateWhere p f hf = t.updateWhere q g hg ↔
      ∀ r ∈ t.rows.items, (if p r then f r else r) = if q r then g r else r := by
  rw [rowTable_eq_iff]
  refine ⟨fun h => ?_, fun h => ⟨ext (map_inj_left.mpr h), rfl, rfl⟩⟩
  exact map_inj_left.mp (congrArg items h.1)

theorem updateWhere_eq_self_iff :
    t.updateWhere p f hf = t ↔ ∀ r ∈ t.rows.items, p r = true → f r = r := by
  have hself : t = t.updateWhere (fun _ => false) f hf :=
    rowTable_eq_iff.mpr ⟨ext (by simp [updateWhere, mapValues]), rfl, rfl⟩
  nth_rewrite 2 [hself]
  rw [updateWhere_eq_updateWhere_iff]
  refine forall₂_congr fun r _ => ?_
  cases p r <;> simp

theorem withAttributes_eq_self_iff {r : MessageRow} {attributes : Attributes} :
    { r with attributes := attributes } = r ↔ attributes = r.attributes := by
  cases r
  simp

theorem filter_eq_filter_iff {α : Type} {p q : α → Bool} {l : List α} :
    l.filter p = l.filter q ↔ ∀ a ∈ l, p a = q a := by
  refine ⟨fun h a ha => ?_, filter_congr⟩
  have hmem : a ∈ l ∧ p a = true ↔ a ∈ l ∧ q a = true := by
    rw [← mem_filter, h, mem_filter]
  exact Bool.eq_iff_iff.mpr (by simpa only [ha, true_and] using hmem)

end Table

/-! ### The conditions, one for each kind of event -/

section Conditions

variable [codes : EventCodes] (t : RowTable)

/-- Every row of the message has seen this event or a later one of its kind. -/
def IsStaleFor (id seqKey : String) (seq : Option ℕ) : Prop :=
  (∃ r ∈ t.rows.items, answersTo id r = true) ∧ ∀ r ∈ t.rows.items, answersTo id r = true →
      isStaleOperation r.attributes seqKey seq = true

/-- A pin without a number that the rows have already, or one that they are past. -/
def HasPin (id : String) (enabled : Bool) (seq : Option ℕ) : Prop :=
  ∀ r ∈ t.rows.items, answersTo id r = true →
    isStaleOperation r.attributes "lastPinEventSeq" seq = true ∨
      (seq = none ∧ r.attributes["pinned"]? = some (if enabled then "true" else "false"))

def IsRecalled (id : String) : Prop :=
  ∀ r ∈ t.rows.items, answersTo id r = true → r.status = codes.statusRecalled ∧ r.isRecalled = true

/-- The reaction is written into the reaction table, with its conversation. -/
def WritesReaction (id reactor emoji : String) (action : ℤ) (seq : Option ℕ) : Prop :=
  id ≠ "" ∧ reactor ≠ "" ∧ emoji ≠ "" ∧ action = codes.reactionAdd ∧ action ≠ codes.reactionRemove ∧
    ¬ IsStaleFor t id ("lastReactionEventSeq:" ++ reactor ++ ":" ++ emoji) seq

/-- The own messages of the conversation up to the receipt are read and past creation. -/
def IsReadUpTo (conversationId userId : String) (readSeq : ℕ) : Prop :=
  ∀ r ∈ t.rows.items, isReadBy conversationId userId readSeq r = true →
    r.isRead = true ∧ r.status ≠ codes.statusCreated

def HasNothingOf (conversationId : String) : Prop :=
  (∀ r ∈ t.rows.items, r.conversationId ≠ conversationId) ∧
  ∀ r ∈ t.reactions.items, r.conversationId ≠ conversationId

/-- What makes the two appliers agree on an event. -/
def Agrees (userId : String) (ev : Event) : Prop :=
  match ev.payload with
  | some (.recall id) => t.get id ≠ none ∨ IsRecalled t id
  | some (.reaction id reactor emoji action) =>
    trim ev.conversationId = ev.conversationId ∨ ¬ WritesReaction t id reactor emoji action ev.operationSeq
  | some (.read readerId readSeq) =>
    trim ev.conversationId = ev.conversationId ∨ readReceiptApplies userId readerId readSeq = false ∨
      isBlank ev.conversationId = true ∨ isBlank userId = true ∨
      (IsReadUpTo t (trim ev.conversationId) userId readSeq ∧ IsReadUpTo t ev.conversationId userId readSeq)
  | some (.pin id scope pinnedBy) =>
    messagePinVisibleToUser scope pinnedBy userId = true ∨ HasPin t id true ev.operationSeq
  | some (.unpin id scope unpinnedBy) =>
    messagePinVisibleToUser scope unpinnedBy userId = true ∨ HasPin t id false ev.operationSeq
  | some .conversationDelete =>
    trim ev.conversationId = ev.conversationId ∨
      (HasNothingOf t (trim ev.conversationId) ∧ HasNothingOf t ev.conversationId)
  | _ => True

end Conditions

/-! ### Each operation -/

section Operations

variable [codes : EventCodes]

theorem updateStatus_eq_self_iff (id : String) : (t.updateStatus id codes.statusRecalled).2 = t ↔
    IsRecalled t id := by
  unfold updateStatus IsRecalled
  rw [updateWhere_eq_self_iff]
  refine forall₃_congr fun r _ _ => ?_
  obtain ⟨⟨_, _, _, _, _, _, _, status, _⟩, _, isRecalled, _⟩ := r
  simp [eq_comm]

omit codes in
theorem isStaleFor_iff (id seqKey : String) (seq : Option ℕ) (apply : Attributes → Attributes) :
    (t.applyMessageExtraWithSeq id seqKey seq apply).1 = .ignoredStale ↔ IsStaleFor t id seqKey seq := by
  unfold applyMessageExtraWithSeq IsStaleFor
  dsimp only
  split
  · next hnone =>
    have hempty : ∀ r ∈ t.rows.items, ¬ answersTo id r = true := by
      simpa [filter_eq_nil_iff] using hnone
    refine iff_of_false (by simp) fun h => ?_
    obtain ⟨r, hr, hans⟩ := h.1
    exact hempty r hr hans
  · next hsome =>
    have hex : ∃ r ∈ t.rows.items, answersTo id r = true := by
      simpa [filter_eq_nil_iff] using hsome
    simp only [hex, true_and]
    split
    · next hfresh =>
      obtain ⟨r, hr, hans, hnot⟩ : ∃ r ∈ t.rows.items, answersTo id r = true ∧
          isStaleOperation r.attributes seqKey seq = false := by
        simpa [and_assoc] using hfresh
      exact iff_of_false (by simp) fun h => by simp [h r hr hans] at hnot
    · next hstale =>
      refine iff_of_true rfl fun r hr hans => ?_
      by_contra hnot
      exact hstale (any_eq_true.mpr ⟨r, mem_filter.mpr ⟨hr, hans⟩, by simpa using hnot⟩)

omit codes in
/-- A pin leaves a row unchanged only if it has no number and the row has it already. -/
theorem pinned_eq_self_iff (attributes : Attributes) (value : String)
    (hseq : ∀ n ∈ seq, 0 < n ∧ n ≤ maxU64)
    (hfresh : isStaleOperation attributes "lastPinEventSeq" seq = false) :
    (match seq.filter (0 < ·) with
      | some n => attributes.insert "lastPinEventSeq" (toString n)
      | none => attributes).insert "pinned" value = attributes ↔
    seq = none ∧ attributes["pinned"]? = some value := by
  cases seq with
  | none => simpa using insert_eq_self_iff
  | some n =>
    obtain ⟨hpos, hle⟩ := hseq n rfl
    refine iff_of_false (fun h => ?_) (by simp)
    -- The row would hold the event's own number, so the event would be out of date.
    have hnumber : attributes["lastPinEventSeq"]? = some (toString n) := by
      rw [← h, getElem?_insert_of_ne (by decide)]
      simp [Option.filter, hpos]
    have hcurrent : messageAttributeSeq attributes "lastPinEventSeq" = n := by
      rw [messageAttributeSeq, hnumber, Option.bind_some, parseU64_toString hle, Option.getD_some]
    simp [isStaleOperation, Option.filter, hcurrent, hpos] at hfresh

omit codes in
theorem applyPinEvent_eq_self_iff (id : String) (enabled : Bool)
    (hseq : ∀ n ∈ seq, 0 < n ∧ n ≤ maxU64) :
    (t.applyPinEvent id enabled seq).2 = t ↔ HasPin t id enabled seq := by
  unfold applyPinEvent applyMessageExtraWithSeq HasPin
  dsimp only
  split
  · next hnone =>
    have hempty : ∀ r ∈ t.rows.items, ¬ answersTo id r = true := by
      simpa [filter_eq_nil_iff] using hnone
    exact iff_of_true rfl fun r hr hans => absurd hans (hempty r hr)
  · rw [updateWhere_eq_self_iff]
    refine forall₂_congr fun r _ => ?_
    cases hans : answersTo id r with
    | false => simp
    | true =>
      cases hstale : isStaleOperation r.attributes "lastPinEventSeq" seq with
      | true => simp
      | false =>
        simp only [Bool.not_false, Bool.and_self, forall_const, Bool.false_eq_true, false_or]
        exact withAttributes_eq_self_iff.trans (pinned_eq_self_iff r.attributes _ hseq hstale)

section Reaction

variable (now : ℕ) (c id reactor emoji : String) (action : ℤ) (seq : Option ℕ)

/-- The table in which the rows of the message have taken the reaction's number. -/
def numberedReaction (t : RowTable) (id reactor emoji : String) (seq : Option ℕ) : ApplyResult × RowTable :=
  t.applyMessageExtraWithSeq id ("lastReactionEventSeq:" ++ reactor ++ ":" ++ emoji) seq fun attributes =>
    attributes

theorem applyReactionEvent_of_writes (h : WritesReaction t id reactor emoji action seq) :
    (t.applyReactionEvent now c id reactor emoji action seq).2 =
      ((numberedReaction t id reactor emoji seq).2.insertReaction
        ⟨id, c, emoji, reactor, now, now⟩).refreshReactionsJsonSnapshot id := by
  obtain ⟨hid, hreactor, hemoji, hadd, hremove, hfresh⟩ := h
  rw [← isStaleFor_iff id _ seq fun attributes => attributes] at hfresh
  have hnamed : ¬ (id = "" ∨ reactor = "" ∨ emoji = "") := by simp [hid, hreactor, hemoji]
  unfold applyReactionEvent
  rw [if_neg hnamed, if_neg fun hboth => hboth.1 hadd]
  dsimp only
  rw [if_neg hfresh, if_neg hremove]
  rfl

theorem applyReactionEvent_of_not_writes (c' : String) (h : ¬ WritesReaction t id reactor emoji action seq) :
    t.applyReactionEvent now c id reactor emoji action seq =
      t.applyReactionEvent now c' id reactor emoji action seq := by
  unfold applyReactionEvent
  by_cases hnamed : id = "" ∨ reactor = "" ∨ emoji = ""
  · rw [if_pos hnamed, if_pos hnamed]
  · by_cases haction : action ≠ codes.reactionAdd ∧ action ≠ codes.reactionRemove
    · rw [if_neg hnamed, if_pos haction, if_neg hnamed, if_pos haction]
    · rw [if_neg hnamed, if_neg haction, if_neg hnamed, if_neg haction]
      dsimp only
      split
      · rfl
      · next hfresh =>
        split
        · rfl
        · next hremove =>
          rw [isStaleFor_iff] at hfresh
          push Not at hnamed haction
          have hadd : action = codes.reactionAdd := by
            by_contra hadd
            exact hremove (haction hadd)
          exact absurd ⟨hnamed.1, hnamed.2.1, hnamed.2.2, hadd, hremove, hfresh⟩ h

end Reaction

theorem applyReactionEvent_eq_iff (now : ℕ) (c c' id reactor emoji : String) (action : ℤ) (seq : Option ℕ) :
    (t.applyReactionEvent now c id reactor emoji action seq).2 =
        (t.applyReactionEvent now c' id reactor emoji action seq).2 ↔
      c = c' ∨ ¬ WritesReaction t id reactor emoji action seq := by
  by_cases hwrites : WritesReaction t id reactor emoji action seq
  · refine ⟨fun h => .inl ?_, ?_⟩
    · rw [applyReactionEvent_of_writes _ _ _ _ _ _ _ hwrites,
        applyReactionEvent_of_writes _ _ _ _ _ _ _ hwrites] at h
      have hreactions := congrArg reactions h
      rw [reactions_refresh, reactions_refresh] at hreactions
      have hfound := congrArg (find? · (id, emoji, reactor)) hreactions
      simpa [insertReaction, find?_insert, ReactionRow.key] using hfound
    · rintro (rfl | h)
      · rfl
      · exact absurd hwrites h
  · exact iff_of_true (by rw [applyReactionEvent_of_not_writes now c id reactor emoji action seq c' hwrites])
      (.inr hwrites)

theorem markRead_eq_self_iff (r : MessageRow) : { r with
      status := if r.status = codes.statusCreated then codes.statusSent else r.status
      isRead := true } = r ↔ r.isRead = true ∧ r.status ≠ codes.statusCreated := by
  obtain ⟨⟨_, _, _, _, _, _, _, status, isRead, _⟩, _⟩ := r
  have hne : codes.statusSent ≠ codes.statusCreated := codes.created_lt_sent.ne'
  by_cases hstatus : status = codes.statusCreated
  · simp [hstatus, hne]
  · simp [hstatus, eq_comm]

theorem markOutgoingReadUptoSeq_eq_iff {userId : String} (readSeq : ℕ)
    (hc : isBlank c = false) (hc' : isBlank c' = false) (hu : isBlank userId = false)
    (hseq : 0 < readSeq) (hne : c ≠ c') :
    t.markOutgoingReadUptoSeq c userId readSeq = t.markOutgoingReadUptoSeq c' userId readSeq ↔
      IsReadUpTo t c userId readSeq ∧ IsReadUpTo t c' userId readSeq := by
  unfold markOutgoingReadUptoSeq IsReadUpTo
  simp only [hc, hc', hu, hseq.ne', decide_false, Bool.or_self, Bool.false_eq_true, if_false]
  rw [updateWhere_eq_updateWhere_iff, ← forall₂_and]
  refine forall₂_congr fun r _ => ?_
  -- No row is of both conversations.
  have hexcl : isReadBy c userId readSeq r = true → isReadBy c' userId readSeq r = false := by
    intro h
    have hrc : r.conversationId = c := by
      simp only [isReadBy, Bool.and_eq_true, decide_eq_true_eq] at h
      exact h.1.1.1.1.1
    simp [isReadBy, hrc, hne]
  cases h : isReadBy c userId readSeq r with
  | true =>
    simp only [if_true, hexcl h, Bool.false_eq_true, if_false, forall_const, IsEmpty.forall_iff, and_true]
    exact markRead_eq_self_iff r
  | false =>
    cases h' : isReadBy c' userId readSeq r with
    | false => simp
    | true =>
      simp only [if_true, Bool.false_eq_true, if_false, forall_const, IsEmpty.forall_iff, true_and]
      exact eq_comm.trans (markRead_eq_self_iff r)

omit codes in
theorem deleteConversation_eq_iff (hne : c ≠ c') :
    t.deleteConversation c = t.deleteConversation c' ↔ HasNothingOf t c ∧ HasNothingOf t c' := by
  have hsame : ∀ d : String, ((!decide (d = c)) = !decide (d = c')) ↔ d ≠ c ∧ d ≠ c' := by
    intro d
    by_cases hd : d = c
    · simp [hd, hne]
    · by_cases hd' : d = c'
      · simp [hd', hne.symm]
      · simp [hd, hd']
  unfold deleteConversation deleteReactions deleteRows HasNothingOf
  rw [rowTable_eq_iff, KeyedMap.ext_iff, KeyedMap.ext_iff]
  simp only [KeyedMap.filter, filter_eq_filter_iff, hsame, and_true]
  constructor
  · rintro ⟨hrows, hreactions⟩
    exact ⟨⟨fun r hr => (hrows r hr).1, fun r hr => (hreactions r hr).1⟩,
      fun r hr => (hrows r hr).2, fun r hr => (hreactions r hr).2⟩
  · rintro ⟨⟨hrows, hreactions⟩, hrows', hreactions'⟩
    exact ⟨fun r hr => ⟨hrows r hr, hrows' r hr⟩, fun r hr => ⟨hreactions r hr, hreactions' r hr⟩⟩

end Operations

/-! ### Both appliers on one event -/

theorem Event.operationSeq_bounds (ev : Event) : ∀ n ∈ ev.operationSeq, 0 < n ∧ n ≤ maxU64 := by
  intro n hn
  unfold Event.operationSeq at hn
  split at hn
  · next hpos =>
    cases hn
    exact ⟨hpos, ev.seq_le⟩
  · cases hn

theorem Event.eventConversationId_eq_trim {ev : Event}
    (h : ∀ conversationId unread cleared, ev.payload ≠ some (.conversation conversationId unread cleared)) :
    ev.eventConversationId = trim ev.conversationId := by
  unfold Event.eventConversationId
  cases hblank : isBlank ev.conversationId with
  | false => rfl
  | true =>
    rw [trim_of_isBlank hblank]
    simp only [Bool.not_true, Bool.false_eq_true, if_false]

section Main

variable [codes : EventCodes] (t : RowTable) (now : ℕ) (userId : String)

omit codes in
theorem pin_agrees_iff (ev : Event) (id : String) (enabled visible : Bool) :
    (t.applyPinEvent id enabled ev.operationSeq).2 =
        (if visible then (t.applyPinEvent id enabled ev.operationSeq).2 else t) ↔
      visible = true ∨ HasPin t id enabled ev.operationSeq := by
  cases visible with
  | true => simp
  | false => simp [applyPinEvent_eq_self_iff id enabled ev.operationSeq_bounds]

theorem read_agrees_iff (c readerId : String) (readSeq : ℕ) : (if readReceiptApplies userId readerId readSeq then
        t.markOutgoingReadUptoSeq (trim c) userId readSeq else t) =
      (if readReceiptApplies userId readerId readSeq then
        t.markOutgoingReadUptoSeq c userId readSeq else t) ↔
    trim c = c ∨ readReceiptApplies userId readerId readSeq = false ∨ isBlank c = true ∨
      isBlank userId = true ∨ (IsReadUpTo t (trim c) userId readSeq ∧ IsReadUpTo t c userId readSeq) := by
  by_cases hsame : trim c = c
  · simp [hsame]
  cases happlies : readReceiptApplies userId readerId readSeq with
  | false => simp
  | true =>
    have hseq : 0 < readSeq := by
      simp only [readReceiptApplies, Bool.and_eq_true, decide_eq_true_eq] at happlies
      exact happlies.2
    cases hblank : isBlank c with
    | true => simp [markOutgoingReadUptoSeq, isBlank_trim, hblank]
    | false =>
      cases huser : isBlank userId with
      | true => simp [markOutgoingReadUptoSeq, huser]
      | false =>
        simp only [if_true, hsame, Bool.true_eq_false, Bool.false_eq_true, false_or]
        exact markOutgoingReadUptoSeq_eq_iff readSeq (by rw [isBlank_trim, hblank]) hblank huser hseq hsame

/-- The dispatcher and the sync applier leave the same message store exactly under `Agrees`. -/
theorem realtime_eq_replay_iff (ev : Event) :
    (applyRealtime t now userId ev).2 = (applyReplay t now userId ev).2 ↔ Agrees t userId ev := by
  unfold applyRealtime applyReplay Agrees
  cases hp : ev.payload with
  | none => exact iff_of_true rfl trivial
  | some p =>
    have hconversation := @Event.eventConversationId_eq_trim ev
    rw [hp] at hconversation
    cases p with
    | «recall» id =>
      rw [snd_recallReported, apply_ite Prod.snd]
      cases hget : t.get id with
      | none => simp [hget, updateStatus_eq_self_iff]
      | some r => simp [hget]
    | edit id content =>
      cases content with
      | none => exact iff_of_true rfl trivial
      | some newContent =>
        refine iff_of_true ?_ trivial
        dsimp only
        split <;> rfl
    | reaction id reactor emoji action =>
      rw [hconversation (by simp)]
      exact applyReactionEvent_eq_iff ..
    | delete id scope target =>
      refine iff_of_true ?_ trivial
      dsimp only
      -- Both ways say the same of who a deletion is for.
      rw [show shouldApplyDeleteForCurrentUser = fun user scope =>
        evaluateDeleteVisibility user (scope.getD 1) from rfl]
      split <;> rfl
    | read readerId readSeq =>
      rw [hconversation (by simp)]
      exact read_agrees_iff ..
    | retentionScheduled id policy state scheduledAt =>
      refine iff_of_true ?_ trivial
      cases policy <;> cases state <;> rfl
    | retentionExpired id state expiredAt =>
      refine iff_of_true ?_ trivial
      cases state <;> rfl
    | retentionPurged id state purgedAt =>
      refine iff_of_true ?_ trivial
      cases state <;> rfl
    | pin id scope pinnedBy =>
      dsimp only
      rw [← pin_agrees_iff]
      cases messagePinVisibleToUser scope pinnedBy userId <;> rfl
    | unpin id scope unpinnedBy =>
      dsimp only
      rw [← pin_agrees_iff]
      cases messagePinVisibleToUser scope unpinnedBy userId <;> rfl
    | mark id markType color => exact iff_of_true rfl trivial
    | unmark id markType => exact iff_of_true rfl trivial
    | pluginState id pluginId state =>
      refine iff_of_true ?_ trivial
      dsimp only
      rcases applyPluginSharedState t id pluginId state with ⟨_ | _ | _ | _, u⟩ <;> rfl
    | conversationDelete =>
      rw [hconversation (by simp)]
      by_cases hsame : trim ev.conversationId = ev.conversationId
      · simp [hsame]
      · simp only [hsame, false_or]
        exact deleteConversation_eq_iff hsame
    | custom => exact iff_of_true rfl trivial
    | conversation conversationId unread cleared => exact iff_of_true rfl trivial
    | message message => exact iff_of_true rfl trivial

end Main

def sampleRow : MessageRow where
  serverId := "m1"
  clientMsgId := "c1"
  conversationId := "conv"
  senderId := "alice"
  conversationSeq := 1
  status := 2

def sampleTable : RowTable where
  rows := empty.insert sampleRow
  reactions := .empty
  clearedFloor _ := 0

/-- A pin that another user sets for themselves only. -/
def othersPin : Event where
  conversationId := "conv"
  conversationSeq := 2
  payload := some (.pin "m1" messagePinScopeSelf "alice")
  seq_le := uint64_le_maxU64 2

/-- Delivered, it pins the message for the current user; replayed, it does not. -/
theorem not_realtime_eq_replay_othersPin :
    let realtime := (@applyRealtime sampleEventCodes sampleTable 10 "bob" othersPin).2
    let replay := (@applyReplay sampleEventCodes sampleTable 10 "bob" othersPin).2
    (realtime.get "m1").bind (·.attributes["pinned"]?) = some "true" ∧
    (replay.get "m1").bind (·.attributes["pinned"]?) = none ∧ realtime ≠ replay := by
  refine ⟨by decide, by decide, fun h => ?_⟩
  have hpinned := congrArg (fun t : RowTable => (t.get "m1").bind (·.attributes["pinned"]?)) h
  exact absurd hpinned (by decide)

end FlareIm.Events
