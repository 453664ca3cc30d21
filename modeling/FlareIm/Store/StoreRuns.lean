import FlareIm.Store.StoresAgree

/-! One sequence of calls to both message stores. As long as every call is one that the two treat alike,
they answer the same and show the same messages: whether a message is there, its content, pin, mark and
reactions. The calls that they do not treat alike are listed with a run for each: the memory store has no
numbers for edits, deletions and reactions, no marks and no retention, and looks for messages differently. -/

namespace FlareIm.Store

open Lib Message RowTable List

/-! ### Batches -/

section Batches

variable {t : RowTable} {data : MemoryMessageStore} {m : InboundMessage} {ms : List InboundMessage}

/-- A message that both stores save alike, apart from the copies that it meets. -/
def SavedAlike (t : RowTable) (m : InboundMessage) : Prop :=
  t.isPersistable m = true ∧ isTrimmed m.serverId = true ∧ BringsReactions t m
  deriving Decidable

theorem Settles.soleCopy (h : t.Settles (m :: ms)) (hid : isTrimmed m.serverId = true) :
    t.SoleCopy m.serverId m := by
  have htrim : trim m.serverId = m.serverId := of_decide_eq_true (Bool.and_eq_true_iff.mp hid).2
  intro hclient r hr hcid
  rcases h m mem_cons_self hclient r hr hcid with hown | hgoes
  · exact .inl (hown.trans htrim)
  · exact .inr hgoes.2.1

theorem BringsReactions.saveBatch_singleton {m' : InboundMessage} (h : BringsReactions t m') (now : ℕ)
    (hkept : t.isPersistable m = true) (hne : m'.serverId ≠ m.serverId) :
      BringsReactions (t.saveBatch now [m]) m' := by
  refine h.imp_right fun hnone r hr heq => ?_
  have hsome : (t.saveBatch now [m]).hasReaction m'.serverId (r.userId, r.emoji) = true := by
    rw [← heq, hasReaction]
    exact Option.isSome_of_mem (KeyedMap.find?_of_mem _ hr)
  rw [hasReaction_saveBatch_singleton now hkept, if_neg fun h => hne h.2] at hsome
  obtain ⟨r', hr'⟩ := Option.isSome_iff_exists.mp hsome
  have hkey : r'.key = (m'.serverId, r.emoji, r.userId) := KeyedMap.key_of_find? hr'
  exact hnone r' (KeyedMap.mem_of_find? hr') (Prod.mk.inj hkey).1

theorem inStep_saveBatch (h : InStep t data) (now : ℕ) (hsaved : ∀ m ∈ ms, SavedAlike t m) (hsettles : t.Settles ms)
    (hapart : ms.Pairwise fun a b => Apart a.toIMMessage b.toIMMessage) :
    InStep (t.saveBatch now ms) (data.saveBatch ms) := by
  rw [saveBatch_eq_foldl now hsettles hapart, MemoryMessageStore.saveBatch]
  induction ms generalizing t data with
  | nil => exact h
  | cons m ms ih =>
    obtain ⟨hfirst, hrest⟩ := pairwise_cons.mp hapart
    obtain ⟨hkept, hid, hreactions⟩ := hsaved m mem_cons_self
    rw [foldl_cons, foldl_cons]
    refine ih (inStep_saveOne h now hkept hid (Settles.soleCopy hsettles hid) hreactions) (fun m' hm' => ?_)
      (hsettles.saveBatch_singleton hfirst) hrest
    obtain ⟨hkept', hid', hreactions'⟩ := hsaved m' (mem_cons_of_mem m hm')
    have hne : m'.serverId ≠ m.serverId := fun heq => (hfirst m' hm').1 (congrArg trim heq.symm)
    exact ⟨(isPersistable_saveBatch_singleton t now m).symm ▸ hkept', hid',
      hreactions'.saveBatch_singleton now hkept hne⟩

end Batches

/-! ### Calls -/

inductive StoreCall
  | saveBatch (now : ℕ) (messages : List InboundMessage)
  | edit (now : ℕ) (id : String) (newContent : Content) (eventSeq : Option ℕ)
  | delete (id : String) (eventSeq : Option ℕ)
  | pin (id : String) (enabled : Bool) (eventSeq : Option ℕ)
  | mark (id : String) (markType : ℤ) (color : Option String) (setMark : Bool) (eventSeq : Option ℕ)
  | reaction (now : ℕ) (conversationId id userId emoji : String) (action : ℤ) (eventSeq : Option ℕ)
  | retentionScheduled (id : String) (policy : MessageRetentionPolicy) (state : MessageRetentionState)
      (scheduledAt : ℤ)
      (eventSeq : Option ℕ)
  | retentionExpired (now : ℕ) (id : String) (state : MessageRetentionState) (expiredAt : ℤ) (eventSeq : Option ℕ)
  | retentionPurged (now : ℕ) (id : String) (state : MessageRetentionState) (purgedAt : ℤ) (eventSeq : Option ℕ)

/-- A save answers nothing. -/
def answered {σ : Type} (outcome : ApplyResult × σ) : Option ApplyResult × σ := (some outcome.1, outcome.2)

structure BothStores where
  sqlite : RowTable
  memory : MemoryMessageStore

section Runs

variable [codes : RowCodes]

def StoreCall.onSqlite (t : RowTable) : StoreCall → Option ApplyResult × RowTable
  | .saveBatch now messages => (none, t.saveBatch now messages)
  | .edit now id newContent eventSeq => answered (t.applyEditEvent now id newContent eventSeq)
  | .delete id eventSeq => answered (t.applyDeleteEvent id eventSeq)
  | .pin id enabled eventSeq => answered (t.applyPinEvent id enabled eventSeq)
  | .mark id markType color setMark eventSeq => answered (t.applyMarkEvent id markType color setMark eventSeq)
  | .reaction now conversationId id userId emoji action eventSeq =>
    answered (t.applyReactionEvent now conversationId id userId emoji action eventSeq)
  | .retentionScheduled id policy state scheduledAt eventSeq =>
    answered (t.applyRetentionScheduledEvent id policy state scheduledAt eventSeq)
  | .retentionExpired now id state expiredAt eventSeq =>
    answered (t.applyRetentionExpiredEvent now id state expiredAt eventSeq)
  | .retentionPurged now id state purgedAt eventSeq =>
      answered (t.applyRetentionPurgedEvent now id state purgedAt eventSeq)

def StoreCall.onMemory (data : MemoryMessageStore) : StoreCall → Option ApplyResult × MemoryMessageStore
  | .saveBatch _ messages => (none, data.saveBatch messages)
  | .edit _ id newContent _ => answered (data.applyEditEvent id newContent)
  | .delete id _ => answered (data.applyDeleteEvent id)
  | .pin id enabled eventSeq => answered (data.applyPinEvent id enabled eventSeq)
  | .mark .. => answered data.applyMarkEvent
  | .reaction _ _ id userId emoji action _ => answered (data.applyReactionEvent id userId emoji action)
  | .retentionScheduled .. => answered data.applyRetentionEvent
  | .retentionExpired .. => answered data.applyRetentionEvent
  | .retentionPurged .. => answered data.applyRetentionEvent

namespace BothStores

variable (s : BothStores)

def step (call : StoreCall) : BothStores := ⟨(call.onSqlite s.sqlite).2, (call.onMemory s.memory).2⟩

omit codes in
/-- Two stores without messages; history may have been cleared before. -/
def start (clearedFloor : String → ℕ) : BothStores := ⟨⟨.empty, .empty, clearedFloor⟩, .empty⟩

omit codes in
/-- What a reader sees of a message, apart from its reactions. -/
def visible (r : MessageRow) : Content × List (Option String) :=
  (r.encodedContent, ["pinned", "markType", "markColor"].map fun key => r.attributes[key]?)

omit codes in
def SameAt (sid : String) (pair : String × String) : Prop :=
  (s.sqlite.get sid).map visible = (s.memory.find? sid).map (fun m => visible m.toMessageRow) ∧
    ∀ m ∈ s.memory.find? sid, (s.sqlite.hasReaction sid pair = true ↔ Reacted m.reactions pair.2 pair.1)
  deriving Decidable

/-- The stores answer the same, and show the same messages afterwards. -/
def Agrees (call : StoreCall) : Prop :=
  (call.onSqlite s.sqlite).1 = (call.onMemory s.memory).1 ∧ ∀ sid pair, IsNamed pair → (s.step call).SameAt sid pair

/-- The call is one that both stores treat alike. -/
def Alike : StoreCall → Prop
  | .saveBatch _ messages => (∀ m ∈ messages, SavedAlike s.sqlite m) ∧ s.sqlite.Settles messages ∧
      messages.Pairwise fun a b => Apart a.toIMMessage b.toIMMessage
  | .edit _ id _ eventSeq => s.sqlite.OneAnswers id ∧ ∀ r ∈ s.sqlite.firstAnswering id, ∀ seq ∈ eventSeq,
      messageAttributeSeq r.attributes "lastEditEventSeq" < seq
  | .delete id eventSeq => s.sqlite.OnlyOwn id ∧ (s.sqlite.get id).isSome = true ∧
      ∀ r ∈ s.sqlite.get id, isStaleOperation r.attributes "lastDeleteEventSeq" eventSeq = false
  | .pin id _ eventSeq => isTrimmed id = true ∧ s.sqlite.OneAnswers id ∧ (∀ seq ∈ eventSeq, 0 < seq) ∧
      ∀ r ∈ s.sqlite.firstAnswering id, ∀ seq ∈ eventSeq, seq ≠ messageAttributeSeq r.attributes "lastPinEventSeq"
  | .mark .. => False
  | .reaction _ _ id userId emoji action eventSeq =>
      (isTrimmed id = true ∧ isTrimmed userId = true ∧ isTrimmed emoji = true) ∧
      (action = codes.reactionAdd ∨ action = codes.reactionRemove) ∧
      (s.sqlite.firstAnswering id = none ∨ (s.sqlite.get id).isSome = true) ∧
      TakesReaction s.sqlite id userId emoji eventSeq ∧
      ∀ m ∈ s.memory.find? id, (m.reactions.map ReactionEntry.emoji).Nodup
  | .retentionScheduled id .. => s.sqlite.firstAnswering id = none
  | .retentionExpired _ id .. => s.sqlite.firstAnswering id = none
  | .retentionPurged _ id .. => s.sqlite.firstAnswering id = none

instance (s : BothStores) (call : StoreCall) : Decidable (s.Alike call) :=
  match call with
  | .saveBatch .. => inferInstanceAs (Decidable (_ ∧ _ ∧ _))
  | .edit .. => inferInstanceAs (Decidable (_ ∧ _))
  | .delete .. => inferInstanceAs (Decidable (_ ∧ _ ∧ _))
  | .pin .. => inferInstanceAs (Decidable (_ ∧ _ ∧ _ ∧ _))
  | .mark .. => inferInstanceAs (Decidable False)
  | .reaction .. => inferInstanceAs (Decidable (_ ∧ _ ∧ _ ∧ _ ∧ _))
  | .retentionScheduled .. => inferInstanceAs (Decidable (_ = none))
  | .retentionExpired .. => inferInstanceAs (Decidable (_ = none))
  | .retentionPurged .. => inferInstanceAs (Decidable (_ = none))

variable {s : BothStores}

omit codes in
theorem sameAt_of_inStep (h : InStep s.sqlite s.memory) (sid : String) {pair : String × String}
    (hpair : IsNamed pair) :
    s.SameAt sid pair := by
  refine ⟨?_, fun m hm => h.reactions hm pair hpair⟩
  have hrow := h.rows sid
  generalize s.sqlite.get sid = row, s.memory.find? sid = message at hrow ⊢
  cases hrow with
  | none => rfl
  | some hsame =>
    have hpinned := hsame.attributes "pinned" (by decide +kernel)
    have htype := hsame.attributes "markType" (by decide +kernel)
    have hcolor := hsame.attributes "markColor" (by decide +kernel)
    simp only [Option.map_some, visible, hsame.content, map_cons, map_nil, hpinned, htype, hcolor]

omit codes in
theorem retainRows_of_none {t : RowTable} {id : String} (hnone : t.firstAnswering id = none) (seqKey : String)
    (eventSeq : Option ℕ) (apply : Attributes → Attributes) (f : MessageRow → MessageRow)
    (hf : ∀ r, (f r).serverId = r.serverId) :
    retainRows (t.applyMessageExtraWithSeq id seqKey eventSeq apply) id f hf = (.notFound, t) := by
  rw [applyMessageExtraWithSeq_of_none hnone]
  rfl

theorem inStep_step (h : InStep s.sqlite s.memory) (call : StoreCall) (halike : s.Alike call) :
    (call.onSqlite s.sqlite).1 = (call.onMemory s.memory).1 ∧ InStep (s.step call).sqlite (s.step call).memory := by
  cases call with
  | saveBatch now messages => exact ⟨rfl, inStep_saveBatch h now halike.1 halike.2.1 halike.2.2⟩
  | edit now id newContent eventSeq =>
    obtain ⟨hresult, hstep⟩ := inStep_applyEditEvent h now newContent halike.1 halike.2
    exact ⟨congrArg some hresult, hstep⟩
  | delete id eventSeq =>
    obtain ⟨hown, hsome, hfresh⟩ := halike
    obtain ⟨r, hr⟩ := Option.isSome_iff_exists.mp hsome
    obtain ⟨hresult, hstep⟩ := inStep_applyDeleteEvent h hown hr (hfresh r hr)
    exact ⟨congrArg some hresult, hstep⟩
  | pin id enabled eventSeq =>
    obtain ⟨hid, hone, hpositive, hnew⟩ := halike
    obtain ⟨hresult, hstep⟩ := inStep_applyPinEvent h enabled hid hone hpositive hnew
    exact ⟨congrArg some hresult, hstep⟩
  | mark => exact halike.elim
  | reaction now conversationId id userId emoji action eventSeq =>
    obtain ⟨⟨hid, huser, hemoji⟩, haction, hrow, htakes, hnodup⟩ := halike
    obtain ⟨hresult, hstep⟩ := inStep_applyReactionEvent h now conversationId hid huser
      hemoji haction hrow htakes hnodup
    exact ⟨congrArg some hresult, hstep⟩
  | retentionScheduled id policy state scheduledAt eventSeq =>
    have hnone : s.sqlite.applyRetentionScheduledEvent id policy state scheduledAt eventSeq =
      (.notFound, s.sqlite) :=
      retainRows_of_none halike ..
    rw [step, StoreCall.onSqlite, hnone]
    exact ⟨rfl, h⟩
  | retentionExpired now id state expiredAt eventSeq =>
    have hnone : s.sqlite.applyRetentionExpiredEvent now id state expiredAt eventSeq = (.notFound, s.sqlite) :=
      retainRows_of_none halike ..
    rw [step, StoreCall.onSqlite, hnone]
    exact ⟨rfl, h⟩
  | retentionPurged now id state purgedAt eventSeq =>
    have hnone : s.sqlite.applyRetentionPurgedEvent now id state purgedAt eventSeq = (.notFound, s.sqlite) :=
      retainRows_of_none halike ..
    rw [step, StoreCall.onSqlite, hnone]
    exact ⟨rfl, h⟩

/-- Calls that both stores treat alike keep them alike, answer by answer and message by message. -/
theorem allSteps_agrees (clearedFloor : String → ℕ) (calls : List StoreCall)
    (halike : AllSteps step Alike (start clearedFloor) calls) :
      AllSteps step Agrees (start clearedFloor) calls := by
  refine .of_invariant (I := fun s => InStep s.sqlite s.memory) (fun s call h hcall => ?_)
    (fun s call h hcall => ?_)
    calls _ ⟨fun _ => .none, fun hm => absurd hm (by simp [start]), fun _ hm => absurd hm not_mem_nil⟩ halike
  · exact (inStep_step h call hcall).2
  · obtain ⟨hresult, hstep⟩ := inStep_step h call hcall
    exact ⟨hresult, fun sid pair hpair => sameAt_of_inStep hstep sid hpair⟩

end BothStores

end Runs

/-! ### Runs -/

namespace BothStores

def sampleMessage (serverId clientMsgId : String) : InboundMessage :=
  { serverId := serverId, clientMsgId := clientMsgId, conversationId := "g", senderId := "alice", status := 2 }

def sendingCopy : InboundMessage :=
  { sampleMessage "c1" "c1" with localState := { isLocal := true, sending := true } }

/-- A message is sent, comes back with another one, and meets every kind of event that both stores know; then the
other message is deleted. -/
def aliveCalls : List StoreCall :=
  [.saveBatch 1 [sendingCopy], .saveBatch 2 [sampleMessage "m1" "c1", sampleMessage "m2" "c2"],
    .edit 3 "c1" [7] (some 4), .pin "m1" true (some 5), .pin "m1" false (some 3),
    .reaction 4 "g" "m1" "bob" "👍" 1 (some 6), .reaction 5 "g" "m1" "bob" "👍" 2 (some 7),
    .reaction 6 "g" "m3" "bob" "👍" 1 none, .edit 7 "m3" [8] (some 9), .retentionPurged 8 "m3" ⟨.purged, []⟩ 0 none,
    .delete "m2" (some 10)]

theorem allSteps_agrees_aliveCalls :
    AllSteps (@step sampleRowCodes) (@Agrees sampleRowCodes) (start fun _ => 0) aliveCalls :=
  @allSteps_agrees sampleRowCodes (fun _ => 0) aliveCalls (by decide +kernel)

def saved : StoreCall := .saveBatch 1 [sampleMessage "m1" "c1"]

def pinned (m : InboundMessage) : InboundMessage := { m with attributes := { ("pinned", "true") } }

def reactedOnce : StoreCall := .reaction 2 "g" "m1" "bob" "👍" 1 (some 5)

/-- Runs at whose last call the stores come apart, and the message that shows it if the answers do not. -/
def divergentRuns : List (String × List StoreCall × StoreCall) :=
  [ -- numbers that only the table refuses, and one that only the memory store refuses
    ("m1", [saved, .edit 2 "m1" [7] (some 7)], .edit 3 "m1" [5] (some 5)),
    ("m1", [saved, .pin "m1" true (some 3)], .pin "m1" false (some 3)),
    ("m1", [saved, .pin "m1" true (some 3)], .pin "m1" false (some 0)),
    ("m1", [saved, reactedOnce], .reaction 3 "g" "m1" "bob" "👍" 2 (some 3)),
    ("m1", [.saveBatch 1 [{ sampleMessage "m1" "c1" with attributes := { ("lastDeleteEventSeq", "5") } }]],
      .delete "m1" (some 3)),
    -- marks and retention, which the memory store does not have
    ("m1", [saved], .mark "m1" 1 none true (some 3)),
    ("m1", [], .mark "m1" 1 none true (some 3)),
    ("m1", [saved], .retentionScheduled "m1" ⟨[]⟩ ⟨.visible, []⟩ 0 none),
    ("m1", [saved], .retentionExpired 2 "m1" ⟨.hidden, []⟩ 0 none),
    ("m1", [saved], .retentionPurged 2 "m1" ⟨.purged, []⟩ 0 none),
    -- ids that no row answers to, or two rows, or that are not those of the server or have blanks around them
    ("m1", [], .delete "m1" none),
    ("m1", [saved], .delete "c1" none),
    ("m2", [saved, .saveBatch 2 [sampleMessage "m2" "m1"]], .delete "m1" none),
    ("m2", [saved, .saveBatch 2 [sampleMessage "m2" "m1"]], .edit 3 "m1" [7] none),
    ("m2", [saved, .saveBatch 2 [sampleMessage "m2" "m1"]], .pin "m1" true none),
    ("m1", [saved], .reaction 2 "g" "c1" "bob" "👍" 1 none),
    ("m1", [saved], .pin " m1" true none),
    ("m1", [saved], .reaction 2 "g" " m1" "bob" "👍" 1 none),
    ("m1", [saved], .reaction 2 "g" "m1" " bob" "👍" 1 none),
    ("m1", [saved], .reaction 2 "g" "m1" "bob" " 👍" 1 none),
    -- reactions of an unknown kind, to an emoji with two entries, and of a message that is saved without them
    ("m1", [saved], .reaction 2 "g" "m1" "bob" "👍" 3 none),
    ("m1", [.saveBatch 1 [{ sampleMessage "m1" "c1" with reactions := [⟨"👍", ["bob"], 1⟩, ⟨"👍", ["bob"], 1⟩] }]],
      .reaction 2 "g" "m1" "bob" "👍" 2 none),
    ("m1", [saved, reactedOnce], saved),
    ("m1", [reactedOnce], saved),
    -- messages that the table leaves out or keeps under another id
    ("m1", [], .saveBatch 1 [{ sampleMessage "m1" "c1" with conversationId := "" }]),
    ("m1", [], .saveBatch 1 [sampleMessage "" "m1"]),
    (" m1", [.saveBatch 1 [pinned (sampleMessage " m1" "c1")]], .saveBatch 2 [sampleMessage " m1" "c2"]),
    -- copies: one that failed, one that is uploaded, two in a batch, and one in the place of another message
    ("m1", [.saveBatch 1 [pinned { sendingCopy with localState := { isLocal := true, failed := true } }]], saved),
    ("c1", [.saveBatch 1 [{ sendingCopy with localState := { isLocal := true, uploading := true } }]], saved),
    ("c1", [], .saveBatch 1 [sendingCopy, sampleMessage "m1" "c1"]),
    ("m1", [], .saveBatch 1 [pinned (sampleMessage "m1" "c1"), sampleMessage "m1" "c2"]),
    ("m2", [.saveBatch 1 [pinned { sendingCopy with serverId := "m2" }]],
      .saveBatch 2 [sampleMessage "m2" "c2", sampleMessage "m1" "c1"])]

/-- What both stores answer to the call, and whether they show the same afterwards under the id. -/
def AgreesAt (sid : String) (pair : String × String) (s : BothStores) (call : StoreCall) : Prop :=
  (@StoreCall.onSqlite sampleRowCodes s.sqlite call).1 = (@StoreCall.onMemory sampleRowCodes s.memory call).1 ∧
    (@step sampleRowCodes s call).SameAt sid pair
  deriving Decidable

theorem not_agreesAt_divergentRuns : ∀ r ∈ divergentRuns,
    ¬ AgreesAt r.1 ("bob", "👍") (run (@step sampleRowCodes) (start fun _ => 0) r.2.1) r.2.2 := by
  decide +kernel

theorem not_agrees_divergentRuns : divergentRuns.Forall fun r =>
    ¬ AllSteps (@step sampleRowCodes) (@Agrees sampleRowCodes) (start fun _ => 0) (r.2.1 ++ [r.2.2]) := by
  refine forall_iff_forall_mem.mpr fun r hr hagrees => ?_
  obtain ⟨hanswers, hsame⟩ := hagrees.last
  exact not_agreesAt_divergentRuns r hr ⟨hanswers, hsame r.1 ("bob", "👍") ⟨by decide +kernel, by decide +kernel⟩⟩

end BothStores

end FlareIm.Store
