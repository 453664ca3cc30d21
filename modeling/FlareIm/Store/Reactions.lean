import FlareIm.Lib.NumberedWrites
import FlareIm.Store.OneMessage

/-! Reactions to one message, while the message itself is saved again and again. A reaction event is
guarded by the last number of its user and emoji, which the message's row keeps; the reactions stand in
a table of their own. In whatever order numbered events arrive, and however often, the reactions are
those of the events in the order of their numbers, as long as the row is there to keep the numbers and
no save brings other reactions or other numbers. -/

namespace FlareIm.Store

open Lib Message List KeyedMap Function

/-! ### Reactions of a message in memory -/

def changeUserIds (userId : String) (isRemove : Bool) (userIds : List String) : List String :=
  if isRemove then userIds.filter (· ≠ userId)
  else if userId ∈ userIds then userIds
  else userIds ++ [userId]

/-- The first entry of the emoji changes, or an entry is added at the end. -/
def changeEntry (userId emoji : String) (isRemove : Bool) : List ReactionEntry → List ReactionEntry
  | [] => if isRemove then [] else [⟨emoji, [userId], 1⟩]
  | r :: rs =>
    if r.emoji = emoji then
      let userIds := changeUserIds userId isRemove r.userIds
      if userIds.isEmpty then rs
      else { r with userIds := userIds.insertionSort (· ≤ ·), count := userIds.length } :: rs
    else r :: changeEntry userId emoji isRemove rs

/-- `apply_reaction_change`, without the text that is kept beside the entries. -/
def applyReactionChange [codes : RowCodes] (reactions : List ReactionEntry) (userId emoji : String) (action : ℤ) :
    List ReactionEntry :=
  if userId = "" ∨ emoji = "" then reactions
  else if action ≠ codes.reactionAdd ∧ action ≠ codes.reactionRemove then reactions
  else (changeEntry userId emoji (action = codes.reactionRemove) reactions).insertionSort
    (fun a b => a.emoji ≤ b.emoji)

def Reacted (reactions : List ReactionEntry) (emoji userId : String) : Prop :=
  ∃ r ∈ reactions, r.emoji = emoji ∧ userId ∈ r.userIds
  deriving Decidable

variable {P : String × String → Prop} {b : Board (String × String) (String × String) Bool}
    {emoji key sid userId : String} {reactions : List ReactionEntry} {t : RowTable}

section Entries

variable {user other : String} {isRemove : Bool}

theorem reacted_cons (r : ReactionEntry) :
    Reacted (r :: reactions) other user ↔ (r.emoji = other ∧ user ∈ r.userIds) ∨ Reacted reactions other user := by
  simp [Reacted]

theorem mem_changeUserIds {userIds : List String} :
    user ∈ changeUserIds userId isRemove userIds ↔ if user = userId then isRemove = false else user ∈ userIds := by
  unfold changeUserIds
  split
  · by_cases huser : user = userId <;> simp_all
  · split
    · by_cases huser : user = userId <;> simp_all
    · by_cases huser : user = userId <;> simp_all

theorem emojis_changeEntry :
    (changeEntry userId emoji isRemove reactions).map ReactionEntry.emoji ⊆
      emoji :: reactions.map ReactionEntry.emoji := by
  induction reactions with
  | nil =>
    unfold changeEntry
    split <;> simp
  | cons r rs ih =>
    unfold changeEntry
    dsimp only
    split
    · split
      · exact fun x hx => mem_cons_of_mem _ (mem_cons_of_mem _ hx)
      · exact fun x hx => mem_cons_of_mem _ hx
    · intro x hx
      rcases mem_cons.mp hx with rfl | hrest
      · exact mem_cons_of_mem _ mem_cons_self
      · exact (mem_cons.mp (ih hrest)).elim (fun h => h ▸ mem_cons_self)
          fun h => mem_cons_of_mem _ (mem_cons_of_mem _ h)

variable (h : (reactions.map ReactionEntry.emoji).Nodup)

include h

theorem nodup_changeEntry : ((changeEntry userId emoji isRemove reactions).map ReactionEntry.emoji).Nodup := by
  induction reactions with
  | nil =>
    unfold changeEntry
    split <;> simp
  | cons r rs ih =>
    obtain ⟨hnot, hrest⟩ := nodup_cons.mp h
    unfold changeEntry
    dsimp only
    split
    · split
      · exact hrest
      · exact nodup_cons.mpr ⟨hnot, hrest⟩
    · next hne =>
      refine nodup_cons.mpr ⟨fun hmem => ?_, ih hrest⟩
      exact (mem_cons.mp (emojis_changeEntry hmem)).elim hne hnot

/-- A change decides about its own user and emoji, and about nothing else. -/
theorem reacted_changeEntry : Reacted (changeEntry userId emoji isRemove reactions) other user ↔
      if other = emoji ∧ user = userId then isRemove = false else Reacted reactions other user := by
  induction reactions with
  | nil =>
    cases isRemove with
    | true => simp [changeEntry, Reacted]
    | false =>
      simp only [changeEntry, Bool.false_eq_true, if_false, Reacted, mem_singleton, exists_eq_left, not_mem_nil,
        false_and, exists_false, if_false_right, and_true]
      exact and_congr_left' eq_comm
  | cons r rs ih =>
    obtain ⟨hnot, hrest⟩ := nodup_cons.mp h
    unfold changeEntry
    by_cases hemoji : r.emoji = emoji
    · subst hemoji
      rw [if_pos rfl]
      -- an entry without users is dropped, which is the same as one without users
      have hentry : Reacted (if (changeUserIds userId isRemove r.userIds).isEmpty then rs else
          { r with userIds := (changeUserIds userId isRemove r.userIds).insertionSort (· ≤ ·),
                   count := (changeUserIds userId isRemove r.userIds).length } :: rs) other user ↔
          (r.emoji = other ∧ user ∈ changeUserIds userId isRemove r.userIds) ∨ Reacted rs other user := by
        split
        · next hempty => rw [isEmpty_iff.mp hempty]; simp
        · rw [reacted_cons, mem_insertionSort]
      rw [hentry, reacted_cons, mem_changeUserIds]
      by_cases hother : other = r.emoji
      · subst hother
        have hnone : ¬ Reacted rs r.emoji user := fun ⟨x, hx, heq, _⟩ => hnot (mem_map.mpr ⟨x, hx, heq⟩)
        simp [hnone]
      · simp [hother, Ne.symm hother]
    · rw [if_neg hemoji, reacted_cons, reacted_cons, ih hrest]
      by_cases hpair : other = emoji ∧ user = userId
      · rw [if_pos hpair, if_pos hpair, or_iff_right]
        rintro ⟨heq, -⟩
        exact hemoji (heq.trans hpair.1)
      · rw [if_neg hpair, if_neg hpair]

end Entries

variable {action : ℤ}

theorem nodup_applyReactionChange [RowCodes]
    (h : (reactions.map ReactionEntry.emoji).Nodup) :
    ((applyReactionChange reactions userId emoji action).map ReactionEntry.emoji).Nodup := by
  unfold applyReactionChange
  split
  · exact h
  · split
    · exact h
    · exact ((perm_insertionSort _ _).map _).nodup_iff.mpr (nodup_changeEntry h)

/-! ### Reaction events -/

/-- An event with a number; 0 is read as none. -/
structure ReactionEvent where
  userId : String
  emoji : String
  action : ℤ
  eventSeq : ℕ
  eventSeq_pos : 0 < eventSeq
  eventSeq_le : eventSeq ≤ maxU64

open ReactionEvent

namespace ReactionEvent

variable [codes : RowCodes]

/-- The event names a user and an emoji, and adds or removes. -/
def takesPart (e : ReactionEvent) : Bool :=
  e.userId ≠ "" && e.emoji ≠ "" && (e.action = codes.reactionAdd || e.action = codes.reactionRemove)

omit codes in
def seqKey (pair : String × String) : String := "lastReactionEventSeq:" ++ pair.1 ++ ":" ++ pair.2

omit codes in
/-- Who reacts with what. -/
def pair (e : ReactionEvent) : String × String := (e.userId, e.emoji)

def toWrite (e : ReactionEvent) : NumberedWrite (String × String) Bool :=
  ⟨e.pair, e.eventSeq, decide (e.action ≠ codes.reactionRemove)⟩

omit codes in
def notAfter (e e' : ReactionEvent) : Prop := e.eventSeq ≤ e'.eventSeq

omit codes in
instance : DecidableRel notAfter := fun _ _ => inferInstanceAs (Decidable (_ ≤ _))

omit codes in
instance : Std.Total notAfter := ⟨fun e e' => le_total e.eventSeq e'.eventSeq⟩

omit codes in
instance : IsTrans ReactionEvent notAfter := ⟨fun _ _ _ => le_trans⟩

/-- The events in the order of their numbers, applied to a message without reactions. -/
def inOrder (events : List ReactionEvent) : List ReactionEntry :=
  (events.insertionSort notAfter).foldl
    (fun reactions e => applyReactionChange reactions e.userId e.emoji e.action) []

end ReactionEvent

section

variable [codes : RowCodes]

theorem reacted_applyReactionChange
    (huser : userId ≠ "") (hemoji : emoji ≠ "")
    (haction : action = codes.reactionAdd ∨ action = codes.reactionRemove)
    (h : (reactions.map ReactionEntry.emoji).Nodup) (pair : String × String) :
    Reacted (applyReactionChange reactions userId emoji action) pair.2 pair.1 ↔
      if pair = (userId, emoji) then action ≠ codes.reactionRemove else Reacted reactions pair.2 pair.1 := by
  have hpair : pair = (userId, emoji) ↔ pair.2 = emoji ∧ pair.1 = userId := by rw [Prod.ext_iff, and_comm]
  have hsort : Reacted ((changeEntry userId emoji (action = codes.reactionRemove) reactions).insertionSort
      fun a b => a.emoji ≤ b.emoji) pair.2 pair.1 ↔
      Reacted (changeEntry userId emoji (action = codes.reactionRemove) reactions) pair.2 pair.1 := by
    simp only [Reacted, mem_insertionSort]
  unfold applyReactionChange
  rw [if_neg (not_or.mpr ⟨huser, hemoji⟩), if_neg fun h => haction.elim h.1 h.2, hsort, reacted_changeEntry h]
  simp only [hpair, decide_eq_false_iff_not, ne_eq]

theorem reacted_applyReactionEvent (e : ReactionEvent)
    (h : (reactions.map ReactionEntry.emoji).Nodup) (pair : String × String) :
    Reacted (applyReactionChange reactions e.userId e.emoji e.action) pair.2 pair.1 ↔
      if e.takesPart ∧ pair = e.pair then e.action ≠ codes.reactionRemove else Reacted reactions pair.2 pair.1 := by
  by_cases htakes : e.takesPart = true
  · have hparts := htakes
    simp only [ReactionEvent.takesPart, Bool.and_eq_true, Bool.or_eq_true, decide_eq_true_eq] at hparts
    rw [reacted_applyReactionChange hparts.1.1 hparts.1.2 hparts.2 h]
    simp only [htakes, true_and, ReactionEvent.pair]
  · have hsame : applyReactionChange reactions e.userId e.emoji e.action = reactions := by
      simp only [takesPart, Bool.and_eq_true, Bool.or_eq_true, decide_eq_true_eq] at htakes
      unfold applyReactionChange
      split
      · rfl
      · rw [if_pos (by tauto)]
    rw [hsame, if_neg fun h => htakes h.1]

end

namespace RowTable

open ReactionEvent (seqKey)

def hasReaction (t : RowTable) (sid : String) (pair : String × String) : Bool :=
  (t.reactions.find? (sid, pair.2, pair.1)).isSome

theorem hasReaction_deleteReactions (t : RowTable) (sid : String) (deleted p : String × String) :
    (t.deleteReactions fun r => r.key = (sid, deleted.2, deleted.1)).hasReaction sid p =
      if p = deleted then false else t.hasReaction sid p := by
  have herase : (t.deleteReactions fun r => r.key = (sid, deleted.2, deleted.1)).reactions =
      t.reactions.erase (sid, deleted.2, deleted.1) :=
    congrArg t.reactions.filter (funext fun _ => (decide_not).symm)
  have hkey : (sid, p.2, p.1) = (sid, deleted.2, deleted.1) ↔ p = deleted := by
    simp only [Prod.ext_iff, true_and, and_comm]
  rw [hasReaction, herase, find?_erase, apply_ite Option.isSome, hasReaction]
  exact if_congr hkey rfl rfl

variable {e : ReactionEvent}

section React

variable [codes : RowCodes]

/-- The snapshot is the only entry that is written. -/
theorem entry_refresh (t : RowTable) (id : String) (hkey : "reactionsJson" ≠ key) :
    (t.refreshReactionsJsonSnapshot id).entry sid key = t.entry sid key := by
  unfold refreshReactionsJsonSnapshot
  split
  · rfl
  · split
    · rfl
    · next row hrow =>
      split
      · rfl
      · dsimp only
        rw [entry, get_updateWhere, entry]
        cases hget : t.get sid with
        | none => rfl
        | some r =>
          rw [Option.map_some, Option.bind_some, Option.bind_some]
          by_cases hsame : r.serverId = row.serverId
          · have heq : r = row := t.rows.eq_of_key_eq (mem_of_find? hget) (mem_of_find?_eq_some hrow) hsame
            subst heq
            simp only [decide_true, if_true]
            split
            · exact getElem?_erase_of_ne hkey
            · exact getElem?_insert_of_ne hkey _
          · simp only [hsame, decide_false, Bool.false_eq_true, if_false]

def react (t : RowTable) (now : ℕ) (conversationId sid : String) (e : ReactionEvent) : RowTable :=
  (t.applyReactionEvent now conversationId sid e.userId e.emoji e.action (some e.eventSeq)).2

/-- The table after the numbers of an event were written. -/
def numbered (t : RowTable) (sid : String) (e : ReactionEvent) : RowTable :=
  (t.applyMessageExtraWithSeq sid (seqKey e.pair) (some e.eventSeq) fun attributes => attributes).2

theorem react_of_not_takesPart (h : e.takesPart = false) (now : ℕ) (conversationId : String) :
    t.react now conversationId sid e = t := by
  unfold react applyReactionEvent
  split
  · rfl
  · next hnames =>
    rw [if_pos]
    simp only [takesPart, Bool.and_eq_false_iff, Bool.or_eq_false_iff, decide_eq_false_iff_not] at h
    tauto

/-- The reaction itself, once its number was written. -/
def changeReactionRow (t : RowTable) (now : ℕ) (conversationId sid userId emoji : String) (action : ℤ) : RowTable :=
  if action = codes.reactionRemove then t.deleteReactions fun r => r.key = (sid, emoji, userId)
  else t.insertReaction ⟨sid, conversationId, emoji, userId, now, now⟩

variable {r : MessageRow}

theorem applyReactionEvent_eq (t : RowTable) (hsid : sid ≠ "") (huser : userId ≠ "")
    (hemoji : emoji ≠ "")
    (haction : action = codes.reactionAdd ∨ action = codes.reactionRemove) (eventSeq : Option ℕ)
    (now : ℕ) (conversationId : String) :
    t.applyReactionEvent now conversationId sid userId emoji action eventSeq =
      let outcome := t.applyMessageExtraWithSeq sid (seqKey (userId, emoji)) eventSeq fun attributes => attributes
      if outcome.1 = .ignoredStale then (.ignoredStale, outcome.2)
      else (.applied,
        (outcome.2.changeReactionRow now conversationId sid userId emoji action).refreshReactionsJsonSnapshot
          sid) := by
  unfold applyReactionEvent changeReactionRow seqKey
  rw [if_neg (not_or.mpr ⟨hsid, not_or.mpr ⟨huser, hemoji⟩⟩), if_neg fun h => haction.elim h.1 h.2]
  dsimp only
  split
  · rfl
  · split <;> rfl

theorem hasReaction_changeReactionRow (t : RowTable) (now : ℕ) (conversationId : String) (e p : String × String)
    (action : ℤ) : (t.changeReactionRow now conversationId sid e.1 e.2 action).hasReaction sid p =
      if p = e then decide (action ≠ codes.reactionRemove) else t.hasReaction sid p := by
  unfold changeReactionRow
  split
  · next hremove =>
    refine (hasReaction_deleteReactions t sid e p).trans ?_
    simp [hremove]
  · next hadd =>
    have hkey : (sid, p.2, p.1) = (sid, e.2, e.1) ↔ p = e := by
      simp only [Prod.ext_iff, true_and, and_comm]
    rw [hasReaction, insertReaction, find?_insert, apply_ite Option.isSome, hasReaction]
    exact if_congr hkey (decide_eq_true hadd).symm rfl

omit codes in
@[simp] theorem reactions_applyMessageExtraWithSeq (t : RowTable) (id seqKey : String) (eventSeq : Option ℕ)
    (apply : Attributes → Attributes) :
      (t.applyMessageExtraWithSeq id seqKey eventSeq apply).2.reactions = t.reactions := by
  unfold applyMessageExtraWithSeq
  dsimp only
  split <;> rfl

variable (h : e.takesPart = true) (hsid : sid ≠ "") (hown : t.OnlyOwn sid) (hrow : t.get sid = some r) (now : ℕ)
  (conversationId : String)

include h hsid hown hrow

theorem react_eq : t.react now conversationId sid e =
      if isStaleOperation r.attributes (seqKey e.pair) (some e.eventSeq) then t.numbered sid e
      else ((t.numbered sid e).changeReactionRow now conversationId sid e.userId e.emoji e.action
        ).refreshReactionsJsonSnapshot sid := by
  simp only [takesPart, Bool.and_eq_true, Bool.or_eq_true, decide_eq_true_eq] at h
  obtain ⟨⟨huser, hemoji⟩, haction⟩ := h
  rw [react, applyReactionEvent_eq t hsid huser hemoji haction]
  dsimp only
  rw [fst_applyMessageExtraWithSeq_of_one hown.oneAnswers ((firstAnswering_eq_get hown).trans hrow),
    show e.pair = (e.userId, e.emoji) from rfl]
  cases isStaleOperation r.attributes (seqKey (e.userId, e.emoji)) (some e.eventSeq) <;> rfl

theorem hasReaction_react (p : String × String) : (t.react now conversationId sid e).hasReaction sid p =
      if isStaleOperation r.attributes (seqKey e.pair) (some e.eventSeq) then t.hasReaction sid p
      else if p = e.pair then decide (e.action ≠ codes.reactionRemove) else t.hasReaction sid p := by
  have hsame : (t.numbered sid e).hasReaction sid p = t.hasReaction sid p := by
    rw [hasReaction, numbered, reactions_applyMessageExtraWithSeq, hasReaction]
  rw [react_eq h hsid hown hrow]
  split
  · exact hsame
  · rw [← hsame, hasReaction, reactions_refresh]
    exact hasReaction_changeReactionRow (t.numbered sid e) now conversationId e.pair p e.action

theorem entry_react (hkey : "reactionsJson" ≠ key) : (t.react now conversationId sid e).entry sid key =
      (eventAttributes (seqKey e.pair) (some e.eventSeq) (fun attributes => attributes) r.attributes)[key]? := by
  have hnumbered : (t.numbered sid e).entry sid key = _ :=
    entry_of_get (get_applyMessageExtraWithSeq_self hrow _ _ _)
  rw [← hnumbered, react_eq h hsid hown hrow]
  split
  · rfl
  · rw [entry_refresh _ _ hkey]
    unfold changeReactionRow
    split <;> rfl

end React

/-! ### The board of a message -/

/-- What the board says of the pairs in `P`, the table says. -/
structure Represents (P : String × String → Prop) (sid : String) (t : RowTable)
    (b : Board (String × String) (String × String) Bool) : Prop where
  seen : ∀ p, P p → b.seen p = t.entrySeq sid (seqKey p)
  val : ∀ p, b.val p = t.hasReaction sid p

section Board

variable [codes : RowCodes]

omit codes in
theorem startsWith_seqKey (p : String × String) : startsWith "lastReactionEventSeq:" (seqKey p) = true := by
  have hassoc : seqKey p = "lastReactionEventSeq:" ++ (p.1 ++ ":" ++ p.2) := by
    show "lastReactionEventSeq:" ++ p.1 ++ ":" ++ p.2 = _
    simp only [String.append_assoc]
  rw [hassoc]
  exact startsWith_append _ _

omit codes in
theorem seqKey_ne_reactionsJson (p : String × String) : "reactionsJson" ≠ seqKey p := by
  intro heq
  have hstarts := startsWith_seqKey p
  rw [← heq] at hstarts
  exact absurd hstarts (by decide)

theorem represents_react (hkeys : ∀ p p', P p → P p' → seqKey p = seqKey p' → p = p') (hsid : sid ≠ "")
    (hown : t.OnlyOwn sid) (hrow : (t.get sid).isSome) (h : Represents P sid t b) (he : P e.pair)
    (now : ℕ) (conversationId : String) :
    Represents P sid (t.react now conversationId sid e) (if e.takesPart then b.write id e.toWrite else b) := by
  obtain ⟨r, hrow⟩ := Option.isSome_iff_exists.mp hrow
  cases htakes : e.takesPart with
  | false =>
    rw [react_of_not_takesPart htakes]
    exact h
  | true =>
    have hseen : ∀ p, P p → b.seen p = messageAttributeSeq r.attributes (seqKey p) := fun p hp =>
      (h.seen p hp).trans (entrySeq_of_get hrow)
    have hstale : b.Stale e.toWrite ↔ isStaleOperation r.attributes (seqKey e.pair) (some e.eventSeq) = true := by
      rw [isStaleOperation_some_iff, Board.Stale]
      rw [show e.toWrite.cls = e.pair from rfl, hseen e.pair he]
      rfl
    have hentry : ∀ p, (t.react now conversationId sid e).entrySeq sid (seqKey p) = messageAttributeSeq
        (eventAttributes (seqKey e.pair) (some e.eventSeq) (fun attributes => attributes) r.attributes)
          (seqKey p) := by
      intro p
      rw [entrySeq, entry_react htakes hsid hown hrow now conversationId (seqKey_ne_reactionsJson p),
        messageAttributeSeq]
    rw [if_pos rfl, Board.write]
    by_cases hlate : isStaleOperation r.attributes (seqKey e.pair) (some e.eventSeq) = true
    · rw [if_pos (hstale.mpr hlate)]
      refine ⟨fun p hp => ?_, fun p => ?_⟩
      · rw [hentry, eventAttributes, if_pos hlate, hseen p hp]
      · rw [hasReaction_react htakes hsid hown hrow, if_pos hlate, h.val]
    · have hnum : e.toWrite.num ≠ 0 := e.eventSeq_pos.ne'
      rw [if_neg (mt hstale.mp hlate), if_neg hnum]
      refine ⟨fun p hp => ?_, fun p => ?_⟩
      · rw [hentry, eventAttributes, if_neg hlate]
        by_cases hpair : p = e.pair
        · rw [hpair, messageAttributeSeq_numberedAttributes e.eventSeq_le, if_neg e.eventSeq_pos.ne']
          exact update_self ..
        · have hne : seqKey e.pair ≠ seqKey p := fun heq => hpair (hkeys p e.pair hp he heq.symm)
          rw [messageAttributeSeq, getElem?_numberedAttributes_of_ne hne]
          exact (update_of_ne hpair _ _).trans (hseen p hp)
      · rw [hasReaction_react htakes hsid hown hrow, if_neg hlate, ← h.val]
        exact update_apply ..

end Board

/-! ### Saves in between -/

def snapshotPairs (m : InboundMessage) : List (String × String) :=
  (snapshotReactions 0 m).map fun r => (r.userId, r.emoji)

def isReactionKey (key : String) : Bool := key = "reactionsJson" || startsWith "lastReactionEventSeq:" key

/-- The saved message is merged with its own row, and brings no reactions and no numbers of reaction events but
those that are stored. -/
def KeepsReactions (t : RowTable) (sid : String) (m : InboundMessage) : Prop :=
  t.SoleCopy sid m ∧ (∀ key ∈ m.attributes.keys, isReactionKey key = true → m.attributes[key]? = t.entry sid key) ∧
    (carriesReactionSnapshot m = true → (∀ p ∈ snapshotPairs m, t.hasReaction sid p = true) ∧
      ∀ r ∈ t.reactions.items, r.messageServerId = sid → (r.userId, r.emoji) ∈ snapshotPairs m)
  deriving Decidable

section Save

variable {m : InboundMessage}

theorem isVersioned_of_isReactionKey (h : isReactionKey key = true) : isVersioned key = false := by
  rcases Bool.or_eq_true_iff.mp h with hjson | hstarts
  · rw [decide_eq_true_iff.mp hjson]
    decide
  · exact isVersioned_of_startsWith_reaction hstarts

theorem entry_save_of_keepsReactions (hsid : trim sid = sid) (hblank : isBlank sid = false) (hm : m.serverId = sid)
    (h : t.KeepsReactions sid m) (now : ℕ) (hkey : isReactionKey key = true) :
    (t.saveBatch now [m]).entry sid key = t.entry sid key := by
  have hpreserved : isPreserved key = true := by
    simp only [isReactionKey, isPreserved, Bool.or_eq_true] at hkey ⊢
    exact .inl hkey
  rw [entry_saveBatch_singleton now hsid hblank hm h.1 (isVersioned_of_isReactionKey hkey), hpreserved]
  split
  · cases hentry : m.attributes[key]? with
    | none => simp
    | some value =>
      have hmem : key ∈ m.attributes.keys := by
        rw [Std.ExtTreeMap.mem_keys, Std.ExtTreeMap.mem_iff_isSome_getElem?, hentry, Option.isSome_some]
      rw [← h.2.1 key hmem hkey, hentry]
      rfl
  · rfl

theorem mem_snapshotPairs (now : ℕ) (p : String × String) :
    p ∈ snapshotPairs m ↔ ∃ r ∈ snapshotReactions now m, r.key = (m.serverId, p.2, p.1) := by
  obtain ⟨userId, emoji⟩ := p
  simp only [snapshotPairs, snapshotReactions, map_flatMap, mem_flatMap, mem_map, ReactionRow.key,
    Prod.mk.injEq]
  constructor
  · rintro ⟨entry, hentry, r, ⟨user, huser, rfl⟩, rfl, rfl⟩
    exact ⟨_, ⟨entry, hentry, user, huser, rfl⟩, rfl, rfl, rfl⟩
  · rintro ⟨r, ⟨entry, hentry, user, huser, rfl⟩, -, rfl, rfl⟩
    exact ⟨entry, hentry, _, ⟨user, huser, rfl⟩, rfl, rfl⟩

/-- A message that carries its reactions replaces those that are stored. -/
theorem hasReaction_saveBatch_singleton (now : ℕ) (hkept : t.isPersistable m = true) (sid : String)
    (p : String × String) : (t.saveBatch now [m]).hasReaction sid p =
      if carriesReactionSnapshot m = true ∧ sid = m.serverId then decide (p ∈ snapshotPairs m)
      else t.hasReaction sid p := by
  rw [saveBatch_singleton, if_pos hkept, saveChunk_eq, hasReaction, reactions_removeConflictingLocal,
    reactionsAfter]
  dsimp only
  by_cases hcarries : carriesReactionSnapshot m = true
  · rw [filter_cons_of_pos hcarries, filter_nil, flatMap_singleton, map_singleton, Bool.eq_iff_iff,
      KeyedMap.isSome_find?_foldl_insert, KeyedMap.find?_filter]
    by_cases hsid : sid = m.serverId
    · subst hsid
      have hcleared : ((t.reactions.find? (m.serverId, p.2, p.1)).filter fun r =>
          !decide (r.messageServerId ∈ [m.serverId])) = none := by
        rw [Option.filter_eq_none_iff]
        intro r hr
        have hkey : r.key = (m.serverId, p.2, p.1) := key_of_find? hr
        simp [(Prod.mk.inj hkey).1]
      rw [if_pos ⟨hcarries, rfl⟩, hcleared, ← mem_snapshotPairs, decide_eq_true_eq]
      simp only [Option.isSome_none, Bool.false_eq_true, or_false]
    · have hother : ¬ ∃ r ∈ snapshotReactions now m, r.key = (sid, p.2, p.1) := by
        rintro ⟨r, hr, hkey⟩
        exact hsid ((Prod.mk.inj hkey).1.symm.trans (messageServerId_of_mem_snapshotReactions hr))
      rw [if_neg fun h => hsid h.2, or_iff_right hother, hasReaction]
      cases hfound : t.reactions.find? (sid, p.2, p.1) with
      | none => rfl
      | some r =>
        have hkey : r.key = (sid, p.2, p.1) := key_of_find? hfound
        simp [show r.messageServerId = sid from (Prod.mk.inj hkey).1, hsid]
  · rw [filter_cons_of_neg hcarries, filter_nil, flatMap_nil, foldl_nil, map_nil,
      KeyedMap.find?_filter, if_neg fun h => hcarries h.1, hasReaction]
    cases t.reactions.find? (sid, p.2, p.1) <;> simp

theorem hasReaction_save_of_keepsReactions (h : t.KeepsReactions sid m) (now : ℕ)
    (p : String × String) : (t.saveBatch now [m]).hasReaction sid p = t.hasReaction sid p := by
  by_cases hkept : t.isPersistable m = true
  · rw [hasReaction_saveBatch_singleton now hkept]
    split
    · next hcarries =>
      obtain ⟨hbrought, hstored⟩ := h.2.2 hcarries.1
      rw [Bool.eq_iff_iff, decide_eq_true_eq]
      refine ⟨hbrought p, fun hsome => ?_⟩
      obtain ⟨r, hr⟩ := Option.isSome_iff_exists.mp hsome
      have hkey : r.key = (sid, p.2, p.1) := key_of_find? hr
      obtain ⟨hserver, hpair⟩ := Prod.mk.inj hkey
      obtain ⟨hemoji, huser⟩ := Prod.mk.inj hpair
      have hmem := hstored r (mem_of_find? hr) hserver
      rwa [hemoji, huser] at hmem
    · rfl
  · rw [saveBatch_singleton, if_neg hkept]

theorem represents_save
    (hsid : trim sid = sid) (hblank : isBlank sid = false) (hm : m.serverId = sid) (hkeeps : t.KeepsReactions sid m)
    (h : Represents P sid t b) (now : ℕ) : Represents P sid (t.saveBatch now [m]) b := by
  refine ⟨fun p hp => ?_, fun p => ?_⟩
  · have hkey : isReactionKey (seqKey p) = true := by
      rw [isReactionKey, startsWith_seqKey, Bool.or_true]
    rw [h.seen p hp, entrySeq, entrySeq, entry_save_of_keepsReactions hsid hblank hm hkeeps now hkey]
  · rw [h.val, hasReaction_save_of_keepsReactions hkeeps]

end Save

/-! ### Whole runs -/

inductive ReactionStep
  | react (now : ℕ) (conversationId : String) (event : ReactionEvent)
  | save (now : ℕ) (message : InboundMessage)

open ReactionStep

/-- The event that arrives in a step. -/
def ReactionStep.event? : ReactionStep → Option ReactionEvent
  | .react _ _ event => some event
  | .save _ _ => none

def reactionStep [RowCodes] (sid : String) (t : RowTable) : ReactionStep → RowTable
  | .react now conversationId event => t.react now conversationId sid event
  | .save now message => t.saveBatch now [message]

/-- The row is there when an event arrives, and a save is of the message and keeps its reactions. -/
def KeepsNumbers (sid : String) (t : RowTable) : ReactionStep → Prop
  | .react _ _ _ => (t.get sid).isSome ∧ t.OnlyOwn sid
  | .save _ message => message.serverId = sid ∧ t.KeepsReactions sid message

instance (sid : String) (t : RowTable) : (step : ReactionStep) → Decidable (KeepsNumbers sid t step)
  | .react _ _ _ => inferInstanceAs (Decidable (_ ∧ _))
  | .save _ _ => inferInstanceAs (Decidable (_ ∧ _))

def NoReactions (t : RowTable) (sid : String) : Prop :=
  (∀ r ∈ t.reactions.items, r.messageServerId ≠ sid) ∧
    ∀ r ∈ t.rows.items, r.serverId = sid → ∀ key ∈ r.attributes.keys, isReactionKey key = false
  deriving Decidable

def emptyBoard : Board (String × String) (String × String) Bool := ⟨fun _ => 0, fun _ => false⟩

theorem represents_start (h : t.NoReactions sid) (P : String × String → Prop) :
    Represents P sid t emptyBoard := by
  refine ⟨fun p _ => ?_, fun p => ?_⟩
  · have hentry : t.entry sid (seqKey p) = none := by
      cases hrow : t.get sid with
      | none => rw [entry, hrow, Option.bind_none]
      | some r =>
        rw [entry_of_get hrow, ← Option.not_isSome_iff_eq_none, ← Std.ExtTreeMap.mem_iff_isSome_getElem?,
          ← Std.ExtTreeMap.mem_keys]
        intro hmem
        have hnot := h.2 r (mem_of_find? hrow) (serverId_of_get hrow) _ hmem
        rw [isReactionKey, startsWith_seqKey, Bool.or_true] at hnot
        exact absurd hnot (by decide)
    rw [entrySeq, hentry]
    rfl
  · have hnone : t.reactions.find? (sid, p.2, p.1) = none := by
      rw [find?_eq_none_iff, KeyedMap.mem_keys]
      rintro ⟨r, hr, hkey⟩
      exact h.1 r hr (Prod.mk.inj hkey).1
    rw [hasReaction, hnone]
    rfl

section Run

variable [codes : RowCodes]

/-- The writes of the events that take part. -/
def writesOf (events : List ReactionEvent) : List (NumberedWrite (String × String) Bool) :=
  (events.filter takesPart).map toWrite

theorem writesOf_cons (b : Board (String × String) (String × String) Bool) (e : ReactionEvent)
    (events : List ReactionEvent) :
    run (Board.write id) b (writesOf (e :: events)) =
      run (Board.write id) (if e.takesPart then b.write id e.toWrite else b) (writesOf events) := by
  cases htakes : e.takesPart with
  | true => rw [writesOf, filter_cons_of_pos htakes, map_cons, run_cons, if_pos rfl, writesOf]
  | false => rw [writesOf, filter_cons_of_neg (by simp [htakes]), if_neg Bool.false_ne_true, writesOf]

theorem represents_run (hsid : trim sid = sid) (hblank : isBlank sid = false)
    (hkeys : ∀ p p', P p → P p' → seqKey p = seqKey p' → p = p') (steps : List ReactionStep)
    (hP : ∀ e ∈ steps.filterMap event?, P e.pair) (h : Represents P sid t b)
    (hc : AllSteps (reactionStep sid) (KeepsNumbers sid) t steps) :
    Represents P sid (run (reactionStep sid) t steps)
      (run (Board.write id) b (writesOf (steps.filterMap event?))) := by
  have hne : sid ≠ "" := by
    rintro rfl
    exact absurd hblank (by decide)
  induction steps generalizing t b with
  | nil => exact h
  | cons step steps ih =>
    obtain ⟨hfirst, hrest⟩ := hc
    cases step with
    | react now conversationId e =>
      have he : P e.pair := hP e mem_cons_self
      have hnext := represents_react hkeys hne hfirst.2 hfirst.1 h he now conversationId
      have hrun := ih (fun e' he' => hP e' (mem_cons_of_mem _ he')) hnext hrest
      have hevents : (ReactionStep.react now conversationId e :: steps).filterMap ReactionStep.event? =
          e :: steps.filterMap event? := rfl
      rw [run_cons, hevents, writesOf_cons]
      exact hrun
    | save now m =>
      exact ih hP (represents_save hsid hblank hfirst.1 hfirst.2 h now) hrest

theorem reacted_foldl (events : List ReactionEvent) {val : String × String → Bool}
    (hnodup : (reactions.map ReactionEntry.emoji).Nodup) (h : ∀ p, Reacted reactions p.2 p.1 ↔ val p = true)
    (p : String × String) :
    Reacted (events.foldl (fun reactions e => applyReactionChange reactions e.userId e.emoji e.action)
    reactions) p.2 p.1 ↔
      (writesOf events).foldl (fun val w => Function.update val (id w.cls) w.val) val p = true := by
  induction events generalizing reactions val with
  | nil => exact h p
  | cons e events ih =>
    rw [foldl_cons]
    cases htakes : e.takesPart with
    | true =>
      rw [writesOf, filter_cons_of_pos htakes, map_cons, foldl_cons]
      refine ih (nodup_applyReactionChange hnodup) fun p' => ?_
      rw [reacted_applyReactionEvent e hnodup, htakes, update_apply]
      show _ ↔ (if p' = e.pair then e.toWrite.val else val p') = true
      by_cases hp : p' = e.pair
      · rw [if_pos ⟨rfl, hp⟩, if_pos hp]
        exact decide_eq_true_iff.symm
      · rw [if_neg fun hand => hp hand.2, if_neg hp, h]
    | false =>
      rw [writesOf, filter_cons_of_neg (by simp [htakes])]
      refine ih (nodup_applyReactionChange hnodup) fun p' => ?_
      rw [reacted_applyReactionEvent e hnodup, htakes, ← h]
      simp

/-- In whatever order the events arrive, the reactions are those of the events in the order of their numbers. -/
theorem hasReaction_iff_inOrder (sid : String) (hsid : trim sid = sid) (hblank : isBlank sid = false) (t : RowTable)
    (hstart : t.NoReactions sid) (events : List ReactionEvent) (hdistinct : (events.map eventSeq).Nodup)
    (hkeys : ∀ e ∈ events, ∀ e' ∈ events, seqKey e.pair = seqKey e'.pair → e.pair = e'.pair)
    (steps : List ReactionStep) (harrive : ∀ e, e ∈ events ↔ e ∈ steps.filterMap event?)
    (hsteps : AllSteps (reactionStep sid) (KeepsNumbers sid) t steps) (userId emoji : String) :
    (run (reactionStep sid) t steps).hasReaction sid (userId, emoji) = true ↔
      Reacted (inOrder events) emoji userId := by
  have hrun := represents_run (P := fun p => ∃ e ∈ events, e.pair = p) hsid hblank
    (by rintro _ _ ⟨e, he, rfl⟩ ⟨e', he', rfl⟩; exact hkeys e he e' he') steps
    (fun e he => ⟨e, (harrive e).mpr he, rfl⟩) (represents_start hstart _) hsteps
  have hsame : ∀ w, w ∈ writesOf (steps.filterMap event?) ↔
      w ∈ writesOf (events.insertionSort notAfter) := by
    intro w
    simp only [writesOf, mem_map, mem_filter, mem_insertionSort, harrive]
  have hpos : ∀ w ∈ writesOf (events.insertionSort notAfter), 0 < w.num := by
    intro w hw
    obtain ⟨e, -, rfl⟩ := mem_map.mp hw
    exact e.eventSeq_pos
  have hnum : ∀ w ∈ writesOf (events.insertionSort notAfter),
      ∀ w' ∈ writesOf (events.insertionSort notAfter), w.num = w'.num → w = w' := by
    intro w hw w' hw' heq
    obtain ⟨e, he, rfl⟩ := mem_map.mp hw
    obtain ⟨e', he', rfl⟩ := mem_map.mp hw'
    have hmem : ∀ e ∈ (events.insertionSort notAfter).filter takesPart, e ∈ events :=
      fun e he => (mem_insertionSort _).mp (mem_of_mem_filter he)
    rw [inj_on_of_nodup_map hdistinct (hmem e he) (hmem e' he') heq]
  have hnodup := ((perm_insertionSort notAfter events).map eventSeq).nodup_iff.mpr hdistinct
  have hlt := ((pairwise_insertionSort notAfter events).and (pairwise_map.mp hnodup)).imp fun hboth =>
    lt_of_le_of_ne hboth.1 hboth.2
  have hsorted : (writesOf (events.insertionSort notAfter)).Pairwise (·.num < ·.num) :=
    pairwise_map.mpr (hlt.filter _)
  rw [← hrun.val, Board.val_run_congr injective_id hsame hpos hnum,
    Board.val_run_of_sorted id hsorted emptyBoard hpos]
  have hnil : (([] : List ReactionEntry).map ReactionEntry.emoji).Nodup := nodup_nil
  refine (reacted_foldl (events.insertionSort notAfter) hnil (fun p => ?_) (userId, emoji)).symm
  simp [Reacted, emptyBoard]

end Run

/-! ### Some runs -/

def reactedMessage (attributes : Attributes) : InboundMessage where
  serverId := "s1"
  clientMsgId := "c1"
  conversationId := "conv"
  senderId := "alice"
  conversationSeq := 1
  status := 2
  attributes := attributes

def added : ReactionEvent := ⟨"u1", "👍", 1, 1, Nat.one_pos, by decide⟩

def removed : ReactionEvent := ⟨"u1", "👍", 2, 2, Nat.two_pos, by decide⟩

def runSample (steps : List ReactionStep) : RowTable := run (@reactionStep sampleRowCodes "s1") empty steps

/-- The removal arrives before the reaction, and once more after a save. -/
def removedFirst : List ReactionStep :=
  [.save 10 (reactedMessage ∅), .react 11 "conv" removed, .react 12 "conv" added, .save 13 (reactedMessage ∅),
    .react 14 "conv" removed]

theorem hasReaction_iff_inOrder_removedFirst :
    AllSteps (@reactionStep sampleRowCodes "s1") (KeepsNumbers "s1") empty removedFirst ∧
    ((runSample removedFirst).hasReaction "s1" ("u1", "👍") = true ↔
      Reacted (@inOrder sampleRowCodes [added, removed]) "👍" "u1") := by
  have hsteps : AllSteps (@reactionStep sampleRowCodes "s1") (KeepsNumbers "s1") empty removedFirst := by decide
  refine ⟨hsteps, @hasReaction_iff_inOrder sampleRowCodes "s1" (by decide) (by decide) empty (by decide)
    [added, removed] (by decide) (by decide) removedFirst (fun e => ?_) hsteps "u1" "👍"⟩
  simp [removedFirst, event?]
  tauto

/-- The removal arrives before the message does. -/
def removedBeforeMessage : List ReactionStep :=
  [.react 10 "conv" removed, .save 11 (reactedMessage ∅), .react 12 "conv" added]

/-- Two events of different users and emojis with one key. -/
def joined : ReactionEvent := ⟨"a:b", "c", 1, 2, Nat.two_pos, by decide⟩

def joinedToo : ReactionEvent := ⟨"a", "b:c", 1, 1, Nat.one_pos, by decide⟩

def oneKey : List ReactionStep :=
  [.save 10 (reactedMessage ∅), .react 11 "conv" joined, .react 12 "conv" joinedToo]

/-- A copy that brings a snapshot from before the reaction. -/
def olderSnapshot : List ReactionStep :=
  [.save 10 (reactedMessage ∅), .react 11 "conv" added,
    .save 12 (reactedMessage (Std.ExtTreeMap.ofList [("reactionsJson", "[]")]))]

/-- A removal without a row leaves no number behind; a key that two pairs share drops the older event; a save
replaces the reactions by its snapshot. -/
theorem hasReaction_not_inOrder : ((runSample removedBeforeMessage).hasReaction "s1" ("u1", "👍") = true ∧
      ¬ Reacted (@inOrder sampleRowCodes [added, removed]) "👍" "u1") ∧
    ((runSample oneKey).hasReaction "s1" ("a", "b:c") = false ∧
      Reacted (@inOrder sampleRowCodes [joined, joinedToo]) "b:c" "a") ∧
    (runSample olderSnapshot).hasReaction "s1" ("u1", "👍") = false ∧
      Reacted (@inOrder sampleRowCodes [added]) "👍" "u1" := by
  decide

end RowTable

end FlareIm.Store
