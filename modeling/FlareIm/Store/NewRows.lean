import Mathlib.Data.List.Find
import FlareIm.Store.Rows

/-! Saving messages that the table does not know yet, or knows under their server id and as copies that
are still being sent. A batch is filtered, cleaned, queued and written in chunks, and each of these steps
looks at the rows that are there; for messages that share no id with one another or with the row of
another message, none of them finds anything but the message's own row, so that a batch leaves what its
messages leave when they are saved one after the other. -/

namespace FlareIm.Store

open Lib Message List KeyedMap MessageTable RowTable

/-- The two have no id in common; a blank client id is none. -/
def Apart (a b : IMMessage) : Prop :=
  trim a.serverId ≠ trim b.serverId ∧ (trim a.clientMsgId = "" ∨ trim a.clientMsgId ≠ trim b.clientMsgId)
  deriving Decidable

variable {a b : IMMessage} {m : InboundMessage} {now : ℕ} {t : RowTable}

theorem Apart.symm (h : Apart a b) : Apart b a := by
  refine ⟨h.1.symm, ?_⟩
  rcases h.2 with hblank | hne
  · rw [hblank]
    exact Classical.em _
  · exact .inr hne.symm

theorem isBlank_of_trim_eq {s : String} (h : trim s = "") : isBlank s = true := by
  rw [← isBlank_trim, h]
  rfl

section Apart

theorem Apart.serverId_ne (h : Apart a b) : a.serverId ≠ trim b.serverId := by
  intro heq
  exact h.1 (by rw [heq, trim_trim])

theorem Apart.clientMsgId_ne (h : Apart a b) (hclient : isBlank b.clientMsgId = false) :
    a.clientMsgId ≠ trim b.clientMsgId := by
  intro heq
  have htrim : trim a.clientMsgId = trim b.clientMsgId := by rw [heq, trim_trim]
  rcases h.2 with hblank | hne
  · rw [isBlank_of_trim_eq (htrim.symm.trans hblank)] at hclient
    exact Bool.noConfusion hclient
  · exact hne htrim

end Apart

namespace RowTable

/-- No stored row has an id of the message. -/
def NewTo (t : RowTable) (m : IMMessage) : Prop := ∀ r ∈ t.rows.items, Apart r.toIMMessage m
  deriving Decidable

/-- The rows with the client id of the message are stored under its server id. -/
def OwnTo (t : RowTable) (m : IMMessage) : Prop :=
  isBlank m.clientMsgId = false → ∀ r ∈ t.rows.items, r.clientMsgId = trim m.clientMsgId →
  r.serverId = trim m.serverId

/-- Rows with the client id of a message are its own, or go when the batch is saved: they are still being sent,
and no message of the batch is stored under their id. -/
def Settles (t : RowTable) (ms : List InboundMessage) : Prop :=
  ∀ m ∈ ms, isBlank m.clientMsgId = false → ∀ r ∈ t.rows.items, r.clientMsgId = trim m.clientMsgId →
    r.serverId = trim m.serverId ∨ isBlank m.serverId = false ∧ isLocalSending r.toIMMessage = true ∧
      ∀ m' ∈ ms, r.serverId ≠ trim m'.serverId
  deriving Decidable

variable {chunk : List InboundMessage} {p : MessageRow → Bool} {r : MessageRow}

section New

def sharesId (m : InboundMessage) (r : MessageRow) : Bool :=
  (!isBlank m.serverId && r.serverId = trim m.serverId) ||
    (!isBlank m.clientMsgId && r.clientMsgId = trim m.clientMsgId)

theorem existingRow_eq (t : RowTable) (m : InboundMessage) : t.existingRow m = t.rows.items.find? (sharesId m) := by
  unfold existingRow sharesId
  cases isBlank m.serverId <;> cases isBlank m.clientMsgId <;> simp [eq_comm (a := none)]

theorem sharesId_eq_false (hserver : r.serverId ≠ trim m.serverId)
    (hclient : isBlank m.clientMsgId = false → r.clientMsgId ≠ trim m.clientMsgId) : sharesId m r = false := by
  cases hblank : isBlank m.clientMsgId with
  | true => simp [sharesId, hserver, hblank]
  | false => simp [sharesId, hserver, hclient hblank]

theorem Apart.sharesId_eq_false (h : Apart r.toIMMessage m.toIMMessage) : sharesId m r = false :=
  RowTable.sharesId_eq_false h.serverId_ne h.clientMsgId_ne

theorem deleteRows_eq_self (h : ∀ r ∈ t.rows.items, p r = false) : t.deleteRows p = t :=
  congrArg (mk · t.reactions t.clearedFloor)
    (ext (filter_eq_self.mpr fun r hr => by rw [h r hr]; rfl))

/-- The row is removed when the message is saved. -/
def goesFor (m : InboundMessage) (r : MessageRow) : Bool :=
  !(isBlank m.clientMsgId || isBlank m.serverId) && (r.clientMsgId = trim m.clientMsgId &&
    r.serverId ≠ trim m.serverId && isLocalSending r.toIMMessage)

theorem removeConflictingLocal_eq (t : RowTable) (m : InboundMessage) :
    t.removeConflictingLocalClientMsgRows m.clientMsgId m.serverId = t.deleteRows (goesFor m) := by
  unfold removeConflictingLocalClientMsgRows goesFor
  cases isBlank m.clientMsgId || isBlank m.serverId with
  | true => exact (deleteRows_eq_self fun _ _ => rfl).symm
  | false => rfl

theorem foldl_removeConflictingLocal (t : RowTable) (ms : List InboundMessage) :
    ms.foldl (fun u m => u.removeConflictingLocalClientMsgRows m.clientMsgId m.serverId) t =
      t.deleteRows fun r => ms.any (goesFor · r) := by
  induction ms generalizing t with
  | nil => exact (deleteRows_eq_self fun _ _ => rfl).symm
  | cons m ms ih =>
    rw [foldl_cons, ih, removeConflictingLocal_eq]
    refine congrArg (mk · t.reactions t.clearedFloor) ?_
    refine (KeyedMap.filter_filter _ _ _).trans (congrArg t.rows.filter (funext fun r => ?_))
    dsimp only
    rw [any_cons, Bool.not_or, Bool.and_comm]

def newRow (now : ℕ) (m : InboundMessage) : MessageRow :=
  { m.toMessageRow with toIMMessage := persisted now m.toIMMessage }

end New

theorem foldl_queueRow_of_apart (ms queued : List InboundMessage)
    (hapart : (queued ++ ms).Pairwise (fun a b => Apart a.toIMMessage b.toIMMessage)) :
    ms.foldl queueRow queued = queued ++ ms := by
  induction ms generalizing queued with
  | nil => rw [foldl_nil, append_nil]
  | cons m ms ih =>
    have hkept : queueRow queued m = queued ++ [m] := by
      unfold queueRow
      split
      · rfl
      · congr 1
        refine filter_eq_self.mpr fun r hr => ?_
        exact decide_eq_true ((pairwise_append.mp hapart).2.2 r hr m mem_cons_self).1
    rw [append_cons] at hapart
    rw [foldl_cons, hkept, ih _ hapart, ← append_cons]

/-! ### Chunks -/

def reactionsAfter (reactions : KeyedMap (String × String × String) ReactionRow ReactionRow.key) (now : ℕ)
    (chunk : List InboundMessage) : KeyedMap (String × String × String) ReactionRow ReactionRow.key :=
  let snapshots := chunk.filter carriesReactionSnapshot
  (snapshots.flatMap (snapshotReactions now)).foldl KeyedMap.insert
    (reactions.filter (fun r => !decide (r.messageServerId ∈ snapshots.map (·.serverId))))

section

variable (now : ℕ) (t : RowTable) (chunk : List InboundMessage)

theorem saveChunk_eq : saveChunk now t chunk = ⟨(chunk.map (t.storedRow now)).foldl KeyedMap.insert t.rows,
      reactionsAfter t.reactions now chunk, t.clearedFloor⟩ := by
  rw [saveChunk, replaceReactionSnapshotRows, foldl_insertReaction]
  rfl

@[simp] theorem clearedFloor_saveChunk : (saveChunk now t chunk).clearedFloor = t.clearedFloor := by
  rw [saveChunk_eq]

end

theorem filter_foldl_insert {entries : List ReactionRow} {p : ReactionRow → Bool} (hp : ∀ e ∈ entries, p e = true)
    (reactions : KeyedMap (String × String × String) ReactionRow ReactionRow.key) :
    (entries.foldl KeyedMap.insert reactions).filter p = entries.foldl KeyedMap.insert (reactions.filter p) := by
  induction entries generalizing reactions with
  | nil => rfl
  | cons e entries ih =>
    rw [foldl_cons, ih (fun e he => hp e (mem_cons_of_mem _ he)),
      filter_insert _ (hp e mem_cons_self), foldl_cons]

theorem messageServerId_of_mem_snapshotReactions {e : ReactionRow}
    (he : e ∈ snapshotReactions now m) : e.messageServerId = m.serverId := by
  obtain ⟨entry, -, hentry⟩ := mem_flatMap.mp he
  obtain ⟨userId, -, rfl⟩ := mem_map.mp hentry
  rfl

/-- Reactions of messages with different ids can be replaced one message at a time. -/
theorem reactionsAfter_cons
    (hapart : ∀ m' ∈ chunk, Apart m.toIMMessage m'.toIMMessage) (now : ℕ)
    (reactions : KeyedMap (String × String × String) ReactionRow ReactionRow.key) :
    reactionsAfter reactions now (m :: chunk) = reactionsAfter (reactionsAfter reactions now [m]) now chunk := by
  unfold reactionsAfter
  by_cases hm : carriesReactionSnapshot m = true
  · have hother : ∀ e ∈ snapshotReactions now m,
        (!decide (e.messageServerId ∈ (chunk.filter carriesReactionSnapshot).map (·.serverId))) = true := by
      intro e he
      rw [messageServerId_of_mem_snapshotReactions he, Bool.not_eq_true', decide_eq_false_iff_not]
      intro hmem
      obtain ⟨m', hm', heq⟩ := mem_map.mp hmem
      exact (hapart m' (mem_of_mem_filter hm')).1 (congrArg trim heq.symm)
    simp only [filter_cons_of_pos hm, filter_nil, flatMap_cons, flatMap_nil,
      append_nil, foldl_append, filter_foldl_insert hother, KeyedMap.filter_filter]
    congr 2
    refine congrArg reactions.filter (funext fun r => Bool.eq_iff_iff.mpr ?_)
    simp only [Bool.and_eq_true, Bool.not_eq_true', decide_eq_false_iff_not, map_cons, mem_cons,
      map_nil, not_mem_nil, or_false, not_or]
    exact and_comm
  · simp only [filter_cons_of_neg hm, filter_nil, flatMap_nil, foldl_nil, map_nil,
      not_mem_nil, decide_false, Bool.not_false]
    have hall : reactions.filter (fun _ => true) = reactions := ext (filter_true _)
    rw [hall]

section

theorem mem_saveChunk_singleton
    (h : r ∈ (saveChunk now t [m]).rows.items) : r = t.storedRow now m ∨ r ∈ t.rows.items := by
  rw [saveChunk_eq] at h
  exact ((t.rows.mem_insert _ r).mp h).imp_right And.left

theorem ownTo_saveChunk_singleton {m' : IMMessage}
    (hm' : t.OwnTo m') (hapart : Apart m.toIMMessage m') :
    (saveChunk now t [m]).OwnTo m' := by
  intro hclient r hr hcid
  rcases mem_saveChunk_singleton hr with rfl | hold
  · exact absurd hcid (hapart.clientMsgId_ne hclient)
  · exact hm' hclient r hold hcid

theorem find?_insert_items {row : MessageRow} (hrow : p row = false)
    (hold : ∀ r ∈ t.rows.items, r.serverId = row.serverId → p r = false) :
    (t.rows.insert row).items.find? p = t.rows.items.find? p := by
  rw [KeyedMap.insert, find?_cons_of_neg (by simp [hrow]), KeyedMap.erase, KeyedMap.filter, find?_filter]
  refine find?_congr fun r hr => ?_
  by_cases hkey : r.serverId = row.serverId
  · simp [hold r hr hkey]
  · simp [hkey]

theorem existingRow_saveChunk_singleton {m' : InboundMessage} (hown : t.OwnTo m'.toIMMessage)
    (hapart : Apart m.toIMMessage m'.toIMMessage) : (saveChunk now t [m]).existingRow m' = t.existingRow m' := by
  have hrows : (saveChunk now t [m]).rows = t.rows.insert (t.storedRow now m) := by
    rw [saveChunk_eq]
    rfl
  rw [existingRow_eq, existingRow_eq, hrows]
  refine find?_insert_items (Apart.sharesId_eq_false (r := t.storedRow now m) hapart) fun r hr heq => ?_
  have hserver : r.serverId ≠ trim m'.serverId := fun hother => hapart.serverId_ne (heq.symm.trans hother)
  exact sharesId_eq_false hserver fun hclient hcid => hserver (hown hclient r hr hcid)

theorem saveChunk_cons (now : ℕ)
    (hown : ∀ m' ∈ m :: chunk, t.OwnTo m'.toIMMessage)
    (hapart : ∀ m' ∈ chunk, Apart m.toIMMessage m'.toIMMessage) :
    saveChunk now t (m :: chunk) = saveChunk now (saveChunk now t [m]) chunk := by
  have hrows : chunk.map ((saveChunk now t [m]).storedRow now) = chunk.map (t.storedRow now) := by
    refine map_congr_left fun m' hm' => ?_
    rw [storedRow, storedRow, existingRow_saveChunk_singleton (hown m' (mem_cons_of_mem m hm')) (hapart m' hm')]
  rw [saveChunk_eq now t, saveChunk_eq now (saveChunk now t [m]), hrows, saveChunk_eq now t [m],
    reactionsAfter_cons hapart]
  rfl

end

/-- Saving chunk after chunk is saving message after message. -/
theorem foldl_saveChunk (now : ℕ) (chunks : List (List InboundMessage)) (t : RowTable)
    (hown : ∀ m ∈ chunks.flatten, t.OwnTo m.toIMMessage)
    (hapart : chunks.flatten.Pairwise (fun a b => Apart a.toIMMessage b.toIMMessage)) :
    chunks.foldl (saveChunk now) t = chunks.flatten.foldl (fun u m => saveChunk now u [m]) t := by
  induction chunks generalizing t with
  | nil => rfl
  | cons chunk chunks ih =>
    induction chunk generalizing t with
    | nil =>
      have hnil : saveChunk now t [] = t := by
        rw [saveChunk_eq]
        exact congrArg (mk t.rows · t.clearedFloor) (ext (filter_eq_self.mpr fun _ _ => rfl))
      rw [foldl_cons, hnil]
      exact ih t hown hapart
    | cons m chunk ihchunk =>
      rw [flatten_cons, cons_append, ← flatten_cons] at hown hapart ⊢
      obtain ⟨hfirst, hrest⟩ := pairwise_cons.mp hapart
      have hown' : ∀ m' ∈ (chunk :: chunks).flatten, (saveChunk now t [m]).OwnTo m'.toIMMessage :=
        fun m' hm' => ownTo_saveChunk_singleton (hown m' (mem_cons_of_mem m hm')) (hfirst m' hm')
      have hmem : ∀ m' ∈ chunk, m' ∈ (chunk :: chunks).flatten := fun m' hm' =>
        mem_flatten.mpr ⟨chunk, mem_cons_self, hm'⟩
      rw [foldl_cons, saveChunk_cons now (fun m' hm' => hown m' (cons_subset_cons m hmem hm'))
          (fun m' hm' => hfirst m' (hmem m' hm')), foldl_cons, ← ihchunk _ hown' hrest,
        foldl_cons]

/-! ### Batches -/

section Batches

variable {ms : List InboundMessage}

theorem mem_saveBatch (h : r ∈ (t.saveBatch now ms).rows.items) :
    (∃ r₀ ∈ t.rows.items, r₀.toIMMessage = r.toIMMessage) ∨
      ∃ m ∈ ms, t.isPersistable m = true ∧ r.toIMMessage = persisted now m.toIMMessage := by
  have hbase : r.toIMMessage ∈ (t.saveBatch now ms).base.rows.items := mem_map_of_mem h
  rw [base_saveBatch] at hbase
  rcases MessageTable.mem_saveBatch hbase with hold | ⟨m₀, hm₀, hpersistable, hrow⟩
  · exact .inl (mem_map.mp hold)
  · obtain ⟨m, hm, rfl⟩ := mem_map.mp hm₀
    exact .inr ⟨m, hm, hpersistable, hrow⟩

theorem clearedFloor_saveBatch (t : RowTable) (now : ℕ) (ms : List InboundMessage) :
    (t.saveBatch now ms).clearedFloor = t.clearedFloor := by
  have hchunks : ∀ (chunks : List (List InboundMessage)) (u : RowTable),
      (chunks.foldl (saveChunk now) u).clearedFloor = u.clearedFloor := by
    intro chunks
    induction chunks with
    | nil => exact fun _ => rfl
    | cons chunk chunks ih => exact fun u => (ih _).trans (clearedFloor_saveChunk now u chunk)
  unfold saveBatch
  rw [hchunks, foldl_removeConflictingLocal, deleteRows]

/-- Once the rows in the way are removed, rows with a message's client id are its own. -/
theorem Settles.ownTo (h : t.Settles ms) (hm : m ∈ ms) :
    (t.deleteRows fun r => ms.any (goesFor · r)).OwnTo m.toIMMessage := by
  intro hclient r hr hcid
  obtain ⟨hr, hstays⟩ := mem_filter.mp hr
  rcases h m hm hclient r hr hcid with hown | ⟨hserver, hsending, hother⟩
  · exact hown
  · have hgoes : goesFor m r = true := by simp [goesFor, hclient, hserver, hcid, hsending, hother m hm]
    rw [Bool.not_eq_true', any_eq_false] at hstays
    exact absurd hgoes (hstays m hm)

theorem Settles.sublist {kept : List InboundMessage} (h : t.Settles ms) (hkept : kept.Sublist ms) :
    t.Settles kept :=
  fun m hm hclient r hr hcid => (h m (hkept.subset hm) hclient r hr hcid).imp_right fun hgoes =>
    ⟨hgoes.1, hgoes.2.1, fun m' hm' => hgoes.2.2 m' (hkept.subset hm')⟩

/-- A batch of different messages is written message after message, once what is in its way is removed. -/
theorem saveBatch_of_settles (now : ℕ) (hsettles : t.Settles ms)
    (hapart : ms.Pairwise (fun a b => Apart a.toIMMessage b.toIMMessage)) :
    t.saveBatch now ms = (ms.filter t.isPersistable).foldl (fun u m => saveChunk now u [m])
      (t.deleteRows fun r => (ms.filter t.isPersistable).any (goesFor · r)) := by
  have hkept : t.Settles (ms.filter t.isPersistable) := hsettles.sublist filter_sublist
  have hapart' := hapart.sublist (filter_sublist (p := t.isPersistable))
  have hqueued := foldl_queueRow_of_apart (ms.filter t.isPersistable) [] hapart'
  have hflatten : (chunks messageSaveBatchInsertChunkSize (ms.filter t.isPersistable)).flatten =
      ms.filter t.isPersistable := flatten_chunks (by decide) _
  unfold saveBatch
  dsimp only
  rw [foldl_removeConflictingLocal, hqueued, nil_append, foldl_saveChunk now, hflatten]
  · rw [hflatten]
    exact fun m hm => hkept.ownTo hm
  · rwa [hflatten]

theorem saveBatch_singleton (t : RowTable) (now : ℕ) (m : InboundMessage) :
    t.saveBatch now [m] = if t.isPersistable m then
      saveChunk now (t.removeConflictingLocalClientMsgRows m.clientMsgId m.serverId) [m] else t := by
  by_cases h : t.isPersistable m = true
  · have hqueue : queueRow [] m = [m] := by
      unfold queueRow
      split <;> rfl
    simp [saveBatch, h, hqueue, chunks, messageSaveBatchInsertChunkSize]
  · simp [saveBatch, h, chunks, messageSaveBatchInsertChunkSize]

theorem mem_saveBatch_singleton (h : r ∈ (t.saveBatch now [m]).rows.items) :
    (r.serverId = m.serverId ∧ r.clientMsgId = m.clientMsgId) ∨ r ∈ t.rows.items := by
  rw [saveBatch_singleton] at h
  split at h
  · rw [removeConflictingLocal_eq] at h
    rcases mem_saveChunk_singleton h with rfl | hold
    · exact .inl ⟨rfl, rfl⟩
    · exact .inr (mem_of_mem_filter hold)
  · exact .inr h

theorem Settles.saveBatch_singleton (h : t.Settles (m :: ms))
    (hapart : ∀ m' ∈ ms, Apart m.toIMMessage m'.toIMMessage) :
    (t.saveBatch now [m]).Settles ms := by
  intro m' hm' hclient r hr hcid
  rcases mem_saveBatch_singleton hr with ⟨-, hsame⟩ | hold
  · exact absurd (hsame.symm.trans hcid) ((hapart m' hm').clientMsgId_ne hclient)
  · exact h.sublist (sublist_cons_self m ms) m' hm' hclient r hold hcid

/-- Rows that share no id with a message may be removed before it is saved or after. -/
theorem saveChunk_deleteRows {q : MessageRow → Bool} (hstored : q (t.storedRow now m) = false)
    (hother : ∀ r ∈ t.rows.items, q r = true → sharesId m r = false) :
    saveChunk now (t.deleteRows q) [m] = (saveChunk now t [m]).deleteRows q := by
  have hexisting : (t.deleteRows q).existingRow m = t.existingRow m := by
    rw [existingRow_eq, existingRow_eq, deleteRows, KeyedMap.filter, find?_filter]
    refine find?_congr fun r hr => ?_
    cases hq : q r with
    | false => simp
    | true => simp [hother r hr hq]
  have hrow : (t.deleteRows q).storedRow now m = t.storedRow now m := by rw [storedRow, hexisting, storedRow]
  rw [saveChunk_eq, saveChunk_eq, map_singleton, map_singleton, hrow]
  refine congrArg (mk · _ t.clearedFloor) ?_
  exact (filter_insert t.rows (p := fun r => !q r) (by rw [hstored]; rfl)).symm

theorem isPersistable_saveBatch_singleton (t : RowTable) (now : ℕ) (m : InboundMessage) :
    (t.saveBatch now [m]).isPersistable = t.isPersistable := by
  funext m'
  rw [isPersistable, isPersistable, MessageTable.isPersistable, MessageTable.isPersistable, base, base,
    clearedFloor_saveBatch]

/-- A batch of different messages leaves what its messages leave one after the other. -/
theorem saveBatch_eq_foldl (now : ℕ) (hsettles : t.Settles ms)
    (hapart : ms.Pairwise (fun a b => Apart a.toIMMessage b.toIMMessage)) :
    t.saveBatch now ms = ms.foldl (fun u m => u.saveBatch now [m]) t := by
  induction ms generalizing t with
  | nil => exact (saveBatch_of_settles now hsettles hapart).trans (deleteRows_eq_self fun _ _ => rfl)
  | cons m ms ih =>
    obtain ⟨hfirst, hrest⟩ := pairwise_cons.mp hapart
    have hsettles' : (t.saveBatch now [m]).Settles ms := hsettles.saveBatch_singleton hfirst
    rw [foldl_cons, ← ih hsettles' hrest, saveBatch_of_settles now hsettles hapart,
      saveBatch_of_settles now hsettles' hrest, isPersistable_saveBatch_singleton, saveBatch_singleton]
    by_cases hkept : t.isPersistable m = true
    · rw [if_pos hkept, filter_cons_of_pos hkept, foldl_cons, ← foldl_removeConflictingLocal, foldl_cons,
        foldl_removeConflictingLocal, saveChunk_deleteRows]
      · refine any_eq_false.mpr fun m' hm' hgoes => ?_
        simp only [goesFor, Bool.and_eq_true, Bool.not_eq_true', Bool.or_eq_false_iff, decide_eq_true_eq] at hgoes
        exact (hfirst m' (mem_of_mem_filter hm')).clientMsgId_ne hgoes.1.1 hgoes.2.1.1
      · intro r hr hgoes
        -- a row in the way of a later message is none that this one replaces
        obtain ⟨m', hm', hgoes⟩ := any_eq_true.mp hgoes
        simp only [goesFor, Bool.and_eq_true, Bool.not_eq_true', Bool.or_eq_false_iff, decide_eq_true_eq] at hgoes
        obtain ⟨⟨hclient, -⟩, ⟨hcid, hserver⟩, -⟩ := hgoes
        rw [removeConflictingLocal_eq] at hr
        have hm'' := mem_of_mem_filter hm'
        have hothers := (hsettles m' (mem_cons_of_mem m hm'') hclient r (mem_of_mem_filter hr) hcid).resolve_left
          hserver
        refine sharesId_eq_false (hothers.2.2 m mem_cons_self) fun hclient' hcid' => ?_
        have hapart' := hfirst m' hm''
        rcases hapart'.2 with hblank | hne
        · rw [isBlank_of_trim_eq hblank] at hclient'
          exact Bool.noConfusion hclient'
        · exact hne (hcid'.symm.trans hcid)
    · rw [if_neg hkept, filter_cons_of_neg hkept]

end Batches

end RowTable

end FlareIm.Store
