import Mathlib.Data.List.Dedup
import Mathlib.Data.List.Sort
import FlareIm.Lib.KeyedMap
import FlareIm.Message.Delivery

/-! The local message table. Rows are keyed by `server_id`; a message that the server
has not answered yet is stored under its own `client_msg_id`, so one `client_msg_id` can
have an own row and server copies at the same time. Writing a batch drops the sending
copies that the new row replaces, an acknowledged row drops every other copy, and the two
healing updates mark rows failed in place. Rows written by a batch are filtered by the
conversation's visibility floor. -/

namespace FlareIm.Store

open Lib Message List

structure MessageTable where
  /-- The `messages` table by its primary key. -/
  rows : KeyedMap String IMMessage IMMessage.serverId
  /-- The local clear watermark or the server's visible start of a conversation. -/
  clearedFloor : String → ℕ

namespace MessageTable

def maxI64 : ℕ := 2 ^ 63 - 1

def effectiveSortTsForPersist (now : ℕ) (m : IMMessage) : ℕ := min (max m.timelineSortTs now) maxI64

/-- The row read back after a message was written at `now`. -/
def persisted (now : ℕ) (m : IMMessage) : IMMessage :=
  let sortTs := effectiveSortTsForPersist now m
  let untimed := m.createdAt = 0 ∧ m.clientCreatedAt = 0
  { m with
    createdAt := if untimed then sortTs else m.createdAt
    clientCreatedAt := if untimed then sortTs else m.clientCreatedAt
    localState :=
      { m.localState with sortTs := sortTs, uploadProgress := min m.localState.uploadProgress 100 } }

def messageVisibleAfterClear (m : IMMessage) (floor : ℕ) : Bool :=
  floor == 0 || m.conversationSeq == 0 || floor < m.conversationSeq

/-- `save_batch` leaves out messages without a conversation and those below its floor. -/
def isPersistable (t : MessageTable) (m : IMMessage) : Bool :=
  !isBlank m.conversationId && messageVisibleAfterClear m (t.clearedFloor (trim m.conversationId))

/-- The rows of one `client_msg_id`. -/
def copies (t : MessageTable) (clientMsgId : String) : List IMMessage :=
  t.rows.items.filter (fun r => r.clientMsgId = clientMsgId)

def deleteWhere (t : MessageTable) (p : IMMessage → Bool) : MessageTable :=
  { t with rows := t.rows.filter (fun r => !p r) }

def isLocalSending (r : IMMessage) : Bool :=
  r.localState.isLocal && !r.localState.failed && r.localState.sending

section

variable (t : MessageTable) (clientMsgId targetServerId : String)

def removeConflictingLocalClientMsgRows : MessageTable :=
  if isBlank clientMsgId || isBlank targetServerId then t
  else t.deleteWhere fun r =>
    r.clientMsgId = trim clientMsgId && r.serverId ≠ trim targetServerId && isLocalSending r

def removeConflictingClientMsgRows : MessageTable :=
  if isBlank clientMsgId || isBlank targetServerId then t
  else t.deleteWhere (fun r => r.clientMsgId = trim clientMsgId && r.serverId ≠ trim targetServerId)

end

/-- `INSERT OR REPLACE`. -/
def insertRow (t : MessageTable) (now : ℕ) (m : IMMessage) : MessageTable :=
  { t with rows := t.rows.insert (persisted now m) }

/-- Queue a row of a batch; it replaces a queued row with the same non-blank server id. -/
def queueRow (rows : List IMMessage) (m : IMMessage) : List IMMessage :=
  (if isBlank m.serverId then rows else rows.filter (fun r => trim r.serverId ≠ trim m.serverId)) ++ [m]

def saveBatch (t : MessageTable) (now : ℕ) (messages : List IMMessage) : MessageTable :=
  let persistable := messages.filter t.isPersistable
  let cleaned := persistable.foldl (fun u m => u.removeConflictingLocalClientMsgRows m.clientMsgId m.serverId) t
  (persistable.foldl queueRow []).foldl (fun u m => u.insertRow now m) cleaned

/-- The acknowledged row: sent, and under the acknowledged id when it had none. -/
def ackedRow [ProtoCodes] (clientMsgId : String) (m : IMMessage) : IMMessage :=
  let s := sanitizeSendAckMessage m
  if isBlank s.clientMsgId && !isBlank clientMsgId then { s with clientMsgId := trim clientMsgId }
  else s

def updateAfterAck [ProtoCodes] (t : MessageTable) (now : ℕ) (clientMsgId : String) (m : IMMessage) :
    MessageTable :=
  let row := ackedRow clientMsgId m
  let t₁ := t.removeConflictingClientMsgRows clientMsgId row.serverId
  let t₂ := if trim row.clientMsgId ≠ trim clientMsgId then
      t₁.removeConflictingClientMsgRows row.clientMsgId row.serverId
    else t₁
  t₂.insertRow now row

/-- `CASE WHEN server_id = client_msg_id THEN 1 ELSE 0 END`. -/
def ownRank (r : IMMessage) : ℕ := if r.serverId = r.clientMsgId then 1 else 0

/-- The order of `get_by_client_msg_id`: server copies first, then the newest. -/
def preferred (a b : IMMessage) : Prop :=
  ownRank a < ownRank b ∨ (ownRank a = ownRank b ∧
    (b.conversationSeq < a.conversationSeq ∨ (a.conversationSeq = b.conversationSeq ∧
      (b.localState.sortTs < a.localState.sortTs ∨ (a.localState.sortTs = b.localState.sortTs ∧
        b.updatedAt ≤ a.updatedAt)))))

instance : DecidableRel preferred := fun _ _ => inferInstanceAs (Decidable (_ ∨ _))

instance : Std.Total preferred where
  total a b := by
    unfold preferred
    omega

instance : IsTrans IMMessage preferred where
  trans a b c := by
    unfold preferred
    omega

def getByClientMsgId (t : MessageTable) (clientMsgId : String) : Option IMMessage :=
  ((t.copies clientMsgId).insertionSort preferred).head?

def getByClientMsgIds (t : MessageTable) (clientMsgIds : List String) : List IMMessage :=
  clientMsgIds.dedup.filterMap t.getByClientMsgId

/-- What both healing updates write into a row. -/
def healedRow [codes : ProtoCodes] (now : ℕ) (r : IMMessage) : IMMessage :=
  { r with
    status := codes.statusFailed
    updatedAt := now
    localState := { r.localState with sending := false, failed := true, uploading := false } }

/-- `UPDATE messages SET sending = 0, failed = 1, ... WHERE client_msg_id IN (...)`. -/
def failAll [ProtoCodes] (t : MessageTable) (now : ℕ) (clientMsgIds : List String) : MessageTable :=
  { t with
    rows := t.rows.mapValues (fun r => if r.clientMsgId ∈ clientMsgIds then healedRow now r else r)
      (fun r => by split <;> rfl) }

section

variable (t : MessageTable) (senderUserId : String) (pendingClientMsgIds : List String)

/-- Sending rows of the user whose pending entry is gone. -/
def orphanSendingIds : List String :=
  if isBlank senderUserId then []
  else (t.rows.items.filter (fun r => isLocalSending r && r.senderId = senderUserId &&
    r.clientMsgId ∉ pendingClientMsgIds)).map IMMessage.clientMsgId

/-- Pending messages with a row of another account. -/
def crossAccountIds : List String :=
  if isBlank senderUserId || pendingClientMsgIds.isEmpty then []
  else (t.rows.items.filter (fun r => r.clientMsgId ∈ pendingClientMsgIds &&
    (r.senderId = "" || r.senderId ≠ senderUserId))).map IMMessage.clientMsgId

end

/-! ### Rows after a write -/

theorem mem_copies (t : MessageTable) (id : String) (r : IMMessage) :
    r ∈ t.copies id ↔ r ∈ t.rows.items ∧ r.clientMsgId = id := by
  simp [copies]

section

variable (now : ℕ) (m : IMMessage)

@[simp] theorem persisted_clientMsgId : (persisted now m).clientMsgId = m.clientMsgId := rfl

@[simp] theorem persisted_serverId : (persisted now m).serverId = m.serverId := rfl

end

theorem mem_deleteWhere (t : MessageTable) (p : IMMessage → Bool) (r : IMMessage) :
    r ∈ (t.deleteWhere p).rows.items ↔ r ∈ t.rows.items ∧ p r = false := by
  simp [deleteWhere, KeyedMap.filter]

theorem mem_insertRow (t : MessageTable) (now : ℕ) (m r : IMMessage) : r ∈ (t.insertRow now m).rows.items ↔
      r = persisted now m ∨ (r ∈ t.rows.items ∧ r.serverId ≠ m.serverId) :=
  t.rows.mem_insert _ _

variable {cid : String} {m r : IMMessage} {now : ℕ} {t : MessageTable}

section

variable {sid : String}

theorem mem_of_mem_removeConflictingLocal
    (h : r ∈ (t.removeConflictingLocalClientMsgRows cid sid).rows.items) : r ∈ t.rows.items := by
  unfold removeConflictingLocalClientMsgRows at h
  split at h
  · exact h
  · exact ((t.mem_deleteWhere _ r).mp h).1

end

theorem saveBatch_singleton (t : MessageTable) (now : ℕ) (m : IMMessage) :
    t.saveBatch now [m] = if t.isPersistable m then
      (t.removeConflictingLocalClientMsgRows m.clientMsgId m.serverId).insertRow now m else t := by
  by_cases h : t.isPersistable m = true
  · by_cases hb : isBlank m.serverId = true <;> simp [saveBatch, h, queueRow, hb]
  · simp [saveBatch, h]

/-! The stages of a batch: rows in the way are removed, the messages are queued, the queue is written. -/

theorem mem_of_mem_foldl_queueRow (ms queue : List IMMessage) (h : m ∈ ms.foldl queueRow queue) :
    m ∈ queue ∨ m ∈ ms := by
  induction ms generalizing queue with
  | nil => exact .inl h
  | cons n ms ih =>
    rcases ih _ h with hqueued | hmem
    · rcases mem_append.mp hqueued with hold | hnew
      · split at hold
        · exact .inl hold
        · exact .inl (mem_of_mem_filter hold)
      · exact .inr (mem_cons.mpr (.inl (mem_singleton.mp hnew)))
    · exact .inr (mem_cons_of_mem n hmem)

/-- Every message is queued, or a later one with its server id is. -/
theorem exists_mem_foldl_queueRow (ms queue : List IMMessage) (hm : m ∈ queue ∨ m ∈ ms) :
    ∃ m' ∈ ms.foldl queueRow queue, trim m'.serverId = trim m.serverId := by
  induction ms generalizing queue m with
  | nil => exact ⟨m, hm.resolve_right not_mem_nil, rfl⟩
  | cons n ms ih =>
    have hlast : n ∈ queueRow queue n := mem_append_right _ (mem_singleton.mpr rfl)
    rw [foldl_cons]
    rcases hm with hqueued | hmem
    · by_cases hsame : trim m.serverId = trim n.serverId
      · rw [hsame]
        exact ih _ (.inl hlast)
      · refine ih _ (.inl (mem_append_left _ ?_))
        split
        · exact hqueued
        · exact mem_filter.mpr ⟨hqueued, decide_eq_true hsame⟩
    · rcases mem_cons.mp hmem with rfl | hrest
      · exact ih _ (.inl hlast)
      · exact ih _ (.inr hrest)

section

variable (kept : List IMMessage) (t : MessageTable)

theorem mem_of_mem_foldl_removeConflictingLocal
    (h : r ∈ (kept.foldl (fun u m => u.removeConflictingLocalClientMsgRows m.clientMsgId m.serverId)
      t).rows.items) :
    r ∈ t.rows.items := by
  induction kept generalizing t with
  | nil => exact h
  | cons m kept ih => exact mem_of_mem_removeConflictingLocal (ih _ h)

/-- A row goes only for a message with its client id. -/
theorem mem_foldl_removeConflictingLocal_or (h : r ∈ t.rows.items) :
    r ∈ (kept.foldl (fun u m => u.removeConflictingLocalClientMsgRows m.clientMsgId m.serverId) t).rows.items ∨
      ∃ m ∈ kept, isBlank m.clientMsgId = false ∧ r.clientMsgId = trim m.clientMsgId := by
  induction kept generalizing t with
  | nil => exact .inl h
  | cons m kept ih =>
    by_cases hgoes : isBlank m.clientMsgId = false ∧ r.clientMsgId = trim m.clientMsgId
    · exact .inr ⟨m, mem_cons_self, hgoes⟩
    · have hstays : r ∈ (t.removeConflictingLocalClientMsgRows m.clientMsgId m.serverId).rows.items := by
        unfold removeConflictingLocalClientMsgRows
        split
        · exact h
        · next hnamed =>
          refine (t.mem_deleteWhere _ r).mpr ⟨h, ?_⟩
          have hclient : r.clientMsgId ≠ trim m.clientMsgId := fun heq => hgoes ⟨by simp_all, heq⟩
          simp [hclient]
      rcases ih _ hstays with hmem | ⟨m', hm', hgoes'⟩
      · exact .inl hmem
      · exact .inr ⟨m', mem_cons_of_mem m hm', hgoes'⟩

end

section

variable (now : ℕ) (queue : List IMMessage) (t : MessageTable)

theorem rows_foldl_insertRow :
    (queue.foldl (fun u m => u.insertRow now m) t).rows =
      (queue.map (persisted now)).foldl KeyedMap.insert t.rows := by
  induction queue generalizing t with
  | nil => rfl
  | cons m queue ih => exact ih _

theorem mem_of_mem_foldl_insertRow
    (h : r ∈ (queue.foldl (fun u m => u.insertRow now m) t).rows.items) :
    r ∈ t.rows.items ∨ ∃ m ∈ queue, r = persisted now m := by
  induction queue generalizing t with
  | nil => exact .inl h
  | cons m queue ih =>
    rcases ih _ h with hrow | ⟨m', hm', rfl⟩
    · rcases (t.mem_insertRow now m r).mp hrow with rfl | ⟨hold, -⟩
      · exact .inr ⟨m, mem_cons_self, rfl⟩
      · exact .inl hold
    · exact .inr ⟨m', mem_cons_of_mem m hm', rfl⟩

end

section Batch

variable {ms : List IMMessage}

/-- Saving a batch adds at most rows of its messages. -/
theorem mem_saveBatch (h : r ∈ (t.saveBatch now ms).rows.items) :
    r ∈ t.rows.items ∨ ∃ m ∈ ms, t.isPersistable m = true ∧ r = persisted now m := by
  rcases mem_of_mem_foldl_insertRow now _ _ h with hrow | ⟨m, hm, rfl⟩
  · exact .inl (mem_of_mem_foldl_removeConflictingLocal _ t hrow)
  · obtain ⟨hmem, hpersistable⟩ := mem_filter.mp
      ((mem_of_mem_foldl_queueRow _ [] hm).resolve_left not_mem_nil)
    exact .inr ⟨m, hmem, hpersistable, rfl⟩

/-- A row stays, or a message of the batch has an id of it. -/
theorem mem_saveBatch_or (now : ℕ) (ms : List IMMessage) (h : r ∈ t.rows.items) :
    r ∈ (t.saveBatch now ms).rows.items ∨ ∃ m ∈ ms, t.isPersistable m = true ∧
      (r.serverId = m.serverId ∨ isBlank m.clientMsgId = false ∧ r.clientMsgId = trim m.clientMsgId) := by
  rcases mem_foldl_removeConflictingLocal_or (ms.filter t.isPersistable) t h with hcleaned | ⟨m, hm, hclient⟩
  · unfold saveBatch
    rw [rows_foldl_insertRow]
    rcases KeyedMap.mem_foldl_insert_or _ _ hcleaned with hmem | ⟨w, hw, hkey⟩
    · exact .inl hmem
    · obtain ⟨m, hm, rfl⟩ := mem_map.mp hw
      obtain ⟨hmem, hpersistable⟩ := mem_filter.mp
        ((mem_of_mem_foldl_queueRow _ [] hm).resolve_left not_mem_nil)
      exact .inr ⟨m, hmem, hpersistable, .inl hkey.symm⟩
  · obtain ⟨hmem, hpersistable⟩ := mem_filter.mp hm
    exact .inr ⟨m, hmem, hpersistable, .inr hclient⟩

/-- A message of the batch has its row, or one with the same server id does. -/
theorem exists_persisted_mem_saveBatch (now : ℕ) (hm : m ∈ ms) (hpersistable : t.isPersistable m = true) :
    ∃ m' ∈ ms, t.isPersistable m' = true ∧ trim m'.serverId = trim m.serverId ∧
      persisted now m' ∈ (t.saveBatch now ms).rows.items := by
  obtain ⟨q, hq, hserver⟩ := exists_mem_foldl_queueRow (ms.filter t.isPersistable) []
    (.inr (mem_filter.mpr ⟨hm, hpersistable⟩))
  unfold saveBatch
  rw [rows_foldl_insertRow]
  obtain ⟨w, hw, hkey, hmem⟩ := KeyedMap.exists_mem_foldl_insert (mem_map_of_mem (f := persisted now) hq)
    ((ms.filter t.isPersistable).foldl
      (fun u m => u.removeConflictingLocalClientMsgRows m.clientMsgId m.serverId) t).rows
  obtain ⟨m', hm', rfl⟩ := mem_map.mp hw
  obtain ⟨hmem', hpersistable'⟩ := mem_filter.mp
    ((mem_of_mem_foldl_queueRow _ [] hm').resolve_left not_mem_nil)
  exact ⟨m', hmem', hpersistable', (congrArg trim hkey).trans hserver, hmem⟩

end Batch

theorem mem_saveBatch_singleton
    (h : r ∈ (t.saveBatch now [m]).rows.items) : r ∈ t.rows.items ∨ r = persisted now m := by
  rw [saveBatch_singleton] at h
  split at h
  · rcases (mem_insertRow _ now m r).mp h with rfl | ⟨hr, -⟩
    · exact .inr rfl
    · exact .inl (mem_of_mem_removeConflictingLocal hr)
  · exact .inl h

variable {id : String}

/-- Saving a message leaves the copies of another one alone, unless one of those is stored
under the new row's id or differs from it in blanks only. -/
theorem copies_saveBatch_of_ne
    (hid : id ≠ m.clientMsgId) (htrim : trim m.clientMsgId = m.clientMsgId)
    (hfresh : ∀ r ∈ t.rows.items, r.serverId = m.serverId → r.clientMsgId = m.clientMsgId) :
    (t.saveBatch now [m]).copies id = t.copies id := by
  have hremoved : ((t.removeConflictingLocalClientMsgRows m.clientMsgId m.serverId).copies id) = t.copies id := by
    unfold removeConflictingLocalClientMsgRows
    split
    · rfl
    · rw [copies, deleteWhere, KeyedMap.filter, filter_filter, htrim]
      refine filter_congr fun r _ => ?_
      by_cases hr : r.clientMsgId = id
      · simp [hr, hid]
      · simp [hr]
  rw [saveBatch_singleton]
  split
  · refine Eq.trans ?_ hremoved
    rw [copies, insertRow, KeyedMap.insert, filter_cons_of_neg (by simp [Ne.symm hid]),
      KeyedMap.erase, KeyedMap.filter, filter_filter]
    refine filter_congr fun r hr => ?_
    have hkey : r.clientMsgId = id → r.serverId ≠ m.serverId := fun hrid hserver =>
      hid (hrid.symm.trans (hfresh r (mem_of_mem_removeConflictingLocal hr) hserver))
    by_cases hrid : r.clientMsgId = id
    · simp [hrid, hkey hrid]
    · simp [hrid]
  · rfl

theorem ackedRow_clientMsgId [ProtoCodes] (h : m.clientMsgId = cid) :
    (ackedRow cid m).clientMsgId = cid := by
  unfold ackedRow sanitizeSendAckMessage
  by_cases hb : isBlank cid = true <;> simp [h, hb]

@[simp] theorem ackedRow_status [codes : ProtoCodes] (cid : String) (m : IMMessage) :
    (ackedRow cid m).status = codes.statusSent := by
  unfold ackedRow sanitizeSendAckMessage
  dsimp only
  split <;> rfl

variable {ids : List String}

/-- The healing update rewrites the rows of the listed ids and no others. -/
theorem mem_failAll [ProtoCodes] (h : r ∈ (t.failAll now ids).rows.items) :
    (r ∈ t.rows.items ∧ r.clientMsgId ∉ ids) ∨ ∃ r₀ ∈ t.rows.items, r₀.clientMsgId ∈ ids ∧
    r = healedRow now r₀ := by
  obtain ⟨r₀, hr₀, rfl⟩ := mem_map.mp h
  by_cases hm : r₀.clientMsgId ∈ ids
  · right
    exact ⟨r₀, hr₀, hm, by simp [hm]⟩
  · left
    simpa [hm] using hr₀

theorem copies_failAll_of_not_mem [ProtoCodes] (t : MessageTable) (now : ℕ)
    (h : id ∉ ids) : (t.failAll now ids).copies id = t.copies id := by
  rw [copies, failAll, KeyedMap.mapValues, filter_map]
  have hkeep : (fun r : IMMessage => decide (r.clientMsgId = id)) ∘
      (fun r => if r.clientMsgId ∈ ids then healedRow now r else r) = fun r => decide (r.clientMsgId = id) := by
    funext r
    by_cases hr : r.clientMsgId ∈ ids <;> simp [hr, healedRow]
  rw [hkeep]
  refine (map_congr_left fun r hr => ?_).trans (map_id _)
  have hid : r.clientMsgId = id := by simpa using (mem_filter.mp hr).2
  simp [hid, h]

/-! ### The row a lookup returns -/

theorem mem_of_getByClientMsgId
    (h : t.getByClientMsgId id = some r) : r ∈ t.copies id :=
  (mem_insertionSort _).mp (mem_of_mem_head? h)

theorem snapshot_of_getByClientMsgIds (t : MessageTable) (h : id ∈ ids) :
    (t.getByClientMsgIds ids).find? (fun r => r.clientMsgId = id) = t.getByClientMsgId id := by
  have hid : ∀ k r, t.getByClientMsgId k = some r → r.clientMsgId = k := fun k r hr =>
    ((t.mem_copies k r).mp (mem_of_getByClientMsgId hr)).2
  have key : ∀ ks : List String, id ∈ ks → (ks.filterMap t.getByClientMsgId).find? (fun r => r.clientMsgId = id) =
        t.getByClientMsgId id := by
    intro ks
    induction ks with
    | nil => intro hk; simp at hk
    | cons k ks ih =>
      intro hk
      by_cases hki : k = id
      · subst hki
        cases hg : t.getByClientMsgId k with
        | some r => simp [hg, hid k r hg]
        | none =>
          rw [filterMap_cons_none hg, find?_eq_none]
          intro r hr
          obtain ⟨j, -, hj⟩ := mem_filterMap.mp hr
          simp only [decide_eq_true_eq]
          rintro rfl
          rw [hid j r hj, hj] at hg
          simp at hg
      · have hks : id ∈ ks := by
          rcases mem_cons.mp hk with rfl | h'
          · exact absurd rfl hki
          · exact h'
        cases hg : t.getByClientMsgId k with
        | none => rw [filterMap_cons_none hg, ih hks]
        | some r =>
          rw [filterMap_cons_some hg, find?_cons_of_neg, ih hks]
          simp [hid k r hg, hki]
  exact key ids.dedup (mem_dedup.mpr h)

end MessageTable

end FlareIm.Store
