import FlareIm.Lib.Run
import FlareIm.Sync.State

/-! The two stores of sync cursors. The one in memory keeps everything in a single map of texts: a
conversation's cursor under `user:conversation`, and raw entries beside it under keys of their own. A
write replaces what is there. The SQLite one keeps the cursors of conversations in a table by user and
conversation, never lowers one, and keeps raw entries in another table. They answer alike as long as no
write goes back and every key stands for one thing. -/

namespace FlareIm.Sync

open Lib Message Store List KeyedMap MessageTable Option

structure SyncCursorVo where
  userId : String
  conversationId : String
  lastSeq : ℕ
  syncedAt : ℕ
  deriving DecidableEq, Repr

theorem getElem?_foldl_insert {α β : Type} {l : List α} {key : α → String} {value : α → β}
    {expected : String → Option β}
    (h : ∀ a ∈ l, expected (key a) = some (value a)) (out : Std.ExtTreeMap String β) (k : String) :
    (l.foldl (fun out a => out.insert (key a) (value a)) out)[k]? =
      if k ∈ l.map key then expected k else out[k]? := by
  induction l generalizing out with
  | nil => simp
  | cons a l ih =>
    rw [foldl_cons, ih fun b hb => h b (mem_cons_of_mem _ hb)]
    by_cases hmem : k ∈ l.map key
    · have hcons : k ∈ (a :: l).map key := mem_cons_of_mem _ hmem
      rw [if_pos hmem, if_pos hcons]
    · rw [if_neg hmem]
      by_cases heq : k = key a
      · have hcons : k ∈ (a :: l).map key := heq ▸ mem_cons_self
        rw [if_pos hcons, heq, Std.ExtTreeMap.getElem?_insert_self, h a mem_cons_self]
      · rw [Std.ExtTreeMap.getElem?_insert, if_neg (by simpa using Ne.symm heq), if_neg]
        exact not_mem_cons_of_ne_of_not_mem heq hmem

/-! ### In memory -/

structure MemorySyncCursorStore where
  data : Std.ExtTreeMap String String := ∅

namespace MemorySyncCursorStore

/-- `format!("{user_id}:{conversation_id}")`. -/
def cursorKey (userId conversationId : String) : String := userId ++ ":" ++ conversationId

/-- `format!("{last_seq}:{synced_at}")`. -/
def cursorText (lastSeq syncedAt : ℕ) : String := toString lastSeq ++ ":" ++ toString syncedAt

def parseCursorText (text : String) : Option (ℕ × ℕ) := do
  let parts ← splitOnce ':' text
  let lastSeq ← parseU64 parts.1
  let syncedAt ← parseU64 parts.2
  some (lastSeq, syncedAt)

section

variable (m : MemorySyncCursorStore)

def getConversationCursor (userId conversationId : String) : Option SyncCursorVo := do
  let text ← m.data[cursorKey userId conversationId]?
  let (lastSeq, syncedAt) ← parseCursorText text
  some ⟨userId, conversationId, lastSeq, syncedAt⟩

/-- One read after the other, as the trait has it; conversations without a cursor are left out. -/
def getConversationCursors (userId : String) (conversationIds : List String) :
    Std.ExtTreeMap String SyncCursorVo :=
  conversationIds.foldl (fun out conversationId =>
    match m.getConversationCursor userId conversationId with
    | some cursor => out.insert conversationId cursor
    | none => out) ∅

def saveRaw (key cursor : String) : MemorySyncCursorStore :=
  ⟨m.data.insert key cursor⟩

def saveConversationCursor (cursor : SyncCursorVo) : MemorySyncCursorStore :=
  ⟨m.data.insert (cursorKey cursor.userId cursor.conversationId) (cursorText cursor.lastSeq cursor.syncedAt)⟩

end

theorem parseCursorText_cursorText {lastSeq syncedAt : ℕ} (hseq : lastSeq ≤ maxU64) (hsynced : syncedAt ≤ maxU64) :
    parseCursorText (cursorText lastSeq syncedAt) = some (lastSeq, syncedAt) := by
  have hsplit : splitOnce ':' (cursorText lastSeq syncedAt) = some (toString lastSeq, toString syncedAt) :=
    splitOnce_toString (by decide) lastSeq _
  simp only [parseCursorText, hsplit, bind_eq_bind, bind_some, parseU64_toString hseq,
    parseU64_toString hsynced]

theorem getElem?_getConversationCursors (m : MemorySyncCursorStore) (userId : String)
    (conversationIds : List String)
    (conversationId : String) :
    (m.getConversationCursors userId conversationIds)[conversationId]? =
      if conversationId ∈ conversationIds then m.getConversationCursor userId conversationId else none := by
  have hfold : ∀ out : Std.ExtTreeMap String SyncCursorVo, (conversationIds.foldl (fun out conversationId =>
      match m.getConversationCursor userId conversationId with
      | some cursor => out.insert conversationId cursor
      | none => out) out)[conversationId]? =
      ((if conversationId ∈ conversationIds then m.getConversationCursor userId conversationId else none).or
        out[conversationId]?) := by
    induction conversationIds with
    | nil => intro out; rfl
    | cons c cs ih =>
      intro out
      rw [foldl_cons, ih]
      by_cases heq : c = conversationId
      · subst heq
        by_cases hmem : c ∈ cs <;> cases hc : m.getConversationCursor userId c <;> simp [hmem]
      · cases hc : m.getConversationCursor userId c <;> simp [heq, Ne.symm heq, Std.ExtTreeMap.getElem?_insert]
  rw [getConversationCursors, hfold, Std.ExtTreeMap.getElem?_empty, or_none]

end MemorySyncCursorStore

/-! ### In SQLite -/

/-- A row of `sync_conversation_cursors`; the numbers are signed columns. -/
structure CursorRow where
  userId : String
  conversationId : String
  lastSeq : ℤ
  syncedAt : ℤ
  deriving DecidableEq, Repr

def CursorRow.key (r : CursorRow) : String × String := (r.userId, r.conversationId)

/-- What a row is read as: `seq.max(0) as u64`. -/
def CursorRow.cursor (r : CursorRow) : SyncCursorVo :=
  ⟨r.userId, r.conversationId, r.lastSeq.toNat, r.syncedAt.toNat⟩

structure SqliteSyncCursorRepo where
  raw : Std.ExtTreeMap String String := ∅
  rows : KeyedMap (String × String) CursorRow CursorRow.key := .empty

open SqliteSyncCursorRepo

variable {cursor v : SyncCursorVo}

variable {conversationId userId : String}

namespace SqliteSyncCursorRepo

section

variable (q : SqliteSyncCursorRepo)

def getConversationCursor (userId conversationId : String) : Option SyncCursorVo :=
  (q.rows.find? (userId, conversationId)).map CursorRow.cursor

/-- One query for all of them. -/
def getConversationCursors (userId : String) (conversationIds : List String) :
    Std.ExtTreeMap String SyncCursorVo :=
  (q.rows.items.filter fun r => r.userId = userId && conversationIds.contains r.conversationId).foldl
    (fun out r => out.insert r.conversationId r.cursor) ∅

def saveRaw (key cursor : String) : SqliteSyncCursorRepo :=
  { q with raw := q.raw.insert key cursor }

/-- `ON CONFLICT(user_id, conversation_id) DO UPDATE SET last_seq = MAX(...), synced_at = MAX(...)`. -/
def upsertedRow (cursor : SyncCursorVo) : CursorRow :=
  match q.rows.find? (cursor.userId, cursor.conversationId) with
  | some r => { r with
      lastSeq := max r.lastSeq (asI64 cursor.lastSeq), syncedAt := max r.syncedAt (asI64 cursor.syncedAt) }
  | none => ⟨cursor.userId, cursor.conversationId, asI64 cursor.lastSeq, asI64 cursor.syncedAt⟩

def saveConversationCursor (cursor : SyncCursorVo) : SqliteSyncCursorRepo :=
  { q with rows := q.rows.insert (q.upsertedRow cursor) }

end

section

variable (q : SqliteSyncCursorRepo)

theorem upsertedRow_key (cursor : SyncCursorVo) :
    (q.upsertedRow cursor).key = (cursor.userId, cursor.conversationId) := by
  cases hrow : q.rows.find? (cursor.userId, cursor.conversationId) with
  | none => simp only [upsertedRow, hrow, CursorRow.key]
  | some r =>
    have hkey : r.key = (cursor.userId, cursor.conversationId) := key_of_find? hrow
    simpa only [upsertedRow, hrow, CursorRow.key] using hkey

theorem getElem?_getConversationCursors (userId : String) (conversationIds : List String)
    (conversationId : String) :
    (q.getConversationCursors userId conversationIds)[conversationId]? =
      if conversationId ∈ conversationIds then q.getConversationCursor userId conversationId else none := by
  have hselected : ∀ r ∈ q.rows.items.filter fun r => r.userId = userId &&
    conversationIds.contains r.conversationId,
      r.conversationId ∈ conversationIds ∧ q.getConversationCursor userId r.conversationId = some r.cursor := by
    intro r hr
    simp only [mem_filter, Bool.and_eq_true, decide_eq_true_eq, contains_iff_mem] at hr
    obtain ⟨hmem, rfl, hid⟩ := hr
    refine ⟨hid, ?_⟩
    rw [getConversationCursor, show (r.userId, r.conversationId) = r.key from rfl,
      q.rows.find?_of_mem hmem, map_some]
  rw [getConversationCursors, getElem?_foldl_insert fun r hr => (hselected r hr).2, Std.ExtTreeMap.getElem?_empty]
  by_cases hid : conversationId ∈ conversationIds
  · rw [if_pos hid]
    refine ite_eq_left_iff.mpr fun hnone => ?_
    rw [eq_comm, getConversationCursor, map_eq_none_iff, find?_eq_none_iff, KeyedMap.mem_keys]
    rintro ⟨r, hr, hkey⟩
    obtain ⟨huser, hconversation⟩ := Prod.mk.inj hkey
    refine hnone (mem_map.mpr ⟨r, mem_filter.mpr ⟨hr, ?_⟩, hconversation⟩)
    simp [huser, hconversation, hid]
  · rw [if_neg hid, if_neg]
    intro hmem
    obtain ⟨r, hr, rfl⟩ := mem_map.mp hmem
    exact hid (hselected r hr).1

theorem getConversationCursor_saveConversationCursor (cursor : SyncCursorVo)
    (userId conversationId : String) :
    (q.saveConversationCursor cursor).getConversationCursor userId conversationId =
      if (userId, conversationId) = (cursor.userId, cursor.conversationId) then some (q.upsertedRow cursor).cursor
      else q.getConversationCursor userId conversationId := by
  rw [getConversationCursor, saveConversationCursor, find?_insert, upsertedRow_key]
  split <;> rfl

end

/-- A write never lowers a cursor. -/
theorem exists_getConversationCursor_ge {q : SqliteSyncCursorRepo}
    (h : q.getConversationCursor userId conversationId = some v) (cursor : SyncCursorVo) :
    ∃ v', (q.saveConversationCursor cursor).getConversationCursor userId conversationId = some v' ∧
      v.lastSeq ≤ v'.lastSeq ∧ v.syncedAt ≤ v'.syncedAt := by
  rw [getConversationCursor_saveConversationCursor]
  by_cases hsame : (userId, conversationId) = (cursor.userId, cursor.conversationId)
  · rw [if_pos hsame]
    obtain ⟨r, hr, rfl⟩ := map_eq_some_iff.mp h
    rw [hsame] at hr
    refine ⟨_, rfl, ?_⟩
    simp only [upsertedRow, hr, CursorRow.cursor]
    omega
  · rw [if_neg hsame]
    exact ⟨v, h, le_rfl, le_rfl⟩

end SqliteSyncCursorRepo

/-! ### Both -/

inductive CursorCall
  | getConversationCursor (userId conversationId : String)
  | getConversationCursors (userId : String) (conversationIds : List String)
  | saveRaw (key cursor : String)
  | saveConversationCursor (cursor : SyncCursorVo)
  | saveConversationCursors (cursors : List SyncCursorVo)

structure CursorStores where
  memory : MemorySyncCursorStore := {}
  sqlite : SqliteSyncCursorRepo := {}

namespace CursorStores

variable (s : CursorStores)

def saveOne (cursor : SyncCursorVo) : CursorStores :=
  ⟨s.memory.saveConversationCursor cursor, s.sqlite.saveConversationCursor cursor⟩

/-- A batch is written cursor by cursor, in SQLite within one transaction. -/
def step : CursorCall → CursorStores
  | .getConversationCursor _ _ => s
  | .getConversationCursors _ _ => s
  | .saveRaw key cursor => ⟨s.memory.saveRaw key cursor, s.sqlite.saveRaw key cursor⟩
  | .saveConversationCursor cursor => s.saveOne cursor
  | .saveConversationCursors cursors => run saveOne s cursors

/-- The conversations that a call writes. -/
def written : CursorCall → List (String × String)
  | .saveConversationCursor cursor => [(cursor.userId, cursor.conversationId)]
  | .saveConversationCursors cursors => cursors.map fun cursor => (cursor.userId, cursor.conversationId)
  | _ => []

open MemorySyncCursorStore (cursorKey cursorText)

/-- No other conversation with a cursor and no raw entry has the key of this one. -/
def OwnsKey (userId conversationId : String) : Prop :=
  (∀ r ∈ s.sqlite.rows.items, cursorKey r.userId r.conversationId = cursorKey userId conversationId →
    r.key = (userId, conversationId)) ∧ cursorKey userId conversationId ∉ s.sqlite.raw
  deriving Decidable

/-- The cursor stands under a key of its own, fits into the columns and is not behind the stored one. -/
def InOrder (cursor : SyncCursorVo) : Prop :=
  s.OwnsKey cursor.userId cursor.conversationId ∧
    cursor.lastSeq ≤ maxI64 ∧ cursor.syncedAt ≤ maxI64 ∧
    (s.sqlite.getConversationCursor cursor.userId cursor.conversationId).all fun v =>
      v.lastSeq ≤ cursor.lastSeq && v.syncedAt ≤ cursor.syncedAt
  deriving Decidable

def Orderly : CursorCall → Prop
  | .getConversationCursor userId conversationId => s.OwnsKey userId conversationId
  | .getConversationCursors userId conversationIds => ∀ conversationId ∈ conversationIds,
      s.OwnsKey userId conversationId
  | .saveRaw key _ => ∀ r ∈ s.sqlite.rows.items, cursorKey r.userId r.conversationId ≠ key
  | .saveConversationCursor cursor => s.InOrder cursor
  | .saveConversationCursors cursors => AllSteps saveOne InOrder s cursors

instance (s : CursorStores) : (call : CursorCall) → Decidable (s.Orderly call)
  | .getConversationCursor _ _ => inferInstanceAs (Decidable (OwnsKey _ _ _))
  | .getConversationCursors _ _ => List.decidableBAll _ _
  | .saveRaw _ _ => List.decidableBAll _ _
  | .saveConversationCursor _ => inferInstanceAs (Decidable (InOrder _ _))
  | .saveConversationCursors _ => AllSteps.decidable _ _

/-- Every row has its text in memory under a key that is its own, and memory has nothing else but raw
entries. -/
structure Agrees (s : CursorStores) : Prop where
  fits : ∀ r ∈ s.sqlite.rows.items, 0 ≤ r.lastSeq ∧ r.lastSeq ≤ maxI64 ∧
    0 ≤ r.syncedAt ∧ r.syncedAt ≤ maxI64
  text : ∀ r ∈ s.sqlite.rows.items, s.memory.data[cursorKey r.userId r.conversationId]? =
    some (cursorText r.lastSeq.toNat r.syncedAt.toNat)
  owned : ∀ r ∈ s.sqlite.rows.items, s.OwnsKey r.userId r.conversationId
  known : ∀ key ∈ s.memory.data, key ∈ s.sqlite.raw ∨
    ∃ r ∈ s.sqlite.rows.items, cursorKey r.userId r.conversationId = key

theorem agrees_start : Agrees {} where
  fits _ hr := absurd hr not_mem_nil
  text _ hr := absurd hr not_mem_nil
  owned _ hr := absurd hr not_mem_nil
  known _ hkey := absurd hkey Std.ExtTreeMap.not_mem_empty

section Step

variable {s : CursorStores}

/-- What both stores answer for a conversation with a key of its own. -/
theorem getConversationCursor_eq (h : s.Agrees) (hown : s.OwnsKey userId conversationId) :
    s.memory.getConversationCursor userId conversationId =
      s.sqlite.getConversationCursor userId conversationId := by
  cases hrow : s.sqlite.rows.find? (userId, conversationId) with
  | some r =>
    have hmem := mem_of_find? hrow
    have hkey : r.key = (userId, conversationId) := key_of_find? hrow
    obtain ⟨rfl, rfl⟩ := Prod.mk.inj hkey
    obtain ⟨-, hseqMax, -, hsyncedMax⟩ := h.fits r hmem
    have hseq : r.lastSeq.toNat ≤ maxU64 := by
      unfold maxI64 at hseqMax
      unfold maxU64
      omega
    have hsynced : r.syncedAt.toNat ≤ maxU64 := by
      unfold maxI64 at hsyncedMax
      unfold maxU64
      omega
    have hparse := MemorySyncCursorStore.parseCursorText_cursorText hseq hsynced
    simp only [MemorySyncCursorStore.getConversationCursor, h.text r hmem, bind_eq_bind, bind_some, hparse,
      getConversationCursor, hrow, map_some, CursorRow.cursor]
  | none =>
    have hno : s.memory.data[cursorKey userId conversationId]? = none := by
      refine Std.ExtTreeMap.getElem?_eq_none fun hkey => ?_
      rcases h.known _ hkey with hraw | ⟨r, hr, heq⟩
      · exact hown.2 hraw
      · have hfound := s.sqlite.rows.find?_of_mem hr
        rw [hown.1 r hr heq, hrow] at hfound
        exact absurd hfound (by simp)
    simp only [MemorySyncCursorStore.getConversationCursor, hno, bind_eq_bind, bind_none,
      getConversationCursor, hrow, map_none]

/-- In order, the row of a cursor has its numbers whether it was there before or not. -/
theorem rows_saveOne (hcursor : s.InOrder cursor) : (s.saveOne cursor).sqlite.rows =
      s.sqlite.rows.insert ⟨cursor.userId, cursor.conversationId, cursor.lastSeq, cursor.syncedAt⟩ := by
  obtain ⟨-, hseq, hsynced, hstored⟩ := hcursor
  have hcolumns : asI64 cursor.lastSeq = cursor.lastSeq ∧ asI64 cursor.syncedAt = cursor.syncedAt := by
    simp [asI64, hseq, hsynced]
  simp only [saveOne, saveConversationCursor, upsertedRow, hcolumns]
  cases hrow : s.sqlite.rows.find? (cursor.userId, cursor.conversationId) with
  | none => rfl
  | some r =>
    have hkey : r.key = (cursor.userId, cursor.conversationId) := key_of_find? hrow
    obtain ⟨huser, hconversation⟩ := Prod.mk.inj hkey
    simp only [getConversationCursor, hrow, map_some, CursorRow.cursor,
      all_some, Bool.and_eq_true, decide_eq_true_eq] at hstored
    have hlastSeq : max r.lastSeq cursor.lastSeq = cursor.lastSeq := by omega
    have hsyncedAt : max r.syncedAt cursor.syncedAt = cursor.syncedAt := by omega
    dsimp only
    rw [hlastSeq, hsyncedAt, huser, hconversation]

theorem agrees_saveOne (h : s.Agrees) (hcursor : s.InOrder cursor) :
    (s.saveOne cursor).Agrees := by
  have hrows := rows_saveOne hcursor
  obtain ⟨hown, hseq, hsynced, -⟩ := hcursor
  have hmem : ∀ r ∈ (s.saveOne cursor).sqlite.rows.items,
      r = ⟨cursor.userId, cursor.conversationId, cursor.lastSeq, cursor.syncedAt⟩ ∨
        (r ∈ s.sqlite.rows.items ∧ cursorKey r.userId r.conversationId ≠
          cursorKey cursor.userId cursor.conversationId) := by
    intro r hr
    rw [hrows] at hr
    refine ((mem_insert _ _ _).mp hr).imp_right fun hold => ⟨hold.1, fun hsame => hold.2 ?_⟩
    exact hown.1 r hold.1 hsame
  refine ⟨fun r hr => ?_, fun r hr => ?_, fun r hr => ⟨fun r' hr' hsame => ?_, ?_⟩, fun key hkey => ?_⟩
  · rcases hmem r hr with rfl | ⟨hold, -⟩
    · dsimp only
      omega
    · exact h.fits r hold
  · rcases hmem r hr with rfl | ⟨hold, hne⟩
    · exact Std.ExtTreeMap.getElem?_insert_self
    · exact (getElem?_insert_of_ne (Ne.symm hne) _).trans (h.text r hold)
  · rcases hmem r' hr' with rfl | ⟨hold', hne'⟩
    · rcases hmem r hr with rfl | ⟨-, hne⟩
      · rfl
      · exact absurd hsame.symm hne
    · rcases hmem r hr with rfl | ⟨hold, -⟩
      · exact absurd hsame hne'
      · exact (h.owned r hold).1 r' hold' hsame
  · rcases hmem r hr with rfl | ⟨hold, -⟩
    · exact hown.2
    · exact (h.owned r hold).2
  · have hnew : (⟨cursor.userId, cursor.conversationId, cursor.lastSeq, cursor.syncedAt⟩ : CursorRow) ∈
        (s.saveOne cursor).sqlite.rows.items := by
      rw [hrows]
      exact (mem_insert _ _ _).mpr (.inl rfl)
    by_cases hsame : cursorKey cursor.userId cursor.conversationId = key
    · exact .inr ⟨_, hnew, hsame⟩
    · have hkey' : key ∈ s.memory.data := by
        rcases Std.ExtTreeMap.mem_insert.mp hkey with heq | hold
        · exact absurd (Std.LawfulEqOrd.eq_of_compare heq) hsame
        · exact hold
      refine (h.known key hkey').imp_right ?_
      rintro ⟨r, hr, rfl⟩
      refine ⟨r, ?_, rfl⟩
      rw [hrows]
      refine (mem_insert _ _ _).mpr (.inr ⟨hr, fun heq => hsame ?_⟩)
      have hids : (r.userId, r.conversationId) = (cursor.userId, cursor.conversationId) := heq
      rw [(Prod.mk.inj hids).1, (Prod.mk.inj hids).2]

theorem agrees_saveRaw (h : s.Agrees) {key cursor : String}
    (hkey : ∀ r ∈ s.sqlite.rows.items, cursorKey r.userId r.conversationId ≠ key) :
    (step s (.saveRaw key cursor)).Agrees := by
  refine ⟨h.fits, fun r hr => ?_, fun r hr => ⟨(h.owned r hr).1, fun hraw => ?_⟩, fun k hk => ?_⟩
  · exact (getElem?_insert_of_ne (hkey r hr).symm _).trans (h.text r hr)
  · rcases Std.ExtTreeMap.mem_insert.mp hraw with heq | hold
    · exact hkey r hr (Std.LawfulEqOrd.eq_of_compare heq).symm
    · exact (h.owned r hr).2 hold
  · rcases Std.ExtTreeMap.mem_insert.mp hk with heq | hold
    · exact .inl (Std.ExtTreeMap.mem_insert.mpr (.inl heq))
    · exact (h.known k hold).imp_left fun hraw => Std.ExtTreeMap.mem_insert.mpr (.inr hraw)

theorem agrees_step (s : CursorStores) (call : CursorCall) (h : s.Agrees) (hc : s.Orderly call) :
    (step s call).Agrees := by
  cases call with
  | saveRaw key cursor => exact agrees_saveRaw h hc
  | saveConversationCursor cursor => exact agrees_saveOne h hc
  | saveConversationCursors cursors =>
    exact run_invariant (I := Agrees) (fun _ _ hs hcursor => agrees_saveOne hs hcursor) cursors s h hc
  | _ => exact h

end Step

/-! ### Whole runs -/

def AnswersAlike (s : CursorStores) : CursorCall → Prop
  | .getConversationCursor userId conversationId =>
    s.memory.getConversationCursor userId conversationId = s.sqlite.getConversationCursor userId conversationId
  | .getConversationCursors userId conversationIds =>
    s.memory.getConversationCursors userId conversationIds = s.sqlite.getConversationCursors userId conversationIds
  | _ => True

/-- The two stores are one at a call: a read is answered alike, a stored cursor is the same in both afterwards
and not below what it was, and a conversation that the call does not write keeps its cursor. -/
structure Same (s : CursorStores) (call : CursorCall) : Prop where
  answers : s.AnswersAlike call
  kept : ∀ userId conversationId v, s.sqlite.getConversationCursor userId conversationId = some v →
    s.memory.getConversationCursor userId conversationId = some v ∧
    ∃ v', (step s call).memory.getConversationCursor userId conversationId = some v' ∧
      (step s call).sqlite.getConversationCursor userId conversationId = some v' ∧
      v.lastSeq ≤ v'.lastSeq ∧ v.syncedAt ≤ v'.syncedAt
  apart : ∀ userId conversationId, (userId, conversationId) ∉ written call →
    (step s call).sqlite.getConversationCursor userId conversationId =
      s.sqlite.getConversationCursor userId conversationId

section Same

variable {s : CursorStores} {call : CursorCall}

theorem answersAlike (h : s.Agrees) (hc : s.Orderly call) : s.AnswersAlike call := by
  cases call with
  | getConversationCursor userId conversationId => exact getConversationCursor_eq h hc
  | getConversationCursors userId conversationIds =>
    refine Std.ExtTreeMap.ext_getElem? fun conversationId => ?_
    rw [MemorySyncCursorStore.getElem?_getConversationCursors, getElem?_getConversationCursors]
    split
    · next hid => exact getConversationCursor_eq h (hc _ hid)
    · rfl
  | _ => trivial

/-- A stored cursor has the same numbers in memory. -/
theorem memory_of_sqlite (h : s.Agrees)
    (hv : s.sqlite.getConversationCursor userId conversationId = some v) :
    s.memory.getConversationCursor userId conversationId = some v := by
  obtain ⟨r, hr, -⟩ := map_eq_some_iff.mp hv
  have hkey : r.key = (userId, conversationId) := key_of_find? hr
  obtain ⟨rfl, rfl⟩ := Prod.mk.inj hkey
  rw [getConversationCursor_eq h (h.owned r (mem_of_find? hr)), hv]

theorem sqlite_ge_step (call : CursorCall) (hv : s.sqlite.getConversationCursor userId conversationId = some v) :
    ∃ v', (step s call).sqlite.getConversationCursor userId conversationId = some v' ∧
      v.lastSeq ≤ v'.lastSeq ∧ v.syncedAt ≤ v'.syncedAt := by
  cases call with
  | saveConversationCursor cursor => exact exists_getConversationCursor_ge hv cursor
  | saveConversationCursors cursors =>
    -- the cursor only goes up from one cursor of the batch to the next
    refine run_invariant (c := fun _ _ => True)
      (I := fun s' => ∃ v', s'.sqlite.getConversationCursor userId conversationId = some v' ∧
        v.lastSeq ≤ v'.lastSeq ∧ v.syncedAt ≤ v'.syncedAt) ?_ cursors s ⟨v, hv, le_rfl, le_rfl⟩
      (AllSteps.intro fun _ _ => trivial)
    rintro s' cursor ⟨v', hv', hseq, hsynced⟩ -
    obtain ⟨v'', hv'', hseq', hsynced'⟩ := exists_getConversationCursor_ge hv' cursor
    exact ⟨v'', hv'', hseq.trans hseq', hsynced.trans hsynced'⟩
  | _ => exact ⟨v, hv, le_rfl, le_rfl⟩

theorem sqlite_step_of_not_mem (h : (userId, conversationId) ∉ written call) :
    (step s call).sqlite.getConversationCursor userId conversationId =
      s.sqlite.getConversationCursor userId conversationId := by
  have hone : ∀ (s' : CursorStores) (cursor : SyncCursorVo),
      (userId, conversationId) ≠ (cursor.userId, cursor.conversationId) →
      (s'.saveOne cursor).sqlite.getConversationCursor userId conversationId =
        s'.sqlite.getConversationCursor userId conversationId := by
    intro s' cursor hne
    exact (getConversationCursor_saveConversationCursor _ _ _ _).trans (if_neg hne)
  cases call with
  | saveConversationCursor cursor => exact hone s cursor (by simpa [written] using h)
  | saveConversationCursors cursors =>
    refine run_invariant (I := fun s' => s'.sqlite.getConversationCursor userId conversationId =
      s.sqlite.getConversationCursor userId conversationId)
        (fun s' cursor hs' hne => (hone s' cursor hne).trans hs')
      cursors s rfl (AllSteps.of_mem fun cursor hcursor hsame => h ?_)
    exact mem_map.mpr ⟨cursor, hcursor, hsame.symm⟩
  | _ => rfl

theorem same_of_orderly (h : s.Agrees) (hc : s.Orderly call) : s.Same call where
  answers := answersAlike h hc
  kept _ _ v hv := by
    obtain ⟨v', hv', hge⟩ := sqlite_ge_step call hv
    exact ⟨memory_of_sqlite h hv, v', memory_of_sqlite (agrees_step s call h hc) hv', hv', hge⟩
  apart _ _ hne := sqlite_step_of_not_mem hne

end Same

/-- The stores are one over every run in which no write goes back, every number fits into its column, and no
key of a conversation is that of another conversation or of a raw entry. -/
theorem allSteps_same_of_orderly (calls : List CursorCall) (h : AllSteps step Orderly {} calls) :
    AllSteps step Same {} calls :=
  AllSteps.of_invariant agrees_step (fun _ _ => same_of_orderly) calls {} agrees_start h

/-- Two conversations whose cursors go up, a raw entry beside them, and reads of all of them. -/
def sampleCalls : List CursorCall :=
  [.saveConversationCursor ⟨"u", "c1", 4, 1⟩, .saveRaw "bundle" "x",
    .saveConversationCursors [⟨"u", "c2", 7, 2⟩, ⟨"u", "c1", 5, 2⟩],
    .getConversationCursor "u" "c1", .getConversationCursors "u" ["c2", "c3"]]

theorem allSteps_same_sampleCalls : AllSteps step Orderly {} sampleCalls ∧ AllSteps step Same {} sampleCalls :=
  ⟨by decide, allSteps_same_of_orderly sampleCalls (by decide)⟩

/-- The two answers for a conversation after some calls. -/
def answersAfter (calls : List CursorCall) (userId conversationId : String) :
    Option SyncCursorVo × Option SyncCursorVo :=
  ((run step {} calls).memory.getConversationCursor userId conversationId,
    (run step {} calls).sqlite.getConversationCursor userId conversationId)

/-- A late smaller write lowers the cursor in memory only; two conversations with one joined key, or a raw entry
under such a key, are one in memory only; a seq beyond the signed column is kept in memory only. -/
theorem answersAfter_differ :
    answersAfter [.saveConversationCursor ⟨"u", "c", 9, 2⟩, .saveConversationCursor ⟨"u", "c", 5, 3⟩] "u" "c" =
      (some ⟨"u", "c", 5, 3⟩, some ⟨"u", "c", 9, 3⟩) ∧
    answersAfter [.saveConversationCursor ⟨"a:b", "c", 9, 2⟩] "a" "b:c" = (some ⟨"a", "b:c", 9, 2⟩, none) ∧
    answersAfter [.saveRaw "u:c" "7:1"] "u" "c" = (some ⟨"u", "c", 7, 1⟩, none) ∧
    answersAfter [.saveConversationCursor ⟨"u", "c", 9223372036854775808, 2⟩] "u" "c" =
      (some ⟨"u", "c", 9223372036854775808, 2⟩, some ⟨"u", "c", 0, 2⟩) := by
  decide

end CursorStores

end FlareIm.Sync
