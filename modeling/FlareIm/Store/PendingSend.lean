import Mathlib.Data.List.Sort
import FlareIm.Lib.KeyedMap
import FlareIm.Message.Model

/-! The pending-send store. Entries are kept by `client_msg_id` together with the
number of the write that put them there, and are handed out by enqueue time, entries of
one time in write order. The facts at the end are what the dispatch loop needs of
`list_oldest_excluding`: it picks distinct, stored, not excluded entries in order, and
leaves behind only entries that come later. -/

namespace FlareIm.Store

open Lib Message List KeyedMap

/-- A stored entry with the number of the write that stored it. -/
abbrev NumberedEntry := ℕ × PendingSendVo

def NumberedEntry.clientMsgId (p : NumberedEntry) : String := p.2.clientMsgId

structure PendingEntries where
  /-- `client_msg_id -> (write number, entry)` -/
  byId : KeyedMap String NumberedEntry NumberedEntry.clientMsgId
  nextSeq : ℕ
  seq_lt : ∀ p ∈ byId.items, p.1 < nextSeq
  seq_nodup : (byId.items.map Prod.fst).Nodup

/-- Strictly earlier in the order `(enqueued_at_ms, write number)`. -/
def NumberedEntry.before (a b : NumberedEntry) : Prop :=
  a.2.enqueuedAtMs < b.2.enqueuedAtMs ∨ (a.2.enqueuedAtMs = b.2.enqueuedAtMs ∧ a.1 < b.1)
  deriving Decidable

instance : Std.Irrefl NumberedEntry.before where
  irrefl a := by
    unfold NumberedEntry.before
    omega

instance : Std.Antisymm NumberedEntry.before where
  antisymm a b hab hba := by
    unfold NumberedEntry.before at hab hba
    omega

/-- Not later in the same order. -/
def NumberedEntry.oldestFirst (a b : NumberedEntry) : Prop := ¬ b.before a

instance : DecidableRel NumberedEntry.oldestFirst := fun a b =>
  inferInstanceAs (Decidable (¬ b.before a))

instance : Std.Total NumberedEntry.oldestFirst where
  total a b := by
    unfold NumberedEntry.oldestFirst NumberedEntry.before
    omega

instance : IsTrans NumberedEntry NumberedEntry.oldestFirst where
  trans a b c := by
    unfold NumberedEntry.oldestFirst NumberedEntry.before
    omega

namespace PendingEntries

def empty : PendingEntries := ⟨KeyedMap.empty, 0, by simp [KeyedMap.empty], nodup_nil⟩

section

variable (p : PendingEntries)

def ordered : List NumberedEntry :=
  p.byId.items.insertionSort NumberedEntry.oldestFirst

def get (clientMsgId : String) : Option PendingSendVo :=
  (p.byId.find? clientMsgId).map Prod.snd

def list : List PendingSendVo := p.ordered.map Prod.snd

/-- The entries in order that are not excluded, with their write numbers. -/
def candidates (excluded : List String) : List NumberedEntry :=
  p.ordered.filter (fun e => e.clientMsgId ∉ excluded)

def listOldestExcluding (excluded : List String) (limit : ℕ) : List PendingSendVo :=
  ((p.candidates excluded).take limit).map Prod.snd

/-- Keep the entries that satisfy `q`, under their numbers. -/
def retain (q : NumberedEntry → Bool) : PendingEntries where
  byId := p.byId.filter q
  nextSeq := p.nextSeq
  seq_lt e he := p.seq_lt e (mem_of_mem_filter he)
  seq_nodup := (filter_sublist.map Prod.fst).nodup p.seq_nodup

def pop (clientMsgId : String) : PendingEntries :=
  p.retain (fun e => e.clientMsgId ≠ clientMsgId)

/-- An entry of the same id is replaced; the new one gets a number of its own. -/
def push (entry : PendingSendVo) : PendingEntries where
  byId := p.byId.insert (p.nextSeq, entry)
  nextSeq := p.nextSeq + 1
  seq_lt e he := by
    rcases (p.byId.mem_insert _ e).mp he with rfl | ⟨he, -⟩
    · exact Nat.lt_succ_self _
    · exact (p.seq_lt e he).trans (Nat.lt_succ_self _)
  seq_nodup := by
    have hrest := (p.pop entry.clientMsgId).seq_nodup
    refine nodup_cons.mpr ⟨fun hmem => ?_, hrest⟩
    obtain ⟨e, he, hseq⟩ := mem_map.mp hmem
    exact absurd hseq (p.seq_lt e (mem_of_mem_filter he)).ne

/-- `DELETE FROM pending_sends WHERE client_msg_id IN (...)`. -/
def deleteAll (clientMsgIds : List String) : PendingEntries :=
  p.retain (fun e => e.clientMsgId ∉ clientMsgIds)

end

variable (p : PendingEntries)

theorem find?_push (entry : PendingSendVo) (k : String) : (p.push entry).byId.find? k =
      if k = entry.clientMsgId then some (p.nextSeq, entry) else p.byId.find? k :=
  p.byId.find?_insert _ _

theorem find?_pop (id k : String) : (p.pop id).byId.find? k = if k = id then none else p.byId.find? k :=
  p.byId.find?_erase _ _

theorem find?_pop_eq (id : String) : (p.pop id).byId.find? = Function.update p.byId.find? id none :=
  p.byId.find?_erase_eq _

theorem find?_deleteAll (ids : List String) (k : String) :
    (p.deleteAll ids).byId.find? k = if k ∈ ids then none else p.byId.find? k := by
  rw [deleteAll, retain, KeyedMap.find?_filter]
  cases h : p.byId.find? k with
  | none => simp
  | some e =>
    have hk := key_of_find? h
    by_cases hm : k ∈ ids <;> simp [Option.filter, hk, hm]

theorem mem_ordered (e : NumberedEntry) : e ∈ p.ordered ↔ e ∈ p.byId.items :=
  mem_insertionSort _

theorem mem_list (e : PendingSendVo) : e ∈ p.list ↔ ∃ n, p.byId.find? e.clientMsgId = some (n, e) := by
  simp only [list, mem_map, mem_ordered, Prod.exists, exists_eq_right, find?_eq_some_iff]
  constructor
  · rintro ⟨n, hn⟩
    exact ⟨n, hn, rfl⟩
  · rintro ⟨n, hn, -⟩
    exact ⟨n, hn⟩

theorem nodup_ordered_ids : (p.ordered.map NumberedEntry.clientMsgId).Nodup :=
  ((perm_insertionSort _ _).map _).nodup_iff.mpr p.byId.nodup

theorem nodup_list_ids : (p.list.map PendingSendVo.clientMsgId).Nodup := by
  rw [list, map_map]
  exact p.nodup_ordered_ids

theorem mem_list_ids (k : String) : k ∈ p.list.map PendingSendVo.clientMsgId ↔ p.byId.find? k ≠ none := by
  rw [← mem_keys_iff_find?, KeyedMap.mem_keys, mem_map]
  constructor
  · rintro ⟨e, he, rfl⟩
    obtain ⟨n, hn⟩ := (p.mem_list e).mp he
    exact ⟨(n, e), mem_of_find? hn, rfl⟩
  · rintro ⟨⟨n, e⟩, he, rfl⟩
    exact ⟨e, (p.mem_list e).mpr ⟨n, p.byId.find?_of_mem he⟩, rfl⟩

variable (excluded : List String)

/-- No two entries have one number, so the order of the candidates is strict. -/
theorem pairwise_before_candidates : (p.candidates excluded).Pairwise NumberedEntry.before := by
  have hnum : (p.ordered.map Prod.fst).Nodup :=
    ((perm_insertionSort _ _).map _).nodup_iff.mpr p.seq_nodup
  have hsorted : p.ordered.Pairwise NumberedEntry.oldestFirst := pairwise_insertionSort _ _
  refine List.Pairwise.filter _ ((hsorted.and (pairwise_map.mp hnum)).imp fun h => ?_)
  unfold NumberedEntry.oldestFirst NumberedEntry.before at *
  omega

theorem pairwise_candidates : (p.candidates excluded).Pairwise NumberedEntry.oldestFirst :=
  (pairwise_insertionSort _ _).filter _

theorem mem_candidates (e : NumberedEntry) :
    e ∈ p.candidates excluded ↔ p.byId.find? e.clientMsgId = some e ∧ e.clientMsgId ∉ excluded := by
  simp [candidates, mem_ordered, find?_eq_some_iff]

theorem nodup_candidates_ids : ((p.candidates excluded).map NumberedEntry.clientMsgId).Nodup :=
  (filter_sublist.map _).nodup p.nodup_ordered_ids

end PendingEntries

end FlareIm.Store
