import Mathlib.Data.Finset.Card
import FlareIm.Events.Model
import FlareIm.Lib.Run

/-! The deduper of events as it is kept: a queue of keys and a set of the same keys, which is the one that is
asked. Together they are the window of `EventDeduper`. -/

namespace FlareIm.Events

open Lib

structure EventDedupeState where
  order : List EventDedupeKey := []
  seen : Finset EventDedupeKey := ∅

open EventDedupeState

namespace EventDedupeState

def evict (capacity : ℕ) : List EventDedupeKey → Finset EventDedupeKey → EventDedupeState
  | [], seen => ⟨[], seen⟩
  | key :: order, seen =>
    if (key :: order).length > capacity then evict capacity order (seen.erase key) else ⟨key :: order, seen⟩

def recordIfNew (capacity : ℕ) (s : EventDedupeState) (ev : Event) : Bool × EventDedupeState :=
  match dedupeKeyForEvent ev with
  | none => (true, s)
  | some key =>
    if key ∈ s.seen then (false, s) else (true, evict capacity (s.order ++ [key]) (insert key s.seen))

def forgetKeys (s : EventDedupeState) (keys : List EventDedupeKey) : EventDedupeState :=
  if keys.isEmpty then s else ⟨s.order.filter (· ∉ keys), keys.foldl Finset.erase s.seen⟩

end EventDedupeState

def EventDeduper.forgetKeys (d : EventDeduper) (keys : List EventDedupeKey) : EventDeduper :=
  { d with order := d.order.filter (· ∉ keys), nodup := d.nodup.filter _ }

inductive DedupeCall
  | recordIfNew (ev : Event)
  | forgetKeys (keys : List EventDedupeKey)

/-- One call; the decisions are collected, the last one first. -/
def EventDedupeState.call (capacity : ℕ) (s : EventDedupeState × List Bool) :
    DedupeCall → EventDedupeState × List Bool
  | .recordIfNew ev => ((s.1.recordIfNew capacity ev).2, (s.1.recordIfNew capacity ev).1 :: s.2)
  | .forgetKeys keys => (s.1.forgetKeys keys, s.2)

def EventDeduper.call (d : EventDeduper × List Bool) : DedupeCall → EventDeduper × List Bool
  | .recordIfNew ev => ((d.1.recordIfNew ev).2, (d.1.recordIfNew ev).1 :: d.2)
  | .forgetKeys keys => (d.1.forgetKeys keys, d.2)

/-- The set and the queue hold the keys of the window, and no more than `n`. -/
structure Mirrors (n : ℕ) (d : EventDeduper) (s : EventDedupeState) : Prop where
  capacity : d.capacity = n
  order : s.order = d.order
  seen : s.seen = s.order.toFinset
  length_le : s.order.length ≤ n

theorem evict_toFinset (capacity : ℕ) {order : List EventDedupeKey} (h : order.Nodup) :
    evict capacity order order.toFinset =
      ⟨order.drop (order.length - capacity), (order.drop (order.length - capacity)).toFinset⟩ := by
  induction order with
  | nil => simp [evict]
  | cons key order ih =>
    rw [List.nodup_cons] at h
    rw [evict]
    split
    · next hlong =>
      have hrest : (key :: order).toFinset.erase key = order.toFinset := by simp [h.1]
      rw [hrest, ih h.2, show (key :: order).length - capacity =
        order.length - capacity + 1 by simp at hlong ⊢; omega]
      rfl
    · rw [Nat.sub_eq_zero_of_le (by omega), List.drop_zero]

theorem mem_foldl_erase (keys : List EventDedupeKey) (seen : Finset EventDedupeKey) (key : EventDedupeKey) :
    key ∈ keys.foldl Finset.erase seen ↔ key ∈ seen ∧ key ∉ keys := by
  induction keys generalizing seen with
  | nil => simp
  | cons k keys ih => simp [ih]; tauto

section Mirrors

variable {n : ℕ} {d : EventDeduper} {s : EventDedupeState}

theorem Mirrors.recordIfNew (h : Mirrors n d s) (ev : Event) :
    (s.recordIfNew n ev).1 = (d.recordIfNew ev).1 ∧ Mirrors n (d.recordIfNew ev).2 (s.recordIfNew n ev).2 := by
  unfold EventDeduper.recordIfNew EventDedupeState.recordIfNew
  cases dedupeKeyForEvent ev with
  | none => exact ⟨rfl, h⟩
  | some key =>
    have hseen : key ∈ s.seen ↔ key ∈ d.order := by rw [h.seen, List.mem_toFinset, h.order]
    dsimp only
    split_ifs with hold hkey hkey
    · exact ⟨rfl, h⟩
    · exact absurd (hseen.mp hold) hkey
    · exact absurd (hseen.mpr hkey) hold
    · have hnodup : (d.order ++ [key]).Nodup := by
        simpa [List.nodup_append] using ⟨d.nodup, fun a ha heq => hkey (heq ▸ ha)⟩
      have hinsert : insert key s.seen = (d.order ++ [key]).toFinset := by
        ext
        simp [h.seen, h.order]
      rw [h.order, hinsert, evict_toFinset n hnodup, ← h.capacity]
      exact ⟨rfl, rfl, rfl, rfl, by simp; omega⟩

theorem Mirrors.forgetKeys (h : Mirrors n d s) (keys : List EventDedupeKey) :
    Mirrors n (d.forgetKeys keys) (s.forgetKeys keys) := by
  unfold EventDeduper.forgetKeys EventDedupeState.forgetKeys
  split
  · next hempty =>
    obtain rfl := List.isEmpty_iff.mp hempty
    exact ⟨h.capacity, by simp [h.order], h.seen, h.length_le⟩
  · refine ⟨h.capacity, by rw [h.order], ?_, (List.length_filter_le _ _).trans h.length_le⟩
    ext key
    simp [mem_foldl_erase, h.seen]

end Mirrors

def dedupeCapacity (capacity : Option ℕ) : ℕ := max (capacity.getD 4096) 1

/-- After every sequence of calls the set and the queue hold the same keys, no more than the capacity, and the
calls have decided as the window does. -/
theorem eventDeduper_run (capacity : Option ℕ) (calls : List DedupeCall) :
    let d := run EventDeduper.call ({ capacity := dedupeCapacity capacity }, []) calls
    let s := run (call (dedupeCapacity capacity)) ({}, []) calls
    Mirrors (dedupeCapacity capacity) d.1 s.1 ∧ s.2 = d.2 := by
  refine run_related (R := fun (d : EventDeduper × List Bool) (s : EventDedupeState × List Bool) =>
    Mirrors (dedupeCapacity capacity) d.1 s.1 ∧ s.2 = d.2)
    (c := fun _ _ => True) (fun d s c h _ => ?_) calls _ _ ⟨⟨rfl, rfl, rfl, Nat.zero_le _⟩, rfl⟩
      (AllSteps.intro fun _ _ => trivial)
  cases c with
  | recordIfNew ev =>
    have hrecord := h.1.recordIfNew ev
    exact ⟨hrecord.2, congrArg₂ List.cons hrecord.1 h.2⟩
  | forgetKeys keys => exact ⟨h.1.forgetKeys keys, h.2⟩

end FlareIm.Events
