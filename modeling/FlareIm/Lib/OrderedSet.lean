import Mathlib.Order.Lattice
import Mathlib.Data.List.Basic

/-! A finite set kept as its members in ascending order, so that the least member is the first
one and what lies between two bounds is a filter. -/

namespace FlareIm.Lib

open List

structure OrderedSet (α : Type) [LinearOrder α] where
  toList : List α
  ascending : toList.Pairwise (· < ·)

namespace OrderedSet

variable {α : Type} [LinearOrder α]

def empty : OrderedSet α := ⟨[], List.Pairwise.nil⟩

instance : Membership α (OrderedSet α) := ⟨fun s a => a ∈ s.toList⟩

instance (a : α) (s : OrderedSet α) : Decidable (a ∈ s) := inferInstanceAs (Decidable (a ∈ s.toList))

def insertInto (a : α) : List α → List α
  | [] => [a]
  | x :: xs => if a < x then a :: x :: xs else if a = x then x :: xs else x :: insertInto a xs

theorem mem_insertInto {a b : α} {xs : List α} : b ∈ insertInto a xs ↔ b = a ∨ b ∈ xs := by
  induction xs with
  | nil => simp [insertInto]
  | cons x xs ih =>
    unfold insertInto
    split
    · simp
    · split
      · next heq => simp [heq]
      · simp only [mem_cons, ih]
        exact or_left_comm

theorem pairwise_insertInto (a : α) {xs : List α} (h : xs.Pairwise (· < ·)) :
    (insertInto a xs).Pairwise (· < ·) := by
  induction xs with
  | nil => exact pairwise_singleton _ _
  | cons x xs ih =>
    obtain ⟨hx, hxs⟩ := pairwise_cons.mp h
    unfold insertInto
    split
    · next hlt =>
      refine pairwise_cons.mpr ⟨forall_mem_cons.mpr ⟨hlt, fun y hy => ?_⟩, h⟩
      exact lt_trans hlt (hx y hy)
    · next hnlt =>
      split
      · exact h
      · next hne =>
        refine pairwise_cons.mpr ⟨fun y hy => ?_, ih hxs⟩
        rcases mem_insertInto.mp hy with rfl | hy
        · exact lt_of_le_of_ne (not_lt.mp hnlt) (Ne.symm hne)
        · exact hx y hy

variable (s : OrderedSet α)

def insert (a : α) : OrderedSet α :=
  ⟨insertInto a s.toList, pairwise_insertInto a s.ascending⟩

def erase (a : α) : OrderedSet α :=
  ⟨s.toList.filter (· ≠ a), s.ascending.filter _⟩

/-- The `n` largest members: the least one is taken out while there are more than `n`. -/
def keepLargest (n : ℕ) : OrderedSet α :=
  ⟨s.toList.drop (s.toList.length - n), s.ascending.sublist (drop_sublist _ _)⟩

/-- The members above `low` and up to `high`, in ascending order. -/
def between (low high : α) : List α := s.toList.filter fun a => low < a ∧ a ≤ high

end OrderedSet

end FlareIm.Lib
