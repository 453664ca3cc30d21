import Mathlib.Data.List.Basic
import Mathlib.Data.List.Count

/-! Serving a line in order under two budgets. Whoever takes something needs a unit of room
and a unit of stock; whoever takes nothing only needs that some room is left. Service ends
with the first one who finds no room, or who wants something and finds no stock. -/

namespace FlareIm.Lib

open List

variable {α : Type} (takes : α → Bool)

/-- The part of the line that is served. -/
def served : ℕ → ℕ → List α → List α
  | _, _, [] => []
  | 0, _, _ :: _ => []
  | room + 1, stock, a :: as =>
    if takes a then
      match stock with
      | 0 => []
      | stock + 1 => a :: served room stock as
    else a :: served (room + 1) stock as

variable {takes} {a : α} {as bs line : List α} {room stock : ℕ}

@[simp] theorem served_nil : served takes room stock [] = [] := by
  cases room <;> rfl

@[simp] theorem served_no_room : served takes 0 stock as = [] := by
  cases as <;> rfl

theorem served_cons_of_not_takes (h : takes a = false) :
    served takes (room + 1) stock (a :: as) = a :: served takes (room + 1) stock as := by
  simp [served, h]

theorem served_cons_of_takes (h : takes a = true) :
    served takes (room + 1) (stock + 1) (a :: as) = a :: served takes room stock as := by
  simp [served, h]

theorem served_cons_of_no_stock (h : takes a = true) : served takes (room + 1) 0 (a :: as) = [] := by
  simp [served, h]

theorem mem_of_mem_served (h : a ∈ served takes room stock line) : a ∈ line := by
  induction line generalizing room stock with
  | nil => simp at h
  | cons b as ih =>
    cases room with
    | zero => simp at h
    | succ room =>
      cases hb : takes b with
      | false =>
        rw [served_cons_of_not_takes hb] at h
        exact (mem_cons.mp h).elim (fun heq => heq ▸ mem_cons_self) fun h' => mem_cons_of_mem b (ih h')
      | true =>
        cases stock with
        | zero => simp [served_cons_of_no_stock hb] at h
        | succ stock =>
          rw [served_cons_of_takes hb] at h
          exact (mem_cons.mp h).elim (fun heq => heq ▸ mem_cons_self) fun h' => mem_cons_of_mem b (ih h')

/-- Someone who takes nothing is reached when those ahead leave room and find their stock. -/
theorem mem_served_iff (ha : takes a = false) (hahead : a ∉ as) : a ∈ served takes room stock (as ++ a :: bs) ↔
      as.countP takes < room ∧ as.countP takes ≤ stock := by
  induction as generalizing room stock with
  | nil =>
    cases room with
    | zero => simp
    | succ room => simp [served_cons_of_not_takes ha]
  | cons b as ih =>
    rw [mem_cons, not_or] at hahead
    obtain ⟨hne, hahead⟩ := hahead
    cases room with
    | zero => simp
    | succ room =>
      cases h : takes b with
      | false =>
        rw [cons_append, served_cons_of_not_takes h, countP_cons_of_neg (by simp [h]),
          ← ih hahead, mem_cons, or_iff_right hne]
      | true =>
        rw [cons_append, countP_cons_of_pos h]
        cases stock with
        | zero => simp [served_cons_of_no_stock h]
        | succ stock =>
          rw [served_cons_of_takes h, mem_cons, or_iff_right hne, ih hahead]
          omega

/-- In a sorted line, those ahead are the smaller ones. -/
theorem mem_served_iff_of_pairwise {lt : α → α → Prop} [DecidableRel lt] [Std.Irrefl lt]
    [Std.Antisymm lt] (hsorted : line.Pairwise lt) (ha : takes a = false) (hmem : a ∈ line) :
    a ∈ served takes room stock line ↔ line.countP (fun b => lt b a && takes b) < room ∧
        line.countP (fun b => lt b a && takes b) ≤ stock := by
  obtain ⟨as, bs, rfl⟩ := append_of_mem hmem
  rw [pairwise_append, pairwise_cons] at hsorted
  obtain ⟨-, ⟨hbehind, -⟩, hahead⟩ := hsorted
  have hlt : ∀ b ∈ as, lt b a := fun b hb => hahead b hb a mem_cons_self
  have hnot : ∀ b ∈ bs, ¬ lt b a := fun b hb hba =>
    irrefl_of lt a (antisymm_of lt hba (hbehind b hb) ▸ hba)
  have hfront : as.countP (fun b => lt b a && takes b) = as.countP takes :=
    countP_congr fun b hb => by simp [hlt b hb]
  have hback : bs.countP (fun b => lt b a && takes b) = 0 :=
    countP_eq_zero.mpr fun b hb => by simp [hnot b hb]
  rw [mem_served_iff ha fun hin => irrefl_of lt a (hlt a hin), countP_append,
    countP_cons_of_neg (by simp [ha]), hfront, hback, Nat.add_zero]

end FlareIm.Lib
