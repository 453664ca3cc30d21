import Mathlib.Data.List.Pairwise
import Mathlib.Data.List.Sort

/-! Sets of numbers kept as lists of closed spans. A list in which every span ends before the next one
begins, with a number between them, is determined by the numbers it covers; such lists are therefore
compared through what they cover, however they came about. -/

namespace FlareIm.Lib

open List

/-- A type of non-empty closed spans of numbers. -/
class Span (α : Type) where
  first : α → ℕ
  last : α → ℕ
  first_le_last : ∀ a, first a ≤ last a
  ext : ∀ {a b}, first a = first b → last a = last b → a = b

namespace Span

variable {α : Type} [Span α] {a b c : α} {l l' : List α} {n : ℕ}

def Contains (a : α) (n : ℕ) : Prop := first a ≤ n ∧ n ≤ last a
  deriving Decidable

/-- The two neither overlap nor touch. -/
def Before (a b : α) : Prop := last a + 1 < first b

def Covers (l : List α) (n : ℕ) : Prop := ∃ a ∈ l, Contains a n
  deriving Decidable

@[simp] theorem not_covers_nil (n : ℕ) : ¬ Covers ([] : List α) n := by
  rintro ⟨a, ha, -⟩
  exact not_mem_nil ha

theorem covers_cons : Covers (a :: l) n ↔ Contains a n ∨ Covers l n := exists_mem_cons_iff (Contains · n) a l

theorem contains_first (a : α) : Contains a (first a) := ⟨le_rfl, first_le_last a⟩

theorem Before.trans (h : Before a b) (h' : Before b c) : Before a c := by
  have hb := first_le_last b
  unfold Before at *
  omega

theorem Before.asymm (h : Before a b) : ¬ Before b a := by
  have ha := first_le_last a
  have hb := first_le_last b
  unfold Before at *
  omega

instance : Std.Irrefl (Before (α := α)) := ⟨fun _ h => h.asymm h⟩

instance : Std.Antisymm (Before (α := α)) := ⟨fun _ _ h h' => absurd h' h.asymm⟩

/-! ### Lists of spans apart -/

section

variable (h : l.Pairwise Before)

include h

theorem before_or_before (ha : a ∈ l) (hb : b ∈ l) : a = b ∨ Before a b ∨ Before b a := by
  have hsymm : Std.Symm (fun x y : α => Before x y ∨ Before y x) := ⟨fun _ _ hxy => hxy.symm⟩
  have hpairwise : l.Pairwise (fun x y => Before x y ∨ Before y x) := h.imp fun hxy => .inl hxy
  exact or_iff_not_imp_left.mpr (hpairwise.forall ha hb)

/-- No other span of the list comes as near. -/
theorem eq_of_contains_near (ha : a ∈ l) (hb : b ∈ l) (hn : Contains b n) (hfirst : first a ≤ n + 1)
    (hlast : n ≤ last a + 1) : a = b := by
  unfold Contains at hn
  rcases before_or_before h ha hb with heq | hab | hba
  · exact heq
  · unfold Before at hab
    omega
  · unfold Before at hba
    omega

/-- The spans of the list are the longest runs of numbers that it covers. -/
theorem mem_iff_of_pairwise : a ∈ l ↔
    (∀ n, Contains a n → Covers l n) ∧ (∀ n, n + 1 = first a → ¬ Covers l n) ∧ ¬ Covers l (last a + 1) := by
  have hne := first_le_last a
  constructor
  · intro ha
    refine ⟨fun n hn => ⟨a, ha, hn⟩, ?_, ?_⟩
    · rintro n hn ⟨b, hb, hbn⟩
      obtain rfl := eq_of_contains_near h ha hb hbn (by omega) (by omega)
      unfold Contains at hbn
      omega
    · rintro ⟨b, hb, hbn⟩
      obtain rfl := eq_of_contains_near h ha hb hbn (by omega) (by omega)
      unfold Contains at hbn
      omega
  · rintro ⟨hcovered, hbelow, habove⟩
    obtain ⟨b, hb, hfirst⟩ := hcovered _ (contains_first a)
    unfold Contains at hfirst
    have heq : first b = first a := by
      by_contra hlt
      exact hbelow (first a - 1) (by omega) ⟨b, hb, by unfold Contains; omega⟩
    have hle : last b ≤ last a := by
      by_contra hlt
      exact habove ⟨b, hb, by unfold Contains; omega⟩
    have hge : last a ≤ last b := by
      by_contra hlt
      -- The next number after `b` is covered by another span, which would touch `b`.
      obtain ⟨c, hc, hcn⟩ := hcovered (last b + 1) (by unfold Contains; omega)
      unfold Contains at hcn
      rcases before_or_before h hb hc with rfl | hbc | hcb
      · omega
      · unfold Before at hbc
        omega
      · unfold Before at hcb
        omega
    exact ext heq (le_antisymm hle hge) ▸ hb

theorem eq_of_covers_iff (h' : l'.Pairwise Before) (hcovers : ∀ n, Covers l n ↔ Covers l' n) : l = l' := by
  refine h.eq_of_mem_iff h' fun a => ?_
  rw [mem_iff_of_pairwise h, mem_iff_of_pairwise h']
  simp only [hcovers]

/-- A span that is apart from all others, put where it belongs. -/
theorem pairwise_insertApart (hapart : ∀ b ∈ l, Before b a ∨ Before a b) :
    (l.takeWhile (fun b => first b < first a) ++
      a :: l.dropWhile (fun b => first b < first a)).Pairwise Before := by
  have hne := first_le_last a
  induction l with
  | nil => exact pairwise_singleton _ _
  | cons b l ih =>
    obtain ⟨hb, hl⟩ := pairwise_cons.mp h
    have hbne := first_le_last b
    rcases hapart b mem_cons_self with hba | hab
    · have hlt : first b < first a := by
        unfold Before at hba
        omega
      rw [takeWhile_cons_of_pos (by simpa using hlt), dropWhile_cons_of_pos (by simpa using hlt),
        cons_append]
      refine pairwise_cons.mpr ⟨fun c hc => ?_, ih hl fun c hc => hapart c (mem_cons_of_mem b hc)⟩
      rcases mem_append.mp hc with hc | hc
      · exact hb c ((takeWhile_subset _) hc)
      · rcases mem_cons.mp hc with rfl | hc
        · exact hba
        · exact hb c ((dropWhile_sublist _).subset hc)
    · have hnlt : ¬ first b < first a := by
        unfold Before at hab
        omega
      rw [takeWhile_cons_of_neg (by simpa using hnlt), dropWhile_cons_of_neg (by simpa using hnlt),
        nil_append]
      exact pairwise_cons.mpr ⟨forall_mem_cons.mpr ⟨hab, fun c hc => hab.trans (hb c hc)⟩, h⟩

end

theorem mem_insertApart :
    b ∈ l.takeWhile (fun b => first b < first a) ++ a :: l.dropWhile (fun b => first b < first a) ↔
    b = a ∨ b ∈ l := by
  rw [mem_append, mem_cons, or_left_comm, ← mem_append, takeWhile_append_dropWhile]

/-- The only span that can contain a number is the first that does not end below it. -/
theorem head?_dropWhile_eq_some_iff (h : l.Pairwise Before) :
    (l.dropWhile fun b => last b < n).head?.filter (fun b => Contains b n) = some a ↔ a ∈ l ∧ Contains a n := by
  induction l with
  | nil => simp
  | cons b l ih =>
    obtain ⟨hb, hl⟩ := pairwise_cons.mp h
    by_cases hlt : last b < n
    · have hnot : ¬ Contains b n := fun hcontains => absurd hcontains.2 (not_le.mpr hlt)
      rw [dropWhile_cons_of_pos (by simpa using hlt), ih hl, mem_cons, or_and_right, or_iff_right]
      rintro ⟨rfl, hcontains⟩
      exact hnot hcontains
    · have hrest : ∀ c ∈ l, ¬ Contains c n := by
        intro c hc hcontains
        have hbefore := hb c hc
        unfold Before at hbefore
        unfold Contains at hcontains
        omega
      rw [dropWhile_cons_of_neg (by simpa using hlt), head?_cons, Option.filter_eq_some_iff, mem_cons,
        or_and_right, or_iff_left fun hc => hrest a hc.1 hc.2, Option.some.injEq, decide_eq_true_eq, eq_comm]

theorem le_last_of_covers (h : (l ++ [a]).Pairwise Before) (hn : Covers (l ++ [a]) n) : n ≤ last a := by
  obtain ⟨b, hb, hcontains⟩ := hn
  rcases mem_append.mp hb with hb | hb
  · have hbefore := (pairwise_append.mp h).2.2 b hb a (mem_singleton_self a)
    have ha := first_le_last a
    unfold Before at hbefore
    unfold Contains at hcontains
    omega
  · exact mem_singleton.mp hb ▸ hcontains.2

end Span

end FlareIm.Lib
