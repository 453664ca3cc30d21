import Mathlib.Order.OrderIsoNat

/-! Hashes that take their text in pieces, and loops that end because a number falls.
How a text is cut does not matter to the hash of it; that is the one law asked for. -/

namespace FlareIm.Lib

/-- A hash of texts over `α` with digests in `δ`. -/
structure StreamHash (α δ : Type) where
  State : Type
  init : State
  update : State → List α → State
  finalize : State → δ
  update_nil : ∀ s, update s [] = s
  update_append : ∀ s a b, update s (a ++ b) = update (update s a) b

namespace StreamHash

variable {α δ : Type} (h : StreamHash α δ)

def absorb (text : List α) : h.State := h.update h.init text

def digest (text : List α) : δ := h.finalize (h.absorb text)

@[simp] theorem absorb_nil : h.absorb [] = h.init := h.update_nil h.init

theorem foldl_update (s : h.State) (pieces : List (List α)) :
    pieces.foldl h.update s = h.update s pieces.flatten := by
  induction pieces generalizing s with
  | nil => exact (h.update_nil s).symm
  | cons piece pieces ih => rw [List.foldl_cons, ih, List.flatten_cons, h.update_append]

/-- The hash whose state is the text taken so far. -/
def ofDigest (digest : List α → δ) : StreamHash α δ where
  State := List α
  init := []
  update := (· ++ ·)
  finalize := digest
  update_nil := List.append_nil
  update_append s a b := (List.append_assoc s a b).symm

end StreamHash

/-- A sequence of states ends if a number falls as long as it does not. -/
theorem exists_done_of_decreases {σ : Type} {done : σ → Prop} (s : ℕ → σ) (μ : σ → ℕ)
    (h : ∀ n, ¬ done (s n) → ¬ done (s (n + 1)) → μ (s (n + 1)) < μ (s n)) : ∃ n, done (s n) := by
  by_contra hnever
  have hnot : ∀ n, ¬ done (s n) := not_exists.mp hnever
  have hanti : StrictAnti fun n => μ (s n) := strictAnti_nat_of_succ_lt fun n => h n (hnot n) (hnot (n + 1))
  exact not_strictAnti_of_wellFoundedLT _ hanti

end FlareIm.Lib
