import Mathlib.Data.Int.Notation
import Mathlib.Tactic.Common

/-! Decimal numbers kept as text. A number written with `toString` is read back as itself
as long as it fits the machine type it is read into. -/

namespace FlareIm.Lib

open List Nat String

/-- The digits of a text that has no sign: not empty, and not above the bound. -/
def parseDigits (bound : ℕ) (digits : List Char) : Option ℕ :=
  if digits ≠ [] ∧ digits.all Char.isDigit ∧ Nat.ofDigitChars 10 digits 0 ≤ bound then
    some (Nat.ofDigitChars 10 digits 0)
  else none

/-- An unsigned number up to `bound`; a leading plus sign is accepted. -/
def parseUnsigned (bound : ℕ) (s : String) : Option ℕ :=
  match s.toList with
  | '+' :: digits => parseDigits bound digits
  | digits => parseDigits bound digits

variable {bound n : ℕ} {separator : Char}

theorem le_of_parseUnsigned {s : String} (h : parseUnsigned bound s = some n) : n ≤ bound := by
  have hdigits : ∀ digits, parseDigits bound digits = some n → n ≤ bound := by
    intro digits hparse
    unfold parseDigits at hparse
    split at hparse
    · next hfits => exact (Option.some.inj hparse) ▸ hfits.2.2
    · exact absurd hparse (by simp)
  unfold parseUnsigned at h
  split at h <;> exact hdigits _ h

/-- A number between `-bound - 1` and `bound`. -/
def parseSigned (bound : ℕ) (s : String) : Option ℤ :=
  match s.toList with
  | '-' :: digits => (parseDigits (bound + 1) digits).map fun n => -(n : ℤ)
  | '+' :: digits => (parseDigits bound digits).map Int.ofNat
  | digits => (parseDigits bound digits).map Int.ofNat

theorem isDigit_of_mem_toString {c : Char} (h : c ∈ (toString n).toList) : c.isDigit = true := by
  rw [toString_eq_ofList_toDigits, toList_ofList] at h
  exact isDigit_of_mem_toDigits (by decide) (by decide) h

theorem parseUnsigned_toString (h : n ≤ bound) : parseUnsigned bound (toString n) = some n := by
  have hdigit : ∀ c ∈ toDigits 10 n, c.isDigit = true := fun c hc =>
    isDigit_of_mem_toDigits (by decide) (by decide) hc
  have hvalue : ofDigitChars 10 (toDigits 10 n) 0 = n :=
    ofDigitChars_toDigits (by decide) (by decide)
  have hparse : parseDigits bound (toDigits 10 n) = some n := by
    rw [parseDigits, hvalue, if_pos]
    exact ⟨toDigits_ne_nil, all_eq_true.mpr hdigit, h⟩
  rw [parseUnsigned, toString_eq_ofList_toDigits, toList_ofList]
  split
  · -- A plus sign is not a digit.
    rename_i digits heq
    have hplus := hdigit '+' (heq ▸ mem_cons_self)
    exact absurd hplus (by decide)
  · exact hparse

theorem toString_injective : Function.Injective (toString : ℕ → String) := by
  intro m n h
  have hm := parseUnsigned_toString (Nat.le_max_left m n)
  rw [h, parseUnsigned_toString (Nat.le_max_right m n)] at hm
  exact (Option.some.inj hm).symm

/-- A negative number is written with a sign, which no other has. -/
theorem toString_ofNat_ne_negSucc (m n : ℕ) : toString (Int.ofNat m) ≠ toString (Int.negSucc n) := by
  intro h
  have hneg : (toString (Int.negSucc n)).toList = '-' :: (toString (n + 1)).toList := by
    rw [show toString (Int.negSucc n) = "-" ++ toString (n + 1) from rfl, toList_append]
    rfl
  have hsign : '-' ∈ (toString m).toList := by
    rw [show toString m = toString (Int.ofNat m) from rfl, h, hneg]
    exact mem_cons_self
  exact absurd (isDigit_of_mem_toString hsign) (by decide)

theorem toString_int_injective : Function.Injective (toString : ℤ → String) := by
  intro i j h
  cases i with
  | ofNat m =>
    cases j with
    | ofNat n => exact congrArg Int.ofNat (toString_injective h)
    | negSucc n => exact absurd h (toString_ofNat_ne_negSucc m n)
  | negSucc m =>
    cases j with
    | ofNat n => exact absurd h.symm (toString_ofNat_ne_negSucc n m)
    | negSucc n =>
      have hdigits : "-" ++ toString (m + 1) = "-" ++ toString (n + 1) := h
      have hnat := toString_injective ((append_right_inj "-").mp hdigits)
      rw [succ.inj hnat]

/-! ### Two parts in one text -/

/-- What stands before and after the first separator. -/
def splitOnce (separator : Char) (s : String) : Option (String × String) :=
  match s.toList.dropWhile (· ≠ separator) with
  | [] => none
  | _ :: rest => some (String.ofList (s.toList.takeWhile (· ≠ separator)), String.ofList rest)

theorem splitOnce_append {left : String} (h : ∀ c ∈ left.toList, c ≠ separator) (right : String) :
    splitOnce separator (left ++ singleton separator ++ right) = some (left, right) := by
  have hkeep : ∀ c ∈ left.toList, decide (c ≠ separator) = true := fun c hc => decide_eq_true (h c hc)
  have htext : (left ++ singleton separator ++ right).toList =
      left.toList ++ separator :: right.toList := by
    simp
  rw [splitOnce, htext, dropWhile_append_of_pos hkeep, takeWhile_append_of_pos hkeep,
    dropWhile_cons_of_neg (by simp), takeWhile_cons_of_neg (by simp)]
  simp

/-- A number ends before a separator that is no digit. -/
theorem splitOnce_toString (h : separator.isDigit = false) (n : ℕ) (right : String) :
    splitOnce separator (toString n ++ singleton separator ++ right) = some (toString n, right) := by
  refine splitOnce_append (fun c hc heq => ?_) right
  rw [← heq, isDigit_of_mem_toString hc] at h
  exact Bool.noConfusion h

end FlareIm.Lib
