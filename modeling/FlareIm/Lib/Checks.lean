import Mathlib.Logic.Basic

/-! Chains of checks that stop at the first failure, and searches for the first
candidate that passes. A chain is a `do` block of `Except`; it is taken apart by one
equivalence per step, so a proof about a chain never unfolds it. A search tries its
candidates in order and, when all of them fail, reports the first failure. -/

namespace FlareIm.Lib

section Chain

variable {ε ε' α β : Type} {e : ε} {x : Except ε α}

theorem bind_eq_ok_iff {f : α → Except ε β} {b : β} :
    (x >>= f) = .ok b ↔ ∃ a, x = .ok a ∧ f a = .ok b := by
  cases x <;> simp [bind, Except.bind]

theorem pure_eq_ok_iff {a b : α} : (pure a : Except ε α) = .ok b ↔ a = b := by
  simp [pure, Except.pure]

def require (c : Bool) (e : ε) : Except ε Unit := if c then .ok () else .error e

theorem require_eq_ok_iff {c : Bool} {u : Unit} : require c e = .ok u ↔ c = true := by
  cases c <;> simp [require]

def okOr (x : Option α) (e : ε) : Except ε α := x.elim (.error e) .ok

theorem okOr_eq_ok_iff {x : Option α} {a : α} : okOr x e = .ok a ↔ x = some a := by
  cases x <;> simp [okOr]

theorem mapError_eq_ok_iff {f : ε → ε'} {a : α} : x.mapError f = .ok a ↔ x = .ok a := by
  cases x with
  | error e => exact ⟨fun h => (by cases h), fun h => (by cases h)⟩
  | ok b => exact ⟨fun h => congrArg Except.ok (Except.ok.inj h), fun h => congrArg Except.ok (Except.ok.inj h)⟩

theorem toOption_eq_some_iff {a : α} : x.toOption = some a ↔ x = .ok a := by
  cases x <;> simp [Except.toOption]

end Chain

section Search

variable {ε α β : Type} (check : α → Except ε β)

/-- The value of the first candidate that passes; `failure` is the first failure so
far, and `empty` stands for it when there is no candidate at all. -/
def firstOk (empty : ε) : List α → Option ε → Except ε β
  | [], failure => .error (failure.getD empty)
  | a :: rest, failure =>
    match check a with
    | .ok b => .ok b
    | .error e => firstOk empty rest (some (failure.getD e))

variable {check} {as : List α} {empty : ε} {failure : Option ε}

theorem exists_of_firstOk {b : β}
    (h : firstOk check empty as failure = .ok b) : ∃ a ∈ as, check a = .ok b := by
  induction as generalizing failure with
  | nil => simp [firstOk] at h
  | cons a rest ih =>
    rw [firstOk] at h
    cases ha : check a with
    | ok b' =>
      rw [ha] at h
      exact ⟨a, List.mem_cons_self, ha.trans h⟩
    | error e =>
      rw [ha] at h
      obtain ⟨a', hmem, ha'⟩ := ih h
      exact ⟨a', List.mem_cons_of_mem _ hmem, ha'⟩

theorem firstOk_of_mem {a : α} {b : β} (hmem : a ∈ as)
    (ha : check a = .ok b) : ∃ b', firstOk check empty as failure = .ok b' := by
  induction as generalizing failure with
  | nil => simp at hmem
  | cons a' rest ih =>
    rw [firstOk]
    cases ha' : check a' with
    | ok b' => exact ⟨b', rfl⟩
    | error e =>
      rcases List.mem_cons.mp hmem with rfl | hrest
      · rw [ha] at ha'
        cases ha'
      · exact ih hrest

/-- A search succeeds exactly when some candidate passes. -/
theorem exists_firstOk_iff :
    (∃ b, firstOk check empty as failure = .ok b) ↔ ∃ a ∈ as, ∃ b, check a = .ok b := by
  constructor
  · rintro ⟨b, h⟩
    obtain ⟨a, hmem, ha⟩ := exists_of_firstOk h
    exact ⟨a, hmem, b, ha⟩
  · rintro ⟨a, hmem, b, ha⟩
    exact firstOk_of_mem hmem ha

end Search

end FlareIm.Lib
