import Mathlib.Data.List.Basic
import Mathlib.Order.Lattice

/-! Keeping one value of many that come with a version. A store has seen a list of values and keeps
one of the newest, or none if it has seen none; a place that takes over from others has seen what they
saw, and it keeps one of the newest if it does so among the values they kept. -/

namespace FlareIm.Lib

open List Option

variable {α β ι : Type} [LinearOrder β] (version : α → β)

/-- The value kept was seen, and nothing above it was. -/
structure IsNewest (kept : Option α) (seen : List α) : Prop where
  mem : ∀ x ∈ kept, x ∈ seen
  le : ∀ y ∈ seen, ∃ x ∈ kept, version y ≤ version x

/-- The value offered when it is newer than the one kept. -/
def newer (kept offered : Option α) : Option α :=
  match kept, offered with
  | none, offered => offered
  | some x, none => some x
  | some x, some y => if version x < version y then some y else some x

variable {version} {kept offered : Option α} {seen seen' news : List α}

theorem isNewest_toList (kept : Option α) : IsNewest version kept kept.toList where
  mem _ hx := mem_toList.mpr hx
  le y hy := ⟨y, mem_toList.mp hy, le_rfl⟩

theorem IsNewest.congr (h : IsNewest version kept seen) (hseen : ∀ x, x ∈ seen ↔ x ∈ seen') :
    IsNewest version kept seen' where
  mem x hx := (hseen x).mp (h.mem x hx)
  le y hy := h.le y ((hseen y).mpr hy)

theorem IsNewest.extend (h : IsNewest version kept seen) (hsub : ∀ x ∈ seen, x ∈ seen')
    (hle : ∀ y ∈ seen', ∃ x ∈ seen, version y ≤ version x) : IsNewest version kept seen' where
  mem x hx := hsub x (h.mem x hx)
  le y hy := by
    obtain ⟨x, hx, hyx⟩ := hle y hy
    obtain ⟨z, hz, hxz⟩ := h.le x hx
    exact ⟨z, hz, hyx.trans hxz⟩

variable {x y : α}

theorem isNewest_take (h : ∀ y ∈ seen, version y ≤ version x) : IsNewest version (some x) (x :: seen) where
  mem _ hz := mem_some.mp hz ▸ mem_cons_self
  le y hy := ⟨x, rfl, (mem_cons.mp hy).elim (fun heq => heq ▸ le_rfl) (h y)⟩

theorem isNewest_keep (h : version x ≤ version y) : IsNewest version (some y) [x, y] where
  mem _ hz := mem_some.mp hz ▸ mem_cons_of_mem _ mem_cons_self
  le _ hz := ⟨y, rfl, (mem_cons.mp hz).elim (fun heq => heq ▸ h) fun hy => (mem_singleton.mp hy) ▸ le_rfl⟩

theorem newer_eq_or : newer version kept offered = kept ∨ newer version kept offered = offered := by
  cases kept with
  | none => exact .inr rfl
  | some x =>
    cases offered with
    | none => exact .inl rfl
    | some y =>
      rw [newer]
      split
      · exact .inr rfl
      · exact .inl rfl

theorem exists_le_newer_left (h : x ∈ kept) : ∃ z ∈ newer version kept offered, version x ≤ version z := by
  obtain rfl := mem_def.mp h
  cases offered with
  | none => exact ⟨x, rfl, le_rfl⟩
  | some y =>
    rw [newer]
    split
    · next hlt => exact ⟨y, rfl, hlt.le⟩
    · exact ⟨x, rfl, le_rfl⟩

theorem exists_le_newer_right (h : y ∈ offered) : ∃ z ∈ newer version kept offered, version y ≤ version z := by
  obtain rfl := mem_def.mp h
  cases kept with
  | none => exact ⟨y, rfl, le_rfl⟩
  | some x =>
    rw [newer]
    split
    · exact ⟨y, rfl, le_rfl⟩
    · next hle => exact ⟨x, rfl, not_lt.mp hle⟩

theorem IsNewest.newer (hkept : IsNewest version kept seen) (hoffered : IsNewest version offered seen') :
    IsNewest version (newer version kept offered) (seen ++ seen') where
  mem x hx := by
    rcases @newer_eq_or _ _ _ version kept offered with heq | heq
    · exact mem_append_left _ (hkept.mem x (heq ▸ hx))
    · exact mem_append_right _ (hoffered.mem x (heq ▸ hx))
  le y hy := by
    rcases mem_append.mp hy with hy | hy
    · obtain ⟨x, hx, hle⟩ := hkept.le y hy
      obtain ⟨z, hz, hle'⟩ := @exists_le_newer_left _ _ _ version _ offered _ hx
      exact ⟨z, hz, hle.trans hle'⟩
    · obtain ⟨x, hx, hle⟩ := hoffered.le y hy
      obtain ⟨z, hz, hle'⟩ := @exists_le_newer_right _ _ _ version kept _ _ hx
      exact ⟨z, hz, hle.trans hle'⟩

theorem isNewest_foldl_newer (read : ι → Option α) (places : List ι) (h : IsNewest version kept seen) :
    IsNewest version (places.foldl (fun kept i => Lib.newer version (read i) kept) kept)
      (seen ++ places.filterMap read) := by
  induction places generalizing kept seen with
  | nil => rwa [filterMap_nil, append_nil]
  | cons i places ih =>
    rw [foldl_cons]
    refine (ih ((isNewest_toList (read i)).newer h)).congr fun x => ?_
    cases hread : read i with
    | none => rw [filterMap_cons_none hread, toList_none, nil_append]
    | some y =>
      rw [filterMap_cons_some hread, toList_some]
      simp only [mem_append, mem_cons, not_mem_nil, or_false]
      tauto

/-- What is newest among the values that places kept is newest among all that they saw. -/
theorem IsNewest.of_places {read : ι → Option α} {saw : ι → List α} {places : List ι}
    (h : IsNewest version kept (news ++ places.filterMap read))
    (hplaces : ∀ i ∈ places, IsNewest version (read i) (saw i)) :
    IsNewest version kept (news ++ places.flatMap saw) where
  mem x hx := by
    rcases mem_append.mp (h.mem x hx) with hnew | hread
    · exact mem_append_left _ hnew
    · obtain ⟨i, hi, hx⟩ := mem_filterMap.mp hread
      exact mem_append_right _ (mem_flatMap.mpr ⟨i, hi, (hplaces i hi).mem x hx⟩)
  le y hy := by
    rcases mem_append.mp hy with hnew | hsaw
    · exact h.le y (mem_append_left _ hnew)
    · obtain ⟨i, hi, hy⟩ := mem_flatMap.mp hsaw
      obtain ⟨x, hx, hle⟩ := (hplaces i hi).le y hy
      obtain ⟨z, hz, hle'⟩ := h.le x (mem_append_right _ (mem_filterMap.mpr ⟨i, hi, hx⟩))
      exact ⟨z, hz, hle.trans hle'⟩

end FlareIm.Lib
