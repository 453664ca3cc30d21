import Mathlib.Data.List.Nodup
import Mathlib.Data.List.Basic
import Mathlib.Logic.Function.Basic

/-! Finite maps whose values carry their own key. A hash map that is only ever
filled by `insert(key(v), v)` is a list of values with pairwise distinct keys, so
the fact that every entry sits under its own key is a field of the type and not an
invariant of its users. The order of the list means nothing; everything a client
sees goes through `find?`, and the lemmas say how each operation changes it. -/

namespace FlareIm.Lib

open List Function

/-- Values with pairwise distinct keys. -/
structure KeyedMap (κ ν : Type) (key : ν → κ) where
  items : List ν
  nodup : (items.map key).Nodup

namespace KeyedMap

variable {κ ν : Type} {key : ν → κ} {k : κ} {m n : KeyedMap κ ν key} {p : ν → Bool} {v : ν}

@[ext] theorem ext (h : m.items = n.items) : m = n := by
  cases m
  cases n
  simpa using h

def empty : KeyedMap κ ν key := ⟨[], nodup_nil⟩

section

variable (m : KeyedMap κ ν key)

def keys : List κ := m.items.map key

def size : ℕ := m.items.length

def filter (p : ν → Bool) : KeyedMap κ ν key :=
  ⟨m.items.filter p, (filter_sublist.map key).nodup m.nodup⟩

/-- Rewrite every value; `f` keeps keys. -/
def mapValues (f : ν → ν) (hf : ∀ v, key (f v) = key v) : KeyedMap κ ν key :=
  ⟨m.items.map f, by
    rw [map_map, show key ∘ f = key from funext hf]
    exact m.nodup⟩

end

/-- The map with another type of values under the same keys. -/
def mapTo {μ : Type} {key' : μ → κ} (m : KeyedMap κ ν key) (f : ν → μ) (hf : ∀ v, key' (f v) = key v) :
    KeyedMap κ μ key' :=
  ⟨m.items.map f, by
    rw [map_map, show key' ∘ f = key from funext hf]
    exact m.nodup⟩

variable [DecidableEq κ]

def find? (m : KeyedMap κ ν key) (k : κ) : Option ν := m.items.find? (fun v => key v = k)

def erase (m : KeyedMap κ ν key) (k : κ) : KeyedMap κ ν key := m.filter (fun v => key v ≠ k)

/-- Add a value, replacing the one with the same key. -/
def insert (m : KeyedMap κ ν key) (v : ν) : KeyedMap κ ν key :=
  ⟨v :: (m.erase (key v)).items, by
    rw [map_cons, nodup_cons]
    refine ⟨?_, (m.erase (key v)).nodup⟩
    simp [erase, filter]⟩

section

variable (m : KeyedMap κ ν key)

omit [DecidableEq κ] in
theorem mem_keys (k : κ) : k ∈ m.keys ↔ ∃ v ∈ m.items, key v = k :=
  mem_map

omit [DecidableEq κ] in
theorem eq_of_key_eq {w : ν} (hv : v ∈ m.items) (hw : w ∈ m.items) (h : key v = key w) : v = w :=
  inj_on_of_nodup_map m.nodup hv hw h

theorem find?_eq_some_iff (k : κ) (v : ν) : m.find? k = some v ↔ v ∈ m.items ∧ key v = k := by
  constructor
  · intro h
    exact ⟨mem_of_find?_eq_some h, by simpa using find?_some h⟩
  · rintro ⟨hv, rfl⟩
    cases hf : m.items.find? (fun w => key w = key v) with
    | none =>
      have := find?_eq_none.mp hf v hv
      simp at this
    | some w =>
      have hk : key w = key v := by simpa using find?_some hf
      rw [find?, hf, m.eq_of_key_eq (mem_of_find?_eq_some hf) hv hk]

theorem find?_eq_none_iff (k : κ) : m.find? k = none ↔ k ∉ m.keys := by
  rw [find?, find?_eq_none, mem_keys]
  simp

theorem mem_keys_iff_find? (k : κ) : k ∈ m.keys ↔ m.find? k ≠ none := by
  rw [ne_eq, find?_eq_none_iff, not_not]

end

theorem keys_perm_of_find?_eq (h : m.find? = n.find?) : m.keys.Perm n.keys :=
  (perm_ext_iff_of_nodup m.nodup n.nodup).mpr fun k => by
    rw [← keys, ← keys, mem_keys_iff_find?, mem_keys_iff_find?, h]

section

variable {m : KeyedMap κ ν key} {k : κ} {v : ν} (h : m.find? k = some v)

include h

theorem key_of_find? : key v = k :=
  ((m.find?_eq_some_iff k v).mp h).2

theorem mem_of_find? : v ∈ m.items :=
  ((m.find?_eq_some_iff k v).mp h).1

end

theorem find?_of_mem (m : KeyedMap κ ν key) (h : v ∈ m.items) : m.find? (key v) = some v :=
  (m.find?_eq_some_iff _ _).mpr ⟨h, rfl⟩

/-- A search for what only the key singles out is a lookup. -/
theorem find?_items_eq (m : KeyedMap κ ν key) (h : ∀ v ∈ m.items, p v = true ↔ key v = k) :
    m.items.find? p = m.find? k := by
  have hp : ∀ v ∈ m.items, p v = decide (key v = k) :=
    fun v hv => Bool.eq_iff_iff.mpr ((h v hv).trans decide_eq_true_iff.symm)
  rw [find?]
  generalize m.items = items at hp
  induction items with
  | nil => rfl
  | cons v items ih =>
    rw [find?_cons, find?_cons, hp v mem_cons_self, ih fun w hw => hp w (mem_cons_of_mem _ hw)]

@[simp] theorem find?_empty (k : κ) : (empty : KeyedMap κ ν key).find? k = none := rfl

section Find

variable (m : KeyedMap κ ν key)

theorem find?_filter (p : ν → Bool) (k : κ) : (m.filter p).find? k = (m.find? k).filter p := by
  ext v
  simp only [find?_eq_some_iff, filter, mem_filter, Option.filter_eq_some_iff]
  tauto

@[simp] theorem find?_mapValues (f : ν → ν) (hf : ∀ v, key (f v) = key v) (k : κ) :
    (m.mapValues f hf).find? k = (m.find? k).map f := by
  ext v
  simp only [find?_eq_some_iff, mapValues, mem_map, Option.map_eq_some_iff]
  constructor
  · rintro ⟨⟨w, hw, rfl⟩, hk⟩
    exact ⟨w, ⟨hw, by rw [← hf w, hk]⟩, rfl⟩
  · rintro ⟨w, ⟨hw, hk⟩, rfl⟩
    exact ⟨⟨w, hw, rfl⟩, by rw [hf w, hk]⟩

theorem find?_erase (k j : κ) : (m.erase k).find? j = if j = k then none else m.find? j := by
  rw [erase, find?_filter]
  cases h : m.find? j with
  | none => simp
  | some v =>
    have hk := key_of_find? h
    by_cases hj : j = k
    · simp [hk, hj]
    · simp [Option.filter, hk, hj]

@[simp] theorem find?_erase_self (k : κ) : (m.erase k).find? k = none := by
  simp [find?_erase]

theorem mem_insert (v w : ν) : w ∈ (m.insert v).items ↔ w = v ∨ (w ∈ m.items ∧ key w ≠ key v) := by
  simp [insert, erase, filter]

theorem find?_insert (v : ν) (j : κ) : (m.insert v).find? j = if j = key v then some v else m.find? j := by
  by_cases hj : j = key v
  · rw [if_pos hj, find?_eq_some_iff, mem_insert]
    exact ⟨.inl rfl, hj.symm⟩
  · rw [if_neg hj]
    ext w
    rw [find?_eq_some_iff, find?_eq_some_iff, mem_insert]
    constructor
    · rintro ⟨rfl | ⟨hw, -⟩, hk⟩
      · exact absurd hk.symm hj
      · exact ⟨hw, hk⟩
    · rintro ⟨hw, hk⟩
      exact ⟨.inr ⟨hw, by rwa [hk]⟩, hk⟩

end Find

theorem isSome_find?_foldl_insert (vs : List ν) (m : KeyedMap κ ν key) (k : κ) :
    ((vs.foldl insert m).find? k).isSome ↔ (∃ v ∈ vs, key v = k) ∨ (m.find? k).isSome := by
  induction vs generalizing m with
  | nil => simp
  | cons v vs ih =>
    rw [foldl_cons, ih, find?_insert]
    by_cases hk : k = key v
    · simp [hk]
    · simp [hk, Ne.symm hk]

/-- An entry stays until one with its key is written. -/
theorem mem_foldl_insert_or (vs : List ν) (m : KeyedMap κ ν key) (hv : v ∈ m.items) :
    v ∈ (vs.foldl insert m).items ∨ ∃ w ∈ vs, key w = key v := by
  induction vs generalizing m with
  | nil => exact .inl hv
  | cons w vs ih =>
    by_cases hkey : key v = key w
    · exact .inr ⟨w, mem_cons_self, hkey.symm⟩
    · rcases ih (m.insert w) ((m.mem_insert w v).mpr (.inr ⟨hv, hkey⟩)) with hmem | ⟨x, hx, heq⟩
      · exact .inl hmem
      · exact .inr ⟨x, mem_cons_of_mem w hx, heq⟩

theorem exists_mem_foldl_insert {vs : List ν} (hv : v ∈ vs) (m : KeyedMap κ ν key) :
    ∃ w ∈ vs, key w = key v ∧ w ∈ (vs.foldl insert m).items := by
  induction vs generalizing m v with
  | nil => exact absurd hv not_mem_nil
  | cons x vs ih =>
    have htail : ∀ y ∈ vs, key y = key v → ∃ w ∈ x :: vs, key w = key v ∧
      w ∈ (vs.foldl insert (m.insert x)).items := by
      intro y hy hkey
      obtain ⟨w, hw, hsame, hmem⟩ := ih hy (m.insert x)
      exact ⟨w, mem_cons_of_mem x hw, hsame.trans hkey, hmem⟩
    rcases mem_cons.mp hv with rfl | hrest
    · rcases mem_foldl_insert_or vs (m.insert v) ((m.mem_insert v v).mpr (.inl rfl)) with hmem | ⟨y, hy, hkey⟩
      · exact ⟨v, mem_cons_self, rfl, hmem⟩
      · exact htail y hy hkey
    · exact htail v hrest rfl

omit [DecidableEq κ] in
theorem filter_filter (m : KeyedMap κ ν key) (p q : ν → Bool) :
    (m.filter p).filter q = m.filter (fun v => q v && p v) :=
  ext (List.filter_filter ..)

theorem filter_insert (m : KeyedMap κ ν key) (hp : p v = true) :
    (m.insert v).filter p = (m.filter p).insert v := by
  refine ext ((filter_cons_of_pos hp).trans (congrArg (v :: ·) ?_))
  simp only [erase, filter, List.filter_filter, Bool.and_comm]

section MapTo

variable {μ : Type} {key' : μ → κ} (m : KeyedMap κ ν key) {f : ν → μ} (hf : ∀ v, key' (f v) = key v)

omit [DecidableEq κ] in
theorem mapTo_filter (p : μ → Bool) : (m.filter (fun v => p (f v))).mapTo f hf = (m.mapTo f hf).filter p := by
  ext1
  exact (filter_map ..).symm

theorem mapTo_insert (v : ν) : (m.insert v).mapTo f hf = (m.mapTo f hf).insert (f v) := by
  ext1
  simp [mapTo, insert, erase, filter, filter_map, comp_def, hf]

end MapTo

section Size

variable (m : KeyedMap κ ν key)

theorem size_insert_of_find?_none (h : m.find? (key v) = none) : (m.insert v).size = m.size + 1 := by
  have hkeep : m.items.filter (fun w => key w ≠ key v) = m.items := by
    rw [filter_eq_self]
    intro w hw
    have hnot := (m.find?_eq_none_iff _).mp h
    simpa using fun heq : key w = key v => hnot (heq ▸ mem_map_of_mem hw)
  exact congrArg (length · + 1) hkeep

theorem size_insert_le (v : ν) : (m.insert v).size ≤ m.size + 1 :=
  Nat.succ_le_succ (length_filter_le _ _)

omit [DecidableEq κ] in
theorem size_filter_le (p : ν → Bool) : (m.filter p).size ≤ m.size :=
  length_filter_le _ _

theorem size_erase_of_find? (h : m.find? k = some v) : (m.erase k).size + 1 ≤ m.size :=
  Nat.succ_le_of_lt (length_filter_lt_length_iff_exists.mpr ⟨v, mem_of_find? h, by simp [key_of_find? h]⟩)

@[simp] theorem find?_insert_self (v : ν) : (m.insert v).find? (key v) = some v := by
  simp [find?_insert]

end Size

/-! ### The map as a function -/

/-- The map as a function to a part of its values. -/
def lookup {β : Type} (m : KeyedMap κ ν key) (f : ν → β) : κ → Option β := fun k => (m.find? k).map f

section Lookup

variable {β : Type} (m : KeyedMap κ ν key) (f : ν → β)

theorem find?_erase_eq (k : κ) : (m.erase k).find? = Function.update m.find? k none := by
  funext j
  rw [find?_erase, update_apply]

theorem find?_insert_eq (v : ν) : (m.insert v).find? = Function.update m.find? (key v) (some v) := by
  funext j
  rw [find?_insert, update_apply]

@[simp] theorem lookup_empty : (empty : KeyedMap κ ν key).lookup f = fun _ => none := rfl

@[simp] theorem lookup_erase (k : κ) : (m.erase k).lookup f = Function.update (m.lookup f) k none := by
  funext j
  rw [lookup, find?_erase, update_apply]
  split <;> rfl

@[simp] theorem lookup_insert (v : ν) :
    (m.insert v).lookup f = Function.update (m.lookup f) (key v) (some (f v)) := by
  funext j
  rw [lookup, find?_insert, update_apply]
  split <;> rfl

theorem lookup_mapValues (g : ν → ν) (hg : ∀ v, key (g v) = key v) (hf : ∀ v, f (g v) = f v) :
    (m.mapValues g hg).lookup f = m.lookup f := by
  funext j
  simp [lookup, comp_def, hf]

theorem lookup_filter (p : ν → Bool) (k : κ) :
    (m.filter p).lookup f k = m.lookup f k ∨ (m.filter p).lookup f k = none := by
  rw [lookup, lookup, find?_filter]
  cases m.find? k with
  | none => simp
  | some v => by_cases hp : p v <;> simp [Option.filter, hp]

theorem lookup_of_find? (h : m.find? k = some v) : m.lookup f k = some (f v) := by
  simp [lookup, h]

theorem lookup_eq_none_iff (k : κ) : m.lookup f k = none ↔ m.find? k = none := by
  simp [lookup]

/-- Taking a value out and putting it back changes nothing a client can see. -/
theorem find?_insert_erase_self (h : m.find? k = some v) :
    ((m.erase k).insert v).find? = m.find? := by
  rw [find?_insert_eq, find?_erase_eq, key_of_find? h, update_idem, ← h, update_eq_self]

end Lookup

end KeyedMap

end FlareIm.Lib
