import Mathlib.Data.List.Induction
import Mathlib.Data.List.Sort
import Mathlib.Logic.Function.Basic
import FlareIm.Lib.Run

/-! Numbered writes that arrive in any order. A write belongs to a class and goes to the place of
that class; the last number taken is kept for each class, and a write is dropped when its number is
not above it. A write numbered 0 has no number and is never dropped. In the end a place holds what
one of its deciding writes put there: a write that was not stale at first and that no write of its
class outnumbers. So the end does not depend on the order if and only if the deciding writes of a
place agree, which they do when no two classes share the place. -/

namespace FlareIm.Lib

open List Function

structure NumberedWrite (κ β : Type) where
  cls : κ
  num : ℕ
  val : β

@[ext] structure Board (κ ι β : Type) where
  /-- The last number of each class, 0 for none. -/
  seen : κ → ℕ
  val : ι → β

namespace Board

variable {κ ι β : Type}

def Stale (b : Board κ ι β) (w : NumberedWrite κ β) : Prop := 0 < w.num ∧ w.num ≤ b.seen w.cls
  deriving Decidable

/-- The write is taken whatever of the others comes before it. -/
def Decides (b : Board κ ι β) (ws : List (NumberedWrite κ β)) (w : NumberedWrite κ β) : Prop :=
  ¬ b.Stale w ∧ (w.num = 0 ∨ ∀ w' ∈ ws, w'.cls = w.cls → w'.num ≤ w.num)

variable [DecidableEq κ] [DecidableEq ι] (place : κ → ι)

def write (b : Board κ ι β) (w : NumberedWrite κ β) : Board κ ι β :=
  if b.Stale w then b
  else
    { seen := if w.num = 0 then b.seen else Function.update b.seen w.cls w.num
      val := Function.update b.val (place w.cls) w.val }

variable {place} {b : Board κ ι β} {w : NumberedWrite κ β} {ws : List (NumberedWrite κ β)}
  {d : NumberedWrite κ β} {us : List (NumberedWrite κ β)}

omit [DecidableEq κ] [DecidableEq ι] in
theorem Decides.mono (h : b.Decides ws w) (hsub : us ⊆ ws) : b.Decides us w :=
  ⟨h.1, h.2.imp_right fun hall w' hw' => hall w' (hsub hw')⟩

theorem write_of_stale (h : b.Stale w) : b.write place w = b := if_pos h

theorem val_write (h : ¬ b.Stale w) (p : ι) :
    (b.write place w).val p = if p = place w.cls then w.val else b.val p := by
  rw [write, if_neg h]
  exact update_apply ..

/-! ### The numbers that were seen -/

theorem seen_write (c : κ) : (b.write place w).seen c = if c = w.cls then max (b.seen c) w.num else b.seen c := by
  unfold write
  split
  · split <;> simp_all [Stale]
  · dsimp only
    split <;> simp_all [Stale, update_apply]
    split <;> omega

theorem seen_le_write (c : κ) : b.seen c ≤ (b.write place w).seen c := by
  rw [seen_write]
  split <;> omega

theorem num_le_seen_write : w.num ≤ (b.write place w).seen w.cls := by
  rw [seen_write, if_pos rfl]
  exact le_max_right _ _

theorem seen_write_cases (place : κ → ι) (b : Board κ ι β) (w : NumberedWrite κ β) (c : κ) :
    (b.write place w).seen c = b.seen c ∨ (w.cls = c ∧ w.num = (b.write place w).seen c ∧ ¬ b.Stale w) := by
  rw [seen_write]
  split
  · next hc =>
    subst hc
    rcases le_or_gt w.num (b.seen w.cls) with hlate | hnew
    · exact .inl (max_eq_left hlate)
    · exact .inr ⟨rfl, (max_eq_right hnew.le).symm, fun hstale => hnew.not_ge hstale.2⟩
  · exact .inl rfl

theorem seen_le_run (ws : List (NumberedWrite κ β)) (b : Board κ ι β) (c : κ) :
    b.seen c ≤ (run (write place) b ws).seen c := by
  induction ws generalizing b with
  | nil => exact le_rfl
  | cons w ws ih => exact (seen_le_write c).trans (ih _)

theorem num_le_seen_run (place : κ → ι) (b : Board κ ι β) (h : w ∈ ws) :
    w.num ≤ (run (write place) b ws).seen w.cls := by
  induction ws generalizing b with
  | nil => exact absurd h not_mem_nil
  | cons w' ws ih =>
    rcases mem_cons.mp h with rfl | hmem
    · exact num_le_seen_write.trans (seen_le_run ws _ _)
    · exact ih _ hmem

/-- The last number of a class is the first one, or that of a write that was not stale at first. -/
theorem seen_run_cases (place : κ → ι) (ws : List (NumberedWrite κ β)) (b : Board κ ι β) (c : κ) :
    (run (write place) b ws).seen c = b.seen c ∨
      ∃ w ∈ ws, w.cls = c ∧ w.num = (run (write place) b ws).seen c ∧ ¬ b.Stale w := by
  induction ws using reverseRecOn with
  | nil => exact .inl rfl
  | append_singleton ws w ih =>
    rw [run_append, run_cons, run_nil]
    rcases seen_write_cases place (run (write place) b ws) w c with hkeep | ⟨rfl, hnum, hfresh⟩
    · rw [hkeep]
      refine ih.imp_right ?_
      rintro ⟨w', hw', h⟩
      exact ⟨w', mem_append_left _ hw', h⟩
    · refine .inr ⟨w, mem_append_right _ mem_cons_self, rfl, hnum, fun hstale => hfresh ⟨hstale.1, ?_⟩⟩
      exact hstale.2.trans (seen_le_run ws b _)

/-! ### What a place holds in the end -/

omit [DecidableEq κ] [DecidableEq ι] in
theorem decides_append (h : b.Decides ws d) (hw : d.num ≠ 0 → w.cls = d.cls → w.num ≤ d.num) :
    b.Decides (ws ++ [w]) d := by
  refine ⟨h.1, or_iff_not_imp_left.mpr fun hd w' hw' => ?_⟩
  rcases mem_append.mp hw' with hold | hnew
  · exact h.2.resolve_left hd w' hold
  · rw [mem_singleton.mp hnew]
    exact hw hd

/-- A write that comes too late outnumbers no write that decides. -/
theorem num_le_of_stale (hstale : (run (write place) b ws).Stale w) (hdecides : b.Decides ws d)
    (hd : d.num ≠ 0) (hcls : w.cls = d.cls) : w.num ≤ d.num := by
  have hlate := hstale.2
  rcases seen_run_cases place ws b w.cls with hfirst | ⟨w₀, hw₀, hcls₀, hnum₀, -⟩
  · have hfresh : ¬ d.num ≤ b.seen d.cls := fun hle => hdecides.1 ⟨Nat.pos_of_ne_zero hd, hle⟩
    rw [hfirst, hcls] at hlate
    omega
  · have hnewest := hdecides.2.resolve_left hd w₀ hw₀ (hcls₀.trans hcls)
    omega

/-- A write that comes too late decides only if one before it does, at the same place. -/
theorem exists_decides_of_stale (hstale : (run (write place) b ws).Stale w) (hdecides : b.Decides (ws ++ [w]) w) :
    ∃ d ∈ ws, d.cls = w.cls ∧ b.Decides ws d := by
  rcases seen_run_cases place ws b w.cls with hfirst | ⟨w₀, hw₀, hcls₀, hnum₀, hfresh₀⟩
  · exact absurd ⟨hstale.1, hfirst ▸ hstale.2⟩ hdecides.1
  · refine ⟨w₀, hw₀, hcls₀, hfresh₀, .inr fun w' hw' hcls' => ?_⟩
    rw [hnum₀, ← hcls₀, ← hcls']
    exact num_le_seen_run place b hw'

/-- A write that is taken decides among those that came before it. -/
theorem decides_of_not_stale (hfresh : ¬ (run (write place) b ws).Stale w) : b.Decides (ws ++ [w]) w := by
  refine ⟨fun hstale => hfresh ⟨hstale.1, hstale.2.trans (seen_le_run ws b _)⟩,
    or_iff_not_imp_left.mpr fun hnum w' hw' hcls => ?_⟩
  rcases mem_append.mp hw' with hold | hnew
  · have hseen := num_le_seen_run place b hold
    rw [hcls] at hseen
    have hlt : ¬ w.num ≤ (run (write place) b ws).seen w.cls := fun hle => hfresh ⟨Nat.pos_of_ne_zero hnum, hle⟩
    omega
  · rw [mem_singleton.mp hnew]

omit [DecidableEq κ] [DecidableEq ι] in
/-- None of the writes decides what the place holds. -/
theorem undecided_append {place : κ → ι} {p : ι} (hnone : ∀ d ∈ ws, place d.cls = p → ¬ b.Decides ws d)
    (hw : place w.cls = p → ¬ b.Decides (ws ++ [w]) w) :
      ∀ d ∈ ws ++ [w], place d.cls = p → ¬ b.Decides (ws ++ [w]) d := by
  intro d hd hplace hdecides
  rcases mem_append.mp hd with hold | hnew
  · exact hnone d hold hplace (hdecides.mono (subset_append_left _ _))
  · obtain rfl := mem_singleton.mp hnew
    exact hw hplace hdecides

/-- A place holds what a deciding write put there, or what it held when none decides. -/
theorem val_run (place : κ → ι) (b : Board κ ι β) (ws : List (NumberedWrite κ β)) (p : ι) :
    (∃ w ∈ ws, place w.cls = p ∧ b.Decides ws w ∧ (run (write place) b ws).val p = w.val) ∨
      ((∀ w ∈ ws, place w.cls = p → ¬ b.Decides ws w) ∧ (run (write place) b ws).val p = b.val p) := by
  -- on the writes from the last one backwards: the last one is dropped, goes elsewhere, or decides
  induction ws using reverseRecOn with
  | nil => exact .inr ⟨fun _ h => absurd h not_mem_nil, rfl⟩
  | append_singleton ws w ih =>
    rw [run_append, run_cons, run_nil]
    by_cases hstale : (run (write place) b ws).Stale w
    · rw [write_of_stale hstale]
      refine ih.imp ?_ ?_
      · rintro ⟨d, hd, hplace, hdecides, hval⟩
        exact ⟨d, mem_append_left _ hd, hplace, decides_append hdecides (num_le_of_stale hstale hdecides), hval⟩
      · rintro ⟨hnone, hval⟩
        refine ⟨undecided_append hnone fun hplace hdecides => ?_, hval⟩
        obtain ⟨d', hd', hcls, hdecides'⟩ := exists_decides_of_stale hstale hdecides
        exact hnone d' hd' (by rw [hcls, hplace]) hdecides'
    · rw [val_write hstale]
      by_cases hp : p = place w.cls
      · rw [if_pos hp]
        exact .inl ⟨w, mem_append_right _ mem_cons_self, hp.symm, decides_of_not_stale hstale, rfl⟩
      · rw [if_neg hp]
        refine ih.imp ?_ ?_
        · rintro ⟨d, hd, hplace, hdecides, hval⟩
          refine ⟨d, mem_append_left _ hd, hplace, decides_append hdecides fun _ hcls => ?_, hval⟩
          exact absurd (by rw [hcls, hplace]) hp
        · rintro ⟨hnone, hval⟩
          exact ⟨undecided_append hnone fun hplace => absurd hplace.symm hp, hval⟩

section Orders

variable {α : Type} {f : α → NumberedWrite κ β} {es : List α}

/-- A deciding write is taken when it comes last. -/
theorem exists_perm_val_run (place : κ → ι) (hnum : (es.map fun e => (f e).num).Nodup) {e : α} (he : e ∈ es)
    (hdecides : b.Decides (es.map f) (f e)) :
    ∃ us : List α, us.Perm es ∧ (run (write place) b (us.map f)).val (place (f e).cls) = (f e).val := by
  obtain ⟨before, after, rfl⟩ := append_of_mem he
  have hperm : (before ++ e :: after).Perm (e :: (before ++ after)) := perm_middle
  have hothers : b.Decides ((before ++ after).map f) (f e) :=
    hdecides.mono fun w hw => (hperm.map f).mem_iff.mpr (mem_cons_of_mem _ hw)
  have hne : (f e).num ∉ (before ++ after).map fun e => (f e).num :=
    (nodup_cons.mp ((hperm.map fun e => (f e).num).nodup_iff.mp hnum)).1
  refine ⟨before ++ after ++ [e], (perm_append_singleton _ _).trans hperm.symm, ?_⟩
  have hfresh : ¬ (run (write place) b ((before ++ after).map f)).Stale (f e) := by
    intro hstale
    obtain ⟨hpos, hlate⟩ := hstale
    rcases seen_run_cases place ((before ++ after).map f) b (f e).cls with hfirst | ⟨w, hw, hcls, hw_num, -⟩
    · exact hdecides.1 ⟨hpos, hfirst ▸ hlate⟩
    · have hle := hothers.2.resolve_left (by omega) w hw hcls
      have hsame : w.num = (f e).num := by omega
      obtain ⟨e', he', rfl⟩ := mem_map.mp hw
      exact hne (hsame ▸ mem_map.mpr ⟨e', he', rfl⟩)
  rw [map_append, run_append, map_singleton, run_cons, run_nil, val_write hfresh, if_pos rfl]

/-- The end does not depend on the order if and only if the deciding writes of the place agree. -/
theorem val_run_perm_iff (place : κ → ι) (f : α → NumberedWrite κ β) (b : Board κ ι β)
    (hnum : (es.map fun e => (f e).num).Nodup) (p : ι) :
    (∀ us vs : List α, us.Perm es → vs.Perm es →
      (run (write place) b (us.map f)).val p = (run (write place) b (vs.map f)).val p) ↔
    ∀ e ∈ es, ∀ e' ∈ es, place (f e).cls = p → place (f e').cls = p →
      b.Decides (es.map f) (f e) → b.Decides (es.map f) (f e') → (f e).val = (f e').val := by
  constructor
  · rintro h e he e' he' rfl hplace hdecides hdecides'
    obtain ⟨us, hus, hval⟩ := exists_perm_val_run place hnum he hdecides
    obtain ⟨vs, hvs, hval'⟩ := exists_perm_val_run place hnum he' hdecides'
    rw [hplace] at hval'
    rw [← hval, ← hval', h us vs hus hvs]
  · intro h us vs hus hvs
    have hus' := hus.map f
    have hvs' := hvs.map f
    rcases val_run place b (us.map f) p with ⟨w, hw, hplace, hdecides, hval⟩ | ⟨hnone, hval⟩ <;>
      rcases val_run place b (vs.map f) p with ⟨w', hw', hplace', hdecides', hval'⟩ | ⟨hnone', hval'⟩
    · rw [hval, hval']
      obtain ⟨e, he, rfl⟩ := mem_map.mp (hus'.subset hw)
      obtain ⟨e', he', rfl⟩ := mem_map.mp (hvs'.subset hw')
      exact h e he e' he' hplace hplace' (hdecides.mono hus'.symm.subset) (hdecides'.mono hvs'.symm.subset)
    · have hback := hus'.trans hvs'.symm
      exact absurd (hdecides.mono hback.symm.subset) (hnone' w (hback.subset hw) hplace)
    · have hback := hvs'.trans hus'.symm
      exact absurd (hdecides'.mono hback.symm.subset) (hnone w' (hback.subset hw') hplace')
    · rw [hval, hval']

end Orders

/-! ### Places of their own -/

/-- Where no two classes share a place and no two writes a number, the end is that of the same writes in any
other order, however often each of them comes. -/
theorem val_run_congr (hplace : Function.Injective place) (hsame : ∀ w, w ∈ us ↔ w ∈ ws)
    (hpos : ∀ w ∈ ws, 0 < w.num) (hnum : ∀ w ∈ ws, ∀ w' ∈ ws, w.num = w'.num → w = w') (b : Board κ ι β) :
    (run (write place) b us).val = (run (write place) b ws).val := by
  have hsub : us ⊆ ws := fun w hw => (hsame w).mp hw
  have hsup : ws ⊆ us := fun w hw => (hsame w).mpr hw
  funext p
  rcases val_run place b us p with ⟨w, hw, hat, hdecides, hval⟩ | ⟨hnone, hval⟩ <;>
    rcases val_run place b ws p with ⟨w', hw', hat', hdecides', hval'⟩ | ⟨hnone', hval'⟩
  · have hcls : w.cls = w'.cls := hplace (hat.trans hat'.symm)
    have hle := hdecides'.2.resolve_left (hpos w' hw').ne' w (hsub hw) hcls
    have hge := hdecides.2.resolve_left (hpos w (hsub hw)).ne' w' (hsup hw') hcls.symm
    rw [hval, hval', hnum w (hsub hw) w' hw' (le_antisymm hle hge)]
  · exact absurd (hdecides.mono hsup) (hnone' w (hsub hw) hat)
  · exact absurd (hdecides'.mono hsub) (hnone w' (hsup hw') hat')
  · rw [hval, hval']

/-- Writes that come in the order of their numbers are all taken. -/
theorem val_run_of_sorted (place : κ → ι) (hsorted : ws.Pairwise fun w w' => w.num < w'.num) (b : Board κ ι β)
    (hfresh : ∀ w ∈ ws, b.seen w.cls < w.num) :
    (run (write place) b ws).val = ws.foldl (fun val w => Function.update val (place w.cls) w.val) b.val := by
  induction ws generalizing b with
  | nil => rfl
  | cons w ws ih =>
    obtain ⟨hfirst, hrest⟩ := pairwise_cons.mp hsorted
    have hw := hfresh w mem_cons_self
    have htaken : ¬ b.Stale w := fun hstale => absurd hstale.2 (not_le.mpr hw)
    have hval : (b.write place w).val = update b.val (place w.cls) w.val := by
      rw [write, if_neg htaken]
    rw [run_cons, ih hrest, hval, foldl_cons]
    intro w' hw'
    rcases seen_write_cases place b w w'.cls with hkeep | ⟨-, hseen, -⟩
    · rw [hkeep]
      exact hfresh w' (mem_cons_of_mem _ hw')
    · rw [← hseen]
      exact hfirst w' hw'

end Board

end FlareIm.Lib
