import Mathlib.Data.List.Dedup
import FlareIm.Lib.KeyedMap
import FlareIm.Message.Model

/-! What a host is told about a conversation list: one step for each row that came, moved or changed, with
its place in the new list, and at the end one for each row that went away. -/

namespace FlareIm.Views

open Lib List

variable {α V : Type}

inductive ViewDeltaKind
  | insert
  | update
  | remove
  | move
deriving DecidableEq

/-- Places are of the machine type `u32`. -/
structure ViewDeltaOp (V : Type) where
  op : ViewDeltaKind
  key : String
  index : ℕ
  fromIndex : Option ℕ
  item : Option V
deriving DecidableEq

/-- A row as both sides see it: its key and its serialised content. -/
abbrev Row (V : Type) := String × V

abbrev keys (rows : List (Row V)) : List String := rows.map Prod.fst

/-! ### The steps -/

/-- No answer if a key is empty or an item cannot be serialised. -/
def keyedRows (key : α → String) (value : α → Option V) (items : List α) : Option (List (Row V)) :=
  items.mapM fun item => if key item = "" then none else (value item).map (key item, ·)

/-- The place and the content of the last row of that key. -/
def oldByKey (old : List (Row V)) (key : String) : Option (ℕ × V) :=
  (old.zipIdx.reverse.find? (·.1.1 = key)).map fun row => (row.2, row.1.2)

def asU32 (index : ℕ) : ℕ := index % 2 ^ 32

def rowOps [DecidableEq V] (old : List (Row V)) (row : Row V) (index : ℕ) : List (ViewDeltaOp V) :=
  match oldByKey old row.1 with
  | none => [⟨.insert, row.1, asU32 index, none, some row.2⟩]
  | some (oldIndex, oldValue) =>
    (if oldIndex ≠ index then [⟨.move, row.1, asU32 index, some (asU32 oldIndex), none⟩] else []) ++
      if oldValue ≠ row.2 then [⟨.update, row.1, asU32 index, none, some row.2⟩] else []

/-- `order` is the order in which the hash map gives its keys. -/
def removeOps (order : List String → List String) (old new : List (Row V)) : List (ViewDeltaOp V) :=
  (order (keys old).dedup).filterMap fun key =>
    if key ∈ keys new then none
    else (oldByKey old key).map fun entry => ⟨.remove, key, asU32 entry.1, none, none⟩

def keyedDeltaOps [DecidableEq V] (order : List String → List String) (key : α → String) (value : α → Option V)
    (old new : List α) : Option (List (ViewDeltaOp V)) := do
  let old ← keyedRows key value old
  let new ← keyedRows key value new
  some (new.zipIdx.flatMap (fun row => rowOps old row.1 row.2) ++ removeOps order old new)

/-! ### The host -/

def insertAt {β : Type} (host : List β) (index : ℕ) (row : β) : List β := host.take index ++ row :: host.drop index

variable (host : List (Row V))

/-- One step at a host, which finds rows by their key. -/
def ViewDeltaOp.apply (op : ViewDeltaOp V) : List (Row V) :=
  match op.op, op.item with
  | .insert, some item => insertAt host op.index (op.key, item)
  | .update, some item => host.map fun row => if row.1 = op.key then (op.key, item) else row
  | .remove, _ => host.filter (·.1 ≠ op.key)
  | .move, _ =>
    match host.find? (·.1 = op.key) with
    | some row => insertAt (host.filter (·.1 ≠ op.key)) op.index row
    | none => host
  | _, none => host

def applyAll (ops : List (ViewDeltaOp V)) : List (Row V) := ops.foldl ViewDeltaOp.apply host

theorem applyAll_append (ops ops' : List (ViewDeltaOp V)) :
    applyAll host (ops ++ ops') = applyAll (applyAll host ops) ops' := foldl_append

/-! ### The order of the keys -/

section Order

variable {old pre run todo : List String} {key : String}

/-- What the steps of one row do to the order: a row that is at its place stays where it is. -/
def placeKey (old host : List String) (key : String) (index : ℕ) : List String :=
  if old[index]? = some key then host else insertAt (host.filter (· ≠ key)) index key

def placeKeys (old host keys : List String) (index : ℕ) : List String :=
  (keys.zipIdx index).foldl (fun host key => placeKey old host key.1 key.2) host

def Stays (old new : List String) (index : ℕ) : Prop := ∃ key ∈ old[index]?, new[index]? = some key

/-- A row that comes or moves finds before each row that stays only what is to be there by then. -/
def Untangled (old new : List String) : Prop :=
  ∀ i j, i < j → j < new.length → Stays old new i → ¬Stays old new j → ∀ key ∈ old.take i, key ∈ new.take (j + 1)

theorem filter_insertAt {β : Type} (p : β → Bool) (host : List β) (index : ℕ) (row : β) :
    (insertAt host index row).filter p = (host.take index).filter p ++ [row].filter p ++
    (host.drop index).filter p := by
  rw [insertAt, append_cons, filter_append, filter_append]

/-- Rows that had their turn keep their order. -/
theorem filter_placeKey {done : List String} (old host : List String) (index : ℕ) (h : key ∉ done) :
    (placeKey old host key index).filter (· ∈ done) = host.filter (· ∈ done) := by
  unfold placeKey
  split_ifs
  · rfl
  · rw [filter_insertAt, filter_cons_of_neg (by simpa using h), filter_nil, append_nil,
      ← filter_append, take_append_drop,
      filter_filter]
    exact filter_congr fun x _ => by grind

/-- The rows that stay are a piece of the old list. -/
theorem exists_split_at_run (hrun : (old.drop pre.length).take run.length = run) :
    ∃ after, old = old.take pre.length ++ (run ++ after) :=
  ⟨(old.drop pre.length).drop run.length, by
    conv_lhs => rw [← take_append_drop pre.length old, ← take_append_drop run.length (old.drop pre.length), hrun]⟩

/-- They come next after those that were put in place, unless something that is to go away or behind stands
before them. -/
theorem take_eq_run_iff (hold : old.Nodup) (hrun : (old.drop pre.length).take run.length = run)
    (hnew : (pre ++ run ++ [key]).Nodup) :
    (old.filter (· ∉ pre ++ [key])).take run.length = run ↔
      run = [] ∨ ∀ k ∈ old.take pre.length, k ∈ pre ++ [key] := by
  obtain ⟨after, hsplit⟩ := exists_split_at_run hrun
  clear hrun
  generalize old.take pre.length = before at hsplit ⊢
  subst hsplit
  have hkept : run.filter (· ∉ pre ++ [key]) = run := filter_eq_self.mpr (by grind)
  rw [filter_append, filter_append, hkept]
  have hbefore : before.filter (· ∉ pre ++ [key]) = [] ↔ ∀ k ∈ before, k ∈ pre ++ [key] := by
    simp only [filter_eq_nil_iff, decide_eq_true_eq, not_not]
  rw [← hbefore]
  have hdisjoint : ∀ k ∈ before.filter (· ∉ pre ++ [key]), k ∉ run := by grind
  generalize before.filter (· ∉ pre ++ [key]) = left at hdisjoint
  constructor
  · intro h
    rcases run with _ | ⟨k, run⟩
    · exact .inl rfl
    rcases left with _ | ⟨l, left⟩
    · exact .inr rfl
    · rw [cons_append, length_cons, take_succ_cons] at h
      exact absurd ((cons.inj h).1 ▸ mem_cons_self) (hdisjoint l mem_cons_self)
  · rintro (rfl | rfl)
    · rfl
    · rw [nil_append, take_left]

variable (pre) in
/-- What is put in place next breaks the order of what had its turn, unless the rows that stay come first. -/
theorem take_eq_run_of_order {waiting : List String} (hwaiting : key ∉ waiting)
    (h : (insertAt (pre ++ waiting) (pre ++ run).length key).filter (· ∈ pre ++ run ++ [key]) =
      pre ++ run ++ [key]) :
    waiting.take run.length = run := by
  have hpre : pre.filter (· ∈ pre ++ run ++ [key]) = pre := filter_eq_self.mpr (by grind)
  rw [filter_insertAt, length_append, take_length_add_append, drop_length_add_append,
    filter_append, hpre, append_assoc,
    append_assoc, append_assoc, append_cancel_left_eq, filter_cons_of_pos (by simp),
    filter_nil, singleton_append] at h
  have hkept := ((append_cons_inj_of_notMem (fun hmem => hwaiting (mem_of_mem_take (mem_of_mem_filter hmem)))
    fun hmem => hwaiting (mem_of_mem_drop (mem_of_mem_filter hmem))).mp h).1
  have hsub : run.Sublist (waiting.take run.length) := by
    nth_rewrite 1 [← hkept]
    exact filter_sublist
  exact (hsub.eq_of_length_le (length_take_le _ _)).symm

theorem insertAt_of_take_eq_run (hold : old.Nodup)
    (hfirst : (old.filter (· ∉ pre ++ [key])).take run.length = run) :
    insertAt (pre ++ old.filter (· ∉ pre ++ [key])) (pre ++ run).length key =
      (pre ++ run ++ [key]) ++ old.filter (· ∉ pre ++ run ++ [key]) := by
  have hrest : (old.filter (· ∉ pre ++ [key])).drop run.length = old.filter (· ∉ pre ++ run ++ [key]) := by
    have hparts := take_append_drop run.length (old.filter (· ∉ pre ++ [key]))
    rw [hfirst] at hparts
    have hdisjoint := disjoint_of_nodup_append (hparts.symm ▸ hold.filter _)
    have hall : old.filter (· ∉ pre ++ run ++ [key]) = (old.filter (· ∉ pre ++ [key])).filter (· ∉ run) := by
      rw [filter_filter]
      exact filter_congr fun k _ => by grind
    rw [hall]
    nth_rewrite 2 [← hparts]
    have hnone : run.filter (· ∉ run) = [] := filter_eq_nil_iff.mpr fun k hk => by simpa using hk
    rw [filter_append, hnone, nil_append]
    exact (filter_eq_self.mpr fun k hk => by simpa using fun hrun => hdisjoint hrun hk).symm
  rw [insertAt, length_append, take_length_add_append, drop_length_add_append, hfirst, hrest]
  simp

/-- The list after the rows of `done` had their turn: up to the last one that came or moved it is new, and
the rest is what is left of the old list, with the rows of `run` at their places. -/
structure Arranged (old host done pre run : List String) : Prop where
  split : done = pre ++ run
  host_eq : host = pre ++ old.filter (· ∉ pre)
  stays : (old.drop pre.length).take run.length = run
  before : ∀ i < pre.length, Stays old done i → ∀ k ∈ old.take i, k ∈ pre

theorem stays_append_iff {done : List String} {i : ℕ} (hi : i < done.length) :
    Stays old (done ++ [key]) i ↔ Stays old done i := by
  rw [Stays, Stays, getElem?_append_left hi]

/-- If the row behind those of `done` comes or moves, it finds nothing wrong before one of them that stays. -/
def FindsRoom (old done : List String) (key : String) : Prop :=
  old[done.length]? ≠ some key → ∀ i < done.length, Stays old done i → ∀ k ∈ old.take i, k ∈ done ++ [key]

theorem untangled_concat_iff {done : List String} :
    Untangled old (done ++ [key]) ↔ Untangled old done ∧ FindsRoom old done key := by
  have hlast : Stays old (done ++ [key]) done.length ↔ old[done.length]? = some key := by simp [Stays]
  have hall : (done ++ [key]).take (done.length + 1) = done ++ [key] := take_of_length_le (by simp)
  constructor
  · intro h
    refine ⟨fun i j hij hj hi hmoves k hk => ?_, fun hmoves i hi hstay k hk => ?_⟩
    · have hmem := h i j hij (by simp; omega) ((stays_append_iff (hij.trans hj)).mpr hi)
        (mt (stays_append_iff hj).mp hmoves) k hk
      rwa [take_append_of_le_length hj] at hmem
    · exact hall ▸ h i done.length hi (by simp) ((stays_append_iff hi).mpr hstay) (mt hlast.mp hmoves) k hk
  · rintro ⟨h, hfinds⟩ i j hij hj hi hmoves k hk
    rcases (Nat.lt_succ_iff.mp (by simpa using hj)).lt_or_eq with hlt | rfl
    · rw [take_append_of_le_length hlt]
      exact h i j hij hlt ((stays_append_iff (hij.trans hlt)).mp hi) (mt (stays_append_iff hlt).mpr hmoves) k hk
    · rw [hall]
      exact hfinds (mt hlast.mpr hmoves) i hij ((stays_append_iff hij).mp hi) k hk

section Arranged

variable {host done : List String} (h : Arranged old host done pre run) (hold : old.Nodup)

include h hold

theorem Arranged.filter_eq (hdone : done.Nodup) : host.filter (· ∈ done) = done := by
  obtain ⟨rfl, rfl, hrun, -⟩ := h
  obtain ⟨after, hsplit⟩ := exists_split_at_run hrun
  have hkeep : run.filter (fun k => k ∈ pre ++ run && k ∉ pre) = run := filter_eq_self.mpr (by grind)
  have hfront : (old.take pre.length).filter (fun k => k ∈ pre ++ run && k ∉ pre) = [] :=
    filter_eq_nil_iff.mpr (by grind)
  have hback : after.filter (fun k => k ∈ pre ++ run && k ∉ pre) = [] := filter_eq_nil_iff.mpr (by grind)
  rw [filter_append, filter_eq_self.mpr (by grind), filter_filter, hsplit, filter_append,
    filter_append, hkeep, hfront,
    hback]
  simp

omit hold in
theorem Arranged.stay (hstays : old[done.length]? = some key) :
    Arranged old host (done ++ [key]) pre (run ++ [key]) where
  split := by rw [h.split, append_assoc]
  host_eq := h.host_eq
  stays := by
    rw [length_append, length_singleton, take_add_one, h.stays, getElem?_drop, ← length_append, ← h.split, hstays]
    rfl
  before i hi hstay := h.before i hi ((stays_append_iff (by rw [h.split, length_append]; omega)).mp hstay)

/-- What the next row has to find, said of the rows that stay right before it. -/
theorem Arranged.finds_iff : (∀ i < done.length, Stays old done i → ∀ k ∈ old.take i, k ∈ done ++ [key]) ↔
    run = [] ∨ ∀ k ∈ old.take pre.length, k ∈ pre ++ [key] := by
  obtain ⟨rfl, -, hrun, hbefore⟩ := h
  constructor
  · intro hfinds
    rcases run with _ | ⟨first, run⟩
    · exact .inl rfl
    have hfirst : old[pre.length]? = some first := by
      have hget := congrArg (·[0]?) hrun
      simpa [getElem?_take_of_lt, getElem?_drop] using hget
    refine .inr fun k hk => ?_
    have hdrop : k ∉ first :: run := fun hmem => disjoint_take_drop hold le_rfl hk
      (mem_of_mem_take (hrun.symm ▸ hmem))
    have hmem := hfinds pre.length (by simp) ⟨first, hfirst, by simp⟩ k hk
    simp only [mem_append] at hmem ⊢
    tauto
  · rintro hfinds i hi hstay k hk
    by_cases hlow : i < pre.length
    · exact mem_append_left _ (mem_append_left _ (hbefore i hlow hstay k hk))
    have hpre := hfinds.resolve_left fun hnil => by simp [hnil] at hi; omega
    have hk := (take_sublist_take_left (length_append ▸ hi.le)).subset hk
    rw [take_add, hrun] at hk
    rcases mem_append.mp hk with hk | hk
    · have hk := hpre k hk
      simp only [mem_append] at hk ⊢
      tauto
    · exact mem_append_left _ (mem_append_right _ hk)

omit hold in
theorem Arranged.placeKey_eq (hkey : key ∉ done) (hmoves : old[done.length]? ≠ some key) :
    placeKey old host key done.length = insertAt (pre ++ old.filter (· ∉ pre ++ [key]))
      (pre ++ run).length key := by
  have hfilter : (pre ++ old.filter (· ∉ pre)).filter (· ≠ key) = pre ++ old.filter (· ∉ pre ++ [key]) := by
    rw [filter_append, filter_filter, filter_eq_self.mpr (by grind [h.split])]
    exact congrArg (pre ++ ·) (filter_congr fun k _ => by grind)
  rw [placeKey, if_neg hmoves, h.host_eq, hfilter, h.split]

/-- The next row breaks the order, unless it finds room. -/
theorem Arranged.place (hnew : (done ++ [key]).Nodup) :
    ((placeKey old host key done.length).filter (· ∈ done ++ [key]) = done ++ [key] → FindsRoom old done key) ∧
      (FindsRoom old done key →
        ∃ pre run, Arranged old (placeKey old host key done.length) (done ++ [key]) pre run) := by
  have hkey : key ∉ done := fun hmem => disjoint_of_nodup_append hnew hmem mem_cons_self
  by_cases hmoves : old[done.length]? = some key
  · refine ⟨fun _ hne => absurd hmoves hne, fun _ => ⟨pre, run ++ [key], ?_⟩⟩
    rw [placeKey, if_pos hmoves]
    exact h.stay hmoves
  have hfinds := (h.finds_iff hold).trans (take_eq_run_iff hold h.stays (h.split ▸ hnew)).symm
  rw [h.placeKey_eq hkey hmoves]
  refine ⟨fun hright _ => hfinds.mpr (take_eq_run_of_order pre (by simp) (h.split ▸ hright)), fun hroom => ?_⟩
  refine ⟨done ++ [key], [], (append_nil _).symm, ?_, rfl, fun i hi hstay => ?_⟩
  · rw [insertAt_of_take_eq_run hold (hfinds.mp (hroom hmoves)), h.split]
  · rcases (Nat.lt_succ_iff.mp (by simpa using hi)).lt_or_eq with hlt | rfl
    · exact hroom hmoves i hlt ((stays_append_iff hlt).mp hstay)
    · exact absurd (by simpa [Stays] using hstay) hmoves

end Arranged

/-- The rows of `new` come in their order exactly when the lists are untangled. -/
theorem filter_placeKeys_eq_iff (hold : old.Nodup) {new : List String} (hnew : new.Nodup) :
    ((placeKeys old old new 0).filter (· ∈ new) = new ↔ Untangled old new) ∧
      (Untangled old new → ∃ pre run, Arranged old (placeKeys old old new 0) new pre run) := by
  induction new using reverseRecOn with
  | nil => exact ⟨by simp [Untangled, placeKeys], fun _ => ⟨[], [], rfl, by simp [placeKeys], by simp, by simp⟩⟩
  | append_singleton done key ih =>
    obtain ⟨horder, harranged⟩ := ih (nodup_append.mp hnew).1
    have hkey : key ∉ done := fun hmem => disjoint_of_nodup_append hnew hmem mem_cons_self
    have hlast : placeKeys old old (done ++ [key]) 0 = placeKey old (placeKeys old old done 0) key done.length := by
      simp [placeKeys, zipIdx_append]
    rw [hlast, untangled_concat_iff]
    generalize placeKeys old old done 0 = host at horder harranged ⊢
    have hnext : Untangled old done ∧ FindsRoom old done key →
        ∃ pre run, Arranged old (placeKey old host key done.length) (done ++ [key]) pre run := by
      rintro ⟨huntangled, hroom⟩
      obtain ⟨pre, run, h⟩ := harranged huntangled
      exact (h.place hold hnew).2 hroom
    refine ⟨⟨fun hright => ?_, fun h => ?_⟩, hnext⟩
    · have hdone : host.filter (· ∈ done) = done := by
        rw [← filter_placeKey old host done.length hkey]
        calc filter (· ∈ done) (placeKey old host key done.length)
            = filter (· ∈ done) (filter (· ∈ done ++ [key]) (placeKey old host key done.length)) := by
              rw [filter_filter]
              exact filter_congr fun k _ => by grind
          _ = done := by
              rw [hright]
              simp [hkey]
      obtain ⟨pre, run, h⟩ := harranged (horder.mp hdone)
      exact ⟨horder.mp hdone, (h.place hold hnew).1 hright⟩
    · obtain ⟨pre, run, h⟩ := hnext h
      exact h.filter_eq hold hnew

end Order

/-! ### The steps of all rows -/

section Steps

variable {old new done todo host : List (Row V)} {key : String} {value : V} {row : Row V} {i : ℕ}

theorem map_key_zipIdx (old : List (Row V)) : old.zipIdx.map (·.1.1) = keys old := by
  conv_rhs => rw [keys, ← zipIdx_map_fst 0 old, map_map]
  rfl

theorem oldByKey_eq_some_iff (hold : (keys old).Nodup) :
    oldByKey old key = some (i, value) ↔ old[i]? = some (key, value) := by
  let entries : KeyedMap String (Row V × ℕ) (·.1.1) := ⟨old.zipIdx.reverse, by simpa [map_key_zipIdx] using hold⟩
  have hfind := entries.find?_eq_some_iff key
  rw [← mk_mem_zipIdx_iff_getElem?, ← mem_reverse, oldByKey, Option.map_eq_some_iff]
  constructor
  · rintro ⟨⟨⟨k, w⟩, j⟩, hentry, heq⟩
    obtain ⟨hmem, rfl⟩ := (hfind _).mp hentry
    obtain ⟨rfl, rfl⟩ := Prod.mk.inj heq
    exact hmem
  · intro hmem
    exact ⟨((key, value), i), (hfind _).mpr ⟨hmem, rfl⟩, rfl⟩

theorem oldByKey_eq_none_iff : oldByKey old key = none ↔ key ∉ keys old := by
  rw [oldByKey, Option.map_eq_none_iff, find?_eq_none, ← map_key_zipIdx, mem_map]
  simp only [mem_reverse, decide_eq_true_eq, not_exists, not_and]

/-- The steps of one row. -/
def place (old host : List (Row V)) (row : Row V) (index : ℕ) : List (Row V) :=
  if (keys old)[index]? = some row.1 then host.map fun r => if r.1 = row.1 then row else r
  else insertAt (host.filter (·.1 ≠ row.1)) index row

/-- Rows that had their turn are new, the others old. -/
structure Turned (old done host : List (Row V)) : Prop where
  turned : ∀ r ∈ host, r.1 ∈ keys done → r ∈ done
  waiting : ∀ r, r.1 ∉ keys done → (r ∈ host ↔ r ∈ old)

theorem keys_place (old host : List (Row V)) (row : Row V) (index : ℕ) :
    keys (place old host row index) = placeKey (keys old) (keys host) row.1 index := by
  unfold place placeKey
  split_ifs
  · rw [keys, map_map]
    exact map_congr_left fun r _ => by grind
  · simp only [insertAt, keys, map_append, map_take, map_drop, map_cons, filter_map]
    rfl

theorem mem_place {r : Row V} (hne : r.1 ≠ row.1) : r ∈ place old host row i ↔ r ∈ host := by
  unfold place
  split_ifs
  · grind
  · rw [insertAt, mem_append, mem_cons, or_left_comm, ← mem_append, take_append_drop, mem_filter]
    grind

theorem eq_of_mem_place {r : Row V} (h : r ∈ place old host row i) (heq : r.1 = row.1) : r = row := by
  unfold place at h
  split_ifs at h
  · grind
  · rw [insertAt, mem_append, mem_cons, or_left_comm, ← mem_append, take_append_drop, mem_filter] at h
    exact h.resolve_right fun h => by simp [heq] at h

theorem Turned.place (h : Turned old done host) : Turned old (done ++ [row]) (place old host row i) where
  turned r hr hdone := by
    by_cases heq : r.1 = row.1
    · exact mem_append_right _ (mem_singleton.mpr (eq_of_mem_place hr heq))
    · exact mem_append_left _ (h.turned r ((mem_place heq).mp hr) (by simpa [heq] using hdone))
  waiting r hr := by
    simp only [keys, map_append, mem_append, map_cons, map_nil, mem_singleton, not_or] at hr
    rw [mem_place hr.2, h.waiting r hr.1]

theorem applyAll_update [DecidableEq V] {oldValue : V} (hown : ∀ r ∈ host, r.1 = row.1 → r = (row.1, oldValue)) :
    applyAll host (if oldValue ≠ row.2 then [⟨.update, row.1, asU32 i, none, some row.2⟩] else []) =
      host.map fun r => if r.1 = row.1 then row else r := by
  split_ifs with hvalue
  · rfl
  · refine ((map_congr_left fun r hr => ?_).trans (map_id host)).symm
    split_ifs with heq
    · rw [hown r hr heq, not_not.mp hvalue]
      rfl
    · rfl

theorem apply_rowOps [DecidableEq V] (hold : (keys old).Nodup) (hnew : row.1 ∉ keys done) (hindex : i < 2 ^ 32)
    (h : Turned old done host) : applyAll host (rowOps old row i) = place old host row i := by
  have hasU32 : asU32 i = i := Nat.mod_eq_of_lt hindex
  unfold rowOps
  split
  · next hnone =>
    have hgone := oldByKey_eq_none_iff.mp hnone
    have hhost : host.filter (·.1 ≠ row.1) = host := filter_eq_self.mpr fun r hr => by
      refine decide_eq_true fun heq => hgone (heq ▸ mem_map_of_mem ((h.waiting r (heq ▸ hnew)).mp hr))
    rw [place, if_neg fun hget => hgone (mem_of_getElem? hget), hhost]
    simp [applyAll, ViewDeltaOp.apply, hasU32]
  · next oldIndex oldValue hsome =>
    have hget := (oldByKey_eq_some_iff hold).mp hsome
    have hmem : (row.1, oldValue) ∈ old := mem_of_getElem? hget
    have hown : ∀ r ∈ host, r.1 = row.1 → r = (row.1, oldValue) := fun r hr heq =>
      inj_on_of_nodup_map hold ((h.waiting r (heq ▸ hnew)).mp hr) hmem heq
    have hstays : (keys old)[i]? = some row.1 ↔ oldIndex = i := by
      refine ⟨fun hkey => ?_, fun heq => by rw [getElem?_map, ← heq, hget]; rfl⟩
      rw [getElem?_map, Option.map_eq_some_iff] at hkey
      obtain ⟨⟨_, value⟩, hrow, rfl⟩ := hkey
      exact (Prod.mk.inj (Option.some.inj (hsome.symm.trans ((oldByKey_eq_some_iff hold).mpr hrow)))).1
    rw [applyAll_append, place]
    simp only [hstays]
    by_cases hsame : oldIndex = i
    · rw [if_neg (not_not.mpr hsame), if_pos hsame]
      exact applyAll_update hown
    · have hfind : host.find? (·.1 = row.1) = some (row.1, oldValue) := by
        cases hfound : host.find? (·.1 = row.1) with
        | none =>
          exact absurd (decide_eq_true rfl)
            (find?_eq_none.mp hfound (row.1, oldValue) ((h.waiting (row.1, oldValue) hnew).mpr hmem))
        | some r => exact congrArg some (hown r (mem_of_find?_eq_some hfound) (by simpa using find?_some hfound))
      have hothers : (host.filter (·.1 ≠ row.1)).map (fun r => if r.1 = row.1 then row else r) =
        host.filter (·.1 ≠ row.1) :=
        (map_congr_left fun r hr => if_neg (of_decide_eq_true (mem_filter.mp hr).2)).trans (map_id _)
      rw [if_pos hsame, if_neg hsame]
      have hmoved : applyAll host [⟨.move, row.1, asU32 i, some (asU32 oldIndex), none⟩] =
          insertAt (host.filter (·.1 ≠ row.1)) i (row.1, oldValue) := by
        simp [applyAll, ViewDeltaOp.apply, hfind, hasU32]
      rw [hmoved, applyAll_update fun r hr heq => ?_]
      · simp only [insertAt, map_append, map_take, map_drop, map_cons, hothers, if_true]
      · rw [insertAt, mem_append, mem_cons, or_left_comm, ← mem_append, take_append_drop, mem_filter] at hr
        exact hr.resolve_right fun h => by simp [heq] at h

theorem applyAll_rowOps [DecidableEq V] (hold : (keys old).Nodup) (done todo host : List (Row V))
    (hnew : (keys (done ++ todo)).Nodup) (hlen : (done ++ todo).length ≤ 2 ^ 32) (h : Turned old done host) :
    let shown := applyAll host ((todo.zipIdx done.length).flatMap fun row => rowOps old row.1 row.2)
    Turned old (done ++ todo) shown ∧ keys shown = placeKeys (keys old) (keys host) (keys todo) done.length := by
  induction todo generalizing done host with
  | nil => exact ⟨by rwa [append_nil], rfl⟩
  | cons row todo ih =>
    have hturn : applyAll host (rowOps old row done.length) = place old host row done.length :=
      apply_rowOps hold (by grind) (by grind) h
    rw [append_cons] at hnew hlen ⊢
    have hrest := ih (done ++ [row]) (place old host row done.length) hnew hlen h.place
    rw [length_append, length_singleton, keys_place] at hrest
    dsimp only at hrest ⊢
    rw [zipIdx_cons, flatMap_cons, applyAll_append, hturn]
    exact hrest

theorem applyAll_removes (ops : List (ViewDeltaOp V)) (hops : ∀ op ∈ ops, op.op = .remove) (host : List (Row V)) :
    applyAll host ops = host.filter (·.1 ∉ ops.map ViewDeltaOp.key) := by
  induction ops generalizing host with
  | nil => simp [applyAll]
  | cons op ops ih =>
    obtain ⟨hop, hops⟩ := forall_mem_cons.mp hops
    have hone : op.apply host = host.filter (·.1 ≠ op.key) := by
      rw [ViewDeltaOp.apply, hop]
    rw [applyAll, foldl_cons, ← applyAll, hone, ih hops, filter_filter]
    grind

theorem applyAll_removeOps {order : List String → List String} (horder : ∀ ks, (order ks).Perm ks)
    (h : Turned old new host) : applyAll host (removeOps order old new) = host.filter (·.1 ∈ keys new) := by
  have hops : ∀ op ∈ removeOps order old new, op.op = .remove ∧ op.key ∉ keys new := by
    intro op hop
    obtain ⟨key, -, hop⟩ := mem_filterMap.mp hop
    split_ifs at hop with hnew
    obtain ⟨entry, -, rfl⟩ := Option.map_eq_some_iff.mp hop
    exact ⟨rfl, hnew⟩
  have hkeys : ∀ key ∈ keys old, key ∉ keys new → key ∈ (removeOps order old new).map ViewDeltaOp.key := by
    intro key hmem hnew
    obtain ⟨entry, hentry⟩ := Option.ne_none_iff_exists'.mp fun hnone => oldByKey_eq_none_iff.mp hnone hmem
    refine mem_map.mpr ⟨⟨.remove, key, asU32 entry.1, none, none⟩, mem_filterMap.mpr ⟨key, ?_, ?_⟩, rfl⟩
    · exact (horder _).mem_iff.mpr (mem_dedup.mpr hmem)
    · rw [if_neg hnew, hentry]
      rfl
  rw [applyAll_removes _ fun op hop => (hops op hop).1]
  refine filter_congr fun r hr => decide_eq_decide.mpr ⟨fun hkept => ?_, fun hnew hgone => ?_⟩
  · by_contra hnew
    exact hkept (hkeys r.1 (mem_map_of_mem ((h.waiting r hnew).mp hr)) hnew)
  · obtain ⟨op, hop, heq⟩ := mem_map.mp hgone
    exact (hops op hop).2 (heq ▸ hnew)

theorem Turned.filter_eq_iff (h : Turned old new host) (hnew : (keys new).Nodup) :
    host.filter (·.1 ∈ keys new) = new ↔ (keys host).filter (· ∈ keys new) = keys new := by
  have hkeys : (keys host).filter (· ∈ keys new) = keys (host.filter (·.1 ∈ keys new)) := filter_map
  rw [hkeys]
  refine ⟨congrArg keys, fun heq => ext_getElem (by simpa using congrArg length heq) fun i hi hi' => ?_⟩
  obtain ⟨hhost, hmem⟩ := mem_filter.mp (getElem_mem hi)
  refine inj_on_of_nodup_map hnew (h.turned _ hhost (of_decide_eq_true hmem)) (getElem_mem hi') ?_
  simpa [hi, hi'] using congrArg (·[i]?) heq

theorem keys_keyedRows {key : α → String} {content : α → Option V} {items : List α} {rows : List (Row V)}
    (h : keyedRows key content items = some rows) : keys rows = items.map key := by
  induction items generalizing rows with
  | nil =>
    cases h
    rfl
  | cons item items ih =>
    simp only [keyedRows, mapM_cons, Option.bind_eq_bind, Option.bind_eq_some_iff, Option.pure_def] at h
    obtain ⟨row, hrow, rest, hrest, heq⟩ := h
    obtain rfl := Option.some.inj heq
    split_ifs at hrow
    obtain ⟨content, -, rfl⟩ := Option.map_eq_some_iff.mp hrow
    simpa using ih hrest

end Steps

/-- A host that applies the steps to the old list has the new one exactly when no row that comes or moves finds,
before a row that keeps its place, one that goes away or further behind. -/
theorem apply_keyedDeltaOps [DecidableEq V] {order : List String → List String} {key : α → String}
    {value : α → Option V} {old new : List α} {ops : List (ViewDeltaOp V)} (horder : ∀ ks, (order ks).Perm ks)
    (hold : (old.map key).Nodup) (hnew : (new.map key).Nodup) (hlen : new.length ≤ 2 ^ 32)
    (hops : keyedDeltaOps order key value old new = some ops) :
    ∃ host host', keyedRows key value old = some host ∧ keyedRows key value new = some host' ∧
      (applyAll host ops = host' ↔ Untangled (old.map key) (new.map key)) := by
  simp only [keyedDeltaOps, Option.bind_eq_bind, Option.bind_eq_some_iff] at hops
  obtain ⟨host, hhost, host', hhost', heq⟩ := hops
  obtain rfl := Option.some.inj heq
  refine ⟨host, host', hhost, hhost', ?_⟩
  rw [← keys_keyedRows hhost, ← keys_keyedRows hhost'] at *
  have hlen' : host'.length = new.length := by
    simpa using congrArg length (keys_keyedRows hhost')
  obtain ⟨hturned, hkeys⟩ := applyAll_rowOps hold [] host' host hnew (hlen'.trans_le hlen) ⟨by simp, by simp⟩
  rw [length_nil] at hturned hkeys
  rw [nil_append] at hturned
  rw [applyAll_append, applyAll_removeOps horder hturned, hturned.filter_eq_iff hnew, hkeys]
  exact (filter_placeKeys_eq_iff hold hnew).1

/-- The second conversation goes to the top. -/
theorem apply_keyedDeltaOps_top : ∃ host host', keyedRows id some ["a", "b", "c"] = some host ∧
    keyedRows id some ["b", "a", "c"] = some host' ∧
      applyAll host [(⟨.move, "b", 0, some 1, none⟩ : ViewDeltaOp String),
        ⟨.move, "a", 1, some 0, none⟩] = host' := by
  obtain ⟨host, host', hhost, hhost', hiff⟩ := apply_keyedDeltaOps (fun ks => Perm.refl (id ks)) (by decide)
    (by decide) (by decide) (by decide : keyedDeltaOps id id some ["a", "b", "c"] ["b", "a", "c"] =
      some [⟨.move, "b", 0, some 1, none⟩, ⟨.move, "a", 1, some 0, none⟩])
  refine ⟨host, host', hhost, hhost', hiff.mpr fun i j hij hj ⟨k, hk, hk'⟩ => ?_⟩
  obtain rfl | rfl : i = 0 ∨ i = 1 := by simp at hj; omega
  · exact absurd (hk.trans hk'.symm) (by decide)
  · exact absurd (hk.trans hk'.symm) (by decide)

/-- One conversation is replaced by another and the one behind it keeps its place: what comes next is inserted
before it. -/
theorem apply_keyedDeltaOps_replaced :
    (keyedDeltaOps id id some ["a", "b"] ["x", "b", "y"]).map (applyAll [("a", "a"), ("b", "b")]) =
      some [("x", "x"), ("y", "y"), ("b", "b")] := by
  decide

end FlareIm.Views
