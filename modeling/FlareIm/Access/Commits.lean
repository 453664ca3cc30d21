import FlareIm.Access.Manifests

/-! Commits of several manifest stores to one access store: two tabs of a browser, or
one runtime after another over the same data. Every store has a gate, so its own
commits follow each other, and a cache of the maxima it has read; neither knows of the
other stores. Between the check of a serial and the write, or since the cache was
filled, another store can have written a larger serial, and the write then brings the
maximum back. As long as no write is behind what is stored, the maximum of every
document only grows. -/

namespace FlareIm.Access

open Lib Function

structure Task where
  /-- The manifest store it runs on. -/
  store : ℕ
  commit : Commit
  phase : Phase

/-- The access store with the manifest stores over it and their commits. -/
structure World where
  entries : Entries
  caches : ℕ → MaxCache := fun _ _ => none
  /-- The task that holds the gate of a manifest store. -/
  gates : ℕ → Option ℕ := fun _ => none
  tasks : ℕ → Option Task := fun _ => none

inductive CommitEvent
  | start (task store : ℕ) (commit : Commit)
  | advance (task : ℕ) (fails : Bool)

namespace World

variable (stores : ℕ → ManifestStore) (w : World)

/-- A task cannot move while it waits for a gate that another holds. -/
def blocked (task : Task) : Bool :=
  match task.phase with
  | .waiting => (w.gates task.store).isSome
  | .done _ => true
  | _ => false

/-- The gate is released with the end of a commit. -/
def holder (task : ℕ) : Phase → Option ℕ
  | .done _ => none
  | _ => some task

def advance (id : ℕ) (task : Task) (fails : Bool) : World :=
  let t := CommitState.step (stores task.store) task.commit ⟨w.entries, w.caches task.store, task.phase⟩ fails
  { entries := t.entries
    caches := Function.update w.caches task.store t.cache
    gates := Function.update w.gates task.store (holder id t.phase)
    tasks := Function.update w.tasks id (some { task with phase := t.phase }) }

def step : CommitEvent → World
  | .start id store commit =>
    if (w.tasks id).isSome then w
    else { w with tasks := Function.update w.tasks id (some ⟨store, commit, .waiting⟩) }
  | .advance id fails =>
    match w.tasks id with
    | none => w
    | some task => if w.blocked task then w else w.advance stores id task fails

def keysOf (task : Task) : DocKeys := (stores task.store).keysFor task.commit.doc

/-- The maximum that a task about to write has checked its serial against. -/
def checkedMax (task : Task) : Option (Option ℕ) :=
  match task.phase with
  | .write max _ _ => some max
  | _ => none

/-- A write that succeeds has checked its serial against a maximum that is not behind
the stored one. -/
def WritesAhead : CommitEvent → Prop
  | .start .. => True
  | .advance id fails => fails = false →
      ∀ task ∈ w.tasks id, ∀ max ∈ checkedMax task, (keysOf stores task).maxIn w.entries ≤ max

instance (w : World) : ∀ e, Decidable (w.WritesAhead stores e)
  | .start .. => inferInstanceAs (Decidable True)
  | .advance _ fails => inferInstanceAs (Decidable (fails = false → ∀ task ∈ _, ∀ max ∈ _, _))

def KeepsMaxima (e : CommitEvent) : Prop :=
  ∀ doc place, (DocType.keys doc place).maxIn w.entries ≤ (DocType.keys doc place).maxIn (w.step stores e).entries

/-- Every task has passed its serial check, if it is past that. -/
def Checked : Prop := ∀ id task, w.tasks id = some task → CommitState.Passed task.commit task.phase

variable {stores} {w : World} {id : ℕ} {task : Task} {fails : Bool}

theorem Checked.advance (h : w.Checked) (htask : w.tasks id = some task) :
    (w.advance stores id task fails).Checked := by
  intro id' task' htask'
  rw [World.advance] at htask'
  dsimp only at htask'
  by_cases hid : id' = id
  · rw [hid, update_self] at htask'
    obtain rfl := Option.some.inj htask'
    exact (CommitState.moves_step _ _).passed (h id task htask)
  · rw [update_of_ne hid] at htask'
    exact h id' task' htask'

theorem Checked.step (h : w.Checked) (e : CommitEvent) : (w.step stores e).Checked := by
  cases e with
  | start id store commit =>
    rw [World.step]
    split_ifs
    · exact h
    · intro id' task' htask'
      dsimp only at htask'
      by_cases hid : id' = id
      · rw [hid, update_self] at htask'
        obtain rfl := Option.some.inj htask'
        exact trivial
      · rw [update_of_ne hid] at htask'
        exact h id' task' htask'
  | advance id fails =>
    rw [World.step]
    cases htask : w.tasks id with
    | none => exact h
    | some task =>
      dsimp only
      split_ifs
      · exact h
      · exact h.advance htask

theorem entries_advance :
    (w.advance stores id task fails).entries = (CommitState.step (stores task.store) task.commit
      ⟨w.entries, w.caches task.store, task.phase⟩ fails).entries :=
  rfl

/-- A write that is ahead of what is stored raises the maximum to its serial. -/
theorem le_maxIn_advance (h : w.Checked) (htask : w.tasks id = some task)
    (hahead : fails = false → ∀ max ∈ checkedMax task, (keysOf stores task).maxIn w.entries ≤ max)
    (doc : DocType) (place : String) :
    (doc.keys place).maxIn w.entries ≤ (doc.keys place).maxIn (w.advance stores id task fails).entries := by
  have hmoves := CommitState.moves_step (m := stores task.store) (c := task.commit)
    ⟨w.entries, w.caches task.store, task.phase⟩ fails
  obtain heq | ⟨hfails, max, check, current, hphase, heq⟩ := hmoves.entries
  · rw [entries_advance, heq]
    exact option_le_refl _
  · rw [entries_advance, heq]
    dsimp only at hphase ⊢
    by_cases hsame : doc = task.commit.doc ∧ place = (stores task.store).place task.commit.doc
    · obtain ⟨rfl, rfl⟩ := hsame
      have hpassed := h id task htask
      rw [hphase] at hpassed
      have hstored := hahead hfails max (by simp [checkedMax, hphase])
      rw [ManifestStore.keysFor, maxIn_applyOps]
      exact option_le_trans hstored (le_of_checkSerial hpassed)
    · rw [ManifestStore.keysFor, maxIn_applyOps_of_ne hsame]
      exact option_le_refl _

theorem keepsMaxima_of_writesAhead (h : w.Checked) {e : CommitEvent} (hahead : w.WritesAhead stores e) :
    w.KeepsMaxima stores e := by
  intro doc place
  cases e with
  | start id store commit =>
    rw [step]
    split_ifs <;> exact option_le_refl _
  | advance id fails =>
    rw [step]
    cases htask : w.tasks id with
    | none => exact option_le_refl _
    | some task =>
      dsimp only
      split_ifs
      · exact option_le_refl _
      · exact le_maxIn_advance h htask (fun hfails => hahead hfails task htask) doc place

theorem checked_start (entries : Entries) : Checked { entries } := by
  intro id task htask
  cases htask

end World

open World in
/-- In every interleaving of commits in which no write is behind what is stored, the
maximum of no document goes back. -/
theorem keepsMaxima_run (stores : ℕ → ManifestStore) (entries : Entries) (events : List CommitEvent)
    (h : AllSteps (step stores) (WritesAhead stores) { entries } events) :
    AllSteps (step stores) (KeepsMaxima stores) { entries } events :=
  AllSteps.of_invariant (I := Checked) (fun _ e hw _ => hw.step e)
    (fun _ _ hw hahead => keepsMaxima_of_writesAhead hw hahead) events { entries }
    (checked_start entries) h

/-! ### Two tabs -/

def sampleCommit (serial : ℕ) (h : serial ≤ Message.maxU64 := by decide) : Commit where
  doc := .access
  serial := serial
  serial_le := h
  envelope := []
  info := { source := .seed, fetchedAtMs := 0 }

def sampleTask (task store serial : ℕ) (h : serial ≤ Message.maxU64 := by decide) : List CommitEvent :=
  .start task store (sampleCommit serial h) :: List.replicate 5 (.advance task false)

def sampleTabs : ℕ → ManifestStore := fun _ => ⟨"app", "roots", "web/stable"⟩

theorem keepsMaxima_run_sampleTasks :
    AllSteps (World.step sampleTabs) (World.KeepsMaxima sampleTabs) { entries := ∅ }
      (sampleTask 0 0 10 ++ sampleTask 1 1 12) :=
  keepsMaxima_run sampleTabs ∅ _ (by decide)

/-- The first tab has 10 in its cache; the second commits 12, then the first commits 11. -/
theorem maxIn_falls_sampleTabs :
    let before := run (World.step sampleTabs) { entries := ∅ } (sampleTask 0 0 10 ++ sampleTask 1 1 12)
    let after := run (World.step sampleTabs) before (sampleTask 2 0 11)
    (DocType.access.keys "app").maxIn before.entries = some 12 ∧
      (DocType.access.keys "app").maxIn after.entries = some 11 := by
  decide

end FlareIm.Access
