import FlareIm.Access.Manifests

/-! What the bootstrap fetcher remembers of the sources of the access manifest: the ETags
of the documents they have served, when they last succeeded, and until when those that
served something that cannot be trusted are demoted. The book is bounded, and the source
with the oldest success is given up first. Times are integers: the clock is taken to stay more
than a day below the end of an `i64`. -/

namespace FlareIm.Access.Bootstrap

open Lib Std.ExtTreeMap

def demotionMs : ℤ := 86400000

def maxTrackedSources : ℕ := 64

structure SourceRecord where
  accessEtag : Option String := none
  accessSerial : Option ℕ := none
  keysEtag : Option String := none
  keysSerial : Option ℕ := none
  lastSuccessMs : Option ℤ := none
  demotedUntilMs : Option ℤ := none
  deriving DecidableEq, Repr

structure SourceBook where
  sources : Std.ExtTreeMap String SourceRecord := ∅
  lastRefreshMs : Option ℤ := none

namespace SourceBook

variable (b : SourceBook)

/-- The source with the oldest success; among those, the first in the order of the keys. -/
def oldest : Option String :=
  (b.sources.toList.foldl (fun best entry =>
      match best with
      | none => some entry
      | some kept =>
        if entry.2.lastSuccessMs.getD (-2 ^ 63) < kept.2.lastSuccessMs.getD (-2 ^ 63) then some entry
        else some kept)
    none).map (·.1)

section

variable (key : String)

/-- A full book gives up its oldest source for a new one. -/
def makeRoom : SourceBook :=
  if !b.sources.contains key && maxTrackedSources ≤ b.sources.size then
    match b.oldest with
    | some oldest => { b with sources := b.sources.erase oldest }
    | none => b
  else b

/-- A change of the `entry` of a source. -/
def update (change : SourceRecord → SourceRecord) : SourceBook :=
  let b := b.makeRoom key
  { b with sources := b.sources.insert key (change (b.sources.getD key {})) }

def isDemoted (nowMs : ℤ) : Bool :=
  (b.sources[key]?.bind (·.demotedUntilMs)).any (nowMs < ·)

def lastSuccessMs : Option ℤ := b.sources[key]?.bind (·.lastSuccessMs)

/-- An ETag is sent only for the document in use, and not to a source that is demoted. -/
def accessEtag (currentSerial : ℕ) (nowMs : ℤ) : Option String :=
  b.sources[key]?.bind fun record =>
    if record.accessSerial = some currentSerial ∧ b.isDemoted key nowMs = false then record.accessEtag else none

def keysEtag (keystateSerial : Option ℕ) (nowMs : ℤ) : Option String :=
  b.sources[key]?.bind fun record =>
    if keystateSerial.isSome ∧ record.keysSerial = keystateSerial ∧
      b.isDemoted key nowMs = false then record.keysEtag
    else none

/-- The source has confirmed the document in use. -/
def confirmed (nowMs : ℤ) : SourceBook := b.update key ({ · with lastSuccessMs := some nowMs })

def servedAccess (etag : Option String) (serial : ℕ) (nowMs : ℤ) : SourceBook :=
  b.update key ({ · with
    accessEtag := etag, accessSerial := some serial, lastSuccessMs := some nowMs, demotedUntilMs := none })

def servedKeys (etag : Option String) (serial : ℕ) : SourceBook :=
  b.update key ({ · with keysEtag := etag, keysSerial := some serial })

def demote (nowMs : ℤ) : SourceBook :=
  b.update key ({ · with demotedUntilMs := some (nowMs + demotionMs) })

end

def touch (nowMs : ℤ) : SourceBook := { b with lastRefreshMs := some nowMs }

variable {b} {key other : String} {nowMs : ℤ}

theorem isDemoted_iff : b.isDemoted key nowMs = true ↔
      ∃ record untilMs, b.sources[key]? = some record ∧ record.demotedUntilMs = some untilMs ∧ nowMs < untilMs := by
  simp only [isDemoted, Option.any_eq_true, Option.bind_eq_some_iff, decide_eq_true_eq]
  exact ⟨fun ⟨untilMs, ⟨record, hrecord, huntil⟩, hlt⟩ => ⟨record, untilMs, hrecord, huntil, hlt⟩,
    fun ⟨record, untilMs, hrecord, huntil, hlt⟩ => ⟨untilMs, ⟨record, hrecord, huntil⟩, hlt⟩⟩

theorem getElem?_makeRoom {record : SourceRecord} (h : (b.makeRoom key).sources[other]? = some record) :
    b.sources[other]? = some record := by
  rw [makeRoom] at h
  split_ifs at h
  · split at h
    · rw [getElem?_erase] at h
      split_ifs at h
      exact h
    · exact h
  · exact h

variable {change : SourceRecord → SourceRecord} {serial : ℕ}

/-- A change of a record that does not demote its source demotes nobody, whoever is
given up for it. -/
theorem isDemoted_of_update
    (hchange : key = other → ∀ record, (change record).demotedUntilMs = record.demotedUntilMs)
    (h : (b.update key change).isDemoted other nowMs = true) : b.isDemoted other nowMs = true := by
  obtain ⟨record, untilMs, hrecord, huntil, hlt⟩ := isDemoted_iff.mp h
  rw [update, getElem?_insert] at hrecord
  split_ifs at hrecord with hcompare
  · obtain rfl := Std.LawfulEqCmp.eq_of_compare hcompare
    obtain rfl := Option.some.inj hrecord
    rw [hchange rfl, getD_eq_getD_getElem?] at huntil
    cases hold : (b.makeRoom key).sources[key]? with
    | none =>
      rw [hold] at huntil
      cases huntil
    | some old =>
      rw [hold] at huntil
      exact isDemoted_iff.mpr ⟨old, untilMs, getElem?_makeRoom hold, huntil, hlt⟩
  · exact isDemoted_iff.mpr ⟨record, untilMs, getElem?_makeRoom hrecord, huntil, hlt⟩

/-- `b'` demotes nobody but the source at `key`. -/
def Touches (key : String) (b b' : SourceBook) : Prop :=
  ∀ other, key ≠ other → ∀ nowMs, b'.isDemoted other nowMs = true → b.isDemoted other nowMs = true

theorem Touches.refl (b : SourceBook) : Touches key b b := fun _ _ _ h => h

theorem Touches.update (b : SourceBook) (key : String) (change : SourceRecord → SourceRecord) :
    Touches key b (b.update key change) :=
  fun _ hne _ h => isDemoted_of_update (fun heq => absurd heq hne) h

theorem Touches.demote_if (b : SourceBook) (key : String) (nowMs : ℤ) (suspicious : Bool) :
    Touches key b (if suspicious then b.demote key nowMs else b) := by
  split_ifs
  · exact .update b key _
  · exact .refl b

theorem isDemoted_of_servedKeys {etag : Option String}
    (h : (b.servedKeys key etag serial).isDemoted other nowMs = true) : b.isDemoted other nowMs = true := by
  refine isDemoted_of_update ?_ h
  exact fun _ _ => rfl

theorem isDemoted_eq_false_of_accessEtag (h : (b.accessEtag key serial nowMs).isSome) :
    b.isDemoted key nowMs = false := by
  obtain ⟨etag, hetag⟩ := Option.isSome_iff_exists.mp h
  obtain ⟨record, -, hetag⟩ := Option.bind_eq_some_iff.mp hetag
  split_ifs at hetag with hcurrent
  exact hcurrent.2

/-! ### Sequences of updates -/

/-- A record of `key` cannot be had without giving up that of `other`. -/
def GivesUp (b : SourceBook) (key other : String) : Prop :=
  b.sources.contains key = false ∧ maxTrackedSources ≤ b.sources.size ∧ b.oldest = some other

instance : Decidable (b.GivesUp key other) := inferInstanceAs (Decidable (_ ∧ _))

theorem getElem?_makeRoom_of_not_givesUp (h : ¬ b.GivesUp key other) :
    (b.makeRoom key).sources[other]? = b.sources[other]? := by
  unfold makeRoom
  split_ifs with hfull
  · split
    · next oldest holdest =>
      rw [getElem?_erase, if_neg]
      intro hcompare
      obtain rfl := Std.LawfulEqCmp.eq_of_compare hcompare
      simp only [Bool.and_eq_true, Bool.not_eq_true', decide_eq_true_eq] at hfull
      exact h ⟨hfull.1, hfull.2, holdest⟩
    · rfl
  · rfl

/-- A source stays demoted through an update that neither ends its demotion nor gives it up. -/
theorem isDemoted_update (hgives : ¬ b.GivesUp key other)
    (hchange : key = other → ∀ record untilMs, record.demotedUntilMs = some untilMs → nowMs < untilMs →
      ∃ untilMs, (change record).demotedUntilMs = some untilMs ∧ nowMs < untilMs)
    (h : b.isDemoted other nowMs = true) : (b.update key change).isDemoted other nowMs = true := by
  obtain ⟨record, untilMs, hrecord, huntil, hlt⟩ := isDemoted_iff.mp h
  rw [← getElem?_makeRoom_of_not_givesUp hgives] at hrecord
  refine isDemoted_iff.mpr ?_
  rw [update, getElem?_insert]
  split_ifs with hcompare
  · obtain rfl := Std.LawfulEqCmp.eq_of_compare hcompare
    obtain ⟨untilMs, huntil, hlt⟩ := hchange rfl record untilMs huntil hlt
    refine ⟨_, untilMs, rfl, ?_, hlt⟩
    rw [getD_eq_getD_getElem?, hrecord, Option.getD_some, huntil]
  · exact ⟨record, untilMs, hrecord, huntil, hlt⟩

end SourceBook

inductive SourceUpdate where
  | confirmed (key : String) (nowMs : ℤ)
  | servedAccess (key : String) (etag : Option String) (serial : ℕ) (nowMs : ℤ)
  | servedKeys (key : String) (etag : Option String) (serial : ℕ)
  | demote (key : String) (nowMs : ℤ)
  | touch (nowMs : ℤ)

namespace SourceUpdate

def apply (b : SourceBook) : SourceUpdate → SourceBook
  | confirmed key nowMs => b.confirmed key nowMs
  | servedAccess key etag serial nowMs => b.servedAccess key etag serial nowMs
  | servedKeys key etag serial => b.servedKeys key etag serial
  | demote key nowMs => b.demote key nowMs
  | touch nowMs => b.touch nowMs

/-- What leaves a source demoted that was demoted at `sinceMs`: it serves no verified
document, is not demoted anew by an earlier clock, and is not given up for another. -/
def Spares (source : String) (sinceMs : ℤ) (b : SourceBook) : SourceUpdate → Prop
  | confirmed key _ | servedKeys key _ _ => ¬ b.GivesUp key source
  | servedAccess key _ _ _ => key ≠ source ∧ ¬ b.GivesUp key source
  | demote key nowMs => (key = source → sinceMs ≤ nowMs) ∧ ¬ b.GivesUp key source
  | touch _ => True

theorem isDemoted_apply {source : String} {sinceMs nowMs : ℤ} (hnow : nowMs < sinceMs + demotionMs) (b : SourceBook)
    (u : SourceUpdate) (h : b.isDemoted source nowMs = true) (hspares : Spares source sinceMs b u) :
    (apply b u).isDemoted source nowMs = true := by
  cases u with
  | confirmed key _ | servedKeys key _ _ =>
    exact SourceBook.isDemoted_update hspares (fun _ _ untilMs huntil hlt => ⟨untilMs, huntil, hlt⟩) h
  | servedAccess key etag serial _ =>
    exact SourceBook.isDemoted_update hspares.2
      (fun heq => absurd heq hspares.1) h
  | demote key againMs =>
    refine SourceBook.isDemoted_update hspares.2 (fun heq _ _ _ _ => ⟨_, rfl, ?_⟩) h
    exact hnow.trans_le (Int.add_le_add_right (hspares.1 heq) _)
  | touch _ => exact h

/-- A source stays demoted for a day through every sequence of updates that spares it. -/
theorem isDemoted_run (b : SourceBook) (source : String) (sinceMs nowMs : ℤ) (us : List SourceUpdate)
    (hspares : AllSteps apply (Spares source sinceMs) (b.demote source sinceMs) us)
    (hnow : nowMs < sinceMs + demotionMs) :
    (run apply (b.demote source sinceMs) us).isDemoted source nowMs = true :=
  run_invariant (isDemoted_apply hnow) us _
    (SourceBook.isDemoted_iff.mpr ⟨_, _, getElem?_insert_self, rfl, hnow⟩) hspares

theorem isDemoted_run_confirmed :
    (run apply (({} : SourceBook).demote "a" 0) [confirmed "a" 5, demote "a" 7,
      servedAccess "b" none 1 9]).isDemoted
      "a" 86399999 = true := by
  refine isDemoted_run {} "a" 0 86399999 _ ⟨?_, ?_, ?_, trivial⟩ (by decide) <;>
  · unfold Spares
    decide +kernel

/-- A source that never succeeded is the first to be given up: once 64 others have confirmed
the document, the demotion of one that served a forged document is forgotten. -/
theorem not_isDemoted_after_others :
    (run apply (({} : SourceBook).demote "forger" 0)
      ((List.range 64).map fun n => confirmed (toString n) 1)).isDemoted
      "forger" 1 = false := by
  decide +kernel

end SourceUpdate

end FlareIm.Access.Bootstrap
