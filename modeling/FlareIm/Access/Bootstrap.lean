import FlareIm.Access.Calls
import FlareIm.Access.Releases
import FlareIm.Access.Sources
import Mathlib.Data.List.Sort

/-! One round of the bootstrap fetcher. The sources are asked in turn, a few at a time,
each for the key state and the access manifest; the answers are taken in the order in
which they come. A source that has served the document in use is asked with its ETag,
unless it is demoted. A document that a source serves is left to the kernel; a 304 ends
a periodic round, counts as an answer and as a success of the source, and nothing is
asked about what the source was sent. When nobody answers in a recovery round, the DNS is
asked for more sources. -/

namespace FlareIm.Access

open Lib List

/-- The text of an error, without what the store itself has to say. -/
def AcceptError.text : AcceptError → String
  | .trust error => error.code
  | .store .backend => "access store backend failed: "
  | .store .corrupt => "access store value is corrupt: "
  | .developmentMode => "manifests are not accepted in development mode"

namespace Bootstrap

/-! ### Reports -/

inductive RefreshMode
  | background
  | notified (serial : ℕ)
  | recovering
  deriving DecidableEq, Repr

inductive RefreshOutcome
  | adopted
  | upToDate
  | oldValues
  | failed
  deriving DecidableEq, Repr

/-- The part of a report that the schedule of the rounds reads. -/
structure RefreshReport where
  mode : RefreshMode
  outcome : RefreshOutcome
  /-- The serial of the directory at the end of the round. -/
  serial : ℕ
  retryAfterMs : Option ℕ
  deriving DecidableEq, Repr

def notifiedRetryDelayMs : ℕ := 30000

/-- A round for a notice that has not reached its serial is to be repeated. -/
def RefreshReport.conclude (mode : RefreshMode) (outcome : RefreshOutcome) (serial : ℕ) : RefreshReport where
  mode := mode
  outcome := outcome
  serial := serial
  retryAfterMs :=
    match mode with
    | .notified target => if serial < target then some notifiedRetryDelayMs else none
    | _ => none

/-! ### A round -/

inductive SourceTier
  | mirror
  | wellKnown
  | pointer
  | resolver
  deriving DecidableEq, Repr

inductive AttemptResult
  | adopted
  | notModified
  | sameSerial
  | olderSerial
  | rejected
  | failed
  | resolved
  deriving DecidableEq, Repr

structure SourceAttempt where
  source : String
  tier : SourceTier
  document : String
  result : AttemptResult
  code : Option String
  serial : Option ℕ
  deriving DecidableEq, Repr

structure SourceCandidate where
  key : String
  tier : SourceTier
  source : ManifestSource
  deriving DecidableEq, Repr

structure BootstrapSource where
  kind : String
  url : Option String
  deriving DecidableEq, Repr

structure AccessPoint where
  id : String
  disabled : Bool
  deriving DecidableEq, Repr

def SourceCandidate.mirror (url : String) (tier : SourceTier) : SourceCandidate :=
  ⟨(ManifestSource.https url).label, tier, .https url⟩

/-- `is_suspicious`: the source serves what cannot be trusted. A document that has expired
or was signed with a revoked key may still lie in a cache, and a new schema is no fault of
the source. -/
def isSuspicious : TrustError → Bool
  | .keyCert _ .notYetValid | .keyCert _ .expired => false
  | .revoked _ | .expired _ | .unsupportedSchema _ => false
  | _ => true

def trustFailure : TrustError → AttemptResult × Option ℕ
  | .rollback serial _ => (.olderSerial, some serial)
  | _ => (.rejected, none)

structure Round where
  mode : RefreshMode
  tried : List String := []
  /-- How many sources have given a trustworthy answer. -/
  answered : ℕ := 0
  /-- The serials that were adopted, in order. -/
  adoptions : List ℕ := []
  keystate : Option KeystateUpdate := none
  attempts : List SourceAttempt := []
  deriving DecidableEq, Repr

def Round.record (r : Round) (c : SourceCandidate) (document : String) (result : AttemptResult)
    (code : Option String)
    (serial : Option ℕ) : Round :=
  { r with attempts := r.attempts ++ [⟨c.key, c.tier, document, result, code, serial⟩] }

structure EtagPair where
  access : Option String
  keys : Option String
  deriving DecidableEq, Repr

structure InFlight where
  candidate : SourceCandidate
  etags : EtagPair
  deriving DecidableEq, Repr

/-- What a source makes of the two requests, when the answer is taken, and what the store
refuses meanwhile. -/
structure Fetched where
  keys : Answer
  access : Answer
  nowMs : Int64
  keysFaults : Faults := {}
  accessFaults : Faults := {}

inductive Flow
  | continue
  | done
  deriving DecidableEq, Repr

def afterNoUpdate : RefreshMode → Flow
  | .background => .done
  | .notified _ | .recovering => .continue

/-- What the answers to a round change. -/
structure Progress (Key : Type) where
  kernel : AccessKernel Key
  book : SourceBook
  round : Round

variable {Key Recovery : Type} {key : String}

section Ingest

variable (P : Primitives Key Recovery) (config : AccessConfig Key)

def reachedTarget (kernel : AccessKernel Key) : RefreshMode → Bool
  | .notified serial => serial ≤ kernel.directory.serial
  | _ => false

section

variable (p : Progress Key) (c : SourceCandidate) (fetched : Fetched)

/-- A source without a key state is no worse for it. -/
def ingestKeys : Progress Key :=
  match fetched.keys with
  | .failed _ => p
  | .response status etag body =>
    if status ≠ 200 then p
    else
      let (result, kernel) :=
        p.kernel.acceptKeystate P config body ⟨c.source, etag, fetched.nowMs⟩ fetched.keysFaults
      let p := { p with kernel }
      match result with
      | .ok (.adopted serial revoked) =>
        { p with
          round := { p.round with keystate := some (.adopted serial revoked) }
          book := p.book.servedKeys c.key etag serial }
      | .ok (.unchanged serial) =>
        { p with
          round := { p.round with keystate := some (p.round.keystate.getD (.unchanged serial)) }
          book := p.book.servedKeys c.key etag serial }
      | .error (.trust error) =>
        let (result, serial) := trustFailure error
        { p with
          book := if isSuspicious error then p.book.demote c.key fetched.nowMs.toInt else p.book
          round := p.round.record c "keys" result (some error.code) serial }
      | .error _ => p

def ingestDocument (etag : Option String) (body : Bytes) :
    Flow × Progress Key :=
  let (result, kernel) := p.kernel.acceptManifest P config body ⟨c.source, etag, fetched.nowMs⟩ fetched.nowMs
    fetched.accessFaults
  let p := { p with kernel }
  let now := fetched.nowMs.toInt
  match result with
  | .ok (.adopted ..) =>
    let serial := kernel.directory.serial
    let round := { p.round with answered := p.round.answered + 1, adoptions := p.round.adoptions ++ [serial] }
    let p := { p with
      book := p.book.servedAccess c.key etag serial now
      round := round.record c "access" .adopted none (some serial) }
    match round.mode with
    | .notified _ => (if reachedTarget kernel round.mode then .done else .continue, p)
    | _ => (.done, p)
  | .ok (.unchanged serial) =>
    let round := { p.round with answered := p.round.answered + 1 }
    (afterNoUpdate round.mode, { p with
      book := p.book.servedAccess c.key etag serial now
      round := round.record c "access" .sameSerial none (some serial) })
  | .error (.trust error) =>
    let (result, serial) := trustFailure error
    (.continue, { p with
      book := if isSuspicious error then p.book.demote c.key now else p.book
      round := p.round.record c "access" result (some error.code) serial })
  | .error error =>
    (.continue, { p with round := p.round.record c "access" .failed (some error.text) none })

/-- The arm of a 304: nothing is asked about the request. -/
def ingestNotModified (nowMs : ℤ) : Flow × Progress Key :=
  let round := { p.round with answered := p.round.answered + 1 }
  (afterNoUpdate round.mode, { p with
    book := p.book.confirmed c.key nowMs, round := round.record c "access" .notModified none none })

def ingestAccess : Flow × Progress Key :=
  match fetched.access with
  | .failed .tooLarge =>
    (.continue, { p with
      book := p.book.demote c.key fetched.nowMs.toInt
      round := p.round.record c "access" .rejected (some FetchError.tooLarge.code) none })
  | .failed error =>
    (.continue, { p with round := p.round.record c "access" .failed (some error.code) none })
  | .response status etag body =>
    if status = 304 then ingestNotModified p c fetched.nowMs.toInt
    else if status = 200 then ingestDocument P config p c fetched etag body
    else (.continue, { p with round := p.round.record c "access" .failed (some ("http." ++ toString status)) none })

/-- The key state comes first: a revocation counts for the manifest of the same answer. -/
def ingest : Flow × Progress Key :=
  ingestAccess P config (ingestKeys P config p c fetched) c fetched

end

/-! ### What an answer changes -/

/-- An answer touches the record of its source only, and the document in use changes by
an adoption. -/
structure Progress.Follows (key : String) (p p' : Progress Key) : Prop where
  touches : p.book.Touches key p'.book
  kept : p'.round.adoptions = [] → p.round.adoptions = [] ∧ p'.kernel.directory = p.kernel.directory

variable {P config} {p p' p'' : Progress Key}

theorem Progress.Follows.trans (h : Follows key p p') (h' : Follows key p' p'') : Follows key p p'' where
  touches other hne nowMs hdemoted := h.touches other hne nowMs (h'.touches other hne nowMs hdemoted)
  kept hnone := by
    obtain ⟨hnone, hdirectory⟩ := h'.kept hnone
    obtain ⟨hnone, hdirectory'⟩ := h.kept hnone
    exact ⟨hnone, hdirectory.trans hdirectory'⟩

theorem Progress.Follows.of_eq (htouches : p.book.Touches key p'.book)
    (hadoptions : p'.round.adoptions = p.round.adoptions) (hdirectory : p'.kernel.directory = p.kernel.directory) :
    Follows key p p' :=
  ⟨htouches, fun hnone => ⟨hadoptions ▸ hnone, hdirectory⟩⟩

variable (c : SourceCandidate) (fetched : Fetched)

theorem follows_ingestKeys : Progress.Follows c.key p (ingestKeys P config p c fetched) := by
  have hrefl : Progress.Follows c.key p p := .of_eq (.refl _) rfl rfl
  rw [ingestKeys]
  split
  · exact hrefl
  · split_ifs
    · exact hrefl
    · dsimp only
      split
      · exact .of_eq (.update _ _ _) rfl (AccessKernel.directory_acceptKeystate _ _ _ _)
      · exact .of_eq (.update _ _ _) rfl (AccessKernel.directory_acceptKeystate _ _ _ _)
      · exact .of_eq (.demote_if _ _ _ _) rfl (AccessKernel.directory_acceptKeystate _ _ _ _)
      · exact .of_eq (.refl _) rfl (AccessKernel.directory_acceptKeystate _ _ _ _)

theorem round_ingestKeys : (ingestKeys P config p c fetched).round.answered = p.round.answered ∧
    (ingestKeys P config p c fetched).round.mode = p.round.mode := by
  rw [ingestKeys]
  split
  · exact ⟨rfl, rfl⟩
  · split_ifs
    · exact ⟨rfl, rfl⟩
    · dsimp only
      split <;> exact ⟨rfl, rfl⟩

/-- Only a key state that cannot be trusted demotes its own source. -/
theorem isDemoted_of_ingestKeys {nowMs : ℤ} (hkeys : ∀ etag body error, fetched.keys = .response 200 etag body →
      (p.kernel.acceptKeystate P config body ⟨c.source, etag, fetched.nowMs⟩ fetched.keysFaults).1 =
        .error (.trust error) → isSuspicious error = false)
    (h : (ingestKeys P config p c fetched).book.isDemoted c.key nowMs = true) :
      p.book.isDemoted c.key nowMs = true := by
  rw [ingestKeys] at h
  split at h
  · exact h
  · next status etag body hfetched =>
    split_ifs at h with hstatus
    · exact h
    · obtain rfl : status = 200 := not_not.mp hstatus
      dsimp only at h
      split at h
      · exact SourceBook.isDemoted_of_servedKeys h
      · exact SourceBook.isDemoted_of_servedKeys h
      · next error herror =>
        rw [hkeys etag body error hfetched herror] at h
        exact h
      · exact h

theorem follows_ingestDocument (etag : Option String) (body : Bytes) :
    Progress.Follows c.key p (ingestDocument P config p c fetched etag body).2 := by
  rw [ingestDocument]
  dsimp only
  split
  · have hadopted : ∀ serials : List ℕ, ∀ serial, serials ++ [serial] ≠ [] := fun _ _ => by simp
    split
    · exact ⟨.update _ _ _, fun hnone => absurd hnone (hadopted _ _)⟩
    · exact ⟨.update _ _ _, fun hnone => absurd hnone (hadopted _ _)⟩
  · next hresult =>
    exact .of_eq (.update _ _ _) rfl
      (AccessKernel.directory_acceptManifest _ _ fun _ _ h => by cases hresult.symm.trans h)
  · next hresult =>
    exact .of_eq (.demote_if _ _ _ _) rfl
      (AccessKernel.directory_acceptManifest _ _ fun _ _ h => by cases hresult.symm.trans h)
  · next hresult =>
    exact .of_eq (.refl _) rfl
      (AccessKernel.directory_acceptManifest _ _ fun _ _ h => by cases hresult.symm.trans h)

theorem follows_ingestAccess : Progress.Follows c.key p (ingestAccess P config p c fetched).2 := by
  rw [ingestAccess]
  split
  · exact .of_eq (.update _ _ _) rfl rfl
  · exact .of_eq (.refl _) rfl rfl
  · split_ifs
    · exact .of_eq (.update _ _ _) rfl rfl
    · exact follows_ingestDocument c fetched _ _
    · exact .of_eq (.refl _) rfl rfl

theorem follows_ingest : Progress.Follows c.key p (ingest P config p c fetched).2 :=
  (follows_ingestKeys c fetched).trans (follows_ingestAccess c fetched)

end Ingest

/-! ### The fetcher -/

def maxInFlight : ℕ := 3

structure Refresh (Key : Type) where
  progress : Progress Key
  pending : List SourceCandidate
  inFlight : List InFlight := []
  /-- What `run_sources` reads when it begins. -/
  currentSerial : ℕ
  keystateSerial : Option ℕ
  nowMs : ℤ
  pointersAsked : Bool := false
  finished : Bool := false

namespace Refresh

section Steps

variable (P : Primitives Key Recovery) (config : AccessConfig Key)

/-- The candidates of a round that were not tried yet, once each. -/
def untried (tried : List String) : List SourceCandidate → List SourceCandidate × List String
  | [] => ([], tried)
  | c :: cs =>
    if c.key ∈ tried then untried tried cs
    else
      let (rest, tried) := untried (c.key :: tried) cs
      (c :: rest, tried)

/-- The beginning of `run_sources`. -/
def begin (p : Progress Key) (candidates : List SourceCandidate) (nowMs : ℤ) (pointersAsked : Bool) : Refresh Key :=
  let (pending, tried) := untried p.round.tried candidates
  { progress := { p with round := { p.round with tried } }
    pending, currentSerial := p.kernel.directory.serial, keystateSerial := p.kernel.trust.keystateSerial
    nowMs, pointersAsked }

/-- A mirror that is listed twice is asked once. -/
def mirrors (listed : List BootstrapSource) : List SourceCandidate :=
  listed.foldl (fun known source =>
      match source.kind, source.url with
      | "https", some url =>
        let candidate := SourceCandidate.mirror url .mirror
        if known.any (·.key == candidate.key) then known else known ++ [candidate]
      | _, _ => known)
    []

def accessPoints (listed : List BootstrapSource) (entries : List AccessPoint) (currentAp : Option String) :
    List SourceCandidate :=
  if listed.any (·.kind == "wellKnown") then
    let entries := entries.filter (!·.disabled)
    (entries.filter (some ·.id == currentAp) ++ entries.filter (some ·.id != currentAp)).map fun entry =>
      ⟨(ManifestSource.wellKnown entry.id).label, .wellKnown, .wellKnown entry.id⟩
  else []

/-- The mirrors, the last successful one first, and the access points, the current one
first; those that are demoted come last. -/
def candidates (book : SourceBook) (nowMs : ℤ) (listed : List BootstrapSource) (entries : List AccessPoint)
    (currentAp : Option String) : List SourceCandidate :=
  let mirrors := (mirrors listed).insertionSort fun a b =>
    (book.lastSuccessMs b.key).getD (-2 ^ 63) ≤ (book.lastSuccessMs a.key).getD (-2 ^ 63)
  let all := mirrors ++ accessPoints listed entries currentAp
  let demoted := fun c : SourceCandidate => book.isDemoted c.key nowMs
  all.filter (fun c => !demoted c) ++ all.filter demoted

/-- The beginning of a round; a notice whose serial is here needs none. The sources are
those of the manifest in use, and in a recovery round those of the app as well. -/
def refresh (kernel : AccessKernel Key) (book : SourceBook) (mode : RefreshMode) (nowMs : ℤ)
    (listed : List BootstrapSource) (entries : List AccessPoint) (currentAp : Option String) :
    Except RefreshReport (Refresh Key) :=
  if reachedTarget kernel mode then .error (.conclude mode .upToDate kernel.directory.serial)
  else .ok (begin ⟨kernel, book, { mode }⟩ (candidates book nowMs listed entries currentAp) nowMs false)

inductive Event
  /-- The next source is asked. -/
  | launch
  /-- A source answers. -/
  | answer (key : String) (fetched : Fetched)
  /-- Something else gives the kernel a document. -/
  | kernel (event : AccessKernel.Event)
  /-- Everybody has answered; in a recovery round the DNS is asked for more sources. -/
  | exhausted (pointers : List SourceCandidate) (attempts : List SourceAttempt) (nowMs : ℤ)

section

variable (r : Refresh Key)

def launch : Refresh Key :=
  match r.pending with
  | c :: pending =>
    if r.inFlight.length < maxInFlight then
      { r with
        pending
        inFlight := r.inFlight ++
          [{ candidate := c
             etags :=
               { access := r.progress.book.accessEtag c.key r.currentSerial r.nowMs
                 keys := r.progress.book.keysEtag c.key r.keystateSerial r.nowMs } }] }
    else r
  | [] => r

/-- The answer to a request. -/
def answer (request : InFlight) (fetched : Fetched) : Refresh Key :=
  let (flow, progress) := ingest P config r.progress request.candidate fetched
  { r with progress, inFlight := r.inFlight.erase request, finished := flow == .done }

def request (key : String) : Option InFlight := r.inFlight.find? (·.candidate.key == key)

/-- Once `run_sources` has come to its end. -/
def exhausted (pointers : List SourceCandidate) (attempts : List SourceAttempt) (nowMs : ℤ) :
    Refresh Key :=
  if r.pending = [] ∧ r.inFlight = [] then
    if r.progress.round.mode = .recovering ∧ r.progress.round.answered = 0 ∧ r.pointersAsked = false then
      let round := { r.progress.round with attempts := r.progress.round.attempts ++ attempts }
      begin { r.progress with round } pointers nowMs true
    else { r with finished := true }
  else r

def step (e : Event) : Refresh Key :=
  if r.finished then r
  else
    match e with
    | .launch => r.launch
    | .answer key fetched =>
      match r.request key with
      | some request => r.answer P config request fetched
      | none => r
    | .kernel event => { r with progress := { r.progress with kernel := r.progress.kernel.step P config event } }
    | .exhausted pointers attempts nowMs => r.exhausted pointers attempts nowMs

/-- The report of a round, and what is remembered of the sources. -/
def conclude (nowMs : ℤ) : RefreshReport × SourceBook :=
  let round := r.progress.round
  let outcome :=
    if round.adoptions ≠ [] then .adopted
    else if round.answered = 0 then .failed
    else
      match round.mode with
      | .notified _ => if reachedTarget r.progress.kernel round.mode then .upToDate else .oldValues
      | _ => .upToDate
  (.conclude round.mode outcome r.progress.kernel.directory.serial, r.progress.book.touch nowMs)

/-! ### A 304 that counts was asked for -/

/-- The request carried the ETag of the document in use, and its source is not demoted
when the 304 is taken. -/
def Asked (request : InFlight) (fetched : Fetched) : Prop :=
  (ingestKeys P config r.progress request.candidate fetched).book.isDemoted request.candidate.key
      fetched.nowMs.toInt = false ∧
    request.etags.access.isSome = true ∧ r.currentSerial = r.progress.kernel.directory.serial

end

/-- From `r` to `r'`, a source has ended a periodic round, was counted as an answer, or
has recorded a success. -/
def Counts (r r' : Refresh Key) (key : String) : Prop :=
  r.progress.round.mode = .background ∧ r'.finished = true ∨
  r.progress.round.answered < r'.progress.round.answered ∨
    r'.progress.book.lastSuccessMs key ≠ r.progress.book.lastSuccessMs key

def OnlyAsked (r : Refresh Key) : Event → Prop
  | .answer key fetched => ∀ request etag body, r.finished = false → r.request key = some request →
      fetched.access = .response 304 etag body → Counts r (r.step P config (.answer key fetched)) key →
        Asked P config r request fetched
  | _ => True

/-- A 304 answers a request with an ETag, before anything was adopted in the round, at a
clock that has not gone back, and no key state comes with it that cannot be trusted.
Nothing but the round gives the kernel another manifest. -/
def Honest (r : Refresh Key) : Event → Prop
  | .answer key fetched => ∀ request etag body, r.request key = some request →
      fetched.access = .response 304 etag body →
        request.etags.access.isSome = true ∧ r.progress.round.adoptions = [] ∧ r.nowMs ≤ fetched.nowMs.toInt ∧
          ∀ etag body error, fetched.keys = .response 200 etag body →
            (r.progress.kernel.acceptKeystate P config body ⟨request.candidate.source, etag, fetched.nowMs⟩
              fetched.keysFaults).1 = .error (.trust error) → isSuspicious error = false
  | .kernel event => (r.progress.kernel.step P config event).directory.serial = r.progress.kernel.directory.serial
  | _ => True

/-- Until something is adopted the document in use is the one that the ETags are of; a
source that was sent one was not demoted then; and each source is asked once. -/
structure Backed (r : Refresh Key) : Prop where
  serial : r.progress.round.adoptions = [] → r.currentSerial = r.progress.kernel.directory.serial
  trusted : ∀ q ∈ r.inFlight, q.etags.access.isSome = true →
    r.progress.book.isDemoted q.candidate.key r.nowMs = false
  once : (r.inFlight.map (·.candidate.key) ++ r.pending.map (·.key)).Nodup

theorem untried_nodup (candidates : List SourceCandidate) : ∀ tried : List String,
    ((untried tried candidates).1.map (·.key)).Nodup ∧ ∀ c ∈ (untried tried candidates).1, c.key ∉ tried := by
  induction candidates with
  | nil => exact fun tried => ⟨nodup_nil, fun _ h => (by cases h)⟩
  | cons c cs ih =>
    intro tried
    rw [untried]
    split_ifs with htried
    · exact ih tried
    · obtain ⟨hnodup, hfresh⟩ := ih (c.key :: tried)
      constructor
      · refine nodup_cons.mpr ⟨fun hmem => ?_, hnodup⟩
        obtain ⟨other, hother, hkey⟩ := mem_map.mp hmem
        exact hfresh other hother (hkey ▸ mem_cons_self)
      · intro other hother
        rcases mem_cons.mp hother with rfl | hother
        · exact htried
        · exact fun hmem => hfresh other hother (mem_cons_of_mem _ hmem)

theorem backed_begin (p : Progress Key) (candidates : List SourceCandidate) (nowMs : ℤ) (pointersAsked : Bool) :
    (begin p candidates nowMs pointersAsked).Backed :=
  ⟨fun _ => rfl, fun _ hmem => (by cases hmem), (untried_nodup candidates _).1⟩

variable {P config} {r : Refresh Key}

theorem Backed.launch (h : r.Backed) : r.launch.Backed := by
  rw [Refresh.launch]
  split
  · next c pending hpending =>
    split_ifs
    · refine ⟨h.serial, fun q hmem hetag => ?_, ?_⟩
      · rcases mem_append.mp hmem with hmem | hmem
        · exact h.trusted q hmem hetag
        · obtain rfl := mem_singleton.mp hmem
          exact SourceBook.isDemoted_eq_false_of_accessEtag hetag
      · have honce := h.once
        rw [hpending] at honce
        simpa using honce
    · exact h
  · exact h

theorem Backed.answer (h : r.Backed) {request : InFlight} (hrequest : request ∈ r.inFlight) (fetched : Fetched) :
    (r.answer P config request fetched).Backed := by
  have hfollows : Progress.Follows request.candidate.key r.progress
      (ingest P config r.progress request.candidate fetched).2 := follows_ingest _ fetched
  refine ⟨fun hnone => ?_, fun q hmem hetag => ?_, ?_⟩
  · obtain ⟨hnone, hdirectory⟩ := hfollows.kept hnone
    exact (h.serial hnone).trans (congrArg DirectorySnapshot.serial hdirectory).symm
  · by_contra hdemoted
    have hkeys : (r.inFlight.map (·.candidate.key)).Nodup := (nodup_append.mp h.once).1
    obtain ⟨hne, hmem'⟩ := (hkeys.of_map _).mem_erase_iff.mp hmem
    have hother := mt (inj_on_of_nodup_map hkeys hmem' hrequest) hne
    have hbefore := hfollows.touches _ (Ne.symm hother) _ (Bool.not_eq_false _ ▸ hdemoted)
    cases (h.trusted q hmem' hetag).symm.trans hbefore
  · exact ((erase_sublist.map _).append (List.Sublist.refl _)).nodup h.once

theorem Backed.exhausted (h : r.Backed) (pointers : List SourceCandidate)
    (attempts : List SourceAttempt) (nowMs : ℤ) :
    (r.exhausted pointers attempts nowMs).Backed := by
  rw [Refresh.exhausted]
  split_ifs
  · exact backed_begin _ pointers nowMs true
  · exact ⟨h.serial, h.trusted, h.once⟩
  · exact h

theorem mem_of_request {request : InFlight} (h : r.request key = some request) :
    request ∈ r.inFlight ∧ request.candidate.key = key :=
  ⟨mem_of_find?_eq_some h, by simpa using find?_some h⟩

variable (h : r.Backed) {e : Event} (hhonest : r.Honest P config e)

include h hhonest

theorem Backed.step : (r.step P config e).Backed := by
  cases e with
  | launch =>
    rw [step]
    split_ifs
    · exact h
    · exact h.launch
  | answer key fetched =>
    rw [step]
    split_ifs
    · exact h
    · split
      · next request hrequest => exact h.answer (mem_of_request hrequest).1 fetched
      · exact h
  | kernel event =>
    rw [step]
    split_ifs
    · exact h
    · exact ⟨fun hnone => (h.serial hnone).trans hhonest.symm, h.trusted, h.once⟩
  | exhausted pointers attempts nowMs =>
    rw [step]
    split_ifs
    · exact h
    · exact h.exhausted pointers attempts nowMs

omit h hhonest in
/-- A 304 counts, whatever was asked: it is an answer, and it ends a periodic round. -/
theorem answered_notModified {key : String} {fetched : Fetched} {request : InFlight}
    {etag : Option String} {body : Bytes}
    (hopen : r.finished = false) (hrequest : r.request key = some request)
    (haccess : fetched.access = .response 304 etag body) :
    (r.step P config (.answer key fetched)).progress.round.answered = r.progress.round.answered + 1 ∧
      (r.progress.round.mode = .background → (r.step P config (.answer key fetched)).finished = true) := by
  have hround := @round_ingestKeys Key Recovery P config r.progress request.candidate fetched
  have hstep : r.step P config (.answer key fetched) = r.answer P config request fetched := by
    simp [step, hopen, hrequest]
  have hingest : ingest P config r.progress request.candidate fetched =
      ingestNotModified (ingestKeys P config r.progress request.candidate fetched)
        request.candidate fetched.nowMs.toInt := by
    simp [ingest, ingestAccess, haccess]
  rw [hstep, answer, hingest]
  refine ⟨congrArg (· + 1) hround.1, fun hbackground => ?_⟩
  show (afterNoUpdate _ == Flow.done) = true
  rw [hround.2, hbackground]
  rfl

theorem Backed.onlyAsked : r.OnlyAsked P config e := by
  cases e with
  | answer key fetched =>
    intro request etag body _ hrequest haccess _
    obtain ⟨hetag, hnone, hclock, hkeys⟩ := hhonest request etag body hrequest haccess
    refine ⟨?_, hetag, h.serial hnone⟩
    by_contra hdemoted
    obtain ⟨record, untilMs, hrecord, huntil, hlt⟩ := SourceBook.isDemoted_iff.mp
      (isDemoted_of_ingestKeys _ _ hkeys (Bool.not_eq_false _ ▸ hdemoted))
    have hlaunch := SourceBook.isDemoted_iff.mpr ⟨record, untilMs, hrecord, huntil, hclock.trans_lt hlt⟩
    cases (h.trusted request (mem_of_request hrequest).1 hetag).symm.trans hlaunch
  | launch => trivial
  | kernel event => trivial
  | exhausted pointers attempts nowMs => trivial

end Steps

end Refresh

open Refresh in
/-- Whatever sources there are, whatever the book says of them and in whichever order
they answer: if a 304 answers a request with an ETag, at a clock that has not gone back
and without a key state that cannot be trusted, and no other manifest has come into use
since the round began, then a 304 that counts comes from a source that is not demoted
and was sent the ETag of the document in use. -/
theorem onlyAsked_run {Key Recovery : Type} (P : Primitives Key Recovery) (config : AccessConfig Key)
    (kernel : AccessKernel Key) (book : SourceBook) (mode : RefreshMode) (nowMs : ℤ) (listed : List BootstrapSource)
    (entries : List AccessPoint) (currentAp : Option String) (r : Refresh Key) (events : List Event)
    (hr : refresh kernel book mode nowMs listed entries currentAp = .ok r)
    (h : AllSteps (step P config) (Honest P config) r events) :
    AllSteps (step P config) (OnlyAsked P config) r events := by
  have hstart : r.Backed := by
    rw [refresh] at hr
    split_ifs at hr
    obtain rfl := Except.ok.inj hr
    exact backed_begin _ _ nowMs false
  exact .of_invariant (I := Backed) (fun _ _ hbacked hhonest => hbacked.step hhonest)
    (fun _ _ hbacked hhonest => hbacked.onlyAsked hhonest) events r hstart h

/-! ### A 304 from a demoted source -/

def signedKernel : AccessKernel Bool :=
  (shortKernel.acceptManifest shortPrimitives shortConfig [1] shortInfo 0 {}).2

/-- A mirror has served that manifest. -/
def servedBook : SourceBook := ({} : SourceBook).servedAccess "https:m" (some "tag") 7 5

/-- Since then it has served something that cannot be trusted. -/
def demotedBook : SourceBook := servedBook.demote "https:m" 10

def mirrorRound (book : SourceBook) : Refresh Bool :=
  .begin ⟨signedKernel, book, { mode := .background }⟩
    (Refresh.candidates book 20 [⟨"https", some "m"⟩] [] none) 20 false

def mirrorRequest (etag : Option String) : InFlight := ⟨.mirror "m" .mirror, ⟨etag, none⟩⟩

def notModified : Fetched := { keys := .failed .timeout, access := .response 304 none [], nowMs := 30 }

/-- The mirror is asked with its ETag, and its 304 ends the round. -/
theorem onlyAsked_run_servedBook :
    let r := mirrorRound servedBook
    AllSteps (Refresh.step shortPrimitives shortConfig) (Refresh.OnlyAsked shortPrimitives shortConfig) r
        [.launch, .answer "https:m" notModified] ∧
      (run (Refresh.step shortPrimitives shortConfig) r
        [.launch, .answer "https:m" notModified]).finished = true := by
  intro r
  refine ⟨onlyAsked_run shortPrimitives shortConfig signedKernel servedBook .background 20
    [⟨"https", some "m"⟩] [] none
    r _ rfl ⟨trivial, ?_, trivial⟩, by decide⟩
  intro request etag body hrequest _
  have hasked : (r.step shortPrimitives shortConfig .launch).request "https:m" =
    some (mirrorRequest (some "tag")) := by
    decide
  obtain rfl := Option.some.inj (hasked.symm.trans hrequest)
  exact ⟨rfl, rfl, by decide, fun _ _ _ hkeys => by cases hkeys⟩

/-- A demoted mirror is asked without an ETag; its 304 ends the round all the same. -/
theorem not_onlyAsked_demotedBook :
    let r := (mirrorRound demotedBook).step shortPrimitives shortConfig .launch
    r.progress.book.isDemoted "https:m" 30 = true ∧
      ¬ r.OnlyAsked shortPrimitives shortConfig (.answer "https:m" notModified) := by
  refine ⟨by decide, fun h => ?_⟩
  obtain ⟨-, hetag, -⟩ := h (mirrorRequest none) none [] (by decide) (by decide) rfl
    (.inl ⟨by decide, by decide⟩)
  cases hetag

end Bootstrap

end FlareIm.Access
