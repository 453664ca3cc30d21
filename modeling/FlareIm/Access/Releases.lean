import FlareIm.Access.Acceptance
import FlareIm.Access.Kernel

/-! Release manifests and the update machine. A check makes a fresh manifest store for
its platform and channel, reads the stored copy and verifies it again, and asks the
mirrors in turn until one gives a conclusion. A manifest that passes the serial check
counts as adopted even when it cannot be written. Unless one is adopted, the check ends
with the stored copy. The machine takes what the check returns, whatever it holds: after
a write that failed, its manifest is ahead of the store, and the next check brings it
back. Here only writes fail, and nobody else writes the store. -/

namespace FlareIm.Access

open Lib CommitState

inductive FetchError
  | noNetwork
  | unreachable
  | tls
  | timeout
  | tooLarge
  | cancelled
  deriving DecidableEq, Repr

def FetchError.code : FetchError → String
  | .noNetwork => "noNetwork"
  | .unreachable => "unreachable"
  | .tls => "tls"
  | .timeout => "timeout"
  | .tooLarge => "tooLarge"
  | .cancelled => "cancelled"

inductive Answer
  | failed (error : FetchError)
  | response (status : ℕ) (etag : Option String) (body : Bytes)

structure ReleaseApp where
  platform : String
  channel : String

inductive ReleaseUpdate
  | adopted (verified : VerifiedReleaseManifest)
  | unchanged

def VerifiedReleaseManifest.commit (verified : VerifiedReleaseManifest) (info : FetchMeta) : Commit where
  doc := .release
  serial := verified.serial
  serial_le := verified.manifest.serial_le
  envelope := verified.envelope
  info := info

structure Round where
  newest : Option VerifiedReleaseManifest
  adopted : Bool := false
  confirmed : Bool := false
  notFound : Bool := false
  rejected : Option String := none
  unreachable : Option String := none

inductive ReleaseFetchOutcome
  | adopted
  | upToDate
  | notPublished
  | rejected (code : String)
  | unavailable (code : Option String)
  deriving DecidableEq, Repr

def Round.conclude (round : Round) : ReleaseFetchOutcome :=
  if round.adopted then .adopted
  else if round.confirmed then .upToDate
  else
    match round.rejected with
    | some code => .rejected code
    | none =>
      if round.notFound then if round.newest.isSome then .upToDate else .notPublished
      else .unavailable round.unreachable

/-- What a check meets: the trust material, the time, the mirrors' urls and answers
(to a url and an `If-None-Match`), and for which documents the write fails. -/
structure Check (Key : Type) where
  trust : TrustStore Key
  nowMs : Int64
  mirrors : List String
  answer : String → Option String → Answer
  writeFails : String → Bool

/-- The store and the manifest store of a check, with its round. -/
structure Fetching where
  entries : Entries
  cache : MaxCache := fun _ => none
  round : Round

variable {Key Recovery : Type}

section Fetch

variable (P : Primitives Key Recovery) (m : ManifestStore) (app : ReleaseApp)

/-- `load_release`: the stored copy, verified again. -/
def loadRelease (trust : TrustStore Key) (nowMs : Int64) (entries : Entries) :
    Option (VerifiedReleaseManifest × StoredDocument) :=
  match (m.keysFor .release).currentIn entries with
  | none => none
  | some record =>
    (trust.verifyRelease P record.envelope app.platform app.channel nowMs).toOption.map (·, record)

/-- A document that could not be written is adopted all the same. -/
def acceptRelease (check : Check Key) (f : Fetching) (envelope : Bytes) (info : FetchMeta) (writeFails : Bool) :
    Except AcceptError ReleaseUpdate × Fetching :=
  match check.trust.verifyRelease P envelope app.platform app.channel check.nowMs with
  | .error error => (.error (.trust error), f)
  | .ok verified =>
    let s := CommitState.finish m (verified.commit info) { write := writeFails } f.entries f.cache
    let f := { f with entries := s.entries, cache := s.cache }
    match s.result with
    | .ok (.adopted ..) | .error (.store _) => (.ok (.adopted verified), f)
    | .ok (.unchanged _) => (.ok .unchanged, f)
    | .error error => (.error error, f)

def Round.ingest (round : Round) : Except AcceptError ReleaseUpdate → Round
  | .ok (.adopted verified) => { round with newest := some verified, adopted := true }
  | .ok .unchanged => { round with confirmed := true }
  -- A mirror that lags behind has nothing new.
  | .error (.trust (.rollback ..)) => { round with notFound := true }
  | .error (.trust error) => { round with rejected := some (round.rejected.getD error.code) }
  | .error (.store _) => { round with unreachable := some (round.unreachable.getD "access store backend failed") }
  | .error .developmentMode =>
    { round with unreachable := some (round.unreachable.getD "manifests are not accepted in development mode") }

def Fetching.ask (check : Check Key) (heldFrom etag : Option String) (f : Fetching) (url : String) : Fetching :=
  let source := ManifestSource.https url
  let ifNoneMatch := if some source.label = heldFrom then etag else none
  match check.answer url ifNoneMatch with
  | .failed .tooLarge => { f with round.rejected := some (f.round.rejected.getD FetchError.tooLarge.code) }
  | .failed error => { f with round.unreachable := some (f.round.unreachable.getD error.code) }
  | .response status etag body =>
    if status = 304 then { f with round.confirmed := true }
    else if status = 200 then
      let (result, f) := acceptRelease P m app check f body ⟨source, etag, check.nowMs⟩ (check.writeFails url)
      { f with round := f.round.ingest result }
    else if status = 404 then { f with round.notFound := true }
    else { f with round.unreachable := some (f.round.unreachable.getD ("http." ++ toString status)) }

/-- The first mirror with a trustworthy conclusion ends the round. -/
def Fetching.askAll (check : Check Key) (heldFrom etag : Option String) : List String → Fetching → Fetching
  | [], f => f
  | url :: urls, f =>
    let f := f.ask P m app check heldFrom etag url
    if f.round.adopted || f.round.confirmed then f else askAll check heldFrom etag urls f

/-- The mirrors once each, the one that gave the stored copy first. -/
def mirrorsInOrder (urls : List String) (heldFrom : Option String) : List String :=
  let urls := urls.eraseDups
  let isHeld := fun url => some (ManifestSource.https url).label == heldFrom
  urls.filter isHeld ++ urls.filter fun url => !isHeld url

/-- `fetch`: what is stored after the round, its outcome and the newest manifest. -/
def fetch (check : Check Key) (entries : Entries) :
    Entries × ReleaseFetchOutcome × Option VerifiedReleaseManifest :=
  let held := loadRelease P m app check.trust check.nowMs entries
  let heldFrom := held.map (·.2.source.label)
  let etag := held.bind (·.2.etag)
  let f := Fetching.askAll P m app check heldFrom etag (mirrorsInOrder check.mirrors heldFrom)
    { entries, round := { newest := held.map (·.1) } }
  let round :=
    if f.round.adopted then f.round
    else
      match loadRelease P m app check.trust check.nowMs f.entries with
      | some (verified, _) => { f.round with newest := some verified }
      | none => f.round
  (f.entries, round.conclude, round.newest)

end Fetch

/-! ### The update machine -/

/-- What the machine keeps of a check; the rest of its state has no part here. -/
inductive CheckResult
  | manifest (verified : VerifiedReleaseManifest)
  | notPublished
  | failed (code : String)

/-- The end of `run_check`. -/
def checkResult : ReleaseFetchOutcome → Option VerifiedReleaseManifest → CheckResult
  | .notPublished, _ => .notPublished
  | .rejected _, _ => .failed "update.manifestRejected"
  | .unavailable _, _ => .failed "update.manifestUnavailable"
  | _, some verified => .manifest verified
  | _, none => .notPublished

/-- The store and the manifest that the update machine evaluates. -/
structure UpdateRuntime where
  entries : Entries := ∅
  manifest : Option VerifiedReleaseManifest := none

namespace UpdateRuntime

def finishCheck (u : UpdateRuntime) : CheckResult → UpdateRuntime
  | .manifest verified => { u with manifest := some verified }
  | .notPublished => u
  | .failed _ => u

variable (P : Primitives Key Recovery) (m : ManifestStore) (app : ReleaseApp)

def runCheck (u : UpdateRuntime) (check : Check Key) : UpdateRuntime :=
  let (entries, outcome, newest) := fetch P m app check u.entries
  finishCheck { u with entries } (checkResult outcome newest)

/-- Checks and restarts; a restart takes up the stored copy. -/
inductive Event (Key : Type)
  | check (check : Check Key)
  | restart (trust : TrustStore Key) (nowMs : Int64)

def step (u : UpdateRuntime) : Event Key → UpdateRuntime
  | .check check => u.runCheck P m app check
  | .restart trust nowMs => { u with manifest := (loadRelease P m app trust nowMs u.entries).map (·.1) }

end UpdateRuntime

/-! ### What a check returns -/

section Rounds

variable {P : Primitives Key Recovery} {m : ManifestStore} {app : ReleaseApp}
  {verified : VerifiedReleaseManifest} {envelope : Bytes}

variable {channel platform : String} {entries : Entries} {nowMs : Int64} {round : Round} {trust : TrustStore Key}

theorem verifyRelease_eq_ok
    (h : trust.verifyRelease P envelope platform channel nowMs = .ok verified) :
    verified.envelope = envelope ∧ ∃ parsed payload times, Envelope.parse P envelope = .ok parsed ∧
      parsed.openPayload P DocType.release.payloadType = .ok payload ∧
      P.releaseOfJson payload = .ok (verified.manifest, times) := by
  simp only [TrustStore.verifyRelease, bind_eq_ok_iff, pure_eq_ok_iff] at h
  obtain ⟨parsed, hparse, ⟨keyId, manifest, times⟩, hverify, rfl⟩ := h
  obtain ⟨payload, hpayload, -, hjson, -⟩ := verifyReleaseEnvelope_eq_ok_iff.mp hverify
  exact ⟨rfl, parsed, payload, times, hparse, hpayload, hjson⟩

/-- What a document says does not depend on who verifies it and when. -/
theorem manifest_eq_of_verifyRelease {trust' : TrustStore Key}
    {platform' channel' : String} {nowMs' : Int64} {verified' : VerifiedReleaseManifest}
    (h : trust.verifyRelease P envelope platform channel nowMs = .ok verified)
    (h' : trust'.verifyRelease P envelope platform' channel' nowMs' = .ok verified') :
    verified.manifest = verified'.manifest := by
  obtain ⟨-, parsed, payload, times, hparse, hpayload, hjson⟩ := verifyRelease_eq_ok h
  obtain ⟨-, parsed', payload', times', hparse', hpayload', hjson'⟩ := verifyRelease_eq_ok h'
  obtain rfl := Except.ok.inj (hparse.symm.trans hparse')
  obtain rfl := Except.ok.inj (hpayload.symm.trans hpayload')
  exact congrArg Prod.fst (Except.ok.inj (hjson.symm.trans hjson'))

variable (P m) in
/-- The stored copy is a document that was verified, with its own serial. -/
structure StoredWell (entries : Entries) : Prop where
  consistent : ∀ doc, CommitState.Consistent (m.keysFor doc) entries
  genuine : ∀ record ∈ (m.keysFor .release).currentIn entries,
    ∃ (trust : TrustStore Key) (platform channel : String) (nowMs : Int64) (verified : VerifiedReleaseManifest),
      trust.verifyRelease P record.envelope platform channel nowMs = .ok verified ∧ verified.serial = record.serial

/-- The stored copy that a check can use has the largest serial accepted so far. -/
theorem maxIn_of_loadRelease (h : StoredWell P m entries)
    {held : VerifiedReleaseManifest × StoredDocument}
    (hheld : loadRelease P m app trust nowMs entries = some held) :
    (m.keysFor .release).maxIn entries = some held.1.serial := by
  rw [loadRelease] at hheld
  cases hcurrent : (m.keysFor .release).currentIn entries with
  | none => simp [hcurrent] at hheld
  | some record =>
    simp only [hcurrent, Option.map_eq_some_iff, toOption_eq_some_iff] at hheld
    obtain ⟨verified, hverify, rfl⟩ := hheld
    obtain ⟨trust', platform, channel, nowMs', verified', hverify', hserial⟩ := h.genuine record hcurrent
    have hmanifest := manifest_eq_of_verifyRelease hverify hverify'
    rw [(h.consistent .release).maxIn_eq, hcurrent, Option.map_some, ← hserial]
    exact congrArg (fun manifest => some (ReleaseManifest.serial manifest)) hmanifest.symm

variable (P m) in
/-- A round over a store whose maximum was `before`: nothing in hand is behind that. -/
structure Ahead (before : Option ℕ) (f : Fetching) : Prop where
  stored : StoredWell P m f.entries
  cached : ∀ doc max, f.cache doc = some max → max = (m.keysFor doc).maxIn f.entries
  le_max : before ≤ (m.keysFor .release).maxIn f.entries
  le_newest : ∀ verified ∈ f.round.newest, before ≤ some verified.serial

variable {before : Option ℕ} {f : Fetching} {check : Check Key}

/-- The commit of a verified document keeps the store ahead, and a document in use is
not behind. -/
theorem Ahead.commit (h : Ahead P m before f)
    (hverify : check.trust.verifyRelease P envelope app.platform app.channel check.nowMs = .ok verified)
    (info : FetchMeta) (writeFails : Bool) :
    let s := finish m (verified.commit info) { write := writeFails } f.entries f.cache
    Ahead P m before { f with entries := s.entries, cache := s.cache } ∧
      (CommitState.IsUsed s.result → before ≤ some verified.serial) := by
  have haligned := aligned_finish (c := verified.commit info) { write := writeFails }
    h.stored.consistent h.cached
  have hgrown := grown_finish (c := verified.commit info) writeFails h.stored.consistent h.cached
  obtain ⟨result, hdone⟩ := exists_finish_done m (verified.commit info) { write := writeFails }
    f.entries f.cache
  generalize finish m (verified.commit info) { write := writeFails } f.entries f.cache = s
    at haligned hgrown hdone ⊢
  refine ⟨⟨⟨haligned.consistent, ?_⟩, haligned.cached, ?_, h.le_newest⟩, ?_⟩
  · rcases hgrown with ⟨hsame, -⟩ | ⟨-, -, -, hcurrent⟩
    · dsimp only
      rw [hsame]
      exact h.stored.genuine
    · intro record hrecord
      obtain rfl := Option.some.inj (hcurrent.symm.trans hrecord)
      refine ⟨check.trust, app.platform, app.channel, check.nowMs, verified, ?_, rfl⟩
      exact (congrArg (check.trust.verifyRelease P · _ _ _) (verifyRelease_eq_ok hverify).1).trans hverify
  · rcases hgrown with ⟨hsame, -⟩ | ⟨-, hle, hmax, -⟩
    · dsimp only
      rw [hsame]
      exact h.le_max
    · exact option_le_trans h.le_max (hmax ▸ hle)
  · intro hresult
    rw [CommitState.result, hdone] at hresult
    rcases hgrown with ⟨-, hused⟩ | ⟨-, hle, -⟩
    · exact option_le_trans h.le_max (hused result hdone hresult)
    · exact option_le_trans h.le_max hle

variable (app check) in
theorem Ahead.acceptRelease (h : Ahead P m before f) (envelope : Bytes) (info : FetchMeta) (writeFails : Bool) :
    Ahead P m before (acceptRelease P m app check f envelope info writeFails).2 ∧
      ∀ verified, (Access.acceptRelease P m app check f envelope info writeFails).1 = .ok (.adopted verified) →
        before ≤ some verified.serial := by
  rw [Access.acceptRelease]
  cases hverify : check.trust.verifyRelease P envelope app.platform app.channel check.nowMs with
  | error error => exact ⟨h, fun verified hresult => by cases hresult⟩
  | ok verified =>
    obtain ⟨hnew, hused⟩ := h.commit hverify info writeFails
    dsimp only
    generalize finish m (verified.commit info) { write := writeFails } f.entries f.cache = s at hnew hused ⊢
    rcases hresult : s.result with (error | error | _) | (⟨serial, previous⟩ | serial)
    · exact ⟨hnew, fun _ hadopted => by cases hadopted⟩
    · refine ⟨hnew, fun _ hadopted => ?_⟩
      cases hadopted
      exact hused (hresult ▸ trivial)
    · exact ⟨hnew, fun _ hadopted => by cases hadopted⟩
    · refine ⟨hnew, fun _ hadopted => ?_⟩
      cases hadopted
      exact hused (hresult ▸ trivial)
    · exact ⟨hnew, fun _ hadopted => by cases hadopted⟩

theorem newest_ingest {result : Except AcceptError ReleaseUpdate}
    (h : verified ∈ (round.ingest result).newest) : verified ∈ round.newest ∨ result = .ok (.adopted verified) := by
  rcases result with (error | error | _) | (adopted | _)
  · cases error <;> exact .inl h
  · exact .inl h
  · exact .inl h
  · exact .inr (by rw [Option.some.inj h])
  · exact .inl h

theorem Ahead.withRound (h : Ahead P m before f)
    (hround : ∀ verified ∈ round.newest, before ≤ some verified.serial) : Ahead P m before { f with round } :=
  ⟨h.stored, h.cached, h.le_max, hround⟩

variable (app check) in
theorem Ahead.ask (h : Ahead P m before f) (heldFrom etag : Option String) (url : String) :
    Ahead P m before (f.ask P m app check heldFrom etag url) := by
  rw [Fetching.ask]
  split
  · exact h.withRound h.le_newest
  · exact h.withRound h.le_newest
  · split_ifs
    · exact h.withRound h.le_newest
    · obtain ⟨haccept, hadopted⟩ := h.acceptRelease app check _ _ _
      refine haccept.withRound fun verified hverified => ?_
      rcases newest_ingest hverified with hheld | hresult
      · exact haccept.le_newest verified hheld
      · exact hadopted verified hresult
    · exact h.withRound h.le_newest
    · exact h.withRound h.le_newest

variable (app check) in
theorem Ahead.askAll (heldFrom etag : Option String) (urls : List String) (h : Ahead P m before f) :
    Ahead P m before (f.askAll P m app check heldFrom etag urls) := by
  induction urls generalizing f with
  | nil => exact h
  | cons url urls ih =>
    rw [Fetching.askAll]
    split_ifs
    · exact h.ask app check heldFrom etag url
    · exact ih (h.ask app check heldFrom etag url)

/-- A check leaves the store sound, and what it returns is not behind what was stored. -/
theorem ahead_fetch (h : StoredWell P m entries) : StoredWell P m (fetch P m app check entries).1 ∧
      ∀ verified ∈ (fetch P m app check entries).2.2,
        (m.keysFor .release).maxIn entries ≤ some verified.serial := by
  have hstart : Ahead P m ((m.keysFor .release).maxIn entries)
      { entries, round := { newest := (loadRelease P m app check.trust check.nowMs entries).map (·.1) } } := by
    refine ⟨h, fun _ _ hcache => (by cases hcache), option_le_refl _, fun verified hverified => ?_⟩
    obtain ⟨held, hheld, rfl⟩ := Option.map_eq_some_iff.mp hverified
    rw [maxIn_of_loadRelease h hheld]
    exact option_le_refl _
  rw [fetch]
  have hround := hstart.askAll app check
    ((loadRelease P m app check.trust check.nowMs entries).map (·.2.source.label))
    ((loadRelease P m app check.trust check.nowMs entries).bind (·.2.etag))
    (mirrorsInOrder check.mirrors ((loadRelease P m app check.trust check.nowMs entries).map (·.2.source.label)))
  refine ⟨hround.stored, ?_⟩
  split_ifs
  · exact hround.le_newest
  · split
    · next verified record hheld =>
      intro verified' hverified'
      obtain rfl := Option.some.inj hverified'
      have hmax := maxIn_of_loadRelease hround.stored hheld
      exact hmax ▸ hround.le_max
    · exact hround.le_newest

end Rounds

namespace UpdateRuntime

variable (P : Primitives Key Recovery) (m : ManifestStore) (app : ReleaseApp)

/-- Before a check the machine's manifest is not newer than what is stored. -/
def NotAhead (u : UpdateRuntime) : Event Key → Prop
  | .check _ => u.manifest.map (·.serial) ≤ (m.keysFor .release).maxIn u.entries
  | .restart .. => True

instance (u : UpdateRuntime) : ∀ e : Event Key, Decidable (u.NotAhead m e)
  | .check _ => inferInstanceAs (Decidable (_ ≤ _))
  | .restart .. => inferInstanceAs (Decidable True)

/-- A check does not bring the manifest that the machine evaluates back. -/
def KeepsManifest (u : UpdateRuntime) : Event Key → Prop
  | .check check => u.manifest.map (·.serial) ≤ (u.runCheck P m app check).manifest.map (·.serial)
  | .restart .. => True

variable {P m app} {u : UpdateRuntime}

/-- The manifest after a check is the one before it or the one that the check returns. -/
theorem manifest_runCheck (check : Check Key) :
    (u.runCheck P m app check).entries = (fetch P m app check u.entries).1 ∧
      ((u.runCheck P m app check).manifest = u.manifest ∨
        ∃ verified ∈ (fetch P m app check u.entries).2.2, (u.runCheck P m app check).manifest = some verified) := by
  rw [runCheck]
  obtain ⟨entries, outcome, newest⟩ := fetch P m app check u.entries
  cases outcome <;> cases newest <;> simp [checkResult, finishCheck]

theorem keepsManifest_of_notAhead (h : StoredWell P m u.entries) {e : Event Key} (hahead : u.NotAhead m e) :
    u.KeepsManifest P m app e := by
  cases e with
  | restart trust nowMs => exact trivial
  | check check =>
    rw [KeepsManifest]
    obtain ⟨-, hsame | ⟨verified, hverified, hmanifest⟩⟩ := manifest_runCheck (P := P) (m := m) (u := u) check
    · rw [hsame]
      exact option_le_refl _
    · rw [hmanifest]
      exact option_le_trans hahead ((ahead_fetch h).2 verified hverified)

theorem storedWell_step (h : StoredWell P m u.entries) (e : Event Key) :
    StoredWell P m (u.step P m app e).entries := by
  cases e with
  | restart trust nowMs => exact h
  | check check =>
    rw [step, (manifest_runCheck check).1]
    exact (ahead_fetch h).1

end UpdateRuntime

open UpdateRuntime in
/-- In every history of checks and restarts from an empty store in which the machine's
manifest is not ahead of the store before a check, no check brings it back. -/
theorem keepsManifest_run {Key Recovery : Type} (P : Primitives Key Recovery) (m : ManifestStore) (app : ReleaseApp)
    (events : List (Event Key)) (h : AllSteps (step P m app) (NotAhead m) {} events) :
    AllSteps (step P m app) (KeepsManifest P m app) {} events :=
  AllSteps.of_invariant (I := fun u : UpdateRuntime => StoredWell P m u.entries)
  (fun _ e hu _ => storedWell_step hu e)
    (fun _ _ hu hahead => keepsManifest_of_notAhead hu hahead) events {}
    ⟨fun _ => AccessKernel.consistent_empty _, fun record hrecord => by simp [DocKeys.currentIn] at hrecord⟩ h

/-! ### Three checks -/

/-- One byte is a release manifest with that serial, everything else its certificate. -/
def releasePrimitives : Primitives Bool Unit :=
  let base := letterPrimitives [("root-b", true)]
  { base with
    envelopeOfJson := fun
      | [serial] => some
          { payloadType := DocType.release.payloadType, payload := String.ofList [Char.ofNat serial.toNat]
            signatures := [⟨"online", letterText true⟩], keyCerts := ["cert"] }
      | bytes => base.envelopeOfJson bytes
    keyCertOfJson := fun _ => some { onlineCert with usages := ["release"] }
    releaseOfJson := fun
      | [serial] => .ok
          (⟨"app", serial.toNat, Message.uint8_le_maxU64 serial, "web", "stable"⟩, ⟨0, 1000⟩)
      | _ => .error (.unsupportedSchema "") }

def webStable : ReleaseApp := ⟨"web", "stable"⟩

def webStore : ManifestStore := ⟨"app", "roots", "web/stable"⟩

/-- A check whose one mirror answers with the manifest of this serial. -/
def sampleCheck (serial : UInt8) (writeFails : Bool) : UpdateRuntime.Event Bool :=
  .check
    { trust := letterTrust, nowMs := 0, mirrors := ["https://m"]
      answer := fun _ _ => .response 200 none [serial], writeFails := fun _ => writeFails }

theorem keepsManifest_run_sampleChecks : AllSteps (UpdateRuntime.step releasePrimitives webStore webStable)
      (UpdateRuntime.KeepsManifest releasePrimitives webStore webStable) {}
      [sampleCheck 10 false, sampleCheck 12 false, sampleCheck 11 false] :=
  keepsManifest_run releasePrimitives webStore webStable _ (by decide)

/-- The write of 12 fails and the machine evaluates it; the next check brings 11. -/
theorem manifest_falls_sampleChecks :
    let before := run (UpdateRuntime.step releasePrimitives webStore webStable) {}
      [sampleCheck 10 false, sampleCheck 12 true]
    let after := before.step releasePrimitives webStore webStable (sampleCheck 11 false)
    before.manifest.map (·.serial) = some 12 ∧ after.manifest.map (·.serial) = some 11 := by
  decide

end FlareIm.Access
