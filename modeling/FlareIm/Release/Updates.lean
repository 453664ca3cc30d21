import FlareIm.Release.Evaluate

/-! The update machine. What the last evaluation offers and what is being done about it
are kept apart: the phase lies over the offer. The phase is also what keeps a second
download from starting while one is running, and the reports of the installer change it
at any time. The machine is pure; the calls and the background tasks of the runtime are
events here, in any order. The views (the status, its texts and its prompt) have no part
here. -/

namespace FlareIm.Release

open Lib Access

/-! ### Prompts -/

inductive UpdatePrompt
  | none
  | badge
  | sheet
  | modal
  | fullscreen
  deriving DecidableEq, Repr

def maxRememberedBuilds : ℕ := 16

def dayMs : ℤ := 86400000

def checkIntervalMs : ℤ := 6 * 3600000

def foregroundSettleMs : ℤ := 5000

def remember (builds : List ℕ) (build : ℕ) : List ℕ :=
  let builds := if build ∈ builds then builds else builds ++ [build]
  if maxRememberedBuilds < builds.length then builds.tail else builds

structure PromptHistory where
  sheetShownBuilds : List ℕ := []
  lastModalAtMs : Option ℤ := none
  deferredUntilMs : Option ℤ := none
  skippedBuilds : List ℕ := []
  deriving DecidableEq, Repr

structure PromptSession where
  shownBuilds : List ℕ := []
  requiredShown : Bool := false
  deriving DecidableEq, Repr

def PromptHistory.defer (h : PromptHistory) (nowMs : ℤ) : PromptHistory :=
  { h with deferredUntilMs := some (nowMs + dayMs) }

def PromptHistory.skip (h : PromptHistory) (build : ℕ) : PromptHistory :=
  { h with skippedBuilds := remember h.skippedBuilds build }

def PromptHistory.record (h : PromptHistory) (session : PromptSession) (urgency : Urgency) (build : Option ℕ)
    (form : UpdatePrompt) (nowMs : ℤ) : PromptHistory × PromptSession :=
  if urgency.isRequired then (h, { session with requiredShown := true })
  else
    let session :=
      match build with
      | some build => { session with shownBuilds := remember session.shownBuilds build }
      | Option.none => session
    match form, build with
    | .sheet, some build => ({ h with sheetShownBuilds := remember h.sheetShownBuilds build }, session)
    | .modal, _ => ({ h with lastModalAtMs := some nowMs }, session)
    | _, _ => (h, session)

/-! ### The machine -/

inductive ReleaseKind
  | store
  | package
  | webBundle
  | desktop
  deriving DecidableEq, Repr

def ReleaseKind.of (artifact : ReleaseArtifact) : Option ReleaseKind :=
  match artifact.kind with
  | "store" => some .store
  | "apk" => some .package
  | "web_bundle" => some .webBundle
  | "tauri" | "electron" => some .desktop
  | _ => none

structure UpdateApp where
  build : Option ℕ := none
  buildId : Option String := none
  distribution : Option String := none
  target : Option String := none
  deriving DecidableEq, Repr

structure UpdateError where
  code : String
  retryable : Bool
  fallbackUrl : Option String
  deriving DecidableEq, Repr

structure UpdateProgress where
  received : ℕ
  total : ℕ
  deriving DecidableEq, Repr

structure ArtifactRecord where
  path : String
  sha256 : String
  signingCertSha256 : Option String
  build : ℕ
  sizeBytes : ℕ
  deriving DecidableEq, Repr

structure PersistedUpdate where
  lastCheckedAtMs : Option ℤ := none
  prompts : PromptHistory := {}
  artifact : Option ArtifactRecord := none
  deriving DecidableEq, Repr

structure HeldManifest where
  manifest : Manifest
  expiresAtMs : ℤ
  deriving DecidableEq, Repr

def HeldManifest.isStale (m : HeldManifest) (nowMs : ℤ) : Bool := m.expiresAtMs ≤ nowMs

inductive CheckResult
  | manifest (held : HeldManifest)
  | notPublished
  | failed (code : String)
  | skipped
  deriving DecidableEq, Repr

inductive InstallOutcome
  | started
  | completed
  | cancelled
  | failed
  deriving DecidableEq, Repr

inductive UpdateInstallPlan
  | openStore (store : String) (url packageName appId : Option String) (immediate : Bool)
  | activateWebBundle (buildId : String) (assetManifestUrls : List String) (assetManifestSha256 : String)
      (mandatory blockUi : Bool)
  | desktopUpdater (version target : String) (sha256 : Option String)
  deriving DecidableEq, Repr

inductive InstallStep
  | plan (plan : UpdateInstallPlan)
  /-- The file is verified again before there is a plan. -/
  | package (record : ArtifactRecord)
  deriving DecidableEq, Repr

structure OfferedRelease where
  entry : ReleaseEntry
  artifact : ReleaseArtifact
  distribution : String
  deriving DecidableEq, Repr

structure Offer where
  urgency : Urgency
  release : Option OfferedRelease
  deriving DecidableEq, Repr

inductive Phase
  | settled
  | checking
  | downloading
  | verifying
  | ready
  | installing
  | failed
  deriving DecidableEq, Repr

structure UpdateMachine where
  app : UpdateApp
  installId : String := ""
  manifest : Option HeldManifest := none
  server : Option ServerGate := none
  offer : Option Offer := none
  evaluated : Bool := false
  phase : Phase := .settled
  progress : Option UpdateProgress := none
  lastCheckedAtMs : Option ℤ := none
  error : Option UpdateError := none
  prompts : PromptHistory := {}
  session : PromptSession := {}
  shownPrompt : Option (Option ℕ × UpdatePrompt) := none
  promptReleased : Bool := false
  startupCheckPending : Bool := false
  checkRounds : ℕ := 0
  manualCheck : Bool := false
  foregroundedAtMs : Option ℤ := none
  promptOpen : Bool := false
  readOnlyAccepted : Bool := false
  promptHidden : Bool := false
  ready : Option ArtifactRecord := none
  discarded : Option ArtifactRecord := none
  deriving DecidableEq, Repr

open UpdateMachine

/-- The codes that the machine gives itself or looks for. -/
def manifestUnavailable : String := "update.manifestUnavailable"
def noArtifact : String := "update.noArtifact"
def meteredConfirmationRequired : String := "update.meteredConfirmationRequired"
def hashMismatch : String := "update.hashMismatch"
def installFailed : String := "update.installFailed"
def signatureMismatch : String := "update.signatureMismatch"
def downgradeRejected : String := "update.downgradeRejected"
def notSkippable : String := "update.notSkippable"

def checkDue (lastCheckedAtMs : Option ℤ) (nowMs : ℤ) : Bool :=
  lastCheckedAtMs.all fun last => nowMs < last || checkIntervalMs < nowMs - last

def sanitized (value : String) : String :=
  String.ofList (value.toList.filter fun ch => ch.isAlphanum || ch == '.' || ch == '_' || ch == '-')

/-- The store's page: the manifest's own, or made up from the store's fixed pattern. -/
def storeUrl (store : String) (artifact : ReleaseArtifact) : Option String :=
  artifact.storeUrl.or
    (match store with
    | "play" => artifact.packageName.map ("https://play.google.com/store/apps/details?id=" ++ ·)
    | "appstore" => artifact.appId.map ("itms-apps://apps.apple.com/app/id" ++ ·)
    | _ => none)

namespace UpdateMachine

section Operations

variable (os : Platform) (m : UpdateMachine)

def release : Option OfferedRelease := m.offer.bind (·.release)

def targetBuild : Option ℕ := m.release.map (·.entry.build)

def urgency : Option Urgency := m.offer.map (·.urgency)

def busy : Bool := m.phase == .downloading || m.phase == .verifying || m.phase == .installing

/-- Another way for the user when an update fails. -/
def fallbackUrl : Option String :=
  match m.release with
  | none => none
  | some release =>
    let artifact := release.artifact
    match ReleaseKind.of artifact with
    | none => none
    | some .webBundle => none
    | some .store => storeUrl release.distribution artifact
    | some .package => artifact.storeUrl.or artifact.urls.head?
    | some .desktop =>
      artifact.storeUrl.or (m.app.target.bind fun target => (artifact.targets.lookup target).bind (·.urls.head?))

def softError (code : String) (retryable : Bool) : UpdateMachine :=
  { m with promptReleased := false, error := some ⟨code, retryable, m.fallbackUrl⟩ }

def input (stale : Bool) : EvaluationInput where
  currentBuild := m.app.build
  currentBuildId := m.app.buildId
  distribution := m.app.distribution.getD ""
  target := m.app.target
  installId := m.installId
  stale := stale
  server := m.server

def offered (entry : ReleaseEntry) : Option OfferedRelease :=
  let distribution := m.app.distribution.getD ""
  (artifactFor entry distribution m.app.target).map fun artifact => ⟨entry, artifact, distribution⟩

variable (nowMs : ℤ)

def assess : Option Offer :=
  match m.manifest with
  | none => m.server.map fun _ => ⟨.required false, none⟩
  | some held =>
    match evaluate os held.manifest (m.input (held.isStale nowMs)) with
    | .upToDate => none
    | .available release recommended =>
      some ⟨if recommended then .recommended else .optional, m.offered release⟩
    | .required release blockUi => some ⟨.required blockUi, release.bind m.offered⟩

/-- A package that is no longer the one on offer is given up. -/
def reassess : UpdateMachine :=
  let m := { m with offer := m.assess os nowMs, evaluated := m.evaluated || m.manifest.isSome }
  if m.ready.any fun ready => some ready.build != m.targetBuild then
    { m with
      discarded := m.ready, ready := none
      phase := if m.phase = .ready then .settled else m.phase }
  else m

def restore (installId : String) (persisted : PersistedUpdate) (manifest : Option HeldManifest) (nowMs : ℤ) :
    UpdateMachine :=
  let m := { m with
    installId, manifest, lastCheckedAtMs := persisted.lastCheckedAtMs, prompts := persisted.prompts
    ready := persisted.artifact }
  let m := m.reassess os nowMs
  if m.ready.isSome then { m with phase := .ready, promptReleased := true } else m

def takeDiscarded : Option ArtifactRecord × UpdateMachine := (m.discarded, { m with discarded := none })

def beginBackgroundCheck : UpdateMachine := { m with checkRounds := m.checkRounds + 1 }

/-- Whether a round is to be started, and the machine. -/
def requestCheck (manual : Bool) (nowMs : ℤ) : Bool × UpdateMachine :=
  let running := 0 < m.checkRounds
  if !manual && !running && !checkDue m.lastCheckedAtMs nowMs then (false, m)
  else
    let m := { m with
      error := none, manualCheck := m.manualCheck || manual
      phase := if m.phase = .settled ∨ m.phase = .failed then .checking else m.phase }
    if running then (false, m) else (true, { m with checkRounds := 1 })

/-- Whether the round was asked for by the host, and the machine. -/
def endCheckRound : Bool × UpdateMachine :=
  let rounds := m.checkRounds - 1
  (m.manualCheck, { m with
    checkRounds := rounds, manualCheck := false
    phase := if rounds = 0 ∧ m.phase = .checking then .settled else m.phase })

def checkStillDue : Bool × UpdateMachine :=
  if m.manualCheck || checkDue m.lastCheckedAtMs nowMs then (true, m) else (false, m.endCheckRound.2)

def checkUnavailable : UpdateMachine :=
  let (manual, m) := m.endCheckRound
  if manual then m.softError manifestUnavailable false else m

def finishCheck (result : CheckResult) (nowMs : ℤ) : UpdateMachine :=
  let (manual, m) := m.endCheckRound
  match result with
  | .manifest held => { m with manifest := some held, lastCheckedAtMs := some nowMs }.reassess os nowMs
  | .notPublished => { m with lastCheckedAtMs := some nowMs, evaluated := true }.reassess os nowMs
  | .failed code => if manual then m.softError code true else m
  | .skipped => m

def adoptSession (previous : UpdateMachine) : UpdateMachine :=
  { m with
    session := previous.session, shownPrompt := previous.shownPrompt, promptOpen := previous.promptOpen
    readOnlyAccepted := previous.readOnlyAccepted, foregroundedAtMs := previous.foregroundedAtMs }

def setStartupCheckPending (pending : Bool) : UpdateMachine := { m with startupCheckPending := pending }

/-- Two ways lead here from one return to the foreground; only the first counts. -/
def foregrounded : UpdateMachine :=
  if m.foregroundedAtMs.any fun at_ => 0 ≤ nowMs - at_ && nowMs - at_ < foregroundSettleMs then m
  else { m with foregroundedAtMs := some nowMs, session := { m.session with requiredShown := false } }

def backgrounded : UpdateMachine := { m with foregroundedAtMs := none }

def rejected (minBuild : Option ℕ) (nowMs : ℤ) : UpdateMachine :=
  let merged :=
    match m.server.bind (·.minBuild), minBuild with
    | none, build => build
    | some build, none => some build
    | some build, some build' => some (max build build')
  { m with server := some ⟨merged⟩ }.reassess os nowMs

/-- "Later". While a download is running only the prompt goes away. -/
def defer : UpdateMachine :=
  let m := { m with error := none }
  if m.phase = .downloading ∨ m.phase = .verifying then { m with promptHidden := true }
  else
    let m : UpdateMachine :=
      match m.urgency with
      | some (.required true) => m.softError notSkippable false
      | some (.required false) => { m with readOnlyAccepted := true }
      | some _ =>
        { m with prompts := m.prompts.defer nowMs, phase := if m.phase = .failed then .settled else m.phase }
      | none => m
    { m with promptOpen := false, promptReleased := true }

def skip (build : ℕ) : UpdateMachine :=
  let m := { m with error := none }
  if m.urgency.any (·.isRequired) then m.softError notSkippable false
  else { m with prompts := m.prompts.skip build, promptOpen := false }

def markPrompted (build : Option ℕ) (form : UpdatePrompt) (nowMs : ℤ) : UpdateMachine :=
  match m.urgency with
  | none => m
  | some urgency =>
    let (prompts, session) := m.prompts.record m.session urgency build form nowMs
    let m := { m with prompts, session }
    if form = .sheet ∨ form = .modal ∨ form = .fullscreen then
      { m with shownPrompt := some (build, form), promptOpen := true, promptReleased := false }
    else m

/-- What is to be downloaded for the release on offer. -/
def downloadSpec : Option DownloadSpec :=
  match m.release with
  | none => none
  | some release =>
    let artifact := release.artifact
    if ReleaseKind.of artifact ≠ some .package then none
    else
      match artifact.sha256, artifact.sizeBytes with
      | some sha256, some sizeBytes =>
        some
          { urls := artifact.urls, sha256, sizeBytes, signingCertSha256 := artifact.signingCertSha256
            build := release.entry.build
            fileName := sanitized release.entry.version ++ "-" ++ toString release.entry.build ++ ".apk" }
      | _, _ => none

def beginDownload (metered allowMetered : Bool) : Option DownloadSpec × UpdateMachine :=
  if m.busy || m.phase == .ready then (none, m)
  else
    let m := { m with error := none, promptReleased := false }
    match m.downloadSpec with
    | none => (none, m.softError noArtifact false)
    | some spec =>
      if metered && !allowMetered then (none, m.softError meteredConfirmationRequired false)
      else (some spec, { m with phase := .downloading, progress := some ⟨0, spec.sizeBytes⟩ })

def downloadProgress (received total : ℕ) : UpdateMachine :=
  if m.phase = .downloading then { m with progress := some ⟨received, total⟩ } else m

def beginVerifying : UpdateMachine := if m.phase = .downloading then { m with phase := .verifying } else m

def downloadReady (artifact : ArtifactRecord) (nowMs : ℤ) : UpdateMachine :=
  { m with
    progress := none, error := none, promptHidden := false, ready := some artifact
    phase := Phase.ready }.reassess os nowMs

def downloadFailed (code : String) (retryable : Bool) : UpdateMachine :=
  { m with progress := none, promptHidden := false, phase := Phase.failed }.softError code retryable

/-- The plan for an installation, or the package that needs another look first. -/
def installStep : Option InstallStep :=
  match m.release with
  | none => none
  | some release =>
    let required := m.urgency.any (·.isRequired)
    let blockUi := m.urgency == some (.required true)
    let artifact := release.artifact
    match ReleaseKind.of artifact with
    | none => none
    | some .store =>
      some (.plan (.openStore release.distribution (storeUrl release.distribution artifact) artifact.packageName
        artifact.appId (required && release.distribution == "play")))
    | some .package => m.ready.map .package
    | some .webBundle =>
      match artifact.buildId, artifact.sha256 with
      | some buildId, some sha256 =>
        some (.plan (.activateWebBundle buildId artifact.urls sha256 required blockUi))
      | _, _ => none
    | some .desktop =>
      m.app.target.bind fun target =>
        (artifact.targets.lookup target).map fun at_ =>
          .plan (.desktopUpdater release.entry.version target at_.sha256)

def beginInstall : Option InstallStep × UpdateMachine :=
  let m := { m with error := none, promptReleased := false }
  match m.installStep with
  | some (.plan plan) => (some (.plan plan), { m with phase := .installing })
  | some (.package record) => (some (.package record), m)
  | none => (none, m.softError noArtifact false)

def packageHandedOver : UpdateMachine := { m with phase := .installing }

def reportInstall (outcome : InstallOutcome) (code : Option String) : UpdateMachine :=
  match outcome with
  | .started => { m with error := none, phase := .installing }
  | .completed =>
    let isStore := (m.release.bind fun release => ReleaseKind.of release.artifact) = some .store
    { m with
      error := none, promptOpen := false, promptReleased := true
      phase := if isStore then .settled else m.phase }
  | .cancelled =>
    { m with
      error := none, promptOpen := false, promptReleased := true
      phase := if m.ready.isSome then .ready else .settled }
  | .failed =>
    let code := code.getD installFailed
    let badPackage := code = signatureMismatch ∨ code = downgradeRejected ∨ code = hashMismatch
    let m := if badPackage then { m with discarded := m.ready, ready := none } else m
    { m with phase := Phase.failed }.softError code (!badPackage)

def packageRejected : UpdateMachine :=
  { m with discarded := m.ready, ready := none, phase := Phase.failed }.softError hashMismatch true

end Operations

end UpdateMachine

/-! ### The runtime -/

/-- The machine of the update runtime, and the downloads that were started and have not
ended: those of this runtime and those of one that was replaced meanwhile. -/
structure Updates where
  machine : UpdateMachine
  loaded : Bool := false
  running : ℕ := 0
  orphans : ℕ := 0
  deriving DecidableEq, Repr

open Updates

namespace Updates

inductive Event
  /-- The stored records are read, once. -/
  | restore (installId : String) (persisted : PersistedUpdate) (manifest : Option HeldManifest) (nowMs : ℤ)
  | beginBackgroundCheck
  | requestCheck (manual : Bool) (nowMs : ℤ)
  | checkStillDue (nowMs : ℤ)
  | checkUnavailable
  | finishCheck (result : CheckResult) (nowMs : ℤ)
  | setStartupCheckPending (pending : Bool)
  | foregrounded (nowMs : ℤ)
  | backgrounded
  | rejected (minBuild : Option ℕ) (nowMs : ℤ)
  | defer (nowMs : ℤ)
  | skip (build : ℕ)
  | markPrompted (build : Option ℕ) (form : UpdatePrompt) (nowMs : ℤ)
  | beginDownload (metered allowMetered : Bool)
  | downloadProgress (received total : ℕ)
  | beginVerifying
  | downloadReady (artifact : ArtifactRecord) (nowMs : ℤ)
  | downloadFailed (code : String) (retryable : Bool)
  | beginInstall
  | packageHandedOver
  | packageRejected
  | reportInstall (outcome : InstallOutcome) (code : Option String)
  | takeDiscarded
  /-- The SDK is initialised again: a new machine takes up the session of the old one. -/
  | reinit (app : UpdateApp)
  /-- A download of an earlier runtime ends. -/
  | orphanEnded
  deriving DecidableEq, Repr

section Step

variable (os : Platform) (s : Updates)

/-- The end of a running download. -/
def finish (machine : UpdateMachine) : Updates :=
  if s.running = 0 then s else { s with machine, running := s.running - 1 }

def step : Event → Updates
  | .restore installId persisted manifest nowMs =>
    if s.loaded then s
    else { s with machine := s.machine.restore os installId persisted manifest nowMs, loaded := true }
  | .beginBackgroundCheck => { s with machine := s.machine.beginBackgroundCheck }
  | .requestCheck manual nowMs => { s with machine := (s.machine.requestCheck manual nowMs).2 }
  | .checkStillDue nowMs => { s with machine := (s.machine.checkStillDue nowMs).2 }
  | .checkUnavailable => { s with machine := s.machine.checkUnavailable }
  | .finishCheck result nowMs => { s with machine := s.machine.finishCheck os result nowMs }
  | .setStartupCheckPending pending => { s with machine := s.machine.setStartupCheckPending pending }
  | .foregrounded nowMs => { s with machine := s.machine.foregrounded nowMs }
  | .backgrounded => { s with machine := s.machine.backgrounded }
  | .rejected minBuild nowMs => { s with machine := s.machine.rejected os minBuild nowMs }
  | .defer nowMs => { s with machine := s.machine.defer nowMs }
  | .skip build => { s with machine := s.machine.skip build }
  | .markPrompted build form nowMs => { s with machine := s.machine.markPrompted build form nowMs }
  | .beginDownload metered allowMetered =>
    -- A download is begun only once the records are there.
    if s.loaded then
      match s.machine.beginDownload metered allowMetered with
      | (some _, machine) => { s with machine, running := s.running + 1 }
      | (none, machine) => { s with machine }
    else s
  | .downloadProgress received total => { s with machine := s.machine.downloadProgress received total }
  | .beginVerifying => { s with machine := s.machine.beginVerifying }
  | .downloadReady artifact nowMs => s.finish (s.machine.downloadReady os artifact nowMs)
  | .downloadFailed code retryable => s.finish (s.machine.downloadFailed code retryable)
  | .beginInstall => { s with machine := s.machine.beginInstall.2 }
  | .packageHandedOver => { s with machine := s.machine.packageHandedOver }
  | .packageRejected => { s with machine := s.machine.packageRejected }
  | .reportInstall outcome code => { s with machine := s.machine.reportInstall outcome code }
  | .takeDiscarded => { s with machine := s.machine.takeDiscarded.2 }
  | .reinit app =>
    { machine := ({ app } : UpdateMachine).adoptSession s.machine, orphans := s.orphans + s.running }
  | .orphanEnded => { s with orphans := s.orphans - 1 }

/-- The event is a call of `begin_download` that returns a specification. -/
def begins : Event → Bool
  | .beginDownload metered allowMetered => s.loaded && (s.machine.beginDownload metered allowMetered).1.isSome
  | _ => false

/-- A download is begun only where none is running. -/
def OneAtATime (e : Event) : Prop := s.begins e = true → s.running + s.orphans = 0
  deriving Decidable

/-- The end of an installation, or a new start of the runtime. Where the release on offer is no longer
a package, a completed installation ends the phase only if it is a store's. -/
def disturbs : Event → Bool
  | .reportInstall .completed _ =>
    (s.machine.release.bind fun release => ReleaseKind.of release.artifact) = some .store
  | .reportInstall .cancelled _ | .reportInstall .failed _ | .packageRejected | .reinit _ => true
  | _ => false

def Undisturbed (e : Event) : Prop := 0 < s.running → s.disturbs e = false
  deriving Decidable

end Step

/-- At most one download is running, and the phase keeps others off. -/
structure Guarded (s : Updates) : Prop where
  orphans : s.orphans = 0
  running : s.running ≤ 1
  loaded : 0 < s.running → s.loaded = true
  busy : 0 < s.running → s.machine.busy = true

end Updates

/-! ### What keeps the phase of a download -/

variable {e : Event} {m : UpdateMachine} {os : Platform} {s : Updates} {r : ArtifactRecord}

namespace UpdateMachine

theorem phase_skip (build : ℕ) : (m.skip build).phase = m.phase := by
  rw [skip]
  split_ifs <;> rfl

theorem phase_markPrompted (build : Option ℕ) (form : UpdatePrompt) (nowMs : ℤ) :
    (m.markPrompted build form nowMs).phase = m.phase := by
  rw [markPrompted]
  split
  · rfl
  · dsimp only
    split_ifs <;> rfl

theorem phase_foregrounded (nowMs : ℤ) : (m.foregrounded nowMs).phase = m.phase := by
  rw [foregrounded]
  split_ifs <;> rfl

theorem phase_downloadProgress (received total : ℕ) : (m.downloadProgress received total).phase = m.phase := by
  rw [downloadProgress]
  split_ifs <;> rfl

theorem busy_of_beginDownload {metered allowMetered : Bool} {spec : DownloadSpec} {m' : UpdateMachine}
    (h : m.beginDownload metered allowMetered = (some spec, m')) : m'.busy = true := by
  rw [beginDownload] at h
  split_ifs at h
  · cases h
  · dsimp only at h
    split at h <;> cases h
  · dsimp only at h
    split at h
    · cases h
    · cases h
      rfl

variable (h : m.busy = true)

include h

theorem phase_ne_of_busy {p : Phase} (hp : p ∉ [.downloading, .verifying, .installing]) : m.phase ≠ p := by
  rintro rfl
  simp [busy] at h hp
  tauto

theorem phase_reassess (nowMs : ℤ) : (m.reassess os nowMs).phase = m.phase := by
  rw [reassess]
  split_ifs with _ hready
  · exact absurd hready (phase_ne_of_busy h (by decide))
  · rfl
  · rfl

theorem phase_endCheckRound : m.endCheckRound.2.phase = m.phase := by
  have hchecking : m.phase ≠ .checking := phase_ne_of_busy h (by decide)
  exact if_neg fun hend => hchecking hend.2

theorem phase_requestCheck (manual : Bool) (nowMs : ℤ) : (m.requestCheck manual nowMs).2.phase = m.phase := by
  have hidle : ¬ (m.phase = .settled ∨ m.phase = .failed) := by
    rintro (hsettled | hfailed)
    · exact phase_ne_of_busy h (by decide) hsettled
    · exact phase_ne_of_busy h (by decide) hfailed
  rw [requestCheck]
  rw [if_neg hidle]
  split_ifs <;> rfl

theorem phase_checkStillDue (nowMs : ℤ) : (m.checkStillDue nowMs).2.phase = m.phase := by
  rw [checkStillDue]
  split_ifs
  · rfl
  · exact phase_endCheckRound h

theorem phase_checkUnavailable : m.checkUnavailable.phase = m.phase := by
  rw [checkUnavailable]
  dsimp only
  split_ifs
  · exact phase_endCheckRound h
  · exact phase_endCheckRound h

theorem phase_finishCheck (result : CheckResult) (nowMs : ℤ) : (m.finishCheck os result nowMs).phase = m.phase := by
  have hend := phase_endCheckRound h
  rw [busy, ← hend] at h
  rw [finishCheck]
  dsimp only
  split
  · refine (phase_reassess ?_ nowMs).trans hend
    exact h
  · refine (phase_reassess ?_ nowMs).trans hend
    exact h
  · split_ifs <;> exact hend
  · exact hend

theorem phase_defer (nowMs : ℤ) : (m.defer nowMs).phase = m.phase := by
  have hfailed : m.phase ≠ .failed := phase_ne_of_busy h (by decide)
  rw [defer]
  rw [if_neg hfailed]
  split
  · rfl
  · split <;> rfl

theorem busy_beginVerifying : m.beginVerifying.busy = true := by
  rw [beginVerifying]
  split_ifs
  · rfl
  · exact h

theorem beginDownload_of_busy (metered allowMetered : Bool) : m.beginDownload metered allowMetered = (none, m) := by
  rw [beginDownload, h]
  rfl

theorem busy_beginInstall : m.beginInstall.2.busy = true := by
  rw [beginInstall]
  dsimp only
  split
  · rfl
  · exact h
  · exact h

end UpdateMachine

namespace Updates

variable (h : s.Guarded)

include h

/-- An event that only changes the machine, and keeps the phase of a busy one. -/
theorem Guarded.withMachine {machine : UpdateMachine}
    (hphase : s.machine.busy = true → machine.phase = s.machine.phase) : Guarded { s with machine } where
  orphans := h.orphans
  running := h.running
  loaded := h.loaded
  busy hrunning := by
    have hbusy := h.busy hrunning
    rwa [UpdateMachine.busy, hphase hbusy]

theorem Guarded.finish (machine : UpdateMachine) : (s.finish machine).Guarded := by
  rw [Updates.finish]
  split_ifs
  · exact h
  · have hnone : s.running - 1 = 0 := by
      have := h.running
      omega
    refine ⟨h.orphans, by simp [hnone], fun hrunning => ?_, fun hrunning => ?_⟩
    · exact absurd hnone hrunning.ne'
    · exact absurd hnone hrunning.ne'

theorem Guarded.beginDownload (metered allowMetered : Bool) :
    (s.step os (.beginDownload metered allowMetered)).Guarded := by
  rw [step]
  split_ifs with hloaded
  · split
    · next spec machine hbegin =>
      have hnone : s.running = 0 := by
        by_contra hrunning
        rw [beginDownload_of_busy (h.busy (Nat.pos_of_ne_zero hrunning))] at hbegin
        cases hbegin
      refine ⟨h.orphans, ?_, fun _ => hloaded, fun _ => busy_of_beginDownload hbegin⟩
      exact (congrArg (· + 1) hnone).le
    · next machine hbegin =>
      refine h.withMachine fun hphase => ?_
      rw [beginDownload_of_busy hphase] at hbegin
      cases hbegin
      rfl
  · exact h

theorem Guarded.step (he : s.Undisturbed e) : (s.step os e).Guarded := by
  -- The end of an installation or a new start, while nothing is running.
  have hidle (hdisturbs : s.disturbs e = true) : s.running = 0 := by
    by_contra hrunning
    exact Bool.false_ne_true ((he (Nat.pos_of_ne_zero hrunning)).symm.trans hdisturbs)
  have hfree (machine : UpdateMachine) (hdisturbs : s.disturbs e = true) : Guarded { s with machine } :=
    ⟨h.orphans, h.running, h.loaded, fun hrunning => absurd (hidle hdisturbs) hrunning.ne'⟩
  have hbusy (machine : UpdateMachine) (hkeeps : s.machine.busy = true → machine.busy = true) :
      Guarded { s with machine } := ⟨h.orphans, h.running, h.loaded, fun hrunning => hkeeps (h.busy hrunning)⟩
  cases e with
  | restore installId persisted manifest nowMs =>
    rw [step]
    split_ifs with hloaded
    · exact h
    · have hnone : ¬ 0 < s.running := fun hrunning => hloaded (h.loaded hrunning)
      exact ⟨h.orphans, h.running, fun _ => rfl, fun hrunning => absurd hrunning hnone⟩
  | beginBackgroundCheck => exact h.withMachine fun _ => rfl
  | requestCheck manual nowMs => exact h.withMachine fun hphase => phase_requestCheck hphase manual nowMs
  | checkStillDue nowMs => exact h.withMachine fun hphase => phase_checkStillDue hphase nowMs
  | checkUnavailable => exact h.withMachine phase_checkUnavailable
  | finishCheck result nowMs => exact h.withMachine fun hphase => phase_finishCheck hphase result nowMs
  | setStartupCheckPending pending => exact h.withMachine fun _ => rfl
  | foregrounded nowMs => exact h.withMachine fun _ => phase_foregrounded nowMs
  | backgrounded => exact h.withMachine fun _ => rfl
  | rejected minBuild nowMs => exact h.withMachine fun hphase => phase_reassess (by exact hphase) nowMs
  | defer nowMs => exact h.withMachine fun hphase => phase_defer hphase nowMs
  | skip build => exact h.withMachine fun _ => phase_skip build
  | markPrompted build form nowMs => exact h.withMachine fun _ => phase_markPrompted build form nowMs
  | beginDownload metered allowMetered => exact h.beginDownload metered allowMetered
  | downloadProgress received total => exact h.withMachine fun _ => phase_downloadProgress received total
  | beginVerifying => exact hbusy _ busy_beginVerifying
  | downloadReady artifact nowMs => exact h.finish _
  | downloadFailed code retryable => exact h.finish _
  | beginInstall => exact hbusy _ busy_beginInstall
  | packageHandedOver => exact hbusy _ fun _ => rfl
  | packageRejected => exact hfree _ rfl
  | reportInstall outcome code =>
    cases outcome with
    | started => exact hbusy _ fun _ => rfl
    | completed =>
      by_cases hstore : s.disturbs (.reportInstall .completed code) = true
      · exact hfree _ hstore
      · exact h.withMachine fun _ => if_neg (by simpa [disturbs] using hstore)
    | cancelled => exact hfree _ rfl
    | failed => exact hfree _ rfl
  | takeDiscarded => exact h.withMachine fun _ => rfl
  | reinit app =>
    refine ⟨?_, Nat.zero_le _, fun hrunning => absurd hrunning (Nat.lt_irrefl _),
      fun hrunning => absurd hrunning (Nat.lt_irrefl _)⟩
    show s.orphans + s.running = 0
    rw [h.orphans, hidle rfl]
  | orphanEnded =>
    refine ⟨?_, h.running, h.loaded, h.busy⟩
    show s.orphans - 1 = 0
    rw [h.orphans]

theorem Guarded.oneAtATime (e : Event) : s.OneAtATime e := by
  intro hbegins
  have hnone : s.running = 0 := by
    by_contra hrunning
    cases e with
    | beginDownload metered allowMetered =>
      rw [begins, beginDownload_of_busy (h.busy (Nat.pos_of_ne_zero hrunning))] at hbegins
      simp at hbegins
    | _ => cases hbegins
  rw [hnone, h.orphans]

end Updates

/-- In every history in which no installation ends, and the SDK is not initialised again, while a
download is running, no download is begun while another one is running. -/
theorem oneAtATime_run (os : Platform) (app : UpdateApp) (events : List Updates.Event)
    (h : AllSteps (step os) Updates.Undisturbed { machine := { app } } events) :
    AllSteps (step os) Updates.OneAtATime { machine := { app } } events := by
  have hstart : Updates.Guarded { machine := { app } } :=
    ⟨rfl, Nat.zero_le 1, fun hrunning => absurd hrunning (Nat.lt_irrefl 0),
      fun hrunning => absurd hrunning (Nat.lt_irrefl 0)⟩
  exact .of_invariant (I := Updates.Guarded) (fun _ _ hs he => hs.step he) (fun _ e hs _ => hs.oneAtATime e)
    events _ hstart h

/-! ### A report of the installer -/

/-- A package to download, for build 4. -/
def packageManifest : HeldManifest where
  manifest :=
    { policy := {}
      releases :=
        [{ releaseId := "five", version := "5.0", build := 5, rollout := ⟨fullRolloutBasisPoints, "salt", false⟩
           artifacts := [("direct",
             { kind := "apk", urls := ["https://a"], sizeBytes := some 3, sha256 := some "000000"
               signingCertSha256 := some "cert" })] }] }
  expiresAtMs := 1000

def directApp : UpdateApp := { build := some 4, distribution := some "direct" }

/-- The start, with the manifest at hand, and a first download. -/
def firstDownload : List Updates.Event :=
  [.restore "install" {} (some packageManifest) 0, .beginDownload false false]

/-- A second download after the first one has ended. -/
theorem oneAtATime_run_firstDownload :
    AllSteps (step plainPlatform) Updates.OneAtATime { machine := { app := directApp } }
      (firstDownload ++ [.beginDownload false false, .downloadFailed "update.downloadFailed" true,
        .reportInstall .cancelled none, .beginDownload false false]) :=
  oneAtATime_run plainPlatform directApp _ (by decide)

/-- An installation is reported as cancelled while the download is running, and the
next call begins another one. -/
theorem not_oneAtATime_firstDownload :
    let s := run (step plainPlatform) { machine := { app := directApp } }
      (firstDownload ++ [.reportInstall .cancelled none])
    s.running = 1 ∧ s.begins (.beginDownload false false) = true := by
  decide

/-! ### Records given up -/

/-- The record is in use, or is what the next `take_discarded` returns. -/
def UpdateMachine.Holds (m : UpdateMachine) (r : ArtifactRecord) : Prop := m.ready = some r ∨ m.discarded = some r

theorem UpdateMachine.holds_reassess (h : m.Holds r) (hroom : (m.ready.isNone || m.discarded.isNone) = true)
    (nowMs : ℤ) : (m.reassess os nowMs).Holds r := by
  rw [reassess]
  split
  · next hgone =>
    refine .inr (h.resolve_right fun hwaits => ?_)
    have hnone : m.ready.isNone = true := by simpa [hwaits] using hroom
    simp [Option.isNone_iff_eq_none.mp hnone] at hgone
  · exact h

namespace Updates

/-- No record can be given up while an earlier one waits to be taken, none comes where there is one, and the
SDK is not initialised again. -/
def isCareful (s : Updates) : Event → Bool
  | .restore .. => s.loaded || s.machine.ready.isNone && s.machine.discarded.isNone
  | .downloadReady .. => s.running == 0 || s.machine.ready.isNone && s.machine.discarded.isNone
  | .finishCheck (.manifest _) _ | .finishCheck .notPublished _ | .rejected .. =>
    s.machine.ready.isNone || s.machine.discarded.isNone
  | .packageRejected => s.machine.discarded.isNone
  | .reportInstall .failed code => s.machine.discarded.isNone ||
      code.getD installFailed ∉ [signatureMismatch, downgradeRejected, hashMismatch]
  | .reinit _ => false
  | _ => true

open UpdateMachine in
theorem holds_step (h : s.machine.Holds r) (he : s.isCareful e = true)
    (htake : e = .takeDiscarded → s.machine.discarded ≠ some r) : (s.step os e).machine.Holds r := by
  have hready (hnone : s.machine.discarded.isNone = true) : s.machine.ready = some r :=
    h.resolve_right fun hwaits => by simp [hwaits] at hnone
  have hnot : (s.machine.ready.isNone && s.machine.discarded.isNone) = false := by
    cases hnone : s.machine.discarded.isNone <;> simp [hready, hnone]
  cases e with
  | restore =>
    rw [isCareful, hnot, Bool.or_false] at he
    rwa [step, if_pos he]
  | downloadReady =>
    rw [isCareful, hnot, Bool.or_false, beq_iff_eq] at he
    rwa [step, finish, if_pos he]
  | finishCheck result nowMs =>
    cases result with
    | manifest | notPublished => exact holds_reassess (by exact h) (by exact he) nowMs
    | failed | skipped => grind [step, finishCheck, endCheckRound, softError, Holds]
  | rejected minBuild nowMs => exact holds_reassess (by exact h) (by exact he) nowMs
  | packageRejected => exact .inr (hready he)
  | reportInstall outcome code =>
    cases outcome with
    | failed =>
      rcases Bool.or_eq_true_iff.mp he with hnone | hgood
      · have hkept := hready hnone
        grind [step, reportInstall, softError, Holds]
      · have hgood : ¬ (code.getD installFailed = signatureMismatch ∨ code.getD installFailed = downgradeRejected ∨
            code.getD installFailed = hashMismatch) := by simpa using hgood
        grind [step, reportInstall, softError, Holds]
    | _ => grind [step, reportInstall, Holds]
  | takeDiscarded => exact .inl (h.resolve_right (htake rfl))
  | reinit => cases he
  | _ => grind [step, finish, Holds, softError, requestCheck, checkStillDue, checkUnavailable,
      endCheckRound, defer, skip,
      markPrompted, foregrounded, beginDownload, downloadProgress, beginVerifying, downloadFailed, beginInstall,
      beginBackgroundCheck, setStartupCheckPending, backgrounded, packageHandedOver]

/-- A record that the machine has had is still in use, waits to be taken, or was taken. -/
theorem holds_or_taken (es : List Event) (hs : s.machine.Holds r)
    (hes : AllSteps (step os) (fun s e => s.isCareful e = true) s es) :
    (run (step os) s es).machine.Holds r ∨ ∃ before after, es = before ++ .takeDiscarded :: after ∧
      (run (step os) s before).machine.takeDiscarded.1 = some r := by
  induction es generalizing s with
  | nil => exact .inl hs
  | cons e es ih =>
    by_cases htaken : e = .takeDiscarded ∧ s.machine.discarded = some r
    · exact .inr ⟨[], es, by rw [htaken.1]; rfl, htaken.2⟩
    · refine (ih (holds_step hs hes.1 (not_and.mp htaken)) hes.2).imp_right ?_
      rintro ⟨before, after, rfl, htake⟩
      exact ⟨e :: before, after, rfl, htake⟩

end Updates

def packageRecord : ArtifactRecord := ⟨"5.0-5.apk", "000000", some "cert", 5, 3⟩

def packageReady : Updates :=
  run (step plainPlatform) { machine := { app := directApp } } (firstDownload ++ [.downloadReady packageRecord 0])

/-- A bad package that is taken before the next report. -/
theorem holds_or_taken_packageReady :
    let es : List Updates.Event :=
      [.reportInstall .failed (some hashMismatch), .takeDiscarded, .reportInstall .failed (some hashMismatch)]
    (run (step plainPlatform) packageReady es).machine.Holds packageRecord ∨
      ∃ before after, es = before ++ .takeDiscarded :: after ∧
        (run (step plainPlatform) packageReady before).machine.takeDiscarded.1 = some packageRecord :=
  holds_or_taken _ (.inl (by decide)) (by decide)

/-- Two reports without a call in between: the second one overwrites the record. -/
theorem not_holds_after_reports : packageReady.machine.ready = some packageRecord ∧
    ¬ (run (step plainPlatform) packageReady [.reportInstall .failed (some hashMismatch),
      .reportInstall .failed (some hashMismatch)]).machine.Holds packageRecord := by
  unfold UpdateMachine.Holds
  decide

end FlareIm.Release
