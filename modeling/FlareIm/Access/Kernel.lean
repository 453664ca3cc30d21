import FlareIm.Access.Manifests

/-! One access kernel: what it stores, what it holds in memory, and what it does with
the documents it is given. A verified access manifest is committed and then installed
in the directory; when the write fails it is used all the same, so the memory can be
ahead of the store. A restart keeps the store alone: the kernel verifies the stored
copies again and takes the newer of the last trusted manifest and the one built into
the app. A kernel in development mode has no trust material and refuses every document;
it has no part here. -/

namespace FlareIm.Access

open Lib

/-! ### The directory -/

inductive ManifestOrigin
  | signed (keyId : String) (source : ManifestSource)
  | development
  | unavailable
  deriving DecidableEq, Repr

structure DirectorySnapshot where
  serial : ℕ
  origin : ManifestOrigin
  deriving DecidableEq, Repr

namespace DirectorySnapshot

def fromVerified (verified : VerifiedAccessManifest) (source : ManifestSource) : DirectorySnapshot where
  serial := verified.serial
  origin := .signed verified.keyId source

/-- No manifest can be trusted yet. -/
def unavailable : DirectorySnapshot := ⟨0, .unavailable⟩

def hasManifest (d : DirectorySnapshot) : Bool := d.origin != .unavailable

def isDevelopment (d : DirectorySnapshot) : Bool := d.origin == .development

def replaceIfNewer (current next : DirectorySnapshot) : Option DirectorySnapshot :=
  if next.serial ≤ current.serial ∧ current.isDevelopment = false ∧ current.hasManifest = true then none
  else some next

end DirectorySnapshot

/-! ### The kernel -/

/-- What is built into the app. -/
structure AccessConfig (Key : Type) where
  roots : TrustRoots Key
  bootstrapId : String

namespace AccessConfig

variable {Key : Type} (config : AccessConfig Key)

def manifests : ManifestStore := ⟨config.bootstrapId, config.roots.fingerprint, ""⟩

/-- `TrustStore::new`: no key state yet. -/
def trust : TrustStore Key where
  roots := config.roots
  bootstrapId := config.bootstrapId
  revoked := ∅
  keystateCerts := []
  keystateSerial := none

end AccessConfig

structure AccessKernel (Key : Type) where
  /-- What the access store holds. -/
  entries : Entries
  cache : MaxCache
  trust : TrustStore Key
  directory : DirectorySnapshot

inductive ManifestUpdate
  | adopted (stale persisted : Bool)
  | unchanged (serial : ℕ)
  deriving DecidableEq, Repr

inductive KeystateUpdate
  | adopted (serial : ℕ) (currentManifestRevoked : Bool)
  | unchanged (serial : ℕ)
  deriving DecidableEq, Repr

def VerifiedAccessManifest.commit (verified : VerifiedAccessManifest) (info : FetchMeta) : Commit where
  doc := .access
  serial := verified.serial
  serial_le := verified.manifest.serial_le
  envelope := verified.envelope
  info := info

def VerifiedKeyState.commit (keystate : VerifiedKeyState) (info : FetchMeta) : Commit where
  doc := .keyState
  serial := keystate.serial
  serial_le := keystate.serial_le
  envelope := keystate.envelope
  info := info

namespace AccessKernel

variable {Key Recovery : Type} (P : Primitives Key Recovery) (config : AccessConfig Key)

/-- A commit of the kernel's manifest store. -/
def commit (k : AccessKernel Key) (c : Commit) (faults : Faults) :
    Except AcceptError AcceptOutcome × AccessKernel Key :=
  let s := CommitState.finish config.manifests c faults k.entries k.cache
  (s.result, { k with entries := s.entries, cache := s.cache })

section

variable (k : AccessKernel Key) (verified : VerifiedAccessManifest) (info : FetchMeta) (nowMs : Int64)

def install
    (persisted : Bool) : ManifestUpdate × AccessKernel Key :=
  let stale := verified.times.expiresAtMs ≤ nowMs
  match k.directory.replaceIfNewer (.fromVerified verified info.source) with
  | some directory => (.adopted stale persisted, { k with directory })
  | none => (.unchanged k.directory.serial, k)

/-- A write that fails does not keep the kernel from using the verified manifest. -/
def adopt
    (faults : Faults) : Except AcceptError ManifestUpdate × AccessKernel Key :=
  let (outcome, k) := k.commit config (verified.commit info) faults
  match outcome with
  | .ok _ =>
    let (update, k) := k.install verified info nowMs true
    (.ok update, k)
  | .error (.store _) =>
    let (update, k) := k.install verified info nowMs false
    (.ok update, k)
  | .error error => (.error error, k)

end

section

variable (k : AccessKernel Key)

def acceptManifest (envelope : Bytes) (info : FetchMeta) (nowMs : Int64)
    (faults : Faults) : Except AcceptError ManifestUpdate × AccessKernel Key :=
  match k.trust.verifyAccess P envelope nowMs with
  | .ok verified => k.adopt config verified info nowMs faults
  | .error error => (.error (.trust error), k)

/-- `envelope` is what a well-formed recovery link stands for. -/
def acceptRecovery (envelope : Bytes) (nowMs : Int64) (faults : Faults) :
    Except AcceptError ManifestUpdate × AccessKernel Key :=
  match k.trust.verifyRecovery P envelope with
  | .ok verified => k.adopt config verified { source := .recovery, fetchedAtMs := nowMs } nowMs faults
  | .error error => (.error (.trust error), k)

/-- The key that signed the manifest in use is revoked. -/
def currentManifestRevoked : Bool :=
  match k.directory.origin with
  | .signed keyId _ => keyId ∈ k.trust.revoked
  | _ => false

def acceptKeystate (envelope : Bytes) (info : FetchMeta) (faults : Faults) :
    Except AcceptError KeystateUpdate × AccessKernel Key :=
  let current := k.trust
  match current.verifyKeystate P envelope with
  | .error error => (.error (.trust error), k)
  | .ok keystate =>
    let (outcome, k) := k.commit config (keystate.commit info) faults
    let next := { k with trust := current.withKeystate keystate }
    let adopted := (.ok (.adopted keystate.serial next.currentManifestRevoked), next)
    match outcome with
    | .ok (.unchanged serial) =>
      if current.keystateSerial = some serial then (.ok (.unchanged serial), k) else adopted
    | .ok (.adopted ..) => adopted
    -- A revocation holds in memory even when it cannot be written.
    | .error (.store _) => adopted
    | .error error => (.error error, k)

end

/-! ### Start -/

/-- What a start reads: the app's own manifest, the time, and which reads fail. -/
structure Boot where
  seed : Option Bytes
  nowMs : Int64
  keystateFails : Bool
  lkgFails : Bool
  faults : Faults

/-- `ManifestStore::load`; a value that is not a record counts as unreadable. -/
def load (entries : Entries) (doc : DocType) (fails : Bool) : Option StoredDocument :=
  if fails then none else (config.manifests.keysFor doc).currentIn entries

def loadKeystate (entries : Entries) (fails : Bool) : TrustStore Key :=
  match load config entries .keyState fails with
  | none => config.trust
  | some record =>
    match config.trust.verifyKeystate P record.envelope with
    | .ok keystate => config.trust.withKeystate keystate
    | .error _ => config.trust

def loadLkg (trust : TrustStore Key) (entries : Entries) (nowMs : Int64) (fails : Bool) :
    Option (VerifiedAccessManifest × StoredDocument) :=
  match load config entries .access fails with
  | none => none
  | some record => (trust.verifyStoredAccess P record.envelope nowMs).toOption.map fun verified =>
      (verified, record)

/-- The manifest built into the app; it is written unless a newer one is stored. -/
def fromSeed (k : AccessKernel Key) (seed : VerifiedAccessManifest) (nowMs : Int64) (faults : Faults) :
    AccessKernel Key :=
  let k := (k.commit config (seed.commit { source := .seed, fetchedAtMs := nowMs }) faults).2
  { k with directory := .fromVerified seed .seed }

/-- A start over what is stored, up to the choice of the first directory. -/
def bootstrap (entries : Entries) (boot : Boot) : AccessKernel Key :=
  let trust := loadKeystate P config entries boot.keystateFails
  let k : AccessKernel Key := { entries, cache := fun _ => none, trust, directory := .unavailable }
  let seed := boot.seed.bind fun bytes => (trust.verifyAccess P bytes boot.nowMs).toOption
  match loadLkg P config trust entries boot.nowMs boot.lkgFails, seed with
  | some (lkg, record), some seed =>
    if lkg.serial < seed.serial then k.fromSeed config seed boot.nowMs boot.faults
    else { k with directory := .fromVerified lkg record.source }
  | some (lkg, record), none => { k with directory := .fromVerified lkg record.source }
  | none, some seed => k.fromSeed config seed boot.nowMs boot.faults
  | none, none => k

/-! ### Histories -/

inductive Event
  | manifest (envelope : Bytes) (info : FetchMeta) (nowMs : Int64) (faults : Faults)
  | recovery (envelope : Bytes) (nowMs : Int64) (faults : Faults)
  | keystate (envelope : Bytes) (info : FetchMeta) (faults : Faults)
  | restart (boot : Boot)

def step (k : AccessKernel Key) : Event → AccessKernel Key
  | .manifest envelope info nowMs faults => (k.acceptManifest P config envelope info nowMs faults).2
  | .recovery envelope nowMs faults => (k.acceptRecovery P config envelope nowMs faults).2
  | .keystate envelope info faults => (k.acceptKeystate P config envelope info faults).2
  | .restart boot => bootstrap P config k.entries boot

/-! ### Invariants -/

/-- What is stored is consistent and the cache agrees with it; a directory without a
manifest has serial 0. -/
structure Sound (k : AccessKernel Key) : Prop where
  consistent : ∀ doc, CommitState.Consistent (config.manifests.keysFor doc) k.entries
  cached : ∀ doc max, k.cache doc = some max → max = (config.manifests.keysFor doc).maxIn k.entries
  production : k.directory.isDevelopment = false
  empty : k.directory.hasManifest = false → k.directory.serial = 0

variable {P config} {k : AccessKernel Key}

theorem Sound.commit (h : k.Sound config) (c : Commit) (faults : Faults) :
    (k.commit config c faults).2.Sound config := by
  have haligned := CommitState.aligned_finish (c := c) faults h.consistent h.cached
  exact ⟨haligned.consistent, haligned.cached, h.production, h.empty⟩

theorem Sound.withTrust (h : k.Sound config) (trust : TrustStore Key) : Sound config { k with trust } :=
  ⟨h.consistent, h.cached, h.production, h.empty⟩

theorem Sound.fromVerified (h : k.Sound config) (verified : VerifiedAccessManifest) (source : ManifestSource) :
    Sound config { k with directory := .fromVerified verified source } :=
  ⟨h.consistent, h.cached, rfl, fun hnone => by cases hnone⟩

variable (verified : VerifiedAccessManifest) (info : FetchMeta) (nowMs : Int64)

theorem Sound.install (h : k.Sound config) (persisted : Bool) :
    (k.install verified info nowMs persisted).2.Sound config ∧
      k.directory.serial ≤ (k.install verified info nowMs persisted).2.directory.serial := by
  rw [AccessKernel.install, DirectorySnapshot.replaceIfNewer]
  split_ifs with hkeep
  · exact ⟨h, le_rfl⟩
  · refine ⟨h.fromVerified verified info.source, ?_⟩
    -- Only an empty directory is replaced by an older manifest, and its serial is 0.
    by_cases hmanifest : k.directory.hasManifest = true
    · exact Nat.le_of_not_le fun hle => hkeep ⟨hle, h.production, hmanifest⟩
    · have hzero : k.directory.serial = 0 := h.empty (Bool.eq_false_iff.mpr hmanifest)
      rw [hzero]
      exact Nat.zero_le _

theorem Sound.adopt (h : k.Sound config) (faults : Faults) :
    (k.adopt config verified info nowMs faults).2.Sound config ∧
      k.directory.serial ≤ (k.adopt config verified info nowMs faults).2.directory.serial := by
  have hcommit := h.commit (verified.commit info) faults
  rw [AccessKernel.adopt]
  dsimp only
  split
  · exact hcommit.install verified info nowMs true
  · exact hcommit.install verified info nowMs false
  · exact ⟨hcommit, le_rfl⟩

theorem directory_install {persisted : Bool}
    (h : ∀ stale persisted', (k.install verified info nowMs persisted).1 ≠ .adopted stale persisted') :
    (k.install verified info nowMs persisted).2.directory = k.directory := by
  rw [AccessKernel.install] at h ⊢
  split at h
  · exact absurd rfl (h _ _)
  · rfl

theorem directory_acceptManifest {envelope : Bytes} {faults : Faults}
    (h : ∀ stale persisted,
      (k.acceptManifest P config envelope info nowMs faults).1 ≠ .ok (.adopted stale persisted)) :
    (k.acceptManifest P config envelope info nowMs faults).2.directory = k.directory := by
  rw [acceptManifest] at h ⊢
  split at h
  · rw [AccessKernel.adopt] at h ⊢
    dsimp only at h ⊢
    split at h
    · exact directory_install _ _ _ fun stale persisted heq => h stale persisted (congrArg Except.ok heq)
    · exact directory_install _ _ _ fun stale persisted heq => h stale persisted (congrArg Except.ok heq)
    · rfl
  · rfl

theorem directory_acceptKeystate (k : AccessKernel Key) (envelope : Bytes) (faults : Faults) :
    (k.acceptKeystate P config envelope info faults).2.directory = k.directory := by
  rw [AccessKernel.acceptKeystate]
  dsimp only
  split
  · rfl
  · split
    · split_ifs <;> rfl
    · rfl
    · rfl
    · rfl

theorem Sound.acceptKeystate (h : k.Sound config) (envelope : Bytes) (faults : Faults) :
    (k.acceptKeystate P config envelope info faults).2.Sound config := by
  rw [AccessKernel.acceptKeystate]
  dsimp only
  split
  · exact h
  · next keystate _ =>
    have hcommit := h.commit (keystate.commit info) faults
    have hadopted := hcommit.withTrust (k.trust.withKeystate keystate)
    split
    · split_ifs
      · exact hcommit
      · exact hadopted
    · exact hadopted
    · exact hadopted
    · exact hcommit

theorem Sound.fromSeed (h : k.Sound config) (faults : Faults) :
    (k.fromSeed config verified nowMs faults).Sound config :=
  (h.commit _ faults).fromVerified verified .seed

theorem sound_bootstrap {entries : Entries}
    (h : ∀ doc, CommitState.Consistent (config.manifests.keysFor doc) entries) (boot : Boot) :
    (bootstrap P config entries boot).Sound config := by
  have hstart : Sound config
      { entries, cache := fun _ => none, trust := loadKeystate P config entries boot.keystateFails
        directory := .unavailable } :=
    ⟨h, fun _ _ hcache => (by cases hcache), rfl, fun _ => rfl⟩
  rw [bootstrap]
  split
  · split_ifs
    · exact hstart.fromSeed _ _ _
    · exact hstart.fromVerified _ _
  · exact hstart.fromVerified _ _
  · exact hstart.fromSeed _ _ _
  · exact hstart

/-- A step keeps the invariant, and only a restart can bring the directory back. -/
theorem Sound.step (h : k.Sound config) (e : Event) : (k.step P config e).Sound config ∧
      ((∀ boot, e ≠ .restart boot) → k.directory.serial ≤ (k.step P config e).directory.serial) := by
  cases e with
  | manifest envelope info nowMs faults =>
    simp only [AccessKernel.step, acceptManifest]
    split
    · exact ⟨(h.adopt _ info nowMs faults).1, fun _ => (h.adopt _ info nowMs faults).2⟩
    · exact ⟨h, fun _ => le_rfl⟩
  | recovery envelope nowMs faults =>
    simp only [AccessKernel.step, acceptRecovery]
    split
    · exact ⟨(h.adopt _ _ nowMs faults).1, fun _ => (h.adopt _ _ nowMs faults).2⟩
    · exact ⟨h, fun _ => le_rfl⟩
  | keystate envelope info faults =>
    refine ⟨h.acceptKeystate info envelope faults, fun _ => ?_⟩
    rw [AccessKernel.step, directory_acceptKeystate]
  | restart boot => exact ⟨sound_bootstrap h.consistent boot, fun hne => absurd rfl (hne boot)⟩

theorem consistent_empty (keys : DocKeys) : CommitState.Consistent keys ∅ := by
  refine ⟨?_, fun previous hprevious => ?_⟩
  · simp [DocKeys.serialIn, DocKeys.currentIn]
  · cases hkey : keys.previous <;> simp [DocKeys.previousIn, hkey] at hprevious

end AccessKernel

open AccessKernel in
/-- From an empty store on, whatever manifests, recovery links and key states arrive,
whichever operations of the store fail and however often the kernel restarts: the
serial key names the serial of the current record, the previous record is older, and
between restarts the directory never goes back. -/
theorem consistent_run {Key Recovery : Type} (P : Primitives Key Recovery) (config : AccessConfig Key) (boot : Boot)
    (events : List Event) :
    CommitState.Consistent (config.manifests.keysFor .access)
        (run (step P config) (bootstrap P config ∅ boot) events).entries ∧
      AllSteps (step P config)
        (fun k e => (∀ boot, e ≠ .restart boot) → k.directory.serial ≤ (k.step P config e).directory.serial)
        (bootstrap P config ∅ boot) events := by
  have hstart : (bootstrap P config ∅ boot).Sound config := sound_bootstrap (fun _ => consistent_empty _) boot
  have hall : AllSteps (step P config) (fun _ _ => True) (bootstrap P config ∅ boot) events :=
    AllSteps.intro fun _ _ => trivial
  have hsound := run_invariant (I := Sound config) (fun k e hk _ => (hk.step e).1) events _ hstart hall
  exact ⟨hsound.consistent .access,
    AllSteps.of_invariant (I := Sound config) (fun k e hk _ => (hk.step e).1) (fun k e hk _ => (hk.step e).2)
      events _ hstart hall⟩

end FlareIm.Access
