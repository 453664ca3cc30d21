import FlareIm.Access.Download
import Mathlib.Data.List.Sort

/-! Evaluation of a release manifest: what is offered to this installation. A native app
compares builds, a web app compares build ids and takes the releases in the order of the
manifest. A forced native update passes over the releases that the policy itself would
force off; the other three ways to a release do not look at the policy of their target. -/

namespace FlareIm.Release

open Lib Access List

/-! ### The manifest -/

structure Rollout where
  basisPoints : ℕ
  salt : String
  halted : Bool := false
  deriving DecidableEq, Repr

structure ArtifactTarget where
  urls : List String
  sizeBytes : Option ℕ := none
  sha256 : Option String := none
  deriving DecidableEq, Repr

/-- What one distribution has to offer. The kind is open: a client takes one that it does
not know for none at all. -/
structure ReleaseArtifact where
  kind : String
  packageName : Option String := none
  appId : Option String := none
  storeUrl : Option String := none
  urls : List String := []
  sizeBytes : Option ℕ := none
  sha256 : Option String := none
  buildId : Option String := none
  signingCertSha256 : Option String := none
  targets : List (String × ArtifactTarget) := []
  deriving DecidableEq, Repr

structure ReleaseEntry where
  releaseId : String
  version : String
  build : ℕ
  rollout : Rollout
  artifacts : List (String × ReleaseArtifact)
  deriving DecidableEq, Repr

structure BlockedBuilds where
  low : ℕ
  high : ℕ
  deriving DecidableEq, Repr

structure ReleasePolicy where
  minBuild : ℕ := 0
  recommendBelowBuild : ℕ := 0
  blockedBuilds : List BlockedBuilds := []
  blockUi : Bool := false
  deriving DecidableEq, Repr

/-- The part of a release manifest that is evaluated. -/
structure Manifest where
  policy : ReleasePolicy
  releases : List ReleaseEntry
  deriving DecidableEq, Repr

/-! ### Evaluation -/

/-- The server has refused this version. -/
structure ServerGate where
  minBuild : Option ℕ
  deriving DecidableEq, Repr

structure EvaluationInput where
  currentBuild : Option ℕ
  /-- The running web build; where there is one, the rules of the web apply. -/
  currentBuildId : Option String
  distribution : String
  target : Option String
  installId : String
  stale : Bool
  server : Option ServerGate
  deriving DecidableEq, Repr

inductive Urgency
  | optional
  | recommended
  | required (blockUi : Bool)
  deriving DecidableEq, Repr

def Urgency.isRequired : Urgency → Bool
  | .required _ => true
  | _ => false

inductive Decision
  | upToDate
  | available (release : ReleaseEntry) (recommended : Bool)
  /-- No release: an update is needed and the manifest has none for this installation. -/
  | required (release : Option ReleaseEntry) (blockUi : Bool)
  deriving DecidableEq, Repr

def fullRolloutBasisPoints : ℕ := 10000

/-- `u32_be(SHA-256(installId ":" salt)[0..4]) mod 10000`. -/
def bucket (os : Platform) (installId salt : String) : ℕ :=
  let hasher := [installId, ":", salt].foldl (fun s text => os.hash.update s (utf8 text)) os.hash.init
  let digest := os.hash.finalize hasher
  (((digest.getD 0 0).toNat * 256 + (digest.getD 1 0).toNat) * 256 + (digest.getD 2 0).toNat) * 256 +
    (digest.getD 3 0).toNat
    |> (· % fullRolloutBasisPoints)

def artifactFor (release : ReleaseEntry) (distribution : String) (target : Option String) :
    Option ReleaseArtifact :=
  match release.artifacts.lookup distribution with
  | none => none
  | some artifact =>
    let usable :=
      match artifact.kind with
      | "store" | "apk" => true
      | "web_bundle" => artifact.buildId.isSome
      | "tauri" | "electron" => target.any fun target => (artifact.targets.lookup target).isSome
      | _ => false
    if usable then some artifact else none

section Evaluate

variable (os : Platform) (manifest : Manifest) (input : EvaluationInput) (release : ReleaseEntry)

def usable : Bool :=
  !release.rollout.halted && (artifactFor release input.distribution input.target).isSome

def inRollout : Bool :=
  bucket os input.installId release.rollout.salt < release.rollout.basisPoints

def covers (range : BlockedBuilds) (build : ℕ) : Bool := range.low ≤ build && build ≤ range.high

variable (policy : ReleasePolicy)

def isBlocked (build : ℕ) : Bool := policy.blockedBuilds.any (covers · build)

def policyRequires (build : ℕ) : Bool := build < policy.minBuild || isBlocked policy build

/-- What a forced update has to reach. -/
def floor : ℕ := max ((input.server.bind (·.minBuild)).getD 0) manifest.policy.minBuild

/-- At or above the floor and not blocked. -/
def acceptable (floor : ℕ) (release : ReleaseEntry) : Bool :=
  floor ≤ release.build && !isBlocked policy release.build

/-- A release in the rollout is preferred; an update that is forced needs a target all the
same. -/
def requiredTarget (newer : List ReleaseEntry) (policy : ReleasePolicy) (floor : ℕ) : Option ReleaseEntry :=
  (newer.find? fun release => acceptable policy floor release && inRollout os input release).or
    ((newer.find? (acceptable policy floor)).or newer.head?)

/-- The usable releases above a build, the newest first. -/
def newerReleases (current : ℕ) : List ReleaseEntry :=
  (manifest.releases.filter fun release => current < release.build && usable input release).insertionSort
    fun a b => b.build ≤ a.build

def evaluateNative : Decision :=
  match input.currentBuild with
  | none => .upToDate
  | some current =>
    let newer := newerReleases manifest input current
    if input.server.isSome || (!input.stale && policyRequires manifest.policy current) then
      .required (requiredTarget os input newer manifest.policy (floor manifest input)) manifest.policy.blockUi
    else
      match newer.find? (inRollout os input) with
      | some release => .available release (current < manifest.policy.recommendBelowBuild)
      | none => .upToDate

/-- The release is another bundle than the running one. -/
def differs (current : String) (release : ReleaseEntry) : Bool :=
  ((artifactFor release input.distribution input.target).bind (·.buildId)) != some current

def evaluateWeb (current : String) : Decision :=
  let eligible := manifest.releases.filter (usable input)
  -- The first release in the rollout is the one this device should run.
  let hit := eligible.find? (inRollout os input)
  let required :=
    input.server.isSome || (!input.stale && input.currentBuild.any (policyRequires manifest.policy))
  if required then
    .required ((hit.filter (differs input current)).or (eligible.find? (differs input current)))
    manifest.policy.blockUi
  else
    match hit.filter (differs input current) with
    | some release =>
      .available release (input.currentBuild.any fun build => build < manifest.policy.recommendBelowBuild)
    | none => .upToDate

def evaluate : Decision :=
  match input.currentBuildId with
  | some current => evaluateWeb os manifest input current
  | none => evaluateNative os manifest input

/-! ### Builds that the policy forces off -/

/-- A listed release that this installation could move to. -/
def IsCandidate : Prop :=
  release ∈ manifest.releases ∧ usable input release = true ∧
    match input.currentBuildId with
    | some current => differs input current release = true
    | none => ∃ current ∈ input.currentBuild, current < release.build

def IsForced : Prop :=
  input.server.isSome = true ∨ input.stale = false ∧
  ∃ current ∈ input.currentBuild, policyRequires manifest.policy current = true

/-- The release of the rollout that comes first: in the manifest for a web app, by its build for a native one. -/
def IsOffered : Prop :=
  inRollout os input release = true ∧ IsCandidate manifest input release ∧
    match input.currentBuildId with
    | some _ => (manifest.releases.filter (usable input)).find? (inRollout os input) = some release
    | none => ∀ other, IsCandidate manifest input other → inRollout os input other = true →
        other.build ≤ release.build

/-- The first release that a web app could move to, where the rollout offers none. -/
def IsFallback : Prop :=
  (∀ offered, ¬IsOffered os manifest input offered) ∧
    ∃ current ∈ input.currentBuildId,
      (manifest.releases.filter (usable input)).find? (differs input current) = some release

/-- The decision does not lead to a build that the policy forces off. -/
def Decision.Keeps : Decision → Prop
  | .upToDate => True
  | .available release _ => policyRequires manifest.policy release.build = false
  | .required release _ =>
    (∃ candidate, IsCandidate manifest input candidate ∧
        acceptable manifest.policy (floor manifest input) candidate = true) →
      ∃ target ∈ release, acceptable manifest.policy (floor manifest input) target = true

/-- What comes first is kept by the policy. A native app that is forced to update does not depend on it, and a
web app
that is forced only has to be sent to a release that is kept if there is one. -/
def LeadsRight : Prop :=
  (¬IsForced manifest input ∧
      ∀ release, IsOffered os manifest input release → policyRequires manifest.policy release.build = false) ∨
    IsForced manifest input ∧ (input.currentBuildId = none ∨
      ((∃ candidate, IsCandidate manifest input candidate ∧
          acceptable manifest.policy (floor manifest input) candidate = true) →
        ∀ release, IsOffered os manifest input release ∨ IsFallback os manifest input release →
          acceptable manifest.policy (floor manifest input) release = true))

end Evaluate

section Proofs

variable {os : Platform} {manifest : Manifest} {input : EvaluationInput}
  {current : ℕ} {policy : ReleasePolicy} {release : ReleaseEntry}

theorem mem_newerReleases : release ∈ newerReleases manifest input current ↔
      release ∈ manifest.releases ∧ current < release.build ∧ usable input release = true := by
  simp [newerReleases, mem_insertionSort]

theorem exists_acceptable_requiredTarget {newer : List ReleaseEntry} {floor : ℕ}
    (h : ∃ release ∈ newer, acceptable policy floor release = true) :
    ∃ target ∈ requiredTarget os input newer policy floor, acceptable policy floor target = true := by
  rw [requiredTarget]
  cases hhit : newer.find? fun release => acceptable policy floor release && inRollout os input release with
  | some target =>
    have := find?_some hhit
    exact ⟨target, rfl, (Bool.and_eq_true_iff.mp this).1⟩
  | none =>
    obtain ⟨release, hmem, hacceptable⟩ := h
    cases hfirst : newer.find? (acceptable policy floor) with
    | some target => exact ⟨target, rfl, find?_some hfirst⟩
    | none => exact absurd hacceptable (find?_eq_none.mp hfirst release hmem)

theorem isOffered_web_iff {current : String} (hweb : input.currentBuildId = some current) :
    IsOffered os manifest input release ↔
      ((manifest.releases.filter (usable input)).find? (inRollout os input)).filter (differs input current) =
        some release := by
  rw [Option.filter_eq_some_iff, IsOffered, IsCandidate]
  simp only [hweb]
  constructor
  · exact fun ⟨_, ⟨_, _, hdiffers⟩, hfirst⟩ => ⟨hfirst, hdiffers⟩
  · intro ⟨hfirst, hdiffers⟩
    obtain ⟨hlisted, husable⟩ := mem_filter.mp (mem_of_find?_eq_some hfirst)
    exact ⟨find?_some hfirst, ⟨hlisted, husable, hdiffers⟩, hfirst⟩

theorem isForced_iff : IsForced manifest input ↔
    (input.server.isSome || (!input.stale && input.currentBuild.any (policyRequires manifest.policy))) = true := by
  simp [IsForced, Option.any_eq_true]

theorem keeps_evaluateWeb_iff {current : String} (hweb : input.currentBuildId = some current) :
    (evaluateWeb os manifest input current).Keeps manifest input ↔ LeadsRight os manifest input := by
  have hoffered : ∀ release, IsOffered os manifest input release ↔ _ := fun release => isOffered_web_iff hweb
  unfold LeadsRight IsFallback
  rw [isForced_iff, evaluateWeb]
  simp only [hoffered, hweb, reduceCtorEq, false_or, Option.mem_some_iff, exists_eq_left']
  generalize ((manifest.releases.filter (usable input)).find? (inRollout os input)).filter
    (differs input current) = hit
  split_ifs with hforced
  · simp only [hforced, not_true, false_and, false_or, true_and, Decision.Keeps]
    refine forall_congr' fun ⟨candidate, ⟨hlisted, husable, hdiffers⟩, _⟩ => ?_
    rw [hweb] at hdiffers
    cases hit with
    | some release => simp
    | none =>
      cases hfirst : (manifest.releases.filter (usable input)).find? (differs input current) with
      | some release => simp
      | none => exact absurd hdiffers (find?_eq_none.mp hfirst candidate (mem_filter.mpr ⟨hlisted, husable⟩))
  · cases hit <;> simp [hforced, Decision.Keeps]

/-- Of the releases in the rollout a newest one is found, and all newest ones have its build. -/
theorem find?_newerReleases_iff (hnative : input.currentBuildId = none)
    (hcurrent : input.currentBuild = some current)
    (kept : ℕ → Prop) :
    (∀ release ∈ (newerReleases manifest input current).find? (inRollout os input), kept release.build) ↔
      ∀ release, IsOffered os manifest input release → kept release.build := by
  have hcandidate : ∀ release, release ∈ newerReleases manifest input current ↔
    IsCandidate manifest input release := by
    simp [mem_newerReleases, IsCandidate, hnative, hcurrent, and_comm]
  unfold IsOffered
  simp only [hnative, ← hcandidate]
  have hsorted : (newerReleases manifest input current).Pairwise fun a b => b.build ≤ a.build := by
    have : Std.Total fun a b : ReleaseEntry => b.build ≤ a.build := ⟨fun a b => Nat.le_total b.build a.build⟩
    have : IsTrans ReleaseEntry fun a b => b.build ≤ a.build := ⟨fun _ _ _ h h' => Nat.le_trans h' h⟩
    exact pairwise_insertionSort _ _
  generalize newerReleases manifest input current = newer at hsorted
  cases hfound : newer.find? (inRollout os input) with
  | none => exact iff_of_true nofun fun release ⟨hrollout, hmem, _⟩ =>
      absurd hrollout (find?_eq_none.mp hfound release hmem)
  | some release =>
    have hrollout := find?_some hfound
    have hmem := mem_of_find?_eq_some hfound
    obtain ⟨-, before, after, rfl, hbefore⟩ := find?_eq_some_iff_append.mp hfound
    have hfirst : ∀ other ∈ before ++ release :: after, inRollout os input other = true →
      other.build ≤ release.build := by
      intro other hother hin
      rcases mem_append.mp hother with hother | hother
      · exact absurd hin (by simpa using hbefore other hother)
      · rcases mem_cons.mp hother with rfl | hother
        · exact le_rfl
        · exact (pairwise_cons.mp (pairwise_append.mp hsorted).2.1).1 other hother
    constructor
    · intro h other ⟨hin, hother, hnewest⟩
      rw [le_antisymm (hfirst other hother hin) (hnewest release hmem hrollout)]
      exact h release rfl
    · rintro h _ ⟨⟩
      exact h release ⟨hrollout, hmem, hfirst⟩

/-- A forced native update has an acceptable target wherever there is one. -/
theorem keeps_required (hnative : input.currentBuildId = none) (hcurrent : input.currentBuild = some current)
    (blockUi : Bool) :
    (Decision.required (requiredTarget os input (newerReleases manifest input current) manifest.policy
      (floor manifest input)) blockUi).Keeps manifest input := by
  rintro ⟨candidate, ⟨hlisted, husable, hnewer⟩, hacceptable⟩
  rw [hnative] at hnewer
  obtain ⟨build, hbuild, hlt⟩ := hnewer
  obtain rfl := Option.some.inj (hcurrent.symm.trans hbuild)
  exact exists_acceptable_requiredTarget ⟨candidate, mem_newerReleases.mpr ⟨hlisted, hlt, husable⟩, hacceptable⟩

theorem keeps_evaluateNative_iff (hnative : input.currentBuildId = none) :
    (evaluateNative os manifest input).Keeps manifest input ↔ LeadsRight os manifest input := by
  unfold LeadsRight
  rw [isForced_iff, evaluateNative]
  split
  · next hnone =>
    have hoffered : ∀ release, ¬IsOffered os manifest input release := fun release ⟨_, ⟨_, _, hnewer⟩, _⟩ => by
      simp [hnative, hnone] at hnewer
    refine iff_of_true trivial ((em' _).imp (fun hfree => ⟨hfree, fun release h => ?_⟩) fun hforced =>
      ⟨hforced, .inl hnative⟩)
    exact absurd h (hoffered release)
  · next current hcurrent =>
    rw [hcurrent, Option.any_some]
    dsimp only
    split_ifs with hforced
    · exact iff_of_true (keeps_required hnative hcurrent _) (.inr ⟨hforced, .inl hnative⟩)
    · rw [← find?_newerReleases_iff hnative hcurrent fun build => policyRequires manifest.policy build = false]
      cases (newerReleases manifest input current).find? (inRollout os input) <;> simp [hforced, Decision.Keeps]

end Proofs

/-- An evaluation never leads to a build that the policy forces off, exactly when what comes first is not
forced off. -/
theorem keeps_evaluate (os : Platform) (manifest : Manifest) (input : EvaluationInput) :
    (evaluate os manifest input).Keeps manifest input ↔ LeadsRight os manifest input := by
  rw [evaluate]
  split
  · next current hweb => exact keeps_evaluateWeb_iff hweb
  · next hnative => exact keeps_evaluateNative_iff hnative

/-! ### A release that is blocked -/

def sampleEntry (build : ℕ) (buildId : String) : ReleaseEntry where
  releaseId := buildId
  version := buildId
  build := build
  rollout := ⟨fullRolloutBasisPoints, "salt", false⟩
  artifacts := [("play", { kind := "store" }), ("web", { kind := "web_bundle", buildId := some buildId })]

def nativeInput (build : ℕ) : EvaluationInput where
  currentBuild := some build
  currentBuildId := none
  distribution := "play"
  target := none
  installId := "install"
  stale := false
  server := none

def webInput (build : ℕ) (buildId : String) : EvaluationInput :=
  { nativeInput build with currentBuildId := some buildId, distribution := "web" }

/-- Build 6 is blocked and nothing below 5 may stay. -/
def sampleManifest : Manifest where
  policy := { minBuild := 5, blockedBuilds := [⟨6, 6⟩] }
  releases := [sampleEntry 6 "six", sampleEntry 5 "five"]

/-- Build 5 is offered the blocked 6, in an app and on the web, and the web app that is
forced off build 4 is sent there although 5 is listed. -/
theorem not_keeps_evaluate_sampleManifest :
    ¬ (evaluate plainPlatform sampleManifest (nativeInput 5)).Keeps sampleManifest (nativeInput 5) ∧
      ¬ (evaluate plainPlatform sampleManifest (webInput 5 "five")).Keeps sampleManifest (webInput 5 "five") ∧
      ¬ (evaluate plainPlatform sampleManifest (webInput 4 "four")).Keeps sampleManifest (webInput 4 "four") := by
  have hnative : evaluate plainPlatform sampleManifest (nativeInput 5) = .available
    (sampleEntry 6 "six") false := by
    decide
  have hweb : evaluate plainPlatform sampleManifest (webInput 5 "five") = .available
    (sampleEntry 6 "six") false := by
    decide
  have hforced : evaluate plainPlatform sampleManifest (webInput 4 "four") =
      .required (some (sampleEntry 6 "six")) false := by
    decide
  have hoff : policyRequires sampleManifest.policy (sampleEntry 6 "six").build ≠ false := by decide
  rw [hnative, hweb, hforced]
  refine ⟨hoff, hoff, fun hkeeps => ?_⟩
  have hfive : differs (webInput 4 "four") "four" (sampleEntry 5 "five") = true := by decide
  obtain ⟨target, htarget, hacceptable⟩ :=
    hkeeps ⟨sampleEntry 5 "five", ⟨by decide, by decide, hfive⟩, by decide⟩
  obtain rfl := Option.some.inj htarget
  exact absurd hacceptable (by decide)

end FlareIm.Release
