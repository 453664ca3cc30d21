import FlareIm.Access.Acceptance
import FlareIm.Access.Kernel

/-! Calls of one kernel that run at the same time. A call that accepts a key state
loads the trust material, verifies with it, commits, and then stores new material that
it computes from what it has loaded; a call that accepts a manifest verifies with the
material it has loaded, commits, and then installs. Commits of one kernel follow each
other under the gate of its manifest store, so a commit is one step here; between the
steps of a call any others can run. -/

namespace FlareIm.Access

open Lib Option

/-- How far a call is, with what it has in hand. -/
inductive Call (Key : Type)
  | keystateVerified (current : TrustStore Key) (keystate : VerifiedKeyState) (info : FetchMeta)
  | keystateCommitted (current : TrustStore Key) (keystate : VerifiedKeyState) (outcome : Option AcceptOutcome)
  | keystateReturned (result : Except AcceptError KeystateUpdate)
  | manifestVerified (verified : VerifiedAccessManifest) (info : FetchMeta) (nowMs : Int64)
  | manifestCommitted (verified : VerifiedAccessManifest) (info : FetchMeta) (nowMs : Int64) (persisted : Bool)
  | manifestReturned (result : Except AcceptError ManifestUpdate)
  deriving DecidableEq

structure Calls (Key : Type) where
  kernel : AccessKernel Key
  calls : ℕ → Option (Call Key) := fun _ => none

inductive CallEvent
  | acceptKeystate (id : ℕ) (envelope : Bytes) (info : FetchMeta)
  | acceptManifest (id : ℕ) (envelope : Bytes) (info : FetchMeta) (nowMs : Int64)
  | commit (id : ℕ) (faults : Faults)
  | finish (id : ℕ)

variable {outcome : Option AcceptOutcome}
  {Key Recovery : Type} {call : Call Key} {current : TrustStore Key} {id : ℕ}
  {kernel : AccessKernel Key} {keystate : VerifiedKeyState} {s : Calls Key}

namespace Calls

variable (P : Primitives Key Recovery) (config : AccessConfig Key)

def set (s : Calls Key) (id : ℕ) (kernel : AccessKernel Key) (call : Call Key) : Calls Key :=
  { kernel, calls := Function.update s.calls id (some call) }

/-- Nothing is left to do: the key state is the one in memory already. -/
def isKnown (current : TrustStore Key) : Option AcceptOutcome → Option ℕ
  | some (.unchanged serial) => if current.keystateSerial = some serial then some serial else none
  | _ => none

def commitCall (s : Calls Key) (id : ℕ) (faults : Faults) : Call Key → Calls Key
  | .keystateVerified current keystate info =>
    let (outcome, kernel) := s.kernel.commit config (keystate.commit info) faults
    match outcome with
    | .ok outcome => s.set id kernel (.keystateCommitted current keystate (some outcome))
    | .error (.store _) => s.set id kernel (.keystateCommitted current keystate none)
    | .error error => s.set id kernel (.keystateReturned (.error error))
  | .manifestVerified verified info nowMs =>
    let (outcome, kernel) := s.kernel.commit config (verified.commit info) faults
    match outcome with
    | .ok _ => s.set id kernel (.manifestCommitted verified info nowMs true)
    | .error (.store _) => s.set id kernel (.manifestCommitted verified info nowMs false)
    | .error error => s.set id kernel (.manifestReturned (.error error))
  | _ => s

def finishCall (s : Calls Key) (id : ℕ) : Call Key → Calls Key
  | .keystateCommitted current keystate outcome =>
    match isKnown current outcome with
    | some serial => s.set id s.kernel (.keystateReturned (.ok (.unchanged serial)))
    | none =>
      let kernel := { s.kernel with trust := current.withKeystate keystate }
      s.set id kernel (.keystateReturned (.ok (.adopted keystate.serial kernel.currentManifestRevoked)))
  | .manifestCommitted verified info nowMs persisted =>
    let (update, kernel) := s.kernel.install verified info nowMs persisted
    s.set id kernel (.manifestReturned (.ok update))
  | _ => s

def step (s : Calls Key) : CallEvent → Calls Key
  | .acceptKeystate id envelope info =>
    if (s.calls id).isSome then s
    else
      match s.kernel.trust.verifyKeystate P envelope with
      | .ok keystate => s.set id s.kernel (.keystateVerified s.kernel.trust keystate info)
      | .error error => s.set id s.kernel (.keystateReturned (.error (.trust error)))
  | .acceptManifest id envelope info nowMs =>
    if (s.calls id).isSome then s
    else
      match s.kernel.trust.verifyAccess P envelope nowMs with
      | .ok verified => s.set id s.kernel (.manifestVerified verified info nowMs)
      | .error error => s.set id s.kernel (.manifestReturned (.error (.trust error)))
  | .commit id faults => (s.calls id).elim s (s.commitCall config id faults)
  | .finish id => (s.calls id).elim s (s.finishCall id)

/-! ### What one step does -/

variable {P config}

theorem calls_set_self (kernel : AccessKernel Key) (call : Call Key) :
    (s.set id kernel call).calls id = some call :=
  Function.update_self ..

theorem calls_set_of_ne {id' : ℕ} (h : id' ≠ id) (kernel : AccessKernel Key) (call : Call Key) :
    (s.set id kernel call).calls id' = s.calls id' :=
  Function.update_of_ne h ..

def IsReturned : Call Key → Prop
  | .keystateReturned _ | .manifestReturned _ => True
  | _ => False

/-- The moves of a call, by what they mean for the trust material in memory and for
what the call has in hand. -/
inductive Moves (P : Primitives Key Recovery) (s : Calls Key) : CallEvent → Calls Key → Prop
  | stay {e} : Moves P s e s
  | load {id envelope info keystate} (hfree : s.calls id = none)
      (hverify : s.kernel.trust.verifyKeystate P envelope = .ok keystate) :
    Moves P s (.acceptKeystate id envelope info)
    (s.set id s.kernel (.keystateVerified s.kernel.trust keystate info))
  | verify {id envelope info nowMs verified} (hfree : s.calls id = none)
      (hverify : s.kernel.trust.verifyAccess P envelope nowMs = .ok verified) :
    Moves P s (.acceptManifest id envelope info nowMs) (s.set id s.kernel (.manifestVerified verified info nowMs))
  | commitKeystate {id faults current keystate info outcome kernel}
      (hcall : s.calls id = some (.keystateVerified current keystate info))
      (htrust : kernel.trust = s.kernel.trust) :
    Moves P s (.commit id faults) (s.set id kernel (.keystateCommitted current keystate outcome))
  | commitManifest {id faults verified info nowMs persisted kernel}
      (hcall : s.calls id = some (.manifestVerified verified info nowMs)) (htrust : kernel.trust = s.kernel.trust) :
    Moves P s (.commit id faults) (s.set id kernel (.manifestCommitted verified info nowMs persisted))
  | store {id current keystate outcome result}
      (hcall : s.calls id = some (.keystateCommitted current keystate outcome))
      (hnew : isKnown current outcome = none) :
    Moves P s (.finish id)
      (s.set id { s.kernel with trust := current.withKeystate keystate } (.keystateReturned result))
  | ends {e id kernel call} (hcall : IsReturned call) (htrust : kernel.trust = s.kernel.trust) :
    Moves P s e (s.set id kernel call)

variable (P config) in
theorem moves_step (s : Calls Key) (e : CallEvent) : Moves P s e (s.step P config e) := by
  cases e with
  | acceptKeystate id envelope info =>
    rw [step]
    cases hfree : s.calls id with
    | some call => exact .stay
    | none =>
      cases hverify : s.kernel.trust.verifyKeystate P envelope with
      | ok keystate => exact .load hfree hverify
      | error error => exact .ends trivial rfl
  | acceptManifest id envelope info nowMs =>
    rw [step]
    cases hfree : s.calls id with
    | some call => exact .stay
    | none =>
      cases hverify : s.kernel.trust.verifyAccess P envelope nowMs with
      | ok verified => exact .verify hfree hverify
      | error error => exact .ends trivial rfl
  | commit id faults =>
    rw [step]
    cases hcall : s.calls id with
    | none => exact .stay
    | some call =>
      rw [elim_some]
      cases call with
      | keystateVerified current keystate info =>
        simp only [commitCall]
        split
        · exact .commitKeystate hcall rfl
        · exact .commitKeystate hcall rfl
        · exact .ends trivial rfl
      | manifestVerified verified info nowMs =>
        simp only [commitCall]
        split
        · exact .commitManifest hcall rfl
        · exact .commitManifest hcall rfl
        · exact .ends trivial rfl
      | _ => exact .stay
  | finish id =>
    rw [step]
    cases hcall : s.calls id with
    | none => exact .stay
    | some call =>
      rw [elim_some]
      cases call with
      | keystateCommitted current keystate outcome =>
        simp only [finishCall]
        cases hknown : isKnown current outcome with
        | some serial => exact .ends trivial rfl
        | none => exact .store hcall hknown
      | manifestCommitted verified info nowMs persisted =>
        refine .ends trivial ?_
        show (s.kernel.install verified info nowMs persisted).2.trust = _
        rw [AccessKernel.install]
        split <;> rfl
      | _ => exact .stay

/-! ### Key states in memory -/

/-- The key state that a step stores, with the trust material its call has loaded. -/
def stored (s : Calls Key) : CallEvent → Option (TrustStore Key × VerifiedKeyState)
  | .finish id =>
    match s.calls id with
    | some (.keystateCommitted current keystate outcome) =>
      if (isKnown current outcome).isNone then some (current, keystate) else none
    | _ => none
  | _ => none

variable {e : CallEvent}

theorem stored_finish
    (hcall : s.calls id = some (.keystateCommitted current keystate outcome))
    (hnew : isKnown current outcome = none) :
    s.stored (.finish id) = some (current, keystate) := by
  simp [stored, hcall, hnew]

/-- A call stores over what it has loaded, or a key state that is not older than the
one in memory. -/
def InOrder (s : Calls Key) (e : CallEvent) : Prop :=
  ∀ p ∈ s.stored e, s.kernel.trust = p.1 ∨ s.kernel.trust.keystateSerial ≤ some p.2.serial

instance [DecidableEq Key] (s : Calls Key) (e : CallEvent) : Decidable (s.InOrder e) :=
  inferInstanceAs (Decidable (∀ p ∈ s.stored e, _ ∨ _))

variable (P config) in
/-- The key state in memory does not go back, and a revocation is only dropped by a key
state that is not older and does not name it. -/
def KeepsKeystate (s : Calls Key) (e : CallEvent) : Prop :=
  s.kernel.trust.keystateSerial ≤ (s.step P config e).kernel.trust.keystateSerial ∧
    ∀ keyId ∈ s.kernel.trust.revoked, keyId ∉ (s.step P config e).kernel.trust.revoked →
      ∃ p ∈ s.stored e, s.kernel.trust.keystateSerial ≤ some p.2.serial ∧ keyId ∉ p.2.revoked

/-- The trust material that a call has loaded to build on. -/
def loaded : Call Key → Option (TrustStore Key)
  | .keystateVerified current .. | .keystateCommitted current .. => some current
  | _ => none

/-- What the calls under way have loaded is not newer than what is in memory. -/
def LoadedBefore (s : Calls Key) : Prop :=
  ∀ id, ∀ call ∈ s.calls id, ∀ current ∈ loaded call, current.keystateSerial ≤ s.kernel.trust.keystateSerial

theorem le_keystateSerial_withKeystate (current : TrustStore Key) (keystate : VerifiedKeyState) :
    current.keystateSerial ≤ (current.withKeystate keystate).keystateSerial := by
  rw [TrustStore.withKeystate]
  split_ifs with holder
  · exact option_le_refl _
  · cases hserial : current.keystateSerial with
    | none => exact none_le
    | some serial =>
      simp only [hserial, any_some, decide_eq_true_eq] at holder
      exact some_le_some.mpr (Nat.le_of_not_lt holder)

/-- A key state that is not older than the loaded one takes its place. -/
theorem withKeystate_of_le (h : current.keystateSerial ≤ some keystate.serial) :
    (current.withKeystate keystate).keystateSerial = some keystate.serial ∧
      (current.withKeystate keystate).revoked = keystate.revoked := by
  have hnew : (current.keystateSerial.any fun serial => keystate.serial < serial) = false := by
    cases hserial : current.keystateSerial with
    | none => rfl
    | some serial =>
      rw [hserial, some_le_some] at h
      simpa using h
  rw [TrustStore.withKeystate, hnew]
  exact ⟨rfl, rfl⟩

theorem revoked_withKeystate (current : TrustStore Key) (keystate : VerifiedKeyState) :
    (current.withKeystate keystate).revoked = current.revoked ∨
      current.keystateSerial ≤ some keystate.serial ∧
      (current.withKeystate keystate).revoked = keystate.revoked := by
  by_cases h : current.keystateSerial ≤ some keystate.serial
  · exact .inr ⟨h, (withKeystate_of_le h).2⟩
  · left
    rw [TrustStore.withKeystate, if_pos]
    cases hserial : current.keystateSerial with
    | none => exact absurd (hserial ▸ none_le) h
    | some serial =>
      rw [hserial, some_le_some] at h
      simpa using h

theorem keepsKeystate_of_trust_eq (h : (s.step P config e).kernel.trust = s.kernel.trust) :
    s.KeepsKeystate P config e := by
  rw [KeepsKeystate, h]
  exact ⟨option_le_refl _, fun keyId hmem hdropped => absurd hmem hdropped⟩

variable (P config) in
theorem keepsKeystate_of_inOrder (h : s.LoadedBefore) (horder : s.InOrder e) : s.KeepsKeystate P config e := by
  have hmoves := moves_step P config s e
  generalize hnext : s.step P config e = t at hmoves
  cases hmoves with
  | stay => exact keepsKeystate_of_trust_eq (by rw [hnext])
  | load | verify => exact keepsKeystate_of_trust_eq (by rw [hnext]; rfl)
  | commitKeystate _ htrust | commitManifest _ htrust | ends _ htrust =>
    exact keepsKeystate_of_trust_eq (by rw [hnext]; exact htrust)
  | @store id current keystate outcome result hcall hnew =>
    have hstored := stored_finish hcall hnew
    have htrust : (s.step P config (.finish id)).kernel.trust = current.withKeystate keystate := by rw [hnext]; rfl
    rw [KeepsKeystate, htrust]
    rcases horder _ hstored with hsame | hnewer
    · -- The call stores over what it has loaded.
      rw [hsame]
      refine ⟨le_keystateSerial_withKeystate current keystate, fun keyId hmem hdropped => ?_⟩
      rcases revoked_withKeystate current keystate with hkept | ⟨hle, hlist⟩
      · exact absurd (hkept ▸ hmem) hdropped
      · exact ⟨(current, keystate), hstored, hle, hlist ▸ hdropped⟩
    · -- The key state is not older than the loaded one either.
      have hloaded := h id _ hcall current rfl
      obtain ⟨hserial, hlist⟩ := withKeystate_of_le (option_le_trans hloaded hnewer)
      rw [hserial, hlist]
      exact ⟨hnewer, fun keyId _ hdropped => ⟨(current, keystate), hstored, hnewer, hdropped⟩⟩

theorem LoadedBefore.set (h : s.LoadedBefore)
    (hmemory : s.kernel.trust.keystateSerial ≤ kernel.trust.keystateSerial)
    (hcall : ∀ current ∈ loaded call, current.keystateSerial ≤ kernel.trust.keystateSerial) :
    (s.set id kernel call).LoadedBefore := by
  intro id' call' hcall' current hcurrent
  by_cases hid : id' = id
  · rw [hid, calls_set_self] at hcall'
    obtain rfl := some.inj hcall'
    exact hcall current hcurrent
  · rw [calls_set_of_ne hid] at hcall'
    exact option_le_trans (h id' call' hcall' current hcurrent) hmemory

theorem loaded_eq_none_of_isReturned (h : IsReturned call) : loaded call = none := by
  cases call <;> first | rfl | cases h

theorem LoadedBefore.step (h : s.LoadedBefore) (horder : s.InOrder e) : (s.step P config e).LoadedBefore := by
  have hkeeps := (keepsKeystate_of_inOrder P config h horder).1
  have hmoves := moves_step P config s e
  generalize s.step P config e = t at hmoves hkeeps
  cases hmoves with
  | stay => exact h
  | load =>
    refine h.set hkeeps fun current hcurrent => ?_
    cases hcurrent
    exact option_le_refl _
  | commitKeystate hcall =>
    refine h.set hkeeps fun current hcurrent => ?_
    cases hcurrent
    exact option_le_trans (h _ _ hcall _ rfl) hkeeps
  | ends hcall =>
    refine h.set hkeeps fun current hcurrent => ?_
    rw [loaded_eq_none_of_isReturned hcall] at hcurrent
    cases hcurrent
  | _ => exact h.set hkeeps fun current hcurrent => by cases hcurrent

end Calls

open Calls in
/-- In every interleaving of calls in which each key state is stored in order, the one
in memory never goes back, and revocations are only dropped by key states that are not
older and do not name them. -/
theorem keepsKeystate_run {Key Recovery : Type} (P : Primitives Key Recovery) (config : AccessConfig Key)
    (kernel : AccessKernel Key) (events : List CallEvent)
    (h : AllSteps (step P config) InOrder { kernel } events) :
    AllSteps (step P config) (KeepsKeystate P config) { kernel } events := by
  have hstart : LoadedBefore { kernel } := fun id call hcall => by cases hcall
  exact .of_invariant (I := LoadedBefore) (fun _ _ hs horder => hs.step horder)
    (fun _ _ hs horder => keepsKeystate_of_inOrder P config hs horder) events _ hstart h

/-! ### Key states and a manifest in a few bytes -/

def certOfK : KeyCert := { onlineCert with keyId := "K", rootKeyId := "root-a" }

def textOf (bytes : Bytes) : String := String.ofList (bytes.map fun b => Char.ofNat b.toNat)

/-- `0, serial, revokes` is a key state, which revokes `K` or nothing; `1` is a manifest
that `K` has signed, and everything else the certificate of `K`. -/
def shortPrimitives : Primitives Bool Unit where
  decodeB64 text := some (text.toList.map fun c => c.toNat.toUInt8)
  envelopeOfJson
    | 0 :: payload => some
        { payloadType := DocType.keyState.payloadType, payload := textOf payload, keyCerts := []
          signatures := [⟨"root-a", letterText false⟩] }
    | 1 :: _ => some
        { payloadType := DocType.access.payloadType, payload := "", keyCerts := ["cert"]
          signatures := [⟨"K", letterText true⟩] }
    | _ => some
        { payloadType := keycertPayloadType, payload := "", keyCerts := []
          signatures := [⟨"root-a", letterText false⟩] }
  keyCertOfJson _ := some certOfK
  accessOfJson _ := .ok (⟨"app", 7, by decide⟩, ⟨0, 1000⟩)
  releaseOfJson _ := .error (.unsupportedSchema "")
  recoveryOfJson _ := .ok ()
  recoveryToAccess _ := .error (.unsupportedSchema "")
  schemaOfJson _ := .ok keystateSchema
  keyStateOfJson
    | [serial, revokes] => .ok
        { serial := serial.toNat, serial_le := Message.uint8_le_maxU64 serial
          certificates := [], revokedKeyIds := if revokes = 0 then [] else ["K"] }
    | _ => .error ""
  parseRfc3339Ms _ := some 0
  verifyingKey _ := some true
  verifyStrict key _ sig := sig.head? == some (keyLetter key).toNat.toUInt8

def shortConfig : AccessConfig Bool := ⟨⟨[("root-a", false)], "roots"⟩, "app"⟩

def shortKernel : AccessKernel Bool := .bootstrap shortPrimitives shortConfig ∅ ⟨none, 0, false, false, {}⟩

def shortInfo : FetchMeta := { source := .seed, fetchedAtMs := 0 }

def keystateCall (id : ℕ) (serial revokes : UInt8) : List CallEvent :=
  [.acceptKeystate id [0, serial, revokes] shortInfo, .commit id {}, .finish id]

/-- A key state that revokes `K` and a newer one that does not, one after the other. -/
theorem keepsKeystate_run_keystateCalls :
    AllSteps (Calls.step shortPrimitives shortConfig) (Calls.KeepsKeystate shortPrimitives shortConfig)
      { kernel := shortKernel } (keystateCall 0 5 1 ++ keystateCall 1 6 0) :=
  keepsKeystate_run shortPrimitives shortConfig shortKernel _ (by decide)

/-- The newer key state drops the revocation, by what it says. Two calls that overlap
can also bring the older one back: both load nothing, the one with serial 6 stores, and
then the one with serial 5. -/
theorem revocation_dropped_keystateCalls :
    (let before := run (Calls.step shortPrimitives shortConfig) { kernel := shortKernel } (keystateCall 0 5 1)
      let after := run (Calls.step shortPrimitives shortConfig) before (keystateCall 1 6 0)
      "K" ∈ before.kernel.trust.revoked ∧ "K" ∉ after.kernel.trust.revoked) ∧
    (let before := run (Calls.step shortPrimitives shortConfig) { kernel := shortKernel }
        [.acceptKeystate 0 [0, 5, 0] shortInfo, .acceptKeystate 1 [0, 6, 1] shortInfo,
          .commit 0 {}, .commit 1 {}, .finish 1]
      let after := before.step shortPrimitives shortConfig (.finish 0)
      before.kernel.trust.keystateSerial = some 6 ∧ after.kernel.trust.keystateSerial = some 5 ∧
        "K" ∈ before.kernel.trust.revoked ∧ "K" ∉ after.kernel.trust.revoked) := by
  decide

/-! ### Manifests after a revocation -/

namespace Calls

variable {P : Primitives Key Recovery} {config : AccessConfig Key}
  {e : CallEvent}

variable (P) in
/-- Every signature on the document names this key. -/
def SignedOnlyBy (keyId : String) (envelope : Bytes) : Prop :=
  ∀ parsed, Envelope.parse P envelope = .ok parsed → ∀ signature ∈ parsed.signatures, signature.keyid = keyId

def inHand : Call Key → Option VerifiedAccessManifest
  | .manifestVerified verified .. | .manifestCommitted verified .. => some verified
  | _ => none

/-- The call and the manifest that a step installs. -/
def installed (s : Calls Key) : CallEvent → Option (ℕ × VerifiedAccessManifest)
  | .finish id =>
    match s.calls id with
    | some (.manifestCommitted verified ..) => some (id, verified)
    | _ => none
  | _ => none

/-- A key state that a step stores leaves `keyId` revoked. -/
def KeepsRevoked (keyId : String) (s : Calls Key) (e : CallEvent) : Prop :=
  ∀ p ∈ s.stored e, keyId ∈ (p.1.withKeystate p.2).revoked
  deriving Decidable

variable {verified : VerifiedAccessManifest}

section

variable {trust : TrustStore Key} {envelope : Bytes} {nowMs : Int64}

/-- Verification passes with a key of the document that is not revoked. -/
theorem keyId_of_verifyAccess (h : trust.verifyAccess P envelope nowMs = .ok verified) :
    verified.envelope = envelope ∧ verified.keyId ∉ trust.revoked ∧
    ∃ parsed, Envelope.parse P envelope = .ok parsed ∧
        ∃ signature ∈ parsed.signatures, signature.keyid = verified.keyId := by
  simp only [TrustStore.verifyAccess, TrustStore.verifyAccessWith, bind_eq_ok_iff, pure_eq_ok_iff] at h
  obtain ⟨parsed, hparse, ⟨keyId, manifest, times⟩, hverify, rfl⟩ := h
  obtain ⟨payload, -, hsigned, -⟩ := verifyAccessEnvelope_eq_ok_iff.mp hverify
  obtain ⟨signature, hmem, hcheck⟩ := exists_of_firstOk hsigned
  obtain ⟨rfl, hrevoked, -⟩ := checkSignature_eq_ok_iff.mp hcheck
  exact ⟨rfl, hrevoked, parsed, hparse, signature, hmem, rfl⟩

end

/-- `keyId` is revoked in memory, and none of the calls outside `early` has a manifest
in hand that only this key signed. -/
structure Guarded (P : Primitives Key Recovery) (keyId : String) (early : ℕ → Prop) (s : Calls Key) : Prop where
  revoked : keyId ∈ s.kernel.trust.revoked
  inHand : ∀ id, ¬ early id → ∀ call ∈ s.calls id, ∀ verified ∈ Calls.inHand call,
    ¬ SignedOnlyBy P keyId verified.envelope

variable {keyId : String} {early : ℕ → Prop}

theorem Guarded.set (h : s.Guarded P keyId early) (hrevoked : keyId ∈ kernel.trust.revoked)
    (hcall : ¬ early id → ∀ verified ∈ Calls.inHand call, ¬ SignedOnlyBy P keyId verified.envelope) :
    (s.set id kernel call).Guarded P keyId early := by
  refine ⟨hrevoked, fun id' hlate call' hcall' => ?_⟩
  by_cases hid : id' = id
  · rw [hid] at hlate hcall'
    obtain rfl := some.inj ((calls_set_self kernel call).symm.trans hcall')
    exact hcall hlate
  · rw [calls_set_of_ne hid] at hcall'
    exact h.inHand id' hlate call' hcall'

theorem inHand_eq_none_of_isReturned (h : IsReturned call) : inHand call = none := by
  cases call <;> first | rfl | cases h

theorem Guarded.step (h : s.Guarded P keyId early) (hkeep : KeepsRevoked keyId s e) :
    (s.step P config e).Guarded P keyId early := by
  have hmoves := moves_step P config s e
  generalize s.step P config e = t at hmoves
  cases hmoves with
  | stay => exact h
  | load => exact h.set h.revoked fun _ verified hverified => by cases hverified
  | verify hfree hverify =>
    refine h.set h.revoked fun _ verified hverified => ?_
    cases hverified
    obtain ⟨henvelope, hkey, parsed, hparse, signature, hmem, hsignature⟩ := keyId_of_verifyAccess hverify
    intro honly
    rw [henvelope] at honly
    exact hkey (hsignature ▸ honly parsed hparse signature hmem ▸ h.revoked)
  | commitKeystate hcall htrust =>
    exact h.set (htrust ▸ h.revoked) fun _ verified hverified => by cases hverified
  | commitManifest hcall htrust =>
    refine h.set (htrust ▸ h.revoked) fun hlate verified hverified => ?_
    cases hverified
    exact h.inHand _ hlate _ hcall _ rfl
  | store hcall hnew =>
    exact h.set (hkeep _ (stored_finish hcall hnew)) fun _ verified hverified => by cases hverified
  | ends hcall htrust =>
    refine h.set (htrust ▸ h.revoked) fun _ verified hverified => ?_
    rw [inHand_eq_none_of_isReturned hcall] at hverified
    cases hverified

theorem Guarded.not_installed (h : s.Guarded P keyId early) :
    ∀ p ∈ s.installed e, ¬ early p.1 → ¬ SignedOnlyBy P keyId p.2.envelope := by
  intro p hp hlate
  cases e with
  | finish id =>
    cases hcall : s.calls id with
    | none => simp [installed, hcall] at hp
    | some call =>
      cases call with
      | manifestCommitted verified info nowMs persisted =>
        simp only [installed, hcall, mem_some_iff] at hp
        subst hp
        exact h.inHand id hlate _ hcall verified rfl
      | _ => simp [installed, hcall] at hp
  | _ => cases hp

/-- With the return of the adoption the key is revoked in memory. -/
theorem guarded_finish
    {revoked : Bool} (hcall : s.calls id = some (.keystateCommitted current keystate outcome))
    (hreturned : (s.step P config (.finish id)).calls id =
      some (.keystateReturned (.ok (.adopted keystate.serial revoked))))
    (hrevokes : keyId ∈ keystate.revoked) (hnewer : current.keystateSerial ≤ some keystate.serial) :
    (s.step P config (.finish id)).Guarded P keyId fun id => (s.calls id).isSome = true := by
  have hnew : isKnown current outcome = none := by
    cases hknown : isKnown current outcome with
    | none => rfl
    | some serial =>
      simp only [step, hcall, elim_some, finishCall, hknown, calls_set_self] at hreturned
      cases hreturned
  simp only [step, hcall, elim_some, finishCall, hnew]
  refine ⟨(withKeystate_of_le hnewer).2 ▸ hrevokes, fun id' hlate call hcall' => ?_⟩
  have hid : id' ≠ id := by
    rintro rfl
    exact hlate (by rw [hcall]; rfl)
  rw [calls_set_of_ne hid] at hcall'
  exact absurd (by rw [hcall']; rfl) hlate

end Calls

open Calls in
/-- Once a key state that revokes `keyId`, and is not older than the one its call has
loaded, is adopted: as long as every key state stored later keeps `keyId` revoked, no
call that starts later installs a manifest that only `keyId` signed. -/
theorem not_installed_after_adopted {Key Recovery : Type} (P : Primitives Key Recovery) (config : AccessConfig Key)
    (s : Calls Key) (id : ℕ) (current : TrustStore Key) (keystate : VerifiedKeyState)
    (outcome : Option AcceptOutcome) (revoked : Bool) (keyId : String)
    (hcall : s.calls id = some (.keystateCommitted current keystate outcome))
    (hreturned : (s.step P config (.finish id)).calls id =
      some (.keystateReturned (.ok (.adopted keystate.serial revoked))))
    (hrevokes : keyId ∈ keystate.revoked) (hnewer : current.keystateSerial ≤ some keystate.serial)
    (events : List CallEvent)
    (hkeep : AllSteps (step P config) (KeepsRevoked keyId) (s.step P config (.finish id)) events) :
    AllSteps (step P config) (fun t e => ∀ p ∈ t.installed e, s.calls p.1 = none →
    ¬ SignedOnlyBy P keyId p.2.envelope)
      (s.step P config (.finish id)) events := by
  refine .of_invariant (I := Guarded P keyId fun id => (s.calls id).isSome = true)
    (fun _ _ ht hkeep => ht.step hkeep) (fun t e ht _ p hp hfree => ht.not_installed p hp ?_) events _
    (guarded_finish hcall hreturned hrevokes hnewer) hkeep
  simp [hfree]

def keystateFive : VerifiedKeyState where
  serial := 5
  serial_le := by decide
  signedBy := "root-a"
  revoked := {"K"}
  certificates := []
  envelope := [0, 5, 1]

def fiveCommitted : Calls Bool :=
  run (Calls.step shortPrimitives shortConfig) { kernel := shortKernel }
    [.acceptKeystate 0 [0, 5, 1] shortInfo, .commit 0 {}]

/-- A manifest that `K` has signed, from its arrival to its installation. -/
def manifestCall (id : ℕ) : List CallEvent :=
  [.acceptManifest id [1] shortInfo 0, .commit id {}, .finish id]

theorem not_installed_after_adopted_manifestCall : AllSteps (Calls.step shortPrimitives shortConfig)
      (fun t e => ∀ p ∈ t.installed e, fiveCommitted.calls p.1 = none →
        ¬ Calls.SignedOnlyBy shortPrimitives "K" p.2.envelope)
      (fiveCommitted.step shortPrimitives shortConfig (.finish 0)) (manifestCall 1) :=
  not_installed_after_adopted shortPrimitives shortConfig fiveCommitted 0 shortConfig.trust keystateFive
    (some (.adopted 5 none)) false "K" (by decide) (by decide) (by decide) (by decide) _
    (by decide)

theorem signedOnlyBy_K : Calls.SignedOnlyBy shortPrimitives "K" [1] := by
  intro parsed hparsed
  have hparse : Envelope.parse shortPrimitives [1] = .ok
      { payloadType := DocType.access.payloadType, payload := "", keyCerts := ["cert"]
        signatures := [⟨"K", letterText true⟩] } := by
    decide
  rw [hparse] at hparsed
  cases hparsed
  simp

/-- The manifest is installed after the key state that revokes `K` was adopted, when a
newer key state no longer revokes `K`, and when its call had verified it before. -/
theorem installed_after_adopted_manifestCall : Calls.SignedOnlyBy shortPrimitives "K" [1] ∧
    (let adopted := run (Calls.step shortPrimitives shortConfig) { kernel := shortKernel } (keystateCall 0 5 1)
      let after := run (Calls.step shortPrimitives shortConfig) adopted (keystateCall 1 6 0 ++ manifestCall 2)
      adopted.calls 0 = some (.keystateReturned (.ok (.adopted 5 false))) ∧
        adopted.kernel.directory.serial = 0 ∧ after.kernel.directory = ⟨7, .signed "K" .seed⟩) ∧
    (let adopted := run (Calls.step shortPrimitives shortConfig) { kernel := shortKernel }
        (.acceptManifest 0 [1] shortInfo 0 :: keystateCall 1 5 1)
      let after := run (Calls.step shortPrimitives shortConfig) adopted [.commit 0 {}, .finish 0]
      adopted.calls 1 = some (.keystateReturned (.ok (.adopted 5 false))) ∧
        adopted.kernel.directory.serial = 0 ∧ after.kernel.directory = ⟨7, .signed "K" .seed⟩) :=
  ⟨signedOnlyBy_K, by decide⟩

end FlareIm.Access
