import FlareIm.Lib.Checks
import FlareIm.Lib.Decimal
import FlareIm.Message.Model
import Mathlib.Data.Finset.Basic

/-! Trust in signed documents. A document travels in a DSSE envelope whose signatures
cover the payload type and the payload bytes. Access and release manifests are signed
by online keys; a certificate, signed by a root that is built into the app, endorses
such a key for some uses, some apps and some time. Key states (the revocation lists)
and recovery manifests are signed by a root directly.

Base64, JSON, RFC 3339 times and Ed25519 come from other crates. They are the fields
of `Primitives`; what a proof needs of them is a hypothesis there. Values that only
describe a document in logs (its digest) are left out. -/

namespace FlareIm.Access

open Lib Message

abbrev Bytes := List UInt8

/-! ### Document types -/

def keycertSchema : String := "flare.keycert.v1"
def keystateSchema : String := "flare.keystate.v1"

def keycertPayloadType : String := "application/vnd.flare.keycert.v1+json"
def recoveryPayloadType : String := "application/vnd.flare.recovery.v1+json"

def maxDocumentBytes : ℕ := 64 * 1024
def maxSignatures : ℕ := 8
def maxKeyCerts : ℕ := 8
def maxRevokedKeyIds : ℕ := 256
def maxRecoveryLinkBytes : ℕ := 1024

inductive DocType
  | access
  | keyState
  | release
  deriving DecidableEq, Repr

namespace DocType

def payloadType : DocType → String
  | .access => "application/vnd.flare.access.v1+json"
  | .keyState => "application/vnd.flare.keystate.v1+json"
  | .release => "application/vnd.flare.release.v1+json"

/-- What a certificate's `usages` must list; documents signed by a root have none. -/
def certUsage : DocType → Option String
  | .access => some "access"
  | .release => some "release"
  | .keyState => none

end DocType

/-! ### Errors -/

inductive ManifestError
  | json (message : String)
  | unsupportedSchema (schema : String)
  | invalid (field reason : String)
  deriving DecidableEq, Repr

inductive KeyCertError
  | malformed
  | wrongPayloadType
  | unsupportedSchema
  | unknownRoot
  | badRootSignature
  | rootMismatch
  | notYetValid
  | expired
  | usageNotAllowed
  | scopeMismatch
  deriving DecidableEq, Repr

inductive TrustError
  | tooLarge (actual limit : ℕ)
  | malformedEnvelope (reason : String)
  | wrongPayloadType (expected actual : String)
  | badSignature (keyId : String)
  | unknownKey (keyId : String)
  | keyCert (keyId : String) (reason : KeyCertError)
  | revoked (keyId : String)
  | expired (expiresAtMs : Int64)
  | rollback (serial maxSerial : ℕ)
  | wrongBootstrapId (expected actual : String)
  | wrongReleaseTarget (expected actual : String)
  | unsupportedSchema (schema : String)
  | invalidPayload (error : ManifestError)
  deriving DecidableEq, Repr

def KeyCertError.code : KeyCertError → String
  | .malformed => "malformed"
  | .wrongPayloadType => "wrongPayloadType"
  | .unsupportedSchema => "unsupportedSchema"
  | .unknownRoot => "unknownRoot"
  | .badRootSignature => "badRootSignature"
  | .rootMismatch => "rootMismatch"
  | .notYetValid => "notYetValid"
  | .expired => "expired"
  | .usageNotAllowed => "usageNotAllowed"
  | .scopeMismatch => "scopeMismatch"

def TrustError.code : TrustError → String
  | .tooLarge .. => "tooLarge"
  | .malformedEnvelope _ => "malformedEnvelope"
  | .wrongPayloadType .. => "wrongPayloadType"
  | .badSignature _ => "badSignature"
  | .unknownKey _ => "unknownKey"
  | .keyCert _ reason => "keyCert." ++ reason.code
  | .revoked _ => "revoked"
  | .expired _ => "expired"
  | .rollback .. => "rollback"
  | .wrongBootstrapId .. => "wrongBootstrapId"
  | .wrongReleaseTarget .. => "wrongReleaseTarget"
  | .unsupportedSchema _ => "unsupportedSchema"
  | .invalidPayload _ => "invalidPayload"

/-! ### Documents -/

structure EnvelopeSignature where
  keyid : String
  sig : String
  deriving DecidableEq, Repr

structure Envelope where
  payloadType : String
  /-- The payload bytes in base64url. -/
  payload : String
  signatures : List EnvelopeSignature
  /-- Certificate envelopes in base64url. -/
  keyCerts : List String
  deriving DecidableEq, Repr

structure KeyCert where
  schema : String
  keyId : String
  publicKey : String
  usages : List String
  /-- `scope.bootstrapIds`. -/
  bootstrapIds : List String
  notBefore : String
  notAfter : String
  rootKeyId : String
  deriving DecidableEq, Repr

def KeyCert.covers (cert : KeyCert) (bootstrapId : String) : Bool :=
  cert.bootstrapIds.any fun scope => scope == "*" || scope == bootstrapId

structure DocTimes where
  issuedAtMs : Int64
  expiresAtMs : Int64
  deriving DecidableEq

/-- What the trust layer reads of an access manifest. -/
@[ext]
structure AccessManifest where
  bootstrapId : String
  serial : ℕ
  serial_le : serial ≤ maxU64

instance : DecidableEq AccessManifest := fun _ _ => decidable_of_iff' _ AccessManifest.ext_iff

@[ext]
structure ReleaseManifest where
  bootstrapId : String
  serial : ℕ
  serial_le : serial ≤ maxU64
  platform : String
  channel : String

instance : DecidableEq ReleaseManifest := fun _ _ => decidable_of_iff' _ ReleaseManifest.ext_iff

@[ext]
structure KeyState where
  serial : ℕ
  serial_le : serial ≤ maxU64
  certificates : List String
  revokedKeyIds : List String

instance : DecidableEq KeyState := fun _ _ => decidable_of_iff' _ KeyState.ext_iff

/-! ### Primitives -/

/-- What the code takes from other crates. The JSON readers of manifests stand for
`from_slice` with its checks of the fields. -/
structure Primitives (Key Recovery : Type) where
  decodeB64 : String → Option Bytes
  envelopeOfJson : Bytes → Option Envelope
  keyCertOfJson : Bytes → Option KeyCert
  accessOfJson : Bytes → Except ManifestError (AccessManifest × DocTimes)
  releaseOfJson : Bytes → Except ManifestError (ReleaseManifest × DocTimes)
  recoveryOfJson : Bytes → Except ManifestError Recovery
  recoveryToAccess : Recovery → Except ManifestError (AccessManifest × DocTimes)
  /-- The text of the `schema` field, empty when there is none; the error of the JSON
  reader otherwise. -/
  schemaOfJson : Bytes → Except String String
  keyStateOfJson : Bytes → Except String KeyState
  parseRfc3339Ms : String → Option Int64
  /-- A curve point that is not weak. -/
  verifyingKey : Bytes → Option Key
  verifyStrict : Key → Bytes → Bytes → Bool

section Verification

variable {Key Recovery : Type} (P : Primitives Key Recovery)

/-! ### Envelopes -/

def utf8 (s : String) : Bytes := s.toByteArray.data.toList

/-- The pre-authentication encoding: `"DSSEv1" SP len(type) SP type SP len(body) SP body`. -/
def pae (payloadType : String) (payload : Bytes) : Bytes :=
  utf8 "DSSEv1 " ++ utf8 (toString payloadType.utf8ByteSize) ++ utf8 " " ++ utf8 payloadType ++
    utf8 " " ++ utf8 (toString payload.length) ++ utf8 " " ++ payload

theorem utf8_injective : Function.Injective utf8 := fun _ _ h =>
  String.toByteArray_inj.mp (ByteArray.ext (Array.toList_inj.mp h))

open List in
theorem ne_space_of_mem_utf8_toString {n : ℕ} {b : UInt8} (h : b ∈ utf8 (toString n)) : b ≠ 32 := by
  rw [utf8, Nat.toString_eq_ofList_toDigits, String.toByteArray_ofList, utf8Encode, data_toByteArray] at h
  obtain ⟨c, hc, hb⟩ := mem_flatMap.mp h
  obtain ⟨hge, hle⟩ : 48 ≤ c.val.toNat ∧ c.val.toNat ≤ 57 :=
    Char.isDigit_iff_toNat.mp (Nat.isDigit_of_mem_toDigits (by decide) (by decide) hc)
  rw [String.utf8EncodeChar, if_pos (hle.trans (by decide)), mem_singleton] at hb
  rintro rfl
  have hcode := congrArg UInt8.toNat hb
  rw [UInt8.toNat_ofNat_of_lt' (hle.trans_lt (by decide))] at hcode
  exact absurd (hge.trans_eq hcode.symm) (by decide)

open List in
/-- The first space ends a length. -/
theorem toString_space_inj {m n : ℕ} {xs ys : Bytes}
    (h : utf8 (toString m) ++ (utf8 " " ++ xs) = utf8 (toString n) ++ (utf8 " " ++ ys)) : m = n ∧ xs = ys := by
  have hsplit : ∀ (n : ℕ) (rest : Bytes),
      span (fun b => b != 32) (utf8 (toString n) ++ (utf8 " " ++ rest)) =
        (utf8 (toString n), utf8 " " ++ rest) := by
    intro n rest
    have hdigits : ∀ b ∈ utf8 (toString n), (b != 32) = true := fun b hb =>
      bne_iff_ne.mpr (ne_space_of_mem_utf8_toString hb)
    rw [span_eq_takeWhile_dropWhile, takeWhile_append_of_pos hdigits, dropWhile_append_of_pos hdigits]
    exact Prod.ext (append_nil _) rfl
  have hparts := congrArg (span fun b => b != 32) h
  rw [hsplit, hsplit, Prod.mk.injEq, append_cancel_left_eq] at hparts
  exact hparts.imp_left fun htext => toString_injective (utf8_injective htext)

open List in
/-- An encoding has one type and one payload: what was signed for a document is the
encoding of no document of another type. -/
theorem pae_inj (payloadType payloadType' : String) (payload payload' : Bytes) :
    pae payloadType payload = pae payloadType' payload' ↔ payloadType = payloadType' ∧ payload = payload' := by
  refine ⟨fun h => ?_, fun h => by rw [h.1, h.2]⟩
  simp only [pae, append_assoc, append_cancel_left_eq] at h
  obtain ⟨hlength, htype⟩ := toString_space_inj h
  obtain ⟨htype, hbody⟩ := append_inj htype hlength
  exact ⟨utf8_injective htype, (toString_space_inj (append_cancel_left hbody)).2⟩

namespace Envelope

def parse (bytes : Bytes) : Except TrustError Envelope := do
  require (bytes.length ≤ maxDocumentBytes) (.tooLarge bytes.length maxDocumentBytes)
  let envelope ← okOr (P.envelopeOfJson bytes) (.malformedEnvelope "not a DSSE envelope")
  require (!envelope.signatures.isEmpty) (.malformedEnvelope "no signatures")
  require (envelope.signatures.length ≤ maxSignatures) (.malformedEnvelope "too many signatures")
  require (envelope.keyCerts.length ≤ maxKeyCerts) (.malformedEnvelope "too many key certificates")
  return envelope

def openPayload (envelope : Envelope) (expectedType : String) : Except TrustError Bytes := do
  require (envelope.payloadType == expectedType) (.wrongPayloadType expectedType envelope.payloadType)
  okOr (P.decodeB64 envelope.payload) (.malformedEnvelope "payload is not base64")

end Envelope

/-- A signature is 64 bytes; its text is bounded before it is decoded. -/
def verifySignature (key : Key) (payloadType : String) (payload : Bytes) (sig : String) : Bool :=
  if 128 < sig.utf8ByteSize then false
  else
    match P.decodeB64 sig with
    | none => false
    | some bytes => bytes.length == 64 && P.verifyStrict key (pae payloadType payload) bytes

def decodePublicKey (encoded : String) : Option Key := do
  let bytes ← P.decodeB64 encoded
  if bytes.length = 32 then P.verifyingKey bytes else none

/-! ### Roots and trust material -/

structure TrustRoots (Key : Type) where
  roots : List (String × Key)
  fingerprint : String
  deriving DecidableEq

def TrustRoots.get (roots : TrustRoots Key) (keyId : String) : Option Key :=
  (roots.roots.find? fun entry => entry.1 == keyId).map (·.2)

structure TrustStore (Key : Type) where
  roots : TrustRoots Key
  bootstrapId : String
  revoked : Finset String
  keystateCerts : List String
  keystateSerial : Option ℕ
  deriving DecidableEq

/-! ### Certificates -/

/-- A certificate before its root signature is checked. -/
structure OpenedCert where
  envelope : Envelope
  payload : Bytes
  cert : KeyCert

def openCert (encoded : String) : Except KeyCertError OpenedCert := do
  let bytes ← okOr (P.decodeB64 encoded) .malformed
  let envelope ← (Envelope.parse P bytes).mapError fun _ => .malformed
  require (envelope.payloadType == keycertPayloadType) .wrongPayloadType
  let payload ← okOr (P.decodeB64 envelope.payload) .malformed
  let cert ← okOr (P.keyCertOfJson payload) .malformed
  return { envelope, payload, cert }

/-- One signature of a certificate verifies under the built-in root it names. -/
def OpenedCert.rootSigns (opened : OpenedCert) (roots : TrustRoots Key) (signature : EnvelopeSignature) : Bool :=
  match roots.get signature.keyid with
  | none => false
  | some root => verifySignature P root keycertPayloadType opened.payload signature.sig

/-- The loop stops at the first signature that verifies under a built-in root, and
only then compares that root with the one the certificate names. -/
def checkRootSignature (opened : OpenedCert) (roots : TrustRoots Key) : Except KeyCertError Unit :=
  match opened.envelope.signatures.find? (opened.rootSigns P roots) with
  | none =>
    if opened.envelope.signatures.any fun signature => (roots.get signature.keyid).isSome then
      .error .badRootSignature
    else .error .unknownRoot
  | some signature => require (opened.cert.rootKeyId == signature.keyid) .rootMismatch

structure ValidCert (Key : Type) where
  keyId : String
  key : Key
  deriving DecidableEq

inductive CertRejection
  | cert (reason : KeyCertError)
  | revoked
  deriving DecidableEq, Repr

/-- `DAY_MS`, the tolerance for the device's clock. -/
def certClockSkewMs : ℤ := 86400000

def satI64 (n : ℤ) : ℤ := max (-2 ^ 63) (min (2 ^ 63 - 1) n)

section

variable (trust : TrustStore Key) (usage : String) (nowMs : Int64)

/-- The checks on the content of a certificate whose root signature is good. -/
def checkCert (cert : KeyCert) :
    Except CertRejection (ValidCert Key) := do
  let notBefore ← okOr (P.parseRfc3339Ms cert.notBefore) (.cert .malformed)
  let notAfter ← okOr (P.parseRfc3339Ms cert.notAfter) (.cert .malformed)
  require (notBefore.toInt ≤ satI64 (nowMs.toInt + certClockSkewMs)) (.cert .notYetValid)
  require (satI64 (nowMs.toInt - certClockSkewMs) ≤ notAfter.toInt) (.cert .expired)
  require (cert.usages.contains usage) (.cert .usageNotAllowed)
  require (cert.covers trust.bootstrapId) (.cert .scopeMismatch)
  require (cert.keyId ∉ trust.revoked) .revoked
  let key ← okOr (decodePublicKey P cert.publicKey) (.cert .malformed)
  return { keyId := cert.keyId, key }

/-- A rejection carries the key id the certificate claims, when it could be read. -/
def validateCert (encoded : String) :
    Except (Option String × CertRejection) (ValidCert Key) := do
  let opened ← (openCert P encoded).mapError fun reason => (none, .cert reason)
  let rejected := fun rejection => (some opened.cert.keyId, rejection)
  require (opened.cert.schema == keycertSchema) (rejected (.cert .unsupportedSchema))
  (checkRootSignature P opened trust.roots).mapError fun reason => rejected (.cert reason)
  (checkCert P trust usage nowMs opened.cert).mapError rejected

end

/-! ### Signed documents -/

namespace TrustStore

variable (trust : TrustStore Key)

/-- The certificates a document can rest on: its own and those of the key state. -/
def certs (envelope : Envelope) : List String := envelope.keyCerts ++ trust.keystateCerts

section

variable (usage : String) (nowMs : Int64) (encoded : List String)

def validCerts : List (ValidCert Key) :=
  encoded.filterMap fun text => (validateCert P trust usage nowMs text).toOption

def rejectedCerts : List (Option String × CertRejection) :=
  encoded.filterMap fun text =>
    match validateCert P trust usage nowMs text with
    | .ok _ => none
    | .error rejection => some rejection

end

/-- What one signature of a document comes to. A rejected certificate whose key id
could not be read is blamed when no other explains the signature. -/
def checkSignature (doc : DocType) (payload : Bytes) (valid : List (ValidCert Key))
    (rejected : List (Option String × CertRejection)) (signature : EnvelopeSignature) :
    Except TrustError String :=
  let keyId := signature.keyid
  if keyId ∈ trust.revoked then .error (.revoked keyId)
  else
    match valid.find? fun cert => cert.keyId == keyId with
    | some cert =>
      if verifySignature P cert.key doc.payloadType payload signature.sig then .ok keyId
      else .error (.badSignature keyId)
    | none =>
      match (rejected.find? fun entry => entry.1 == some keyId).or (rejected.find? fun entry => entry.1.isNone) with
      | some (_, .cert reason) => .error (.keyCert keyId reason)
      | some (_, .revoked) => .error (.revoked keyId)
      | none => .error (.unknownKey keyId)

def verifyCertSigned (envelope : Envelope) (doc : DocType) (payload : Bytes) (nowMs : Int64) :
    Except TrustError String :=
  let usage := doc.certUsage.getD ""
  let encoded := trust.certs envelope
  firstOk (trust.checkSignature P doc payload (trust.validCerts P usage nowMs encoded)
      (trust.rejectedCerts P usage nowMs encoded))
    (.malformedEnvelope "no signatures") envelope.signatures none

/-- The key id of the first signature that verifies under a built-in root. -/
def verifyRootSigned (envelope : Envelope) (payloadType : String) (payload : Bytes) : Except TrustError String :=
  let signs := fun signature : EnvelopeSignature =>
    match trust.roots.get signature.keyid with
    | none => false
    | some root => verifySignature P root payloadType payload signature.sig
  match envelope.signatures.find? signs with
  | some signature => .ok signature.keyid
  | none =>
    match envelope.signatures.find? fun signature => (trust.roots.get signature.keyid).isSome with
    | some signature => .error (.badSignature signature.keyid)
    | none => .error (.unknownKey ((envelope.signatures.map (·.keyid)).headD ""))

/-- `UnsupportedSchema` keeps its own error, everything else is an invalid payload. -/
def payloadError : ManifestError → TrustError
  | .unsupportedSchema schema => .unsupportedSchema schema
  | other => .invalidPayload other

def checkBootstrapId (actual : String) : Except TrustError Unit :=
  require (actual == trust.bootstrapId) (.wrongBootstrapId trust.bootstrapId actual)

end TrustStore

inductive ExpiryMode
  | markStale
  | reject
  deriving DecidableEq, Repr

/-- A verified document with what the kernel keeps of it. -/
structure VerifiedAccessManifest where
  manifest : AccessManifest
  keyId : String
  times : DocTimes
  envelope : Bytes
  deriving DecidableEq

structure VerifiedReleaseManifest where
  manifest : ReleaseManifest
  keyId : String
  times : DocTimes
  envelope : Bytes
  deriving DecidableEq

@[ext]
structure VerifiedKeyState where
  serial : ℕ
  serial_le : serial ≤ maxU64
  signedBy : String
  revoked : Finset String
  certificates : List String
  envelope : Bytes

instance : DecidableEq VerifiedKeyState := fun _ _ => decidable_of_iff' _ VerifiedKeyState.ext_iff

def VerifiedAccessManifest.serial (verified : VerifiedAccessManifest) : ℕ := verified.manifest.serial

def VerifiedReleaseManifest.serial (verified : VerifiedReleaseManifest) : ℕ := verified.manifest.serial

namespace TrustStore

variable (trust : TrustStore Key)

/-- `verify_access_with` after the envelope is parsed. -/
def verifyAccessEnvelope (envelope : Envelope) (nowMs : Int64) (expiry : ExpiryMode) :
    Except TrustError (String × AccessManifest × DocTimes) := do
  let payload ← envelope.openPayload P DocType.access.payloadType
  let keyId ← trust.verifyCertSigned P envelope .access payload nowMs
  let (manifest, times) ← (P.accessOfJson payload).mapError payloadError
  trust.checkBootstrapId manifest.bootstrapId
  require (!(expiry == .reject && times.expiresAtMs ≤ nowMs)) (.expired times.expiresAtMs)
  return (keyId, manifest, times)

variable (bytes : Bytes)

def verifyAccessWith (nowMs : Int64) (expiry : ExpiryMode) :
    Except TrustError VerifiedAccessManifest := do
  let envelope ← Envelope.parse P bytes
  let (keyId, manifest, times) ← trust.verifyAccessEnvelope P envelope nowMs expiry
  return { manifest, keyId, times, envelope := bytes }

def verifyAccess (nowMs : Int64) : Except TrustError VerifiedAccessManifest :=
  trust.verifyAccessWith P bytes nowMs .markStale

/-- `verify_release` after the envelope is parsed. -/
def verifyReleaseEnvelope (envelope : Envelope) (platform channel : String) (nowMs : Int64) :
    Except TrustError (String × ReleaseManifest × DocTimes) := do
  let payload ← envelope.openPayload P DocType.release.payloadType
  let keyId ← trust.verifyCertSigned P envelope .release payload nowMs
  let (manifest, times) ← (P.releaseOfJson payload).mapError payloadError
  trust.checkBootstrapId manifest.bootstrapId
  require (manifest.platform == platform && manifest.channel == channel)
    (.wrongReleaseTarget (platform ++ "/" ++ channel) (manifest.platform ++ "/" ++ manifest.channel))
  return (keyId, manifest, times)

def verifyRelease (platform channel : String) (nowMs : Int64) :
    Except TrustError VerifiedReleaseManifest := do
  let envelope ← Envelope.parse P bytes
  let (keyId, manifest, times) ← trust.verifyReleaseEnvelope P envelope platform channel nowMs
  return { manifest, keyId, times, envelope := bytes }

def verifyRecovery : Except TrustError VerifiedAccessManifest := do
  let envelope ← Envelope.parse P bytes
  let payload ← envelope.openPayload P recoveryPayloadType
  require (payload.length ≤ maxRecoveryLinkBytes) (.tooLarge payload.length maxRecoveryLinkBytes)
  let keyId ← trust.verifyRootSigned P envelope recoveryPayloadType payload
  let recovery ← (P.recoveryOfJson payload).mapError .invalidPayload
  let (manifest, times) ← (P.recoveryToAccess recovery).mapError payloadError
  trust.checkBootstrapId manifest.bootstrapId
  return { manifest, keyId, times, envelope := bytes }

/-- A local copy may be a recovery manifest; a mirror's document may not. -/
def verifyStoredAccess (nowMs : Int64) : Except TrustError VerifiedAccessManifest := do
  let envelope ← Envelope.parse P bytes
  if envelope.payloadType = recoveryPayloadType then trust.verifyRecovery P bytes
  else trust.verifyAccess P bytes nowMs

def verifyKeystate : Except TrustError VerifiedKeyState := do
  let envelope ← Envelope.parse P bytes
  let payload ← envelope.openPayload P DocType.keyState.payloadType
  let signedBy ← trust.verifyRootSigned P envelope DocType.keyState.payloadType payload
  let schema ← (P.schemaOfJson payload).mapError fun message => .invalidPayload (.json message)
  require (schema == keystateSchema) (.unsupportedSchema schema)
  let keystate ← (P.keyStateOfJson payload).mapError fun message => .invalidPayload (.json message)
  require (keystate.revokedKeyIds.length ≤ maxRevokedKeyIds)
    (.invalidPayload (.invalid "revokedKeyIds" "too many entries"))
  require (keystate.certificates.length ≤ maxKeyCerts)
    (.invalidPayload (.invalid "certificates" "too many entries"))
  return { serial := keystate.serial, serial_le := keystate.serial_le, signedBy,
           revoked := keystate.revokedKeyIds.toFinset, certificates := keystate.certificates,
           envelope := bytes }

/-- A key state older than the one in `trust` is ignored, so that calls in the wrong
order do not bring a revocation list back. -/
def withKeystate (keystate : VerifiedKeyState) : TrustStore Key :=
  if trust.keystateSerial.any fun current => keystate.serial < current then trust
  else
    { trust with
      revoked := keystate.revoked, keystateCerts := keystate.certificates,
      keystateSerial := some keystate.serial }

end TrustStore

end Verification

/-! ### Serials -/

inductive SerialCheck
  | newer
  | same
  deriving DecidableEq, Repr

/-- Only a document that is not older than the largest serial accepted so far passes. -/
def checkSerial (serial : ℕ) : Option ℕ → Except TrustError SerialCheck
  | none => .ok .newer
  | some max =>
    if max < serial then .ok .newer
    else if serial = max then .ok .same
    else .error (.rollback serial max)

/-- No serial is below every serial. -/
theorem option_le_trans {a b c : Option ℕ} (hab : a ≤ b) (hbc : b ≤ c) : a ≤ c := by
  cases a <;> cases b <;> cases c <;> simp_all
  exact hab.trans hbc

theorem option_le_refl (a : Option ℕ) : a ≤ a := by
  cases a <;> simp

theorem option_le_iff {a b : Option ℕ} : a ≤ b ↔ ∀ m ∈ a, ∃ n ∈ b, m ≤ n := by
  cases a <;> cases b <;> simp

instance decidableOptionLe (a b : Option ℕ) : Decidable (a ≤ b) := decidable_of_iff' _ option_le_iff

theorem le_of_checkSerial {serial : ℕ} {max : Option ℕ} {check : SerialCheck}
    (h : checkSerial serial max = .ok check) : max ≤ some serial := by
  cases max with
  | none => exact Option.none_le
  | some max =>
    rw [checkSerial] at h
    rw [Option.some_le_some]
    split_ifs at h with hlt heq
    · exact hlt.le
    · exact heq.ge

end FlareIm.Access
