import FlareIm.Access.Trust

/-! Which signed documents are accepted. `Acceptable` says when an access or release
document should be: some signature by an unrevoked key verifies under the key of some
certificate for that key id, and the certificate is signed by the built-in root it
names. Verification never accepts more than that. It can accept less, because both of
its searches stop at the first match: only the first valid certificate with a key id
is tried, and only the first root signature that verifies is compared with the root
that a certificate names. `FirstCertDecides` is what a list of certificates must meet
for the two to agree on every document. -/

namespace FlareIm.Access

open Lib List TrustStore

/-- A document that an online key signs, with what is expected of it. -/
inductive Request
  | access
  | release (platform channel : String)
  deriving DecidableEq

namespace Request

def doc : Request → DocType
  | .access => .access
  | .release .. => .release

def usage : Request → String
  | .access => "access"
  | .release .. => "release"

theorem certUsage_doc (req : Request) : req.doc.certUsage.getD "" = req.usage := by
  cases req <;> rfl

end Request

variable {Key Recovery : Type}

section Acceptance

variable (P : Primitives Key Recovery) (trust : TrustStore Key) (req : Request) (nowMs : Int64)

/-! ### What should be accepted -/

/-- The content of a certificate endorses `key` under `keyId` for this kind of document. -/
structure CertHolds (cert : KeyCert) (keyId : String) (key : Key) : Prop where
  schema_eq : cert.schema = keycertSchema
  keyId_eq : cert.keyId = keyId
  key_eq : decodePublicKey P cert.publicKey = some key
  validity : ∃ notBefore notAfter, P.parseRfc3339Ms cert.notBefore = some notBefore ∧
    P.parseRfc3339Ms cert.notAfter = some notAfter ∧
    notBefore.toInt ≤ nowMs.toInt + certClockSkewMs ∧ nowMs.toInt - certClockSkewMs ≤ notAfter.toInt
  usage_mem : req.usage ∈ cert.usages
  covers : "*" ∈ cert.bootstrapIds ∨ trust.bootstrapId ∈ cert.bootstrapIds

/-- One of the signatures is by the built-in root that the certificate names. -/
def SignedByNamedRoot (opened : OpenedCert) : Prop :=
  ∃ signature ∈ opened.envelope.signatures, signature.keyid = opened.cert.rootKeyId ∧
    opened.rootSigns P trust.roots signature = true

/-- Of the signatures that verify under a built-in root, the first is by the root that
the certificate names. -/
def NamedRootSignsFirst (opened : OpenedCert) : Prop :=
  ∃ signature, opened.envelope.signatures.find? (opened.rootSigns P trust.roots) = some signature ∧
    signature.keyid = opened.cert.rootKeyId

def Endorses (encoded keyId : String) (key : Key) : Prop :=
  ∃ opened, openCert P encoded = .ok opened ∧ SignedByNamedRoot P trust opened ∧
    CertHolds P trust req nowMs opened.cert keyId key

/-- The endorsement can be read off the first root signature. -/
def EndorsesFirst (encoded keyId : String) (key : Key) : Prop :=
  ∃ opened, openCert P encoded = .ok opened ∧ NamedRootSignsFirst P trust opened ∧
    CertHolds P trust req nowMs opened.cert keyId key

/-- A payload of the right content for this app, and for this platform and channel. -/
def PayloadValid (payload : Bytes) : Prop :=
  match req with
  | .access => ∃ manifest times, P.accessOfJson payload = .ok (manifest, times) ∧
      manifest.bootstrapId = trust.bootstrapId
  | .release platform channel => ∃ manifest times, P.releaseOfJson payload = .ok (manifest, times) ∧
      manifest.bootstrapId = trust.bootstrapId ∧ manifest.platform = platform ∧ manifest.channel = channel

def Acceptable (envelope : Envelope) : Prop :=
  envelope.payloadType = req.doc.payloadType ∧
    ∃ payload, P.decodeB64 envelope.payload = some payload ∧ PayloadValid P trust req payload ∧
      ∃ signature ∈ envelope.signatures, signature.keyid ∉ trust.revoked ∧
        ∃ encoded ∈ trust.certs envelope, ∃ key, Endorses P trust req nowMs encoded signature.keyid key ∧
          verifySignature P key req.doc.payloadType payload signature.sig = true

/-! ### What is accepted -/

def Accepts (envelope : Envelope) : Prop :=
  match req with
  | .access => ∃ verified, trust.verifyAccessEnvelope P envelope nowMs .markStale = .ok verified
  | .release platform channel =>
    ∃ verified, trust.verifyReleaseEnvelope P envelope platform channel nowMs = .ok verified

def Verifies (bytes : Bytes) : Prop :=
  match req with
  | .access => ∃ verified, trust.verifyAccess P bytes nowMs = .ok verified
  | .release platform channel => ∃ verified, trust.verifyRelease P bytes platform channel nowMs = .ok verified

/-- For every unrevoked key id, whatever certificate endorses a key under it, the
first one that is readable at its first root signature endorses the same key. -/
def FirstCertDecides (certs : List String) : Prop :=
  ∀ keyId key, keyId ∉ trust.revoked → (∃ encoded ∈ certs, Endorses P trust req nowMs encoded keyId key) →
    ∃ earlier encoded later, certs = earlier ++ encoded :: later ∧
    EndorsesFirst P trust req nowMs encoded keyId key ∧
      ∀ other ∈ earlier, ∀ key', ¬ EndorsesFirst P trust req nowMs other keyId key'

end Acceptance

section Lemmas

variable {P : Primitives Key Recovery} {trust : TrustStore Key} {req : Request}
  {nowMs : Int64} {encoded keyId : String} {key : Key}

theorem le_satI64_iff (t : Int64) (n : ℤ) (h : -2 ^ 63 ≤ n) : t.toInt ≤ satI64 n ↔ t.toInt ≤ n := by
  have hmax : t.toInt ≤ 2 ^ 63 - 1 := t.toInt_le
  rw [satI64]
  omega

theorem satI64_le_iff (t : Int64) (n : ℤ) (h : n ≤ 2 ^ 63 - 1) : satI64 n ≤ t.toInt ↔ n ≤ t.toInt := by
  have hmin : -2 ^ 63 ≤ t.toInt := t.le_toInt
  rw [satI64]
  omega

theorem checkCert_eq_ok_iff {cert : KeyCert} (hschema : cert.schema = keycertSchema) :
    checkCert P trust req.usage nowMs cert = .ok ⟨keyId, key⟩ ↔
      CertHolds P trust req nowMs cert keyId key ∧ keyId ∉ trust.revoked := by
  have hlow : -2 ^ 63 ≤ nowMs.toInt + certClockSkewMs := by
    have := nowMs.le_toInt
    rw [certClockSkewMs]
    omega
  have hhigh : nowMs.toInt - certClockSkewMs ≤ 2 ^ 63 - 1 := by
    have : nowMs.toInt ≤ 2 ^ 63 - 1 := nowMs.toInt_le
    rw [certClockSkewMs]
    omega
  simp only [checkCert, bind_eq_ok_iff, okOr_eq_ok_iff, require_eq_ok_iff, pure_eq_ok_iff, decide_eq_true_eq,
    le_satI64_iff _ _ hlow, satI64_le_iff _ _ hhigh, contains_iff_mem, ValidCert.mk.injEq, KeyCert.covers,
    any_eq_true, Bool.or_eq_true, beq_iff_eq, and_or_left, exists_or, exists_eq_right]
  constructor
  · rintro ⟨notBefore, hbefore, notAfter, hafter, -, hstarted, -, hends, -, husage, -, hscope, -, hrevoked,
      key', hkey, rfl, rfl⟩
    exact ⟨⟨hschema, rfl, hkey, ⟨notBefore, notAfter, hbefore, hafter, hstarted, hends⟩, husage, hscope⟩, hrevoked⟩
  · rintro ⟨⟨-, rfl, hkey, ⟨notBefore, notAfter, hbefore, hafter, hstarted, hends⟩, husage, hscope⟩, hrevoked⟩
    exact ⟨notBefore, hbefore, notAfter, hafter, (), hstarted, (), hends, (), husage, (), hscope, (), hrevoked,
      key, hkey, rfl, rfl⟩

variable {opened : OpenedCert} {times : DocTimes}

theorem checkRootSignature_eq_ok_iff {u : Unit} :
    checkRootSignature P opened trust.roots = .ok u ↔ NamedRootSignsFirst P trust opened := by
  rw [checkRootSignature, NamedRootSignsFirst]
  cases hfind : opened.envelope.signatures.find? (opened.rootSigns P trust.roots) with
  | none => split_ifs <;> simp
  | some signature =>
    refine require_eq_ok_iff.trans ?_
    simp only [beq_iff_eq, Option.some.injEq, exists_eq_left']
    exact eq_comm

theorem validateCert_eq_ok_iff : validateCert P trust req.usage nowMs encoded = .ok ⟨keyId, key⟩ ↔
      EndorsesFirst P trust req nowMs encoded keyId key ∧ keyId ∉ trust.revoked := by
  simp only [validateCert, bind_eq_ok_iff, mapError_eq_ok_iff, require_eq_ok_iff, beq_iff_eq,
    checkRootSignature_eq_ok_iff, EndorsesFirst]
  constructor
  · rintro ⟨opened, hopen, -, hschema, -, hroot, hcert⟩
    obtain ⟨hholds, hrevoked⟩ := (checkCert_eq_ok_iff hschema).mp hcert
    exact ⟨⟨opened, hopen, hroot, hholds⟩, hrevoked⟩
  · rintro ⟨⟨opened, hopen, hroot, hholds⟩, hrevoked⟩
    exact ⟨opened, hopen, (), hholds.schema_eq, (), hroot,
      (checkCert_eq_ok_iff hholds.schema_eq).mpr ⟨hholds, hrevoked⟩⟩

theorem NamedRootSignsFirst.signedByNamedRoot (h : NamedRootSignsFirst P trust opened) :
    SignedByNamedRoot P trust opened := by
  obtain ⟨signature, hfind, hid⟩ := h
  exact ⟨signature, mem_of_find?_eq_some hfind, hid, find?_some hfind⟩

theorem EndorsesFirst.endorses (h : EndorsesFirst P trust req nowMs encoded keyId key) :
    Endorses P trust req nowMs encoded keyId key := by
  obtain ⟨opened, hopen, hroot, hholds⟩ := h
  exact ⟨opened, hopen, hroot.signedByNamedRoot, hholds⟩

/-- The certificate that decides about a key id is the first one readable at its first
root signature. -/
theorem find?_validCerts_eq_some_iff {certs : List String} (hrevoked : keyId ∉ trust.revoked) :
    ((trust.validCerts P req.usage nowMs certs).find? fun cert => cert.keyId == keyId) = some ⟨keyId, key⟩ ↔
      ∃ earlier encoded later, certs = earlier ++ encoded :: later ∧
      EndorsesFirst P trust req nowMs encoded keyId key ∧
        ∀ other ∈ earlier, ∀ key', ¬ EndorsesFirst P trust req nowMs other keyId key' := by
  have hany : ∀ text, ((validateCert P trust req.usage nowMs text).toOption.any fun cert => cert.keyId == keyId)
      = true ↔ ∃ key', EndorsesFirst P trust req nowMs text keyId key' := by
    intro text
    simp only [Option.any_eq_true, toOption_eq_some_iff, beq_iff_eq]
    constructor
    · rintro ⟨⟨id, key'⟩, hok, rfl⟩
      exact ⟨key', (validateCert_eq_ok_iff.mp hok).1⟩
    · rintro ⟨key', hfirst⟩
      exact ⟨⟨keyId, key'⟩, validateCert_eq_ok_iff.mpr ⟨hfirst, hrevoked⟩, rfl⟩
  simp only [validCerts, find?_filterMap, Option.bind_eq_some_iff, toOption_eq_some_iff,
    find?_eq_some_iff_append, Bool.not_eq_true', Bool.eq_false_iff, ne_eq, hany, not_exists]
  constructor
  · rintro ⟨text, ⟨-, earlier, later, hsplit, hnone⟩, hok⟩
    exact ⟨earlier, text, later, hsplit, (validateCert_eq_ok_iff.mp hok).1, hnone⟩
  · rintro ⟨earlier, text, later, hsplit, hfirst, hnone⟩
    exact ⟨text, ⟨⟨key, hfirst⟩, earlier, later, hsplit, hnone⟩, validateCert_eq_ok_iff.mpr ⟨hfirst, hrevoked⟩⟩

variable {payload : Bytes}

theorem checkSignature_eq_ok_iff {doc : DocType} {valid : List (ValidCert Key)}
    {rejected : List (Option String × CertRejection)} {signature : EnvelopeSignature} :
    trust.checkSignature P doc payload valid rejected signature = .ok keyId ↔
      keyId = signature.keyid ∧ signature.keyid ∉ trust.revoked ∧
        ∃ key, (valid.find? fun cert => cert.keyId == signature.keyid) = some ⟨signature.keyid, key⟩ ∧
          verifySignature P key doc.payloadType payload signature.sig = true := by
  rw [checkSignature]
  by_cases hrevoked : signature.keyid ∈ trust.revoked
  · simp [hrevoked]
  · simp only [hrevoked, if_false, not_false_eq_true, true_and]
    cases hfind : valid.find? fun cert => cert.keyId == signature.keyid with
    | none =>
      generalize (rejected.find? fun entry => entry.1 == some signature.keyid).or
        (rejected.find? fun entry => entry.1.isNone) = blamed
      rcases blamed with _ | ⟨claimed, reason | _⟩ <;> simp
    | some cert =>
      obtain ⟨certId, key⟩ := cert
      obtain rfl : certId = signature.keyid := by simpa using find?_some hfind
      by_cases hverify : verifySignature P key doc.payloadType payload signature.sig = true
      · simp only [if_pos hverify]
        refine ⟨fun h => ⟨(Except.ok.inj h).symm, key, rfl, hverify⟩, ?_⟩
        rintro ⟨rfl, -⟩
        rfl
      · simp [hverify]

variable {envelope : Envelope}

/-- A document's signature check succeeds exactly when one of its signatures does. -/
theorem verifyCertSigned_eq_ok_iff :
    (∃ keyId, trust.verifyCertSigned P envelope req.doc payload nowMs = .ok keyId) ↔
      ∃ signature ∈ envelope.signatures, signature.keyid ∉ trust.revoked ∧
        ∃ key, ((trust.validCerts P req.usage nowMs (trust.certs envelope)).find?
            fun cert => cert.keyId == signature.keyid) = some ⟨signature.keyid, key⟩ ∧
          verifySignature P key req.doc.payloadType payload signature.sig = true := by
  simp only [verifyCertSigned, exists_firstOk_iff, checkSignature_eq_ok_iff, req.certUsage_doc,
    exists_eq_left]

theorem openPayload_eq_ok_iff {expectedType : String} : envelope.openPayload P expectedType = .ok payload ↔
      envelope.payloadType = expectedType ∧ P.decodeB64 envelope.payload = some payload := by
  simp [Envelope.openPayload, bind_eq_ok_iff, require_eq_ok_iff, okOr_eq_ok_iff]

theorem verifyAccessEnvelope_eq_ok_iff {manifest : AccessManifest} :
    trust.verifyAccessEnvelope P envelope nowMs .markStale = .ok (keyId, manifest, times) ↔
      ∃ payload, envelope.openPayload P DocType.access.payloadType = .ok payload ∧
        trust.verifyCertSigned P envelope .access payload nowMs = .ok keyId ∧
        P.accessOfJson payload = .ok (manifest, times) ∧ manifest.bootstrapId = trust.bootstrapId := by
  simp only [verifyAccessEnvelope, checkBootstrapId, bind_eq_ok_iff, mapError_eq_ok_iff,
    require_eq_ok_iff, pure_eq_ok_iff, beq_iff_eq, Prod.mk.injEq]
  constructor
  · rintro ⟨payload, hpayload, id, hsigned, ⟨m, t⟩, hjson, -, hid, -, -, rfl, rfl, rfl⟩
    exact ⟨payload, hpayload, hsigned, hjson, hid⟩
  · rintro ⟨payload, hpayload, hsigned, hjson, hid⟩
    exact ⟨payload, hpayload, keyId, hsigned, (manifest, times), hjson, (), hid, (), rfl, rfl, rfl, rfl⟩

theorem verifyReleaseEnvelope_eq_ok_iff {platform channel : String} {manifest : ReleaseManifest} :
    trust.verifyReleaseEnvelope P envelope platform channel nowMs = .ok (keyId, manifest, times) ↔
      ∃ payload, envelope.openPayload P DocType.release.payloadType = .ok payload ∧
        trust.verifyCertSigned P envelope .release payload nowMs = .ok keyId ∧
        P.releaseOfJson payload = .ok (manifest, times) ∧ manifest.bootstrapId = trust.bootstrapId ∧
        manifest.platform = platform ∧ manifest.channel = channel := by
  simp only [verifyReleaseEnvelope, checkBootstrapId, bind_eq_ok_iff, mapError_eq_ok_iff,
    require_eq_ok_iff, pure_eq_ok_iff, beq_iff_eq, Bool.and_eq_true, Prod.mk.injEq]
  constructor
  · rintro ⟨payload, hpayload, id, hsigned, ⟨m, t⟩, hjson, -, hid, -, htarget, rfl, rfl, rfl⟩
    exact ⟨payload, hpayload, hsigned, hjson, hid, htarget⟩
  · rintro ⟨payload, hpayload, hsigned, hjson, hid, htarget⟩
    exact ⟨payload, hpayload, keyId, hsigned, (manifest, times), hjson, (), hid, (), htarget, rfl, rfl, rfl⟩

theorem accepts_iff : Accepts P trust req nowMs envelope ↔ envelope.payloadType = req.doc.payloadType ∧
        ∃ payload, P.decodeB64 envelope.payload = some payload ∧ PayloadValid P trust req payload ∧
          ∃ keyId, trust.verifyCertSigned P envelope req.doc payload nowMs = .ok keyId := by
  -- Both documents are checked alike; only what their payload must say differs.
  cases req <;>
  · simp only [Accepts, Prod.exists, verifyAccessEnvelope_eq_ok_iff, verifyReleaseEnvelope_eq_ok_iff,
      openPayload_eq_ok_iff, PayloadValid, Request.doc]
    constructor
    · rintro ⟨keyId, manifest, times, payload, ⟨htype, hpayload⟩, hsigned, hvalid⟩
      exact ⟨htype, payload, hpayload, ⟨manifest, times, hvalid⟩, keyId, hsigned⟩
    · rintro ⟨htype, payload, hpayload, ⟨manifest, times, hvalid⟩, keyId, hsigned⟩
      exact ⟨keyId, manifest, times, payload, ⟨htype, hpayload⟩, hsigned, hvalid⟩

/-! ### Agreement -/

/-- Nothing is accepted that should not be. -/
theorem acceptable_of_accepts (h : Accepts P trust req nowMs envelope) : Acceptable P trust req nowMs envelope := by
  obtain ⟨htype, payload, hpayload, hvalid, hsigned⟩ := accepts_iff.mp h
  obtain ⟨signature, hmem, hrevoked, key, hfind, hverify⟩ := verifyCertSigned_eq_ok_iff.mp hsigned
  obtain ⟨earlier, encoded, later, hsplit, hfirst, -⟩ := (find?_validCerts_eq_some_iff hrevoked).mp hfind
  have hcert : encoded ∈ trust.certs envelope := hsplit ▸ by simp
  exact ⟨htype, payload, hpayload, hvalid, signature, hmem, hrevoked, encoded, hcert, key, hfirst.endorses, hverify⟩

theorem accepts_of_acceptable (hfirst : FirstCertDecides P trust req nowMs (trust.certs envelope))
    (h : Acceptable P trust req nowMs envelope) : Accepts P trust req nowMs envelope := by
  obtain ⟨htype, payload, hpayload, hvalid, signature, hmem, hrevoked, encoded, hcert, key, hendorses, hverify⟩ := h
  have hfind := (find?_validCerts_eq_some_iff hrevoked).mpr
    (hfirst signature.keyid key hrevoked ⟨encoded, hcert, hendorses⟩)
  exact accepts_iff.mpr ⟨htype, payload, hpayload, hvalid,
    verifyCertSigned_eq_ok_iff.mpr ⟨signature, hmem, hrevoked, key, hfind, hverify⟩⟩

theorem verifies_iff {bytes : Bytes} : Verifies P trust req nowMs bytes ↔
      ∃ envelope, Envelope.parse P bytes = .ok envelope ∧ Accepts P trust req nowMs envelope := by
  cases req <;>
  · simp only [Verifies, Accepts, verifyAccess, verifyAccessWith, verifyRelease,
      bind_eq_ok_iff, pure_eq_ok_iff]
    constructor
    · rintro ⟨-, envelope, hparse, verified, hverified, -⟩
      exact ⟨envelope, hparse, verified, hverified⟩
    · rintro ⟨envelope, hparse, verified, hverified⟩
      exact ⟨_, envelope, hparse, verified, hverified, rfl⟩

/-- The bytes of a document verify exactly when they are those of an acceptable one. -/
theorem verifies_iff_acceptable {bytes : Bytes} (hfirst : ∀ envelope, Envelope.parse P bytes = .ok envelope →
      FirstCertDecides P trust req nowMs (trust.certs envelope)) :
    Verifies P trust req nowMs bytes ↔
      ∃ envelope, Envelope.parse P bytes = .ok envelope ∧ Acceptable P trust req nowMs envelope := by
  refine verifies_iff.trans (exists_congr fun envelope => and_congr_right fun hparse => ?_)
  exact ⟨acceptable_of_accepts, accepts_of_acceptable (hfirst envelope hparse)⟩

end Lemmas

section Ideal

variable (P : Primitives Key Recovery) (trust : TrustStore Key) (req : Request) (nowMs : Int64)

/-- Ideal signatures: what a key signs verifies under that key and under no other. -/
structure IdealSignatures (sign : Key → String → Bytes → String) : Prop where
  verifies : ∀ key payloadType payload,
    verifySignature P key payloadType payload (sign key payloadType payload) = true
  only : ∀ key other payloadType payload,
    verifySignature P other payloadType payload (sign key payloadType payload) = true → other = key

/-- Verification agrees with `Acceptable` on every document that carries the given
certificates exactly when the first certificate decides. -/
theorem accepts_iff_acceptable_iff (sign : Key → String → Bytes → String) (hsign : IdealSignatures P sign)
    (text : String) (payload : Bytes) (htext : P.decodeB64 text = some payload)
    (hvalid : PayloadValid P trust req payload) (keyCerts : List String) :
    (∀ envelope : Envelope, envelope.keyCerts = keyCerts →
        (Accepts P trust req nowMs envelope ↔ Acceptable P trust req nowMs envelope)) ↔
      FirstCertDecides P trust req nowMs (keyCerts ++ trust.keystateCerts) := by
  constructor
  · intro hagree keyId key hrevoked hendorses
    obtain ⟨encoded, hcert, hendorses⟩ := hendorses
    -- A document with one good signature by the endorsed key.
    let envelope : Envelope :=
      { payloadType := req.doc.payloadType, payload := text, keyCerts,
        signatures := [⟨keyId, sign key req.doc.payloadType payload⟩] }
    have hacceptable : Acceptable P trust req nowMs envelope :=
      ⟨rfl, payload, htext, hvalid, ⟨keyId, sign key req.doc.payloadType payload⟩, mem_singleton_self _,
        hrevoked, encoded, hcert, key, hendorses, hsign.verifies key _ _⟩
    obtain ⟨-, payload', hpayload, -, hsigned⟩ := accepts_iff.mp ((hagree envelope rfl).mpr hacceptable)
    obtain rfl : payload = payload' := Option.some.inj (htext.symm.trans hpayload)
    obtain ⟨signature, hmem, -, key', hfind, hverify⟩ := verifyCertSigned_eq_ok_iff.mp hsigned
    obtain rfl := mem_singleton.mp hmem
    -- It was accepted under the key of the first certificate, so that is the endorsed one.
    obtain rfl : key' = key := hsign.only key key' _ _ hverify
    exact (find?_validCerts_eq_some_iff hrevoked).mp hfind
  · rintro hfirst envelope rfl
    exact ⟨acceptable_of_accepts, accepts_of_acceptable hfirst⟩

end Ideal

/-! ### A certificate with two root signatures -/

/-- Two keys; a signature starts with the letter of its key. -/
def keyLetter (key : Bool) : Char := if key then 'b' else 'a'

def letterText (key : Bool) : String := String.ofList (List.replicate 64 (keyLetter key))

def letterSign (key : Bool) (_payloadType : String) (_payload : Bytes) : String := letterText key

def onlineCert : KeyCert where
  schema := keycertSchema
  keyId := "online"
  publicKey := "abcdefghijklmnopqrstuvwxyz012345"
  usages := ["access"]
  bootstrapIds := ["app"]
  notBefore := "1970-01-01T00:00:00Z"
  notAfter := "1970-01-01T00:00:00Z"
  rootKeyId := "root-b"

/-- Every envelope holds the certificate above, signed by the given roots. -/
def letterPrimitives (roots : List (String × Bool)) : Primitives Bool Unit where
  decodeB64 text := some (text.toList.map fun c => c.toNat.toUInt8)
  envelopeOfJson _ := some
    { payloadType := keycertPayloadType, payload := "cert", keyCerts := [],
      signatures := roots.map fun root => ⟨root.1, letterText root.2⟩ }
  keyCertOfJson _ := some onlineCert
  accessOfJson _ := .ok (⟨"app", 0, Nat.zero_le _⟩, ⟨0, 1000⟩)
  releaseOfJson _ := .error (.unsupportedSchema "")
  recoveryOfJson _ := .ok ()
  recoveryToAccess _ := .error (.unsupportedSchema "")
  schemaOfJson _ := .ok ""
  keyStateOfJson _ := .error ""
  parseRfc3339Ms _ := some 0
  verifyingKey _ := some true
  verifyStrict key _ sig := sig.head? == some (keyLetter key).toNat.toUInt8

def letterTrust : TrustStore Bool where
  roots := ⟨[("root-a", false), ("root-b", true)], "roots"⟩
  bootstrapId := "app"
  revoked := ∅
  keystateCerts := []
  keystateSerial := none

section

variable (roots : List (String × Bool))

theorem verifySignature_letterSign (key other : Bool) (payloadType : String) (payload : Bytes) :
    verifySignature (letterPrimitives roots) other payloadType payload (letterSign key payloadType payload) =
      (other == key) := by
  have hsize : ¬ 128 < (letterText key).utf8ByteSize := by cases key <;> decide
  have hdecode : (letterPrimitives roots).decodeB64 (letterText key) =
      some (replicate 64 (keyLetter key).toNat.toUInt8) := by
    simp [letterPrimitives, letterText]
  rw [verifySignature, letterSign, if_neg hsize, hdecode]
  cases key <;> cases other <;> rfl

theorem idealSignatures_letterSign : IdealSignatures (letterPrimitives roots) letterSign where
  verifies key payloadType payload := by
    rw [verifySignature_letterSign, beq_self_eq_true]
  only key other payloadType payload h := by
    rwa [verifySignature_letterSign, beq_iff_eq] at h

theorem certHolds_onlineCert : CertHolds (letterPrimitives roots) letterTrust .access 0 onlineCert "online" true :=
  ⟨rfl, rfl, rfl, ⟨0, 0, rfl, rfl, by decide, by decide⟩, by decide, by decide⟩

end

def onlineEnvelope : Envelope where
  payloadType := DocType.access.payloadType
  payload := "payload"
  signatures := [⟨"online", letterText true⟩]
  keyCerts := ["cert"]

/-- With only the named root's signature on the certificate, it is accepted. -/
theorem accepts_onlineEnvelope_rootB :
    Accepts (letterPrimitives [("root-b", true)]) letterTrust .access 0 onlineEnvelope := by
  have hverify := (idealSignatures_letterSign [("root-b", true)]).verifies true
  refine ((accepts_iff_acceptable_iff _ letterTrust .access 0 letterSign (idealSignatures_letterSign _) "payload" _
    rfl ⟨_, _, rfl, rfl⟩ ["cert"]).mpr ?_ onlineEnvelope rfl).mpr ?_
  · rintro keyId key - ⟨encoded, hmem, opened, hopen, -, hholds⟩
    obtain rfl := mem_singleton.mp hmem
    refine ⟨[], "cert", [], rfl, ⟨opened, hopen, ?_, hholds⟩, by simp⟩
    cases hopen
    exact ⟨_, rfl, rfl⟩
  · refine ⟨rfl, _, rfl, ⟨_, _, rfl, rfl⟩, ⟨"online", letterText true⟩, mem_singleton_self _, by decide,
      "cert", mem_singleton_self _, true, ⟨_, rfl, ?_, certHolds_onlineCert _⟩, hverify _ _⟩
    exact ⟨⟨"root-b", letterText true⟩, by simp, rfl, hverify _ _⟩

/-- Its certificate is signed by the root it names, `root-b`, and by `root-a` before
that: the document should be accepted, and is not. -/
theorem acceptable_not_accepted_rootA :
    Acceptable (letterPrimitives [("root-a", false), ("root-b", true)]) letterTrust .access 0 onlineEnvelope ∧
      ¬ Accepts (letterPrimitives [("root-a", false), ("root-b", true)]) letterTrust .access 0 onlineEnvelope := by
  have hverify := (idealSignatures_letterSign [("root-a", false), ("root-b", true)]).verifies true
  constructor
  · refine ⟨rfl, _, rfl, ⟨_, _, rfl, rfl⟩, ⟨"online", letterText true⟩, mem_singleton_self _, by decide,
      "cert", mem_singleton_self _, true, ⟨_, rfl, ?_, certHolds_onlineCert _⟩, hverify _ _⟩
    exact ⟨⟨"root-b", letterText true⟩, by simp, rfl, hverify _ _⟩
  · rintro ⟨verified, h⟩
    have herror : letterTrust.verifyAccessEnvelope (letterPrimitives [("root-a", false), ("root-b", true)])
        onlineEnvelope 0 .markStale = .error (.keyCert "online" .rootMismatch) := by
      decide
    rw [herror] at h
    cases h

end FlareIm.Access
