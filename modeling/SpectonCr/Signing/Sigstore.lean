import SpectonCr.Base.Base64
import SpectonCr.Base.Json
import SpectonCr.Signing.Policy

namespace SpectonCr.Signing

structure CosignCritical where
  (dockerReference dockerManifestDigest typ : String)

/-- The simple-signing payload; `optional` is `None` wherever one is built. -/
structure CosignSimpleSigning where
  critical : CosignCritical

def CosignSimpleSigning.forDigest (subjectDigest : String) : CosignSimpleSigning where
  critical :=
    { dockerReference := ""
      dockerManifestDigest := subjectDigest
      typ := "cosign container image signature" }

def CosignSimpleSigning.toCanonicalBytes (simple : CosignSimpleSigning) : ByteArray :=
  ("\x7b\"critical\":\x7b\"identity\":\x7b\"docker-reference\":" ++
    Json.quote simple.critical.dockerReference ++ "\x7d,\"image\":\x7b\"docker-manifest-digest\":" ++
    Json.quote simple.critical.dockerManifestDigest ++ "\x7d,\"type\":" ++
    Json.quote simple.critical.typ ++ "\x7d,\"optional\":null\x7d").toByteArray

/-- What a key signs for a subject. -/
def payloadFor (subjectDigest : String) : ByteArray :=
  (CosignSimpleSigning.forDigest subjectDigest).toCanonicalBytes

theorem payloadFor_injective (same : payloadFor first = payloadFor second) : first = second := by
  unfold payloadFor CosignSimpleSigning.toCanonicalBytes CosignSimpleSigning.forDigest at same
  have text := String.toByteArray_inj.mp same
  dsimp only at text
  simp only [String.append_left_inj] at text
  exact Json.quote_injective ((String.append_right_inj _).mp text)

def mediaTypeCosignEnvelopeV1 : String := "application/vnd.spectoncr.signing.cosign-envelope.v1+json"

structure CosignEnvelope where
  (digest keyRef payloadB64 signatureB64 algorithm : String)

/-- The text `serde_json::to_vec` writes. -/
def CosignEnvelope.toJson (envelope : CosignEnvelope) : String :=
  "\x7b\"digest\":" ++ Json.quote envelope.digest ++ ",\"key_ref\":" ++ Json.quote envelope.keyRef ++
    ",\"payload_b64\":" ++ Json.quote envelope.payloadB64 ++ ",\"signature_b64\":" ++
    Json.quote envelope.signatureB64 ++ ",\"algorithm\":" ++ Json.quote envelope.algorithm ++ "\x7d"

/-- Envelopes that differ only in the digest are written differently. -/
theorem CosignEnvelope.digest_of_toJson {first second keyRef payloadB64 signatureB64 algorithm : String}
    (same : (CosignEnvelope.mk first keyRef payloadB64 signatureB64 algorithm).toJson =
      (CosignEnvelope.mk second keyRef payloadB64 signatureB64 algorithm).toJson) : first = second := by
  unfold toJson at same
  dsimp only at same
  simp only [String.append_left_inj] at same
  exact Json.quote_injective ((String.append_right_inj _).mp same)

def CosignEnvelope.decode (document : Json) : Option CosignEnvelope :=
  match document.structFields ["digest", "key_ref", "payload_b64", "signature_b64", "algorithm"] with
  | some [some (.str digest), some (.str keyRef), some (.str payloadB64), some (.str signatureB64),
      some (.str algorithm)] => some ⟨digest, keyRef, payloadB64, signatureB64, algorithm⟩
  | _ => none

def CosignEnvelope.payloadBytes (envelope : CosignEnvelope) : Option ByteArray :=
  Base64.decode envelope.payloadB64

def CosignEnvelope.signatureBytes (envelope : CosignEnvelope) : Option ByteArray :=
  Base64.decode envelope.signatureB64

/-- The variants of `SigStoreKeyPair`. -/
inductive KeyKind where
  | ecdsa
  | ed25519
  | rsa

/-- The `sigstore` crate, and the parser of `serde_json`. -/
structure SigstoreLib (Scheme KeyPair VerificationKey : Type) where
  (ecdsaP256Sha256Asn1 ed25519 : Scheme)
  rsaPssSha256 : Nat → Scheme
  /-- `SigningScheme::try_from` a label, its default, and `Display`. -/
  tryFrom : String → Option Scheme
  default : Scheme
  display : Scheme → String
  kind : KeyPair → KeyKind
  pairFromPem : String → Except String KeyPair
  toVerificationKey : KeyPair → Scheme → Except String VerificationKey
  keyFromPem : String → Scheme → Except String VerificationKey
  /-- `to_sigstore_signer` and `sign`. -/
  sign : KeyPair → Scheme → ByteArray → Except String ByteArray
  /-- `verify_signature` of a raw signature on a payload. -/
  verifySignature : VerificationKey → ByteArray → ByteArray → Bool
  parseJson : ByteArray → Option Json

section Keyed

variable {Scheme KeyPair VerificationKey : Type} (lib : SigstoreLib Scheme KeyPair VerificationKey)

def schemeForKeypair (pair : KeyPair) : Scheme :=
  match lib.kind pair with
  | .ecdsa => lib.ecdsaP256Sha256Asn1
  | .ed25519 => lib.ed25519
  | .rsa => lib.rsaPssSha256 2048

def keypairFromMaterial (material : KeyMaterial) : Except SignError KeyPair :=
  match material.privatePem with
  | some pem => (lib.pairFromPem pem).mapError .crypto
  | none => .error (.crypto ("key " ++ material.keyRef ++
      " has no PEM private key; use MemoryKeyedSigner for raw ed25519 seeds"))

def verificationKeyFromMaterial (material : KeyMaterial) (scheme : Scheme) :
    Except VerifyError VerificationKey :=
  match material.publicPem with
  | some pem => (lib.keyFromPem pem scheme).mapError .crypto
  | none =>
    match material.privatePem with
    | some pem =>
      ((lib.pairFromPem pem).mapError .crypto).bind fun pair =>
        (lib.toVerificationKey pair scheme).mapError .crypto
    | none => .error (.crypto ("key " ++ material.keyRef ++ " has no PEM material for verification"))

variable (keys : KeyProvider)

namespace SigstoreSigner

/-- The artifact around a signature. -/
def artifact (subjectDigest keyRef : String) (scheme : Scheme) (sig : ByteArray) :
    SignatureArtifact :=
  let envelope : CosignEnvelope :=
    { digest := subjectDigest
      keyRef
      payloadB64 := Base64.encode (payloadFor subjectDigest)
      signatureB64 := Base64.encode sig
      algorithm := lib.display scheme }
  { mediaType := mediaTypeCosignEnvelopeV1
    body := envelope.toJson.toByteArray
    signerIdentity := keyRef
    signatureType := "cosign-key" }

def sign (subjectDigest : String) (identity : SigningIdentity) : Except SignError SignatureArtifact :=
  match identity with
  | .keyless _ _ =>
    .error (.notImplemented "keyless Fulcio signing lands with Rekor wiring (post-B2)")
  | .keyed keyRef =>
    if Text.startsWith keyRef "vault://transit/" then
      .error (.invalidIdentity "use VaultTransitSigner for vault://transit/ refs")
    else if !Text.startsWith subjectDigest "sha256:" then
      .error (.invalidIdentity ("subject digest must be sha256:..., got " ++ subjectDigest))
    else
      ((keys keyRef).mapError .unknownKey).bind fun material =>
        (keypairFromMaterial lib material).bind fun pair =>
          let scheme := schemeForKeypair lib pair
          ((lib.sign pair scheme (payloadFor subjectDigest)).mapError .crypto).bind fun sig =>
            .ok (artifact lib subjectDigest keyRef scheme sig)

theorem resolve_of_sign (success : sign lib keys subjectDigest (.keyed keyRef) = .ok signed) :
    ∃ material, keys keyRef = .ok material := by
  unfold sign at success
  split at success
  · cases success
  rename_i same
  cases same
  split at success
  · cases success
  split at success
  · cases success
  · cases resolved : keys keyRef with
    | error message => simp [resolved, Except.mapError, Except.bind] at success
    | ok material => exact ⟨material, rfl⟩

end SigstoreSigner

namespace SigstoreVerifier

/-- The check of one artifact: the key reference to record. -/
def checkArtifact (subjectDigest : String) (policy : VerificationPolicy)
    (artifact : SignatureArtifact) : Option String :=
  if artifact.mediaType ≠ mediaTypeCosignEnvelopeV1 then none
  else
    ((lib.parseJson artifact.body).bind CosignEnvelope.decode).bind fun envelope =>
      if envelope.digest ≠ subjectDigest then none
      else if !policy.admits envelope.keyRef then none
      else if envelope.algorithm = "vault-transit" then none
      else
        (keys envelope.keyRef).toOption.bind fun material =>
          let scheme := (lib.tryFrom envelope.algorithm).getD lib.default
          (verificationKeyFromMaterial lib material scheme).toOption.bind fun key =>
            envelope.payloadBytes.bind fun payload =>
              envelope.signatureBytes.bind fun sig =>
                if lib.verifySignature key sig payload then some envelope.keyRef else none

def verify (subjectDigest : String) (signatures : List SignatureArtifact)
    (policy : VerificationPolicy) : Except VerifyError VerificationOutcome :=
  verifyWith signatures policy (checkArtifact lib keys subjectDigest policy) (!policy.required)

/-- The artifact holds an envelope whose signature verifies on its payload,
under the key its reference resolves to. -/
structure Verified (artifact : SignatureArtifact) (envelope : CosignEnvelope)
    (material : KeyMaterial) (payload : ByteArray) : Prop where
  mediaType : artifact.mediaType = mediaTypeCosignEnvelopeV1
  parsed : (lib.parseJson artifact.body).bind CosignEnvelope.decode = some envelope
  locally : envelope.algorithm ≠ "vault-transit"
  resolved : keys envelope.keyRef = .ok material
  decoded : envelope.payloadBytes = some payload
  valid : ∃ key sig, verificationKeyFromMaterial lib material
      ((lib.tryFrom envelope.algorithm).getD lib.default) = .ok key ∧
    envelope.signatureBytes = some sig ∧ lib.verifySignature key sig payload = true

theorem checkArtifact_eq_some : checkArtifact lib keys subjectDigest policy artifact = some keyRef ↔
      ∃ envelope material payload, Verified lib keys artifact envelope material payload ∧
        envelope.digest = subjectDigest ∧ policy.admits keyRef = true ∧ envelope.keyRef = keyRef := by
  constructor
  · intro found
    obtain ⟨media, found⟩ := Option.ite_none_left_eq_some.mp found
    obtain ⟨envelope, parsed, found⟩ := Option.bind_eq_some_iff.mp found
    obtain ⟨subject, found⟩ := Option.ite_none_left_eq_some.mp found
    obtain ⟨admitted, found⟩ := Option.ite_none_left_eq_some.mp found
    obtain ⟨locally, found⟩ := Option.ite_none_left_eq_some.mp found
    obtain ⟨material, resolved, found⟩ := Option.bind_eq_some_iff.mp found
    obtain ⟨key, built, found⟩ := Option.bind_eq_some_iff.mp found
    obtain ⟨payload, decoded, found⟩ := Option.bind_eq_some_iff.mp found
    obtain ⟨sig, raw, found⟩ := Option.bind_eq_some_iff.mp found
    obtain ⟨valid, ⟨⟩⟩ := Option.ite_none_right_eq_some.mp found
    refine ⟨envelope, material, payload, ?_, not_not.mp subject, by simpa using admitted, rfl⟩
    exact ⟨not_not.mp media, parsed, locally, toOption_eq_some.mp resolved, decoded, key, sig,
      toOption_eq_some.mp built, raw, valid⟩
  · rintro ⟨envelope, material, payload, verified, rfl, admitted, rfl⟩
    obtain ⟨media, parsed, locally, resolved, decoded, key, sig, built, raw, valid⟩ := verified
    simp [checkArtifact, media, parsed, locally, resolved, decoded, built, raw, valid, admitted,
      Except.toOption]

end SigstoreVerifier

end Keyed

end SpectonCr.Signing
