import SpectonCr.Base.Base64
import SpectonCr.Base.Json
import SpectonCr.Signing.Policy

namespace SpectonCr.Signing

def mediaTypeEd25519V1 : String := "application/vnd.spectoncr.signing.ed25519.v1+json"

structure Ed25519Envelope where
  (digest keyRef signature algorithm : String)

/-- The text `serde_json::to_vec` writes. -/
def Ed25519Envelope.toJson (envelope : Ed25519Envelope) : String :=
  "\x7b\"digest\":" ++ Json.quote envelope.digest ++ ",\"key_ref\":" ++ Json.quote envelope.keyRef ++
    ",\"signature\":" ++ Json.quote envelope.signature ++ ",\"algorithm\":" ++
    Json.quote envelope.algorithm ++ "\x7d"

def Ed25519Envelope.toArtifact (envelope : Ed25519Envelope) (signerIdentity : String) :
    SignatureArtifact :=
  ⟨mediaTypeEd25519V1, envelope.toJson.toByteArray, signerIdentity, "cosign-key"⟩

def Ed25519Envelope.decode (document : Json) : Option Ed25519Envelope :=
  match document.structFields ["digest", "key_ref", "signature", "algorithm"] with
  | some [some (.str digest), some (.str keyRef), some (.str signature), some (.str algorithm)] =>
    some ⟨digest, keyRef, signature, algorithm⟩
  | _ => none

/-- The `ed25519_dalek` crate, and the parser of `serde_json`. -/
structure Ed25519Lib (VerifyingKey : Type) where
  fromBytes : ByteArray → Except String VerifyingKey
  /-- The verifying key of a signing seed. -/
  ofSeed : ByteArray → VerifyingKey
  /-- `verify` of a payload and a 64-byte signature. -/
  verify : VerifyingKey → ByteArray → ByteArray → Bool
  parseJson : ByteArray → Option Json

def signingPayload (subjectDigest : String) : ByteArray := subjectDigest.toByteArray

namespace MemoryKeyedVerifier

variable {VerifyingKey : Type} (lib : Ed25519Lib VerifyingKey) (keys : KeyProvider)

def verifyingKeyFromMaterial (material : KeyMaterial) : Except VerifyError VerifyingKey :=
  match material.ed25519Public with
  | some bytes => (lib.fromBytes bytes).mapError fun message => .crypto ("public key: " ++ message)
  | none =>
    match material.ed25519Seed with
    | some seed => .ok (lib.ofSeed seed)
    | none =>
      if material.publicPem.isSome then
        .error (.notImplemented "PEM public keys require Sigstore/Vault provider (B2)")
      else .error (.crypto ("key " ++ material.keyRef ++ " has no ed25519 public material"))

/-- `Ed25519Envelope::from_artifact`, without the text of its error. -/
def fromArtifact (artifact : SignatureArtifact) : Option Ed25519Envelope :=
  if artifact.mediaType ≠ mediaTypeEd25519V1 then none
  else (lib.parseJson artifact.body).bind Ed25519Envelope.decode

/-- The check of one artifact: the key reference to record. -/
def checkArtifact (subjectDigest : String) (policy : VerificationPolicy)
    (artifact : SignatureArtifact) : Option String :=
  (fromArtifact lib artifact).bind fun envelope =>
    if envelope.digest ≠ subjectDigest then none
    else if !policy.admits envelope.keyRef then none
    else
      (keys envelope.keyRef).toOption.bind fun material =>
        (verifyingKeyFromMaterial lib material).toOption.bind fun key =>
          (Base64.decode envelope.signature).bind fun sig =>
            if sig.size ≠ 64 then none
            else if lib.verify key (signingPayload subjectDigest) sig then some envelope.keyRef
            else none

def verify (subjectDigest : String) (signatures : List SignatureArtifact)
    (policy : VerificationPolicy) : Except VerifyError VerificationOutcome :=
  verifyWith signatures policy (checkArtifact lib keys subjectDigest policy)
    (!policy.required && signatures.isEmpty)

/-- The artifact holds an envelope for the subject whose signature verifies
under the key its reference resolves to. -/
structure Verified (subjectDigest : String) (artifact : SignatureArtifact)
    (envelope : Ed25519Envelope) : Prop where
  parsed : fromArtifact lib artifact = some envelope
  subject : envelope.digest = subjectDigest
  valid : ∃ material key sig, keys envelope.keyRef = .ok material ∧
    verifyingKeyFromMaterial lib material = .ok key ∧ Base64.decode envelope.signature = some sig ∧
      sig.size = 64 ∧ lib.verify key (signingPayload subjectDigest) sig = true

theorem checkArtifact_eq_some : checkArtifact lib keys subjectDigest policy artifact = some keyRef ↔
      ∃ envelope, Verified lib keys subjectDigest artifact envelope ∧
        policy.admits keyRef = true ∧ envelope.keyRef = keyRef := by
  constructor
  · intro found
    obtain ⟨envelope, parsed, found⟩ := Option.bind_eq_some_iff.mp found
    obtain ⟨subject, found⟩ := Option.ite_none_left_eq_some.mp found
    obtain ⟨admitted, found⟩ := Option.ite_none_left_eq_some.mp found
    obtain ⟨material, resolved, found⟩ := Option.bind_eq_some_iff.mp found
    obtain ⟨key, built, found⟩ := Option.bind_eq_some_iff.mp found
    obtain ⟨sig, decoded, found⟩ := Option.bind_eq_some_iff.mp found
    obtain ⟨size, found⟩ := Option.ite_none_left_eq_some.mp found
    obtain ⟨valid, ⟨⟩⟩ := Option.ite_none_right_eq_some.mp found
    refine ⟨envelope, ⟨parsed, not_not.mp subject, ?_⟩, by simpa using admitted, rfl⟩
    exact ⟨material, key, sig, toOption_eq_some.mp resolved, toOption_eq_some.mp built,
      decoded, not_not.mp size, valid⟩
  · rintro ⟨envelope, ⟨parsed, rfl, material, key, sig, resolved, built, decoded, size, valid⟩, admitted, rfl⟩
    simp [checkArtifact, parsed, resolved, built, decoded, size, valid, admitted, Except.toOption]

end MemoryKeyedVerifier

end SpectonCr.Signing
