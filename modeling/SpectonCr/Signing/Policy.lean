import SpectonCr.Base.Result
import SpectonCr.Base.Hex

namespace SpectonCr.Signing

inductive OnViolation where
  | block
  | warn
  | log

inductive TrustedSigner where
  | key (keyRef : String) (identityName : Option String)
  | keyless (issuer subjectPattern : String)

def TrustedSigner.keyRef : TrustedSigner → Option String
  | .key keyRef _ => some keyRef
  | .keyless _ _ => none

structure VerificationPolicy where
  id : Uuid
  name : String
  required : Bool
  trustedSigners : List TrustedSigner
  onViolation : OnViolation

structure VerificationOutcome where
  trusted : Bool
  matchedSigners : List String
  policyId : Uuid
  reason : Option String

inductive VerifyError where
  | notImplemented (message : String)
  | noSignatures
  | crypto (message : String)
  | policyDenied (reason : String)

inductive SignError where
  | notImplemented (message : String)
  | unknownKey (message : String)
  | crypto (message : String)
  | invalidIdentity (message : String)

structure SignatureArtifact where
  mediaType : String
  body : ByteArray
  (signerIdentity signatureType : String)

inductive SigningIdentity where
  | keyed (keyRef : String)
  | keyless (fulcioUrl token : String)

structure KeyMaterial where
  keyRef : String
  (privatePem publicPem : Option String)
  (ed25519Seed ed25519Public : Option ByteArray)

/-- `KeyProvider::resolve`; an error carries its text. -/
abbrev KeyProvider := String → Except String KeyMaterial

/-- The key references of the keyed entries. -/
def VerificationPolicy.trustedRefs (policy : VerificationPolicy) : List String :=
  policy.trustedSigners.filterMap TrustedSigner.keyRef

/-- The restriction both verifiers apply; an empty list of references lifts it. -/
def VerificationPolicy.admits (policy : VerificationPolicy) (keyRef : String) : Bool :=
  policy.trustedRefs.isEmpty || policy.trustedRefs.contains keyRef

/-- The answer to a violated requirement. -/
def refuse (policy : VerificationPolicy) (error : VerifyError) (found : List String)
    (reason : String) : Except VerifyError VerificationOutcome :=
  match policy.onViolation with
  | .block => .error error
  | .warn | .log => .ok ⟨false, found, policy.id, some reason⟩

/-- What both verifiers do around the check of one artifact, which yields the
key reference to record; they differ in `unmatched`, the trust without a match. -/
def verifyWith (signatures : List SignatureArtifact) (policy : VerificationPolicy)
    (check : SignatureArtifact → Option String) (unmatched : Bool) :
    Except VerifyError VerificationOutcome :=
  if signatures.isEmpty then
    if policy.required then refuse policy .noSignatures [] "no signatures"
    else .ok ⟨true, [], policy.id, none⟩
  else
    let found := signatures.filterMap check
    let reason := "no trusted signature verified"
    if policy.required && found.isEmpty then refuse policy (.policyDenied reason) found reason
    else .ok ⟨!found.isEmpty || unmatched, found, policy.id, none⟩

private theorem refuse_untrusted (answered : refuse policy error found reason = .ok outcome) :
    outcome.trusted = false := by
  unfold refuse at answered
  split at answered
  · cases answered
  · cases answered
    rfl
  · cases answered
    rfl

/-- Under a requirement, trust is exactly that some artifact was recorded, and
the outcome lists what was recorded. -/
theorem verifyWith_trusted (required : policy.required = true) :
    verifyWith signatures policy check unmatched = .ok outcome ∧ outcome.trusted = true ↔
      signatures.filterMap check ≠ [] ∧ outcome = ⟨true, signatures.filterMap check, policy.id, none⟩ := by
  simp only [verifyWith, required, ↓reduceIte, Bool.true_and]
  split
  · rename_i absent
    rw [List.isEmpty_iff.mp absent]
    constructor
    · rintro ⟨answered, trusted⟩
      rw [refuse_untrusted answered] at trusted
      cases trusted
    · rintro ⟨found, _⟩
      exact absurd rfl found
  · split
    · rename_i none
      constructor
      · rintro ⟨answered, trusted⟩
        rw [refuse_untrusted answered] at trusted
        cases trusted
      · rintro ⟨found, _⟩
        exact absurd (List.isEmpty_iff.mp none) found
    · rename_i found
      have nonempty : (signatures.filterMap check).isEmpty = false := by simpa using found
      rw [nonempty]
      constructor
      · rintro ⟨answered, _⟩
        exact ⟨fun none => found (List.isEmpty_iff.mpr none), (Except.ok.inj answered).symm⟩
      · rintro ⟨_, rfl⟩
        exact ⟨rfl, rfl⟩

/-- A keyed entry turns the restriction on. -/
theorem VerificationPolicy.admits_iff {policy : VerificationPolicy} {keyRef : String} :
    policy.admits keyRef = true ↔ (∀ signer ∈ policy.trustedSigners, signer.keyRef = none) ∨
        ∃ signer ∈ policy.trustedSigners, signer.keyRef = some keyRef := by
  simp [admits, trustedRefs, List.isEmpty_iff, List.filterMap_eq_nil_iff]

end SpectonCr.Signing
