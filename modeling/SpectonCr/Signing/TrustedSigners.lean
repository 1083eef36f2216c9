import SpectonCr.Signing.Binding
import SpectonCr.Signing.Memory

namespace SpectonCr.Signing

/-- A trusted outcome names a signer that the policy lists by its key. -/
def NamesListedSigner (policy : VerificationPolicy)
    (answer : Except VerifyError VerificationOutcome) : Prop :=
  ∀ outcome, answer = .ok outcome → outcome.trusted = true →
    ∃ keyRef ∈ outcome.matchedSigners, ∃ signer ∈ policy.trustedSigners,
      signer.keyRef = some keyRef

/-- The policy lists at least one key. -/
def ListsKey (policy : VerificationPolicy) : Prop := ∃ signer ∈ policy.trustedSigners, signer.keyRef ≠ none

section Restriction

variable {policy : VerificationPolicy} {signatures : List SignatureArtifact}
  {check : SignatureArtifact → Option String} {unmatched : Bool}
  {verified : SignatureArtifact → String → Prop}

private theorem admits_of_not_listsKey (unlisted : ¬ ListsKey policy) (keyRef : String) :
    policy.admits keyRef = true := by
  apply VerificationPolicy.admits_iff.mpr
  left
  intro signer member
  by_contra keyed
  exact unlisted ⟨signer, member, keyed⟩

private theorem listed_of_admits (listed : ListsKey policy) (admitted : policy.admits keyRef = true) :
    ∃ signer ∈ policy.trustedSigners, signer.keyRef = some keyRef := by
  rcases VerificationPolicy.admits_iff.mp admitted with none | named
  · obtain ⟨signer, member, keyed⟩ := listed
    exact absurd (none signer member) keyed
  · exact named

/-- The restriction holds when a key is listed, and is vacuous when nothing verifies. -/
theorem verifyWith_namesListedSigner (required : policy.required = true)
    (checks : ∀ artifact keyRef, check artifact = some keyRef ↔
      verified artifact keyRef ∧ policy.admits keyRef = true) :
    NamesListedSigner policy (verifyWith signatures policy check unmatched) ↔
      ListsKey policy ∨ ¬ ∃ artifact ∈ signatures, ∃ keyRef, verified artifact keyRef := by
  constructor
  · intro names
    by_cases some : ∃ artifact ∈ signatures, ∃ keyRef, verified artifact keyRef
    · left
      by_contra unlisted
      obtain ⟨artifact, member, keyRef, valid⟩ := some
      have passed := (checks artifact keyRef).mpr ⟨valid, admits_of_not_listsKey unlisted keyRef⟩
      have found := List.ne_nil_of_mem (List.mem_filterMap.mpr ⟨artifact, member, passed⟩)
      obtain ⟨answered, trusted⟩ := (verifyWith_trusted required).mpr ⟨found, rfl⟩
      obtain ⟨_, _, signer, listed, keyed⟩ := names _ answered trusted
      exact unlisted ⟨signer, listed, by simp [keyed]⟩
    · exact .inr some
  · intro condition outcome answered trusted
    obtain ⟨found, rfl⟩ := (verifyWith_trusted required).mp ⟨answered, trusted⟩
    obtain ⟨keyRef, recorded⟩ := List.exists_mem_of_ne_nil _ found
    obtain ⟨artifact, member, passed⟩ := List.mem_filterMap.mp recorded
    obtain ⟨valid, admitted⟩ := (checks artifact keyRef).mp passed
    rcases condition with listed | none
    · exact ⟨keyRef, recorded, listed_of_admits listed admitted⟩
    · exact absurd ⟨artifact, member, keyRef, valid⟩ none

end Restriction

section Verifiers

variable {Scheme KeyPair VerificationKey VerifyingKey : Type}
  (sigstore : SigstoreLib Scheme KeyPair VerificationKey) (ed25519 : Ed25519Lib VerifyingKey)
  (keys : KeyProvider) (subject : String)

/-- A cosign artifact for the subject that verifies under some resolvable key. -/
def SigstoreSigned (artifact : SignatureArtifact) (keyRef : String) : Prop :=
  ∃ envelope material payload, SigstoreVerifier.Verified sigstore keys artifact envelope material payload ∧
      envelope.digest = subject ∧ envelope.keyRef = keyRef

/-- An ed25519 artifact for the subject that verifies under some resolvable key. -/
def MemorySigned (artifact : SignatureArtifact) (keyRef : String) : Prop :=
  ∃ envelope, MemoryKeyedVerifier.Verified ed25519 keys subject artifact envelope ∧ envelope.keyRef = keyRef

variable (policy : VerificationPolicy)

private theorem sigstore_checks (artifact : SignatureArtifact) (keyRef : String) :
    SigstoreVerifier.checkArtifact sigstore keys subject policy artifact = some keyRef ↔
      SigstoreSigned sigstore keys subject artifact keyRef ∧ policy.admits keyRef = true := by
  rw [SigstoreVerifier.checkArtifact_eq_some]
  constructor
  · rintro ⟨envelope, material, payload, verified, digest, admitted, same⟩
    exact ⟨⟨envelope, material, payload, verified, digest, same⟩, admitted⟩
  · rintro ⟨⟨envelope, material, payload, verified, digest, same⟩, admitted⟩
    exact ⟨envelope, material, payload, verified, digest, admitted, same⟩

private theorem memory_checks (artifact : SignatureArtifact) (keyRef : String) :
    MemoryKeyedVerifier.checkArtifact ed25519 keys subject policy artifact = some keyRef ↔
      MemorySigned ed25519 keys subject artifact keyRef ∧ policy.admits keyRef = true := by
  rw [MemoryKeyedVerifier.checkArtifact_eq_some]
  constructor
  · rintro ⟨envelope, verified, admitted, same⟩
    exact ⟨⟨envelope, verified, same⟩, admitted⟩
  · rintro ⟨⟨envelope, verified, same⟩, admitted⟩
    exact ⟨envelope, verified, admitted, same⟩

/-- Both verifiers name a listed signer exactly when the policy lists a key, or
when no artifact verifies under any key at all. -/
theorem namesListedSigner_iff (signatures : List SignatureArtifact) (policy : VerificationPolicy)
    (required : policy.required = true) :
    (NamesListedSigner policy (SigstoreVerifier.verify sigstore keys subject signatures policy) ↔
      ListsKey policy ∨ ¬ ∃ artifact ∈ signatures, ∃ keyRef,
        SigstoreSigned sigstore keys subject artifact keyRef) ∧
    (NamesListedSigner policy (MemoryKeyedVerifier.verify ed25519 keys subject signatures policy) ↔
      ListsKey policy ∨ ¬ ∃ artifact ∈ signatures, ∃ keyRef,
        MemorySigned ed25519 keys subject artifact keyRef) :=
  ⟨verifyWith_namesListedSigner required (sigstore_checks sigstore keys subject policy),
    verifyWith_namesListedSigner required (memory_checks ed25519 keys subject policy)⟩

end Verifiers

/-- A policy that trusts one keyless identity and no key. -/
def keylessOnly : VerificationPolicy := ⟨.nil, "keyless", true, [.keyless "ci-issuer" "release@ci"], .block⟩

def ed25519Envelope : Ed25519Envelope := ⟨goodDigest, "release", Base64.encode signature, "ed25519"⟩

/-- One ed25519 key that has signed the good image. -/
def releaseEd25519 : Ed25519Lib Unit where
  fromBytes _ := .ok ()
  ofSeed _ := ()
  verify _ payload sig := payload = signingPayload goodDigest && sig = signature
  parseJson body :=
    if body = ed25519Envelope.toJson.toByteArray then
      some (.obj [("digest", .str ed25519Envelope.digest), ("key_ref", .str ed25519Envelope.keyRef),
        ("signature", .str ed25519Envelope.signature),
        ("algorithm", .str ed25519Envelope.algorithm)])
    else none

def ed25519Artifact : SignatureArtifact := ed25519Envelope.toArtifact "release"

private theorem ed25519Artifact_signed :
    MemorySigned releaseEd25519 releaseKeys goodDigest ed25519Artifact "release" := by
  refine ⟨ed25519Envelope, ⟨?_, rfl, ?_⟩, rfl⟩
  · simp [MemoryKeyedVerifier.fromArtifact, releaseEd25519, ed25519Artifact, Ed25519Envelope.toArtifact]
    rfl
  · refine ⟨releaseMaterial, (), signature, rfl, rfl, Base64.decode_encode _, rfl, ?_⟩
    simp [releaseEd25519]

/-- A keyless-only policy trusts any resolvable key. -/
theorem keyless_policy_trusts_any_key : keylessOnly.required = true ∧ keylessOnly.trustedSigners ≠ [] ∧
      ¬ NamesListedSigner keylessOnly (SigstoreVerifier.verify releaseLib releaseKeys goodDigest
        [artifactFor goodDigest] keylessOnly) ∧
      ¬ NamesListedSigner keylessOnly (MemoryKeyedVerifier.verify releaseEd25519 releaseKeys
        goodDigest [ed25519Artifact] keylessOnly) := by
  have required : keylessOnly.required = true := rfl
  have unlisted : ¬ ListsKey keylessOnly := by
    rintro ⟨signer, member, keyed⟩
    obtain rfl := List.mem_singleton.mp member
    exact keyed rfl
  refine ⟨required, by simp [keylessOnly], ?_, ?_⟩
  · intro names
    have condition := (verifyWith_namesListedSigner required
      (sigstore_checks releaseLib releaseKeys goodDigest keylessOnly)).mp names
    rcases condition with listed | none
    · exact unlisted listed
    · have verified := artifactFor_verified (.head _)
      exact none ⟨_, List.mem_singleton.mpr rfl, "release", _, _, _, verified, rfl, rfl⟩
  · intro names
    have condition := (verifyWith_namesListedSigner required
      (memory_checks releaseEd25519 releaseKeys goodDigest keylessOnly)).mp names
    rcases condition with listed | none
    · exact unlisted listed
    · exact none ⟨_, List.mem_singleton.mpr rfl, "release", ed25519Artifact_signed⟩

theorem release_policy_names_release :
    NamesListedSigner requireRelease (SigstoreVerifier.verify releaseLib releaseKeys goodDigest
        [artifactFor goodDigest] requireRelease) ∧
      NamesListedSigner requireRelease (MemoryKeyedVerifier.verify releaseEd25519 releaseKeys
        goodDigest [ed25519Artifact] requireRelease) := by
  have listed : ListsKey requireRelease :=
    ⟨.key "release" none, List.mem_singleton.mpr rfl, by simp [TrustedSigner.keyRef]⟩
  constructor
  · exact (namesListedSigner_iff releaseLib releaseEd25519 releaseKeys goodDigest
      [artifactFor goodDigest] requireRelease rfl).1.mpr (.inl listed)
  · exact (namesListedSigner_iff releaseLib releaseEd25519 releaseKeys goodDigest
      [ed25519Artifact] requireRelease rfl).2.mpr (.inl listed)

end SpectonCr.Signing
