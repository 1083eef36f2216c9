import SpectonCr.Admission.FailClosed
import SpectonCr.Admission.Transparency
import SpectonCr.Registry.AuditLog
import SpectonCr.Signing.Binding

/-! The signature check that `enforce_admission` borrows. -/

namespace SpectonCr.Admission

open Scanner Signing
open Storage (StorePath blobPath)
open Registry (RegistryAuditEvent)

structure PolicyScope where
  (projects repositories : List String)

def PolicyScope.matches (scope : PolicyScope) (project repository : String) : Bool :=
  let projectOk := scope.projects.isEmpty || scope.projects.any fun p => p = "*" || p = project
  let repoOk := scope.repositories.isEmpty ||
    scope.repositories.any fun r => r = "*" || r = repository
  projectOk && repoOk

structure PolicySpec where
  scope : PolicyScope
  required : Bool
  trustedSigners : List TrustedSigner
  onViolation : OnViolation

def PolicySpec.toVerificationPolicy (spec : PolicySpec) (id : Uuid) (name : String) :
    VerificationPolicy :=
  ⟨id, name, spec.required, spec.trustedSigners, spec.onViolation⟩

structure StoredVerificationPolicy where
  id : Uuid
  (name tenant : String)
  spec : PolicySpec
  enabled : Bool
  onViolation : OnViolation

/-- The row's own `on_violation` wins over the one in its specification. -/
def StoredVerificationPolicy.asVerificationPolicy (policy : StoredVerificationPolicy) :
    VerificationPolicy :=
  { policy.spec.toVerificationPolicy policy.id policy.name with
    onViolation := policy.onViolation }

/-- A row of `verification_policies`; a specification that does not parse is an error. -/
structure VerificationPolicyRow where
  id : Uuid
  (name tenant : String)
  spec : Except String PolicySpec
  enabled : Bool
  onViolation : String

def parseOnViolation (text : String) : OnViolation :=
  if text = "warn" then .warn else if text = "log" then .log else .block

def rowToPolicy (row : VerificationPolicyRow) : Except String StoredVerificationPolicy :=
  match row.spec with
  | .error reason => .error ("invalid policy spec: " ++ reason)
  | .ok spec =>
    .ok ⟨row.id, row.name, row.tenant, spec, row.enabled, parseOnViolation row.onViolation⟩

/-- A row of `signatures`. -/
structure SignatureRecord where
  (subjectDigest tenant project repository signatureDigest : String)

/-- A row of `admission_policies`; a specification that does not parse is an error. -/
structure AdmissionPolicyRow where
  id : Uuid
  (name tenant : String)
  spec : Except String AdmissionPolicySpec
  enabled : Bool

def AdmissionPolicyRow.policy (row : AdmissionPolicyRow) (spec : AdmissionPolicySpec) :
    AdmissionPolicy :=
  ⟨row.id, row.name, row.tenant, spec, row.enabled⟩

/-- The tables the gate reads, each with the error of a read that fails. The policies are listed
by name, the signatures by time. -/
structure GateDatabase where
  verificationPolicies : List VerificationPolicyRow
  signatures : List SignatureRecord
  admissionPolicies : List AdmissionPolicyRow
  (policiesFault signaturesFault admissionFault : Option String)

namespace GateDatabase

def listForTenant (database : GateDatabase) (tenant : String) :
    Except String (List StoredVerificationPolicy) :=
  match database.policiesFault with
  | some reason => .error ("sqlx: " ++ reason)
  | none => (database.verificationPolicies.filter fun row => row.tenant = tenant).mapM rowToPolicy

/-- `PgPolicyStore::resolve`: the first enabled policy in scope. -/
def resolve (database : GateDatabase) (tenant project repository : String) :
    Except String (Option StoredVerificationPolicy) :=
  (database.listForTenant tenant).map fun policies =>
    (policies.filter fun policy => policy.enabled).find? fun policy =>
      policy.spec.scope.matches project repository

/-- The signatures registered for a digest in a repository. -/
def signaturesOf (database : GateDatabase) (tenant project repository subjectDigest : String) :
    List SignatureRecord :=
  database.signatures.filter fun record =>
    record.tenant = tenant && record.project = project && record.repository = repository &&
      record.subjectDigest = subjectDigest

def listForSubject (database : GateDatabase) (tenant project repository subjectDigest : String) :
    Except String (List SignatureRecord) :=
  match database.signaturesFault with
  | some reason => .error ("sqlx: " ++ reason)
  | none => .ok (database.signaturesOf tenant project repository subjectDigest)

/-- `PgAdmissionStore::list_tenant`: one row that does not parse fails the list. -/
def listTenant (database : GateDatabase) (tenant : String) : Except RegistryError (List AdmissionPolicy) :=
  match database.admissionFault with
  | some reason => .error (.internal reason)
  | none =>
    (database.admissionPolicies.filter fun row => row.tenant = tenant && row.enabled).mapM fun row =>
      match row.spec with
      | .error reason => .error (.internal ("admission policy spec: " ++ reason))
      | .ok spec => .ok (row.policy spec)

end GateDatabase

/-- What the gate reads of the registry's state. -/
structure PullGate (Scheme KeyPair VerificationKey : Type) where
  gcPool : Option GateDatabase
  (signingEnabled requireForPull : Bool)
  lib : SigstoreLib Scheme KeyPair VerificationKey
  /-- The PEM files under the configured root. -/
  keys : KeyProvider
  /-- `serde_json::from_slice::<SignatureArtifact>`. -/
  parseArtifact : ByteArray → Option SignatureArtifact
  /-- A read from the object store, when it succeeds. -/
  read : StorePath → Option ByteArray
  scanStore : Option ScanStore
  scanSucceeds : Bool
  /-- The `Debug` text of a string. -/
  debug : String → String

def verifyErrorText : VerifyError → String
  | .notImplemented message => "not implemented: " ++ message
  | .noSignatures => "no signatures provided"
  | .crypto message => "crypto: " ++ message
  | .policyDenied reason => "policy denied: " ++ reason

def onViolationText : OnViolation → String
  | .block => "block"
  | .warn => "warn"
  | .log => "log"

/-- What a signature check gives, with the event it appends. -/
structure PullCheck where
  answer : Except RegistryError Unit
  audited : Option Audit.AuditEvent

section Gate

variable {Scheme KeyPair VerificationKey : Type}
  (state : PullGate Scheme KeyPair VerificationKey)

/-- The policy of the pull: the stored one, or the one `require_for_pull` stands for. -/
def pullPolicy (database : GateDatabase) (tenant project repo : String) :
    Except String (Option VerificationPolicy) :=
  (database.resolve tenant project repo).map fun stored =>
    match stored with
    | some policy => some policy.asVerificationPolicy
    | none =>
      if state.requireForPull then some ⟨.nil, "require_for_pull", true, [], .block⟩ else none

/-- The artifact a stored signature holds: an artifact, or a bare envelope. -/
def storedArtifact (bytes : ByteArray) : Option SignatureArtifact :=
  match state.parseArtifact bytes with
  | some artifact => some artifact
  | none => ((state.lib.parseJson bytes).bind CosignEnvelope.decode).map fun envelope =>
      ⟨mediaTypeCosignEnvelopeV1, bytes, envelope.keyRef, "cosign-key"⟩

/-- Whether the registered signatures satisfy the policy, and why not. -/
def checkRecords (tenant project repo subjectDigest : String) (policy : VerificationPolicy)
    (records : List SignatureRecord) : Bool × String :=
  if policy.trustedRefs.isEmpty then
    if records.isEmpty then (false, "no signatures registered for digest") else (true, "")
  else
    let artifacts := records.filterMap fun record =>
      (state.read (.ofString (blobPath tenant project repo record.signatureDigest))).bind
        (storedArtifact state)
    match SigstoreVerifier.verify state.lib state.keys subjectDigest artifacts policy with
    | .ok outcome => (outcome.trusted, outcome.reason.getD "")
    | .error error => (false, verifyErrorText error)

def missEvent (now : Time) (claimsSub tenant project repo subjectDigest : String)
    (policy : VerificationPolicy) (reason : String) : Audit.AuditEvent where
  time := now
  category := .policy
  action := "signature.verify.miss"
  actor := ⟨claimsSub, none, none, none⟩
  subject := some ⟨some tenant, some project, some repo, none, some subjectDigest⟩
  outcome := .success
  attributes := [("on_violation", .str (onViolationText policy.onViolation)),
    ("policy", .str policy.name), ("reason", .str reason)]

def enforcePullSignaturePolicy (now : Time) (claimsSub tenant project repo subjectDigest : String) :
    PullCheck :=
  match state.gcPool with
  | none =>
    if state.requireForPull then
      ⟨.error (.forbidden "signature required but policy store unavailable"), none⟩
    else ⟨.ok (), none⟩
  | some database =>
    match pullPolicy state database tenant project repo with
    | .error reason => ⟨.error (.internal reason), none⟩
    | .ok none => ⟨.ok (), none⟩
    | .ok (some policy) =>
      if !policy.required then ⟨.ok (), none⟩
      else match database.listForSubject tenant project repo subjectDigest with
        | .error reason => ⟨.error (.internal reason), none⟩
        | .ok records =>
          let (trusted, reason) := checkRecords state tenant project repo subjectDigest policy records
          if trusted then ⟨.ok (), none⟩
          else
            let event := missEvent now claimsSub tenant project repo subjectDigest policy reason
            match policy.onViolation with
            | .block => ⟨.error (.forbidden
                ("signature policy " ++ state.debug policy.name ++ ": " ++ reason)), some event⟩
            | .warn | .log => ⟨.ok (), some event⟩

/-- A row of `admission_decisions`. -/
structure DecisionRow where
  digest : String
  policyId : Option Uuid
  verdict : AdmissionVerdict
  subject : String

/-- What a call of `enforce_admission` does. -/
structure Admitted where
  answer : Except RegistryError Unit
  cache : DecisionCache
  decision : Option DecisionRow
  audited : Option Audit.AuditEvent
  recorded : Option RegistryAuditEvent

def admissionEvent (now : Time) (eventType sub tenant project repository digest : String)
    (statusCode : Nat) : RegistryAuditEvent :=
  ⟨now, eventType, sub, tenant, project, repository, digest, digest, 0, statusCode, 0⟩

/-- The bit for the admission policies, with the check it comes from. -/
def signatureBit (now : Time) (policies : List AdmissionPolicy)
    (sub tenant project repository digest : String) : Bool × Option Audit.AuditEvent :=
  if policies.any fun policy => policy.spec.signatureRequired then
    if state.signingEnabled then
      let check := enforcePullSignaturePolicy state now sub tenant project repository digest
      (check.answer.isOk, check.audited)
    else (false, none)
  else (true, none)

def enforceAdmission (claims : TokenClaims) (cache : DecisionCache) (now : Time)
    (tenant project repository digest : String) : Admitted :=
  match state.gcPool with
  | none => ⟨.ok (), cache, none, none, none⟩
  | some database =>
    let policies := (database.listTenant tenant).toOption.getD []
    if policies.isEmpty then ⟨.ok (), cache, none, none, none⟩
    else
      let scan := fetchScan state.scanStore state.scanSucceeds digest
      let (signatureOk, audited) :=
        signatureBit state now policies claims.sub tenant project repository digest
      let (verdict, next) := evaluate policies scan cache (.still now)
        ⟨tenant, project, repository, digest, claimsBypassAdmission claims, some signatureOk⟩
      let decision : DecisionRow :=
        ⟨digest, policies.head?.map AdmissionPolicy.id, verdict, claims.sub⟩
      match verdict with
      | .allow => ⟨.ok (), next, some decision, audited, none⟩
      | .warn _ => ⟨.ok (), next, some decision, audited, some (admissionEvent now
          "admission.warn" claims.sub tenant project repository digest 200)⟩
      | .block reason _ =>
        ⟨.error (.manifestUnverified reason), next, some decision, audited, some (admissionEvent
          now "admission.block" claims.sub tenant project repository digest 403)⟩

end Gate

section Required

variable {Scheme KeyPair VerificationKey : Type}
  (state : PullGate Scheme KeyPair VerificationKey)

/-- Some enabled admission policy that applies asks for a signature, and the caller does not
bypass. -/
def RequiresSignature (claims : TokenClaims) (tenant project repository : String) : Prop :=
  claimsBypassAdmission claims = false ∧
    ∃ database, state.gcPool = some database ∧ ∃ row ∈ database.admissionPolicies,
      row.tenant = tenant ∧ row.enabled = true ∧ ∃ spec, row.spec = .ok spec ∧
        spec.signatureRequired = true ∧ (row.policy spec).matchesScope project repository = true

/-- At least one signature is registered for the digest in the repository. -/
def Registered (tenant project repository digest : String) : Prop :=
  ∃ database, state.gcPool = some database ∧ database.signaturesOf tenant project repository digest ≠ []

/-- The signing policies let an unsigned digest pass: none applies, or none that is required, or
its violation is only warned about or logged. -/
def Lenient (database : GateDatabase) (tenant project repository : String) : Prop :=
  state.signingEnabled = true ∧
    ∃ effective, pullPolicy state database tenant project repository = .ok effective ∧
      ∀ policy ∈ effective, policy.required = true →
        database.signaturesFault = none ∧ policy.onViolation ≠ .block

/-- A policy that decides refuses an unsigned digest: it asks for the signature and signing is not
lenient, or the scan is missing or over its threshold. -/
def RefusesUnsigned (tenant project repository digest : String) : Prop :=
  ∃ database policies, state.gcPool = some database ∧ database.listTenant tenant = .ok policies ∧
    ∃ policy ∈ applicable policies ⟨tenant, project, repository, digest, false, none⟩,
      decider (applicable policies ⟨tenant, project, repository, digest, false, none⟩) policy.id =
        some policy ∧
      ((policy.spec.signatureRequired = true ∧ ¬Lenient state database tenant project repository) ∨
        (fetchScan state.scanStore state.scanSucceeds digest = none ∧ policy.spec.onUnknown = .block) ∨
        ∃ result, fetchScan state.scanStore state.scanSucceeds digest = some result ∧
          (Policy.evaluate ⟨policy.spec.severityThreshold.block⟩ result.vulnerabilities).status = .fail)

variable {state}

variable {tenant project : String}

theorem checkRecords_nil {repo subjectDigest : String} {policy : VerificationPolicy}
    (required : policy.required = true) :
    (checkRecords state tenant project repo subjectDigest policy []).1 = false := by
  unfold checkRecords
  split
  · rfl
  · cases violated : policy.onViolation <;>
      simp [SigstoreVerifier.verify, verifyWith, required, refuse, violated]

theorem pull_isOk_of_unsigned (pool : state.gcPool = some database)
    (unsigned : database.signaturesOf tenant project repository digest = []) :
    (enforcePullSignaturePolicy state now claimsSub tenant project repository digest).answer.isOk = true ↔
      ∃ effective, pullPolicy state database tenant project repository = .ok effective ∧
        ∀ policy ∈ effective, policy.required = true →
          database.signaturesFault = none ∧ policy.onViolation ≠ .block := by
  simp only [enforcePullSignaturePolicy, pool]
  cases effective : pullPolicy state database tenant project repository with
  | error reason => simp [Except.isOk, Except.toBool]
  | ok found =>
    cases found with
    | none => simp [Except.isOk, Except.toBool]
    | some policy =>
      cases required : policy.required with
      | false => simp [required, Except.isOk, Except.toBool]
      | true =>
        cases faulty : database.signaturesFault with
        | some reason =>
          simp [required, GateDatabase.listForSubject, faulty, Except.isOk, Except.toBool]
        | none =>
          have untrusted := @checkRecords_nil _ _ _ state tenant project repository digest _ required
          cases violated : policy.onViolation <;>
            simp [required, GateDatabase.listForSubject, faulty, unsigned, untrusted, violated,
              Except.isOk, Except.toBool]

variable {database : GateDatabase} {policies : List AdmissionPolicy}

theorem mem_listTenant (listed : database.listTenant tenant = .ok policies) {row : AdmissionPolicyRow}
    (member : row ∈ database.admissionPolicies) (named : row.tenant = tenant) (enabled : row.enabled = true)
    {spec : AdmissionPolicySpec} (parsed : row.spec = .ok spec) : row.policy spec ∈ policies := by
  unfold GateDatabase.listTenant at listed
  split at listed
  · cases listed
  · refine mem_of_mapM_ok listed ?_ (by rw [parsed])
    exact List.mem_filter.mpr ⟨member, by simp [named, enabled]⟩

variable {repository : String}

theorem enforceAdmission_isOk {claims : TokenClaims} {cache : DecisionCache} {now : Time}
    {digest : String} (pool : state.gcPool = some database)
    (listed : database.listTenant tenant = .ok policies) (some : policies ≠ []) :
    (enforceAdmission state claims cache now tenant project repository digest).answer = .ok () ↔
      (evaluate policies (fetchScan state.scanStore state.scanSucceeds digest) cache (.still now)
        ⟨tenant, project, repository, digest, claimsBypassAdmission claims,
          Option.some (signatureBit state now policies claims.sub tenant project repository
            digest).1⟩).1.isBlock = false := by
  have present : policies.isEmpty = false := by simpa using some
  simp only [enforceAdmission, pool, listed, Except.toOption, Option.getD_some, present,
    Bool.false_eq_true, ↓reduceIte]
  split <;> rename_i verdict <;> simp [verdict, AdmissionVerdict.isBlock]

theorem signatureBit_of_unsigned {now : Time} {sub digest : String} (pool : state.gcPool = some database)
    (unsigned : database.signaturesOf tenant project repository digest = [])
    (asks : ∃ policy ∈ policies, policy.spec.signatureRequired = true) :
    (signatureBit state now policies sub tenant project repository digest).1 = true ↔
      Lenient state database tenant project repository := by
  have asked : (policies.any fun policy => policy.spec.signatureRequired) = true := List.any_eq_true.mpr asks
  simp only [signatureBit, asked, ↓reduceIte, Lenient]
  cases state.signingEnabled with
  | false => simp
  | true =>
    simp only [↓reduceIte, true_and]
    exact pull_isOk_of_unsigned pool unsigned

theorem signatureMissing_iff {policy : AdmissionPolicy} {bit : Bool} {lenient : Prop}
    (same : bit = true ↔ lenient) :
    SignatureMissing policy (some bit) ↔ policy.spec.signatureRequired = true ∧ ¬lenient := by
  rw [← same]
  simp [SignatureMissing]

end Required

/-- A required signature is really there, exactly when one is registered, or a policy that decides
refuses the digest without it. -/
theorem required_signature_registered_iff {Scheme KeyPair VerificationKey : Type}
    (state : PullGate Scheme KeyPair VerificationKey) (claims : TokenClaims) (ttlSecs : Nat)
    (now : Time) (tenant project repository digest : String) :
    (RequiresSignature state claims tenant project repository →
      (enforceAdmission state claims (.new ttlSecs) now tenant project repository digest).answer =
        .ok () → Registered state tenant project repository digest) ↔
    (RequiresSignature state claims tenant project repository →
      Registered state tenant project repository digest ∨
        RefusesUnsigned state tenant project repository digest) := by
  apply imp_congr_right
  intro required
  obtain ⟨checked, database, pool, row, member, named, enabled, spec, parsed, asks, scope⟩ := required
  by_cases registered : Registered state tenant project repository digest
  · simp only [registered, implies_true, true_or]
  have unsigned : database.signaturesOf tenant project repository digest = [] := by
    by_contra some
    exact registered ⟨database, pool, some⟩
  simp only [registered, imp_false, false_or]
  cases listed : database.listTenant tenant with
  | error error =>
    have passes : (enforceAdmission state claims (.new ttlSecs) now tenant project repository
        digest).answer = .ok () := by
      simp [enforceAdmission, pool, listed, Except.toOption]
    simp only [passes, not_true_eq_false, false_iff]
    rintro ⟨other, policies, otherPool, otherListed, _⟩
    cases pool.symm.trans otherPool
    rw [listed] at otherListed
    cases otherListed
  | ok policies =>
    have present := mem_listTenant listed member named enabled parsed
    rw [enforceAdmission_isOk pool listed (List.ne_nil_of_mem present), Bool.not_eq_false,
      evaluate_new_isBlock checked]
    have bit : (signatureBit state now policies claims.sub tenant project repository digest).1 =
        true ↔ Lenient state database tenant project repository :=
      signatureBit_of_unsigned pool unsigned ⟨_, present, asks⟩
    simp only [evaluateOne_isBlock, signatureMissing_iff bit]
    constructor
    · rintro ⟨policy, applies, first, refuses⟩
      exact ⟨database, policies, pool, listed, policy, applies, first, refuses⟩
    · rintro ⟨other, others, otherPool, otherListed, policy, applies, first, refuses⟩
      cases pool.symm.trans otherPool
      cases listed.symm.trans otherListed
      exact ⟨policy, applies, first, refuses⟩

/-- A tenant whose admission policy asks for a signature, without any signing policy. -/
def unsignedDatabase : GateDatabase where
  verificationPolicies := []
  signatures := []
  admissionPolicies := [⟨.nil, "signed", "demo",
    .ok { AdmissionPolicySpec.default with signatureRequired := true, onUnknown := .allow }, true⟩]
  policiesFault := none
  signaturesFault := none
  admissionFault := none

def unsignedGate : PullGate Unit Unit Unit where
  gcPool := some unsignedDatabase
  signingEnabled := true
  requireForPull := false
  lib := releaseLib
  keys := releaseKeys
  parseArtifact := fun _ => none
  read := fun _ => none
  scanStore := none
  scanSucceeds := true
  debug := id

def pullerClaims : TokenClaims where
  iss := "spectoncr"
  sub := "robot"
  aud := "registry"
  exp := 0
  iat := 0
  jti := "1"
  tenantId := .nil
  tenantName := some "demo"
  projectId := none
  role := .reader
  scopes := [⟨"demo/app/web", [.pull]⟩]

/-- A policy that asks for a signature admits a digest that has none. -/
theorem unsigned_digest_admitted : RequiresSignature unsignedGate pullerClaims "demo" "app" "web" ∧
      (enforceAdmission unsignedGate pullerClaims (.new 60) 0 "demo" "app" "web"
        "sha256:ab").answer = .ok () ∧
      ¬Registered unsignedGate "demo" "app" "web" "sha256:ab" := by
  refine ⟨⟨by decide +kernel, unsignedDatabase, rfl, _, List.mem_singleton.mpr rfl, rfl, rfl, _,
    rfl, rfl, by decide +kernel⟩, by decide +kernel, ?_⟩
  rintro ⟨database, pool, signed⟩
  cases pool
  exact signed rfl

end SpectonCr.Admission
