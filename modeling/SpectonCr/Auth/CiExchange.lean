import SpectonCr.Auth.Login
import SpectonCr.Auth.Oidc

namespace SpectonCr.Auth

/-- `GitHubTokenClaims`, with the fields its validation reads. -/
structure GitHubOidcClaims extends GitHubTokenClaims where
  (sub iss : String)
  exp : Option Int

/-- The fields that are only recorded are checked for their types; an array has to reach `iat`. -/
def GitHubOidcClaims.decode (document : Json) : Option GitHubOidcClaims :=
  if document.asArray.any fun items => items.length < 5 then none
  else match document.structFields ["sub", "iss", "aud", "exp", "iat", "repository",
      "repository_owner", "workflow", "ref", "actor", "run_id", "sha", "job_workflow_ref"] with
  | some [some (.str sub), some (.str iss), aud, exp, iat, repository, repositoryOwner, workflow,
      gitRef, actor, runId, sha, jobWorkflowRef] => do
    let _ ← Json.optionalStr aud
    let exp ← Json.optionalI64 exp
    let _ ← Json.optionalI64 iat
    let repository ← Json.strOrDefault repository
    let repositoryOwner ← Json.strOrDefault repositoryOwner
    let _ ← [workflow, gitRef, actor, runId, sha, jobWorkflowRef].mapM Json.strOrDefault
    return { repository, repositoryOwner, sub, iss, exp }
  | _ => none

structure CiOidcProvider where
  (name issuerUrl subjectPrefix : String)
  allowedClaims : List (String × List String)
  defaultRole : String
  maxTtlSeconds : Nat

structure CiTokenRequest where
  (token provider tenant project : String)
  actions : List Action
  now : Time
  jti : Uuid

/-- The state of the exchange endpoints. `githubIssuerUrl` is the issuer of the
GitHub configuration. -/
structure CiService (Key : Type) where
  state : AppState
  manager : OidcProviderManager Key
  githubIssuerUrl : String
  ciProviders : List CiOidcProvider

/-- A text claim; a claim of another type counts as absent. -/
def strClaim (document : Json) (name : String) : Option String := (document.get name).bind Json.asStr

def CiOidcProvider.refuses (document : Json) (filter : String × List String) : Option (String × String) :=
  let value := (strClaim document filter.1).getD ""
  if !filter.2.isEmpty && !filter.2.contains value then some (filter.1, value) else none

/-- The first filter that a claim fails, with the claim's value. -/
def CiOidcProvider.refusal (provider : CiOidcProvider) (document : Json) : Option (String × String) :=
  provider.allowedClaims.findSome? (refuses document)

/-- Every claim filter is empty or lists the claim's value. -/
def CiOidcProvider.Allows (provider : CiOidcProvider) (document : Json) : Prop :=
  ∀ filter ∈ provider.allowedClaims, filter.2 = [] ∨ (strClaim document filter.1).getD "" ∈ filter.2

def CiOidcProvider.subject (provider : CiOidcProvider) (document : Json) : String :=
  provider.subjectPrefix ++ (strClaim document "sub").getD "unknown"

/-- The last part of `ci_token_exchange`: from the claims to a token. -/
def ciIssue (state : AppState) (provider : CiOidcProvider) (request : CiTokenRequest)
    (document : Json) : Except RegistryError IssuedToken :=
  if issuerOf document ≠ provider.issuerUrl then
    .error (.tokenInvalid ("CI token issuer mismatch: expected " ++ provider.issuerUrl ++
      ", got " ++ issuerOf document))
  else if ((document.get "exp").bind Json.asI64).any fun exp => exp < request.now.timestamp then
    .error .tokenExpired
  else match provider.refusal document with
    | some (name, value) =>
      .error (.forbidden ("CI token claim '" ++ name ++ "' value '" ++ value ++ "' is not in allowed list"))
    | none =>
      match state.tenants.lookup request.tenant with
      | none => .error (.tenantNotFound request.tenant)
      | some tenant =>
        (requireProject state tenant (some request.project)).bind fun projectId =>
          issuePermitted state request.now request.jti
            (min state.tokenTtlSeconds provider.maxTtlSeconds) (provider.subject document) tenant
            projectId (roleNamed provider.defaultRole) "" request.actions

section Exchange

variable {Key : Type} (lib : JwtLib Key) (fetch : String → Except String (List JwkEntry))

/-- Validation against the manager, skipped for an issuer it does not know. -/
def validateIfKnown (now : Time) (manager : OidcProviderManager Key) (issuer token : String) :
    Except RegistryError Unit × OidcProviderManager Key :=
  if manager.knows issuer then
    let (validated, after) := manager.validateToken lib fetch now token
    (validated.map fun _ => (), after)
  else (.ok (), manager)

/-- The claims of a GitHub token, once its signature has been dealt with. -/
def githubClaims (now : Time) (token expectedIssuer : String) : Except RegistryError GitHubOidcClaims :=
  (payloadDocument lib "GitHub OIDC token is not a valid JWT"
    "invalid base64 in GitHub token payload" "failed to parse GitHub token claims: " token).bind
    fun document =>
      match GitHubOidcClaims.decode document with
      | none =>
        .error (.tokenInvalid ("failed to parse GitHub token claims: " ++ lib.rejection document))
      | some claims =>
        if claims.iss ≠ expectedIssuer then
          .error (.tokenInvalid ("GitHub token issuer mismatch: expected " ++ expectedIssuer ++
            ", got " ++ claims.iss))
        else if claims.exp.any fun exp => exp < now.timestamp then .error .tokenExpired
        else .ok claims

def validateGithubOidcToken (now : Time) (manager : OidcProviderManager Key) (token expectedIssuer : String) :
    Except RegistryError GitHubOidcClaims × OidcProviderManager Key :=
  let (checked, after) := validateIfKnown lib fetch now manager expectedIssuer token
  (checked.bind fun _ => githubClaims lib now token expectedIssuer, after)

/-- `github_actions_token` with the validation it calls. -/
def exchangeGithub (service : CiService Key) (request : GitHubRequest) :
    Except RegistryError IssuedToken × OidcProviderManager Key :=
  let validate := fun token =>
    validateGithubOidcToken lib fetch request.now service.manager token service.githubIssuerUrl
  (githubActionsToken
      { service.state with
        validateGithubOidcToken := fun token =>
          (validate token).1.map GitHubOidcClaims.toGitHubTokenClaims } request,
    if service.state.githubOidcConfig.isSome then (validate request.token).2 else service.manager)

def ciTokenExchange (service : CiService Key) (request : CiTokenRequest) :
    Except RegistryError IssuedToken × OidcProviderManager Key :=
  match service.ciProviders.find? fun provider => provider.name = request.provider with
  | none =>
    (.error (.internal ("CI OIDC provider '" ++ request.provider ++ "' not configured")), service.manager)
  | some provider =>
    let (checked, after) :=
      validateIfKnown lib fetch request.now service.manager provider.issuerUrl request.token
    (checked.bind fun _ =>
        (payloadDocument lib "CI OIDC token is not a valid JWT"
          "invalid base64 in CI token payload" "failed to parse CI token claims: "
          request.token).bind (ciIssue service.state provider request),
      after)

end Exchange

section Authentic

variable {Key : Type} {lib : JwtLib Key} {fetch : String → Except String (List JwkEntry)}

/-- The claims are those of a token that verifies under a key of the issuer. -/
structure Authentic (lib : JwtLib Key) (manager : OidcProviderManager Key) (issuer token : String)
    (document : Json) : Prop where
  carried : Carries lib token document
  signed : SignedBy lib manager issuer token

private theorem authentic_iff (checked : (validateIfKnown lib fetch now manager issuer token).1 = .ok ())
    (carried : Carries lib token document)
    (named : ∀ fields, document = .obj fields → issuerOf document = issuer) :
    Authentic lib (validateIfKnown lib fetch now manager issuer token).2 issuer token document ↔
      manager.knows issuer = true := by
  revert checked
  unfold validateIfKnown
  split
  · rename_i known
    intro checked
    constructor
    · exact fun _ => known
    · intro _
      refine ⟨carried, ?_⟩
      cases validated : (manager.validateToken lib fetch now token).1 with
      | error _ =>
        simp only [validated] at checked
        cases checked
      | ok claims =>
        obtain ⟨fields, carries, signed⟩ := validateToken_signed validated
        obtain rfl := carried.unique carries
        rwa [named fields rfl] at signed
  · rename_i unknown
    intro _
    constructor
    · rintro ⟨_, provider, _, found, _, _⟩
      have present : issuer ∈ manager.providers := Table.mem_of_lookup found
      simp [OidcProviderManager.knows, present]
    · exact fun known => absurd known unknown

theorem GitHubOidcClaims.iss_of_decode (read : GitHubOidcClaims.decode document = some claims)
    (fields : List (String × Json)) (object : document = .obj fields) : claims.iss = issuerOf document := by
  subst object
  unfold GitHubOidcClaims.decode at read
  rw [if_neg (by simp [Json.asArray])] at read
  split at read
  · rename_i record
    have named := (Json.structFields_cons (Json.structFields_cons record).2).1
    simp only [Option.bind_eq_bind, Option.bind_eq_some_iff, Option.pure_def, Option.some.injEq] at read
    obtain ⟨_, _, _, _, _, _, _, _, _, _, _, _, rfl⟩ := read
    simp [issuerOf, named, Json.asStr]
  · cases read

private theorem githubClaims_ok (accepted : githubClaims lib now token issuer = .ok claims) :
    ∃ document, Carries lib token document ∧ GitHubOidcClaims.decode document = some claims ∧
      claims.iss = issuer := by
  obtain ⟨document, read, typed⟩ := bind_ok accepted
  refine ⟨document, carries_of_payloadDocument read, ?_⟩
  split at typed
  · cases typed
  rename_i decoded
  split at typed
  · cases typed
  rename_i issued
  split at typed
  · cases typed
  · cases typed
    exact ⟨decoded, not_not.mp issued⟩

private theorem ciIssue_ok (success : ciIssue state provider request document = .ok issued) :
    issuerOf document = provider.issuerUrl ∧ provider.Allows document ∧
      ∃ tenant projectId, state.tenants.lookup request.tenant = some tenant ∧
        GrantedAs issued.claims (provider.subject document) (roleNamed provider.defaultRole)
          ⟨request.tenant, some request.project, none, request.actions⟩ ∧
        IssuedIn issued.claims tenant projectId := by
  unfold ciIssue at success
  split at success
  · cases success
  rename_i named
  split at success
  · cases success
  split at success
  · cases success
  rename_i unrefused
  have allowed : provider.Allows document := by
    intro filter member
    have passed := List.findSome?_eq_none_iff.mp unrefused filter member
    simpa [CiOidcProvider.refuses, Classical.or_iff_not_imp_left] using passed
  split at success
  · cases success
  · rename_i tenant found
    obtain ⟨projectId, _, success⟩ := bind_ok success
    exact ⟨not_not.mp named, allowed, tenant, projectId, found, issuePermitted_ok success⟩

/-- Everything an issued CI token rests on. -/
theorem ciTokenExchange_ok (success : (ciTokenExchange lib fetch service request).1 = .ok issued) :
    ∃ provider document tenant projectId,
      (service.ciProviders.find? fun provider => provider.name = request.provider) = some provider ∧
      (validateIfKnown lib fetch request.now service.manager provider.issuerUrl request.token).1 = .ok () ∧
      (ciTokenExchange lib fetch service request).2 =
        (validateIfKnown lib fetch request.now service.manager provider.issuerUrl request.token).2 ∧
      Carries lib request.token document ∧ issuerOf document = provider.issuerUrl ∧
      provider.Allows document ∧ service.state.tenants.lookup request.tenant = some tenant ∧
      GrantedAs issued.claims (provider.subject document) (roleNamed provider.defaultRole)
        ⟨request.tenant, some request.project, none, request.actions⟩ ∧
      IssuedIn issued.claims tenant projectId := by
  revert success
  unfold ciTokenExchange
  split
  · intro success
    cases success
  rename_i provider found
  intro success
  obtain ⟨_, checked, success⟩ := bind_ok success
  obtain ⟨document, read, success⟩ := bind_ok success
  obtain ⟨named, allowed, tenant, projectId, registered, granted, placed⟩ := ciIssue_ok success
  exact ⟨provider, document, tenant, projectId, found, checked, rfl,
    carries_of_payloadDocument read, named, allowed, registered, granted, placed⟩

/-- A token exchanged by either endpoint is authentic exactly when the manager knows the endpoint's
issuer. -/
theorem exchange_authentic_iff (lib : JwtLib Key) (fetch : String → Except String (List JwkEntry))
    (service : CiService Key) :
    (∀ request issued, (exchangeGithub lib fetch service request).1 = .ok issued →
      ∃ config document claims, service.state.githubOidcConfig = some config ∧
        GitHubOidcClaims.decode document = some claims ∧
        config.Allows claims.toGitHubTokenClaims ∧
        issued.claims.sub = "github:" ++ claims.repository ∧
        (Authentic lib (exchangeGithub lib fetch service request).2 service.githubIssuerUrl
            request.token document ↔
          service.manager.knows service.githubIssuerUrl = true)) ∧
    (∀ request issued, (ciTokenExchange lib fetch service request).1 = .ok issued → ∃ provider document,
        (service.ciProviders.find? fun provider => provider.name = request.provider) = some provider ∧
        provider.Allows document ∧ issued.claims.sub = provider.subject document ∧
        (Authentic lib (ciTokenExchange lib fetch service request).2 provider.issuerUrl
            request.token document ↔
          service.manager.knows provider.issuerUrl = true)) := by
  constructor
  · intro request issued success
    obtain ⟨config, _, _, _, configured, validated, allowed, _, granted, _⟩ := githubActionsToken_ok success
    cases read : (validateGithubOidcToken lib fetch request.now service.manager request.token
        service.githubIssuerUrl).1 with
    | error failure =>
      simp only [read] at validated
      cases validated
    | ok claims =>
      simp only [read] at validated
      cases validated
      obtain ⟨_, checked, accepted⟩ := bind_ok read
      obtain ⟨document, carried, decoded, named⟩ := githubClaims_ok accepted
      refine ⟨config, document, claims, configured, decoded, allowed, granted.forSubject, ?_⟩
      have configured : service.state.githubOidcConfig = some config := configured
      simp only [exchangeGithub, configured, Option.isSome_some, ↓reduceIte]
      refine authentic_iff checked carried ?_
      intro fields object
      rw [← GitHubOidcClaims.iss_of_decode decoded fields object, named]
  · intro request issued success
    obtain ⟨provider, document, _, _, found, checked, after, carried, named, allowed, _, granted,
      _⟩ := ciTokenExchange_ok success
    refine ⟨provider, document, found, allowed, granted.forSubject, ?_⟩
    rw [after]
    exact authentic_iff checked carried (fun _ _ => named)

end Authentic

/-- The claims part of a workflow's token, as it stands in the token. -/
def workflowPayload : String := "eyJzdWIiOiJhcHAiLCJpc3MiOiJjaSIsInJlcG9zaXRvcnkiOiJhY21lIn0"

def workflowText : ByteArray := "\x7b\"sub\":\"app\",\"iss\":\"ci\",\"repository\":\"acme\"\x7d".toUTF8

def workflowDocument : Json := .obj [("sub", .str "app"), ("iss", .str "ci"), ("repository", .str "acme")]

/-- A token that anybody can write: no algorithm, no signature. -/
def unsignedToken : String := "eyJhbGciOiJub25lIn0." ++ workflowPayload ++ "."

def signedToken : String := "eyJhbGciOiJSUzI1NiJ9." ++ workflowPayload ++ ".c2ln"

/-- The libraries on the two tokens; a key is named by its modulus. -/
def workflowLib : JwtLib String where
  decodeHeader token := if token = signedToken then .ok none else .error "unknown variant"
  b64UrlDecode text := if text = workflowPayload then some workflowText else none
  parse bytes := if bytes = workflowText then .ok workflowDocument else .error "expected value"
  rejection _ := "missing field"
  fromRsaComponents n _ := some n
  signed key _ token := key = "modulus" && token = signedToken
  valid _ audience issuer document := audience = "specton" && issuer = issuerOf document

/-- Both endpoints for one issuer, with the identity providers that are configured. -/
def workflowService (configs : List OidcProviderConfig) : CiService String where
  state := demoState
  manager := ⟨∅, configs, 3600, by intro issuer provider found; cases found⟩
  githubIssuerUrl := "ci"
  ciProviders := [⟨"acme", "ci", "acme:", [], "maintainer", 900⟩]

def workflowFetch (_ : String) : Except String (List JwkEntry) :=
  .ok [⟨"RSA", none, none, some "modulus", some "AQAB"⟩]

def workflowGithubRequest (token : String) : GitHubRequest := ⟨token, "demo", "default", [.pull], 0, .nil⟩

def workflowCiRequest (token : String) : CiTokenRequest :=
  ⟨token, "acme", "demo", "default", [.push], 0, .nil⟩

private theorem not_authentic (empty : manager.providers = ∅) :
    ¬ Authentic workflowLib manager issuer token document := by
  rintro ⟨_, provider, _, found, _⟩
  rw [empty] at found
  cases found

/-- Without a configured identity provider, both endpoints take the word of an
unsigned token. -/
theorem unsigned_token_exchanged : (∃ issued, (exchangeGithub workflowLib workflowFetch (workflowService [])
        (workflowGithubRequest unsignedToken)).1 = .ok issued ∧
      issued.claims.sub = "github:acme" ∧
      ¬ Authentic workflowLib (exchangeGithub workflowLib workflowFetch (workflowService [])
        (workflowGithubRequest unsignedToken)).2 "ci" unsignedToken workflowDocument) ∧
    (∃ issued, (ciTokenExchange workflowLib workflowFetch (workflowService [])
        (workflowCiRequest unsignedToken)).1 = .ok issued ∧
      (issued.claims.sub, issued.claims.role) = ("acme:app", .maintainer) ∧
      ¬ Authentic workflowLib (ciTokenExchange workflowLib workflowFetch (workflowService [])
        (workflowCiRequest unsignedToken)).2 "ci" unsignedToken workflowDocument) := by
  constructor
  · obtain ⟨issued, success, subject⟩ := exists_ok_of_map
      (show ((exchangeGithub workflowLib workflowFetch (workflowService [])
        (workflowGithubRequest unsignedToken)).1.toOption.map fun issued => issued.claims.sub) =
          some "github:acme" by decide +kernel)
    exact ⟨issued, success, subject, not_authentic rfl⟩
  · obtain ⟨issued, success, seen⟩ := exists_ok_of_map
      (show ((ciTokenExchange workflowLib workflowFetch (workflowService [])
        (workflowCiRequest unsignedToken)).1.toOption.map fun issued =>
          (issued.claims.sub, issued.claims.role)) = some ("acme:app", .maintainer) by
        decide +kernel)
    exact ⟨issued, success, seen, not_authentic rfl⟩

/-- With the issuer configured, a signed token is exchanged and is authentic. -/
theorem configured_issuer_authentic :
    ∃ issued document, (ciTokenExchange workflowLib workflowFetch (workflowService [⟨"ci", "specton"⟩])
        (workflowCiRequest signedToken)).1 = .ok issued ∧
      Authentic workflowLib (ciTokenExchange workflowLib workflowFetch (workflowService [⟨"ci", "specton"⟩])
          (workflowCiRequest signedToken)).2 "ci" signedToken document := by
  obtain ⟨issued, success, _⟩ := exists_ok_of_map
    (show ((ciTokenExchange workflowLib workflowFetch (workflowService [⟨"ci", "specton"⟩])
      (workflowCiRequest signedToken)).1.toOption.map fun issued => issued.claims.role) =
        some .maintainer by decide +kernel)
  obtain ⟨provider, document, found, _, _, characterised⟩ :=
    (exchange_authentic_iff workflowLib workflowFetch (workflowService [⟨"ci", "specton"⟩])).2
      (workflowCiRequest signedToken) issued success
  cases found
  exact ⟨issued, document, success, characterised.mpr (by decide +kernel)⟩

end SpectonCr.Auth
