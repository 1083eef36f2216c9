import SpectonCr.Auth.Model
import SpectonCr.Base.Result
import SpectonCr.Registry.Authorize

namespace SpectonCr.Auth

open Registry

def parseAction (text : String) : Option Action :=
  if text = "pull" then some .pull
  else if text = "push" then some .push
  else if text = "delete" then some .delete
  else if text = "*" then some .pull
  else none

def parseActions (text : String) : List Action :=
  (Text.split text ',').filterMap fun piece => parseAction (Text.trim piece)

def parseDockerScope (scope : String) : Option RequestedScope :=
  match Text.splitn 3 scope ':' with
  | [_, name, actions] =>
    match Text.splitn 3 name '/' with
    | [tenant, project, repository] =>
      some ⟨tenant, some project, some repository, parseActions actions⟩
    | [project, repository] => some ⟨"_", some project, some repository, parseActions actions⟩
    | [repository] => some ⟨"_", none, some repository, parseActions actions⟩
    | _ => none
  | _ => none

example : parseDockerScope "repository:acme/web/team/app:pull, push,*" =
    some ⟨"acme", some "web", some "team/app", [.pull, .push, .pull]⟩ := by
  decide +kernel

structure DockerTokenQuery where
  (scope account username password : Option String)

/-- A request to the Docker endpoint, with the text of its `Authorization`
header, the instant, and the identifier drawn for the token. -/
structure DockerRequest where
  authorization : Option String
  query : DockerTokenQuery
  now : Time
  jti : Uuid

structure IssuedToken where
  claims : TokenClaims
  token : String
  expiresIn : Nat
  issuedAt : Time
  deriving DecidableEq

/-- `as i64`. -/
def asI64 (value : Nat) : Int := (BitVec.ofNat 64 value).toInt

/-- The sum of two `i64`, which wraps. -/
def expiryOf (now : Time) (ttl : Nat) : Int := (BitVec.ofInt 64 (now.timestamp + asI64 ttl)).toInt

/-- What the endpoints have in common once the role is known. -/
def issueToken (state : AppState) (now : Time) (jti : Uuid) (ttl : Nat) (subject : String)
    (tenant : Tenant) (projectId : Option Uuid) (role : Role) (repository : String)
    (allowedActions : List Action) : Except RegistryError IssuedToken :=
  let claims : TokenClaims :=
    { iss := state.issuer
      sub := subject
      aud := state.audience
      exp := expiryOf now ttl
      iat := now.timestamp
      jti := jti.hyphenated
      tenantId := tenant.id
      tenantName := some tenant.storagePrefix
      projectId
      role
      scopes := [⟨repository, allowedActions⟩] }
  match state.encode claims with
  | none => .error (.internal "token signing failed")
  | some token => .ok ⟨claims, token, ttl, now⟩

/-- The subject of a user name and a password. -/
def loginSubject (state : AppState) (now : Time) (username password : String) : String :=
  match authenticateBasic state username password with
  | .ok subject => subject
  | .error _ =>
    match Text.stripPrefix username "robot:" with
    | none => "anonymous"
    | some robotName =>
      match authenticateRobot state now robotName password with
      | .ok subject => subject
      | .error _ => "anonymous"

def dockerSubject (state : AppState) (request : DockerRequest) : String :=
  match extractBasicAuth request.authorization with
  | some (username, password) => loginSubject state request.now username password
  | none =>
    match request.query.username, request.query.password with
    | some username, some password => loginSubject state request.now username password
    | _, _ => request.query.account.getD "anonymous"

def DockerTokenQuery.requestedScope (query : DockerTokenQuery) : RequestedScope :=
  (query.scope.bind parseDockerScope).getD ⟨"demo", none, none, []⟩

/-- The project a Docker scope names; an unknown one counts as none. -/
def lookupProject (state : AppState) (tenant : Tenant) (scope : RequestedScope) : Option Uuid :=
  scope.project.bind fun name => (state.projects.lookup (tenant.id, name)).map Project.id

def getTokenInner (state : AppState) (request : DockerRequest) : Except RegistryError IssuedToken :=
  let subject := dockerSubject state request
  let scope := request.query.requestedScope
  match state.tenants.lookup scope.tenant with
  | none => .error (.tenantNotFound scope.tenant)
  | some tenant =>
    let projectId := lookupProject state tenant scope
    let role := resolveRole state subject tenant.id projectId
    issueToken state request.now request.jti state.tokenTtlSeconds subject tenant projectId role
      (scope.repository.getD "") (scope.actions.filter role.can)

/-- The project a JSON scope names; an unknown one is an error. -/
def requireProject (state : AppState) (tenant : Tenant) (project : Option String) :
    Except RegistryError (Option Uuid) :=
  match project with
  | none => .ok none
  | some name =>
    match state.projects.lookup (tenant.id, name) with
    | none => .error (.projectNotFound name)
    | some project => .ok (some project.id)

/-- The last steps of the JSON endpoints: no token without a permitted action. -/
def issuePermitted (state : AppState) (now : Time) (jti : Uuid) (ttl : Nat) (subject : String)
    (tenant : Tenant) (projectId : Option Uuid) (role : Role) (repository : String)
    (actions : List Action) : Except RegistryError IssuedToken :=
  let allowedActions := actions.filter role.can
  if allowedActions.isEmpty && !actions.isEmpty then
    .error (.forbidden ("role '" ++ role.debug ++ "' does not permit requested actions"))
  else
    issueToken state now jti ttl subject tenant projectId role repository allowedActions

/-- A request to the JSON endpoint; `limited` is the answer of the rate limiter. -/
structure TokenRequest where
  authorization : Option String
  identityToken : String
  scope : RequestedScope
  limited : Bool
  now : Time
  jti : Uuid

def postToken (state : AppState) (request : TokenRequest) : Except RegistryError IssuedToken :=
  if request.limited then .error .rateLimitExceeded
  else
    (authenticateRequest state request.now request.authorization request.identityToken).bind
      fun (subject, state) =>
        match state.tenants.lookup request.scope.tenant with
        | none => .error (.tenantNotFound request.scope.tenant)
        | some tenant =>
          if !tenant.enabled then .error (.forbidden "tenant is disabled")
          else
            (requireProject state tenant request.scope.project).bind fun projectId =>
              issuePermitted state request.now request.jti state.tokenTtlSeconds subject tenant
                projectId (resolveRole state subject tenant.id projectId)
                (request.scope.repository.getD "") request.scope.actions

structure GitHubRequest where
  (token tenant project : String)
  actions : List Action
  now : Time
  jti : Uuid

/-- The role a configuration or a request names; every other text is a reader. -/
def roleNamed (name : String) : Role :=
  if name = "admin" then .admin
  else if name = "maintainer" then .maintainer
  else .reader

def GitHubOidcConfig.role (config : GitHubOidcConfig) : Role := roleNamed config.defaultRole

/-- The allow-lists; an empty one allows everybody. -/
structure GitHubOidcConfig.Allows (config : GitHubOidcConfig) (claims : GitHubTokenClaims) :
    Prop where
  owner : config.allowedOrgs = [] ∨ claims.repositoryOwner ∈ config.allowedOrgs
  repository : config.allowedRepos = [] ∨ claims.repository ∈ config.allowedRepos

def githubActionsToken (state : AppState) (request : GitHubRequest) : Except RegistryError IssuedToken :=
  match state.githubOidcConfig with
  | none => .error (.internal "GitHub OIDC integration not configured")
  | some config =>
    (state.validateGithubOidcToken request.token).bind fun claims =>
      if !config.allowedOrgs.isEmpty && !config.allowedOrgs.contains claims.repositoryOwner then
        .error (.forbidden ("GitHub organization '" ++ claims.repositoryOwner ++ "' is not allowed"))
      else if !config.allowedRepos.isEmpty && !config.allowedRepos.contains claims.repository then
        .error (.forbidden ("GitHub repository '" ++ claims.repository ++ "' is not allowed"))
      else
        match state.tenants.lookup request.tenant with
        | none => .error (.tenantNotFound request.tenant)
        | some tenant =>
          (requireProject state tenant (some request.project)).bind fun projectId =>
            issuePermitted state request.now request.jti (min state.tokenTtlSeconds 900)
              ("github:" ++ claims.repository) tenant projectId config.role "" request.actions

/-- The part of the claims the registry reads: who, in which role, for what. -/
structure GrantedAs (claims : TokenClaims) (subject : String) (role : Role)
    (scope : RequestedScope) : Prop where
  forSubject : claims.sub = subject
  inRole : claims.role = role
  withScope : claims.scopes = [⟨scope.repository.getD "", scope.actions.filter role.can⟩]

/-- The tenant and the project the claims are for. -/
structure IssuedIn (claims : TokenClaims) (tenant : Tenant) (projectId : Option Uuid) : Prop where
  inTenant : claims.tenantId = tenant.id
  inProject : claims.projectId = projectId

section Issued

variable {state : AppState} {issued : IssuedToken}

private theorem issueToken_ok
    (success : issueToken state now jti ttl subject tenant projectId role (scope.repository.getD
      "") (scope.actions.filter role.can) = .ok issued) :
    GrantedAs issued.claims subject role scope ∧ IssuedIn issued.claims tenant projectId := by
  simp only [issueToken] at success
  split at success
  · cases success
  · cases success
    exact ⟨⟨rfl, rfl, rfl⟩, rfl, rfl⟩

theorem issuePermitted_ok (success : issuePermitted state now jti ttl subject tenant projectId role
      (scope.repository.getD "") scope.actions = .ok issued) :
    GrantedAs issued.claims subject role scope ∧ IssuedIn issued.claims tenant projectId := by
  simp only [issuePermitted] at success
  split at success
  · cases success
  · exact issueToken_ok success

/-- The role a Docker request is given: the subject's in the tenant it names. -/
def dockerRole (state : AppState) (request : DockerRequest) (tenant : Tenant) : Role :=
  resolveRole state (dockerSubject state request) tenant.id
    (lookupProject state tenant request.query.requestedScope)

theorem getTokenInner_ok (success : getTokenInner state request = .ok issued) :
    ∃ tenant, state.tenants.lookup request.query.requestedScope.tenant = some tenant ∧
      GrantedAs issued.claims (dockerSubject state request) (dockerRole state request tenant)
        request.query.requestedScope ∧
      IssuedIn issued.claims tenant (lookupProject state tenant request.query.requestedScope) := by
  simp only [getTokenInner] at success
  split at success
  · cases success
  · rename_i tenant found
    exact ⟨tenant, found, issueToken_ok success⟩

theorem postToken_ok (success : postToken state request = .ok issued) : ∃ subject after tenant projectId,
      authenticateRequest state request.now request.authorization request.identityToken =
        .ok (subject, after) ∧
      after.tenants.lookup request.scope.tenant = some tenant ∧ tenant.enabled = true ∧
      requireProject after tenant request.scope.project = .ok projectId ∧
      GrantedAs issued.claims subject (resolveRole after subject tenant.id projectId) request.scope ∧
      IssuedIn issued.claims tenant projectId := by
  unfold postToken at success
  split at success
  · cases success
  obtain ⟨⟨subject, after⟩, authenticated, success⟩ := bind_ok success
  dsimp only at success
  split at success
  · cases success
  rename_i tenant found
  split at success
  · cases success
  rename_i enabled
  obtain ⟨projectId, project, success⟩ := bind_ok success
  exact ⟨subject, after, tenant, projectId, authenticated, found, by simpa using enabled,
    project, issuePermitted_ok success⟩

theorem githubActionsToken_ok (success : githubActionsToken state request = .ok issued) :
    ∃ config claims tenant projectId, state.githubOidcConfig = some config ∧
      state.validateGithubOidcToken request.token = .ok claims ∧ config.Allows claims ∧
      state.tenants.lookup request.tenant = some tenant ∧
      GrantedAs issued.claims ("github:" ++ claims.repository) config.role
        ⟨request.tenant, some request.project, none, request.actions⟩ ∧
      IssuedIn issued.claims tenant projectId := by
  unfold githubActionsToken at success
  split at success
  · cases success
  rename_i config configured
  obtain ⟨claims, validated, success⟩ := bind_ok success
  split at success
  · cases success
  rename_i owner
  split at success
  · cases success
  rename_i repository
  have allowed : config.Allows claims := by
    constructor
    · simpa [Classical.or_iff_not_imp_left] using owner
    · simpa [Classical.or_iff_not_imp_left] using repository
  split at success
  · cases success
  rename_i tenant found
  obtain ⟨projectId, _, success⟩ := bind_ok success
  exact ⟨config, claims, tenant, projectId, configured, validated, allowed, found, issuePermitted_ok success⟩

theorem authorize_granted (granted : GrantedAs claims subject role scope) :
    authorize claims tenant project name action = .ok () ↔ role.can action = true ∧ (role = .admin ∨
        (scope.repository.getD "" = repoPath tenant project name ∨
          scope.repository.getD "" = "*") ∧ action ∈ scope.actions) := by
  rw [authorize_ok_iff, granted.inRole, granted.withScope]
  constructor
  · rintro ⟨permitted, admin | ⟨_, member, path, requested⟩⟩
    · exact ⟨permitted, .inl admin⟩
    · obtain rfl := List.mem_singleton.mp member
      exact ⟨permitted, .inr ⟨path, (List.mem_filter.mp requested).1⟩⟩
  · rintro ⟨permitted, admin | ⟨path, requested⟩⟩
    · exact ⟨permitted, .inl admin⟩
    · exact ⟨permitted, .inr ⟨_, List.mem_singleton.mpr rfl, path,
        List.mem_filter.mpr ⟨requested, permitted⟩⟩⟩

end Issued

end SpectonCr.Auth
