import SpectonCr.Base.Base64
import SpectonCr.Base.Table
import SpectonCr.Common.Model
import SpectonCr.Storage.Path

namespace SpectonCr.Auth

open Storage (Sha256)

/-- `models::Tenant`, with the fields a token is issued from. -/
structure Tenant where
  id : Uuid
  enabled : Bool
  storagePrefix : String
  deriving DecidableEq

/-- `models::Visibility`: `Private` and `Public`. -/
inductive Visibility where
  | isPrivate
  | isPublic
  deriving DecidableEq

structure Project where
  id : Uuid
  visibility : Visibility
  deriving DecidableEq

structure BootstrapAdmin where
  (username passwordHash : String)

structure RobotAccount where
  id : Uuid
  (name tenant : String)
  project : Option String
  role : Role
  secretHash : String
  expiresAt : Option Time
  enabled : Bool
  deriving DecidableEq

structure UserRecord where
  groups : List String
  deriving DecidableEq

structure GroupRoleMapping where
  (group tenant : String)
  project : Option String
  role : Role

structure GitHubOidcConfig where
  (allowedOrgs allowedRepos : List String)
  defaultRole : String

/-- The claims of a GitHub Actions token that the exchange reads. -/
structure GitHubTokenClaims where
  (repository repositoryOwner : String)

/-- `AppState`. Token encoding and the validation of foreign tokens are library
calls; the values of a map are listed in its iteration order. -/
structure AppState where
  sha : Sha256
  encode : TokenClaims → Option String
  validateIdentityToken : String → Except RegistryError String
  validateGithubOidcToken : String → Except RegistryError GitHubTokenClaims
  tenants : Table String Tenant
  projects : Table (Uuid × String) Project
  accessPolicies : List AccessPolicy
  bootstrapAdmin : Option BootstrapAdmin
  (issuer audience : String)
  tokenTtlSeconds : Nat
  groupRoleMappings : List GroupRoleMapping
  autoProvisionUsers : Bool
  githubOidcConfig : Option GitHubOidcConfig
  users : Table String UserRecord
  robotAccounts : Table String RobotAccount

def sha256Hex (sha : Sha256) (input : String) : String := hexEncode (sha.hash input.toByteArray)

/-- The loop that collects the differences of two byte strings. -/
def constantTimeEq (a b : List UInt8) : Bool :=
  if a.length ≠ b.length then false
  else ((a.zip b).foldl (fun diff pair => diff ||| (pair.1 ^^^ pair.2)) 0) == (0 : UInt8)

private theorem foldl_difference (pairs : List (UInt8 × UInt8)) (diff : UInt8) :
    pairs.foldl (fun diff pair => diff ||| (pair.1 ^^^ pair.2)) diff = 0 ↔
      diff = 0 ∧ ∀ pair ∈ pairs, pair.1 = pair.2 := by
  induction pairs generalizing diff with
  | nil => simp
  | cons pair rest ih =>
    rw [List.foldl_cons, ih]
    simp [and_assoc]

private theorem zip_eq_iff {a b : List UInt8} (lengths : a.length = b.length) :
    (∀ pair ∈ a.zip b, pair.1 = pair.2) ↔ a = b := by
  induction a generalizing b with
  | nil => simp [List.length_eq_zero_iff.mp lengths.symm]
  | cons x rest ih =>
    cases b with
    | nil => cases lengths
    | cons y tail => simp [← ih (by simpa using lengths)]

theorem constantTimeEq_iff {a b : List UInt8} : constantTimeEq a b = true ↔ a = b := by
  unfold constantTimeEq
  split
  · rename_i lengths
    simp only [Bool.false_eq_true, false_iff]
    rintro rfl
    exact lengths rfl
  · rename_i lengths
    rw [beq_iff_eq, foldl_difference, zip_eq_iff (not_not.mp lengths)]
    simp

def verifyBootstrapPassword (sha : Sha256) (password passwordHash : String) : Bool :=
  constantTimeEq (sha256Hex sha password).toByteArray.data.toList passwordHash.toByteArray.data.toList

private theorem byteList_inj {a b : String} :
    a.toByteArray.data.toList = b.toByteArray.data.toList ↔ a = b := by
  rw [Array.toList_inj, ← ByteArray.ext_iff, String.toByteArray_inj]

theorem verifyBootstrapPassword_iff {sha : Sha256} {password passwordHash : String} :
    verifyBootstrapPassword sha password passwordHash = true ↔ sha256Hex sha password = passwordHash := by
  rw [verifyBootstrapPassword, constantTimeEq_iff, byteList_inj]

/-- `extract_basic_auth`, on the text of the `Authorization` header. -/
def extractBasicAuth (authorization : Option String) : Option (String × String) := do
  let authHeader ← authorization
  let encoded ← Text.stripPrefix authHeader "Basic "
  let decodedBytes ← Base64.decode (Text.trim encoded)
  let decoded ← String.fromUTF8? decodedBytes
  Text.splitOnce decoded ':'

def authenticateBasic (state : AppState) (username password : String) : Except RegistryError String :=
  match state.bootstrapAdmin with
  | none => .error .unauthorized
  | some admin =>
    if username = admin.username &&
        verifyBootstrapPassword state.sha password admin.passwordHash then .ok username
    else .error .unauthorized

theorem authenticateBasic_ok_iff : authenticateBasic state username password = .ok subject ↔
      subject = username ∧ ∃ admin, state.bootstrapAdmin = some admin ∧
        admin.username = username ∧ sha256Hex state.sha password = admin.passwordHash := by
  unfold authenticateBasic
  cases configured : state.bootstrapAdmin with
  | none => simp
  | some admin =>
    simp only [Option.some.injEq, exists_eq_left']
    split
    · rename_i matched
      simp only [Bool.and_eq_true, decide_eq_true_eq, verifyBootstrapPassword_iff] at matched
      simp [matched, eq_comm]
    rename_i refused
    simp only [Bool.and_eq_true, decide_eq_true_eq, verifyBootstrapPassword_iff] at refused
    simp only [reduceCtorEq, false_iff]
    rintro ⟨_, named, hashed⟩
    exact refused ⟨named.symm, hashed⟩

/-- What the loop over the robots does at one of them: go on, or end. -/
def tryRobot (sha : Sha256) (now : Time) (name secret : String) (robot : RobotAccount) :
    Option (Except RegistryError String) :=
  if robot.name = name && robot.enabled then
    if robot.expiresAt.any fun expiresAt => expiresAt < now then some (.error .unauthorized)
    else if constantTimeEq (sha256Hex sha secret).toByteArray.data.toList
        robot.secretHash.toByteArray.data.toList then some (.ok ("robot:" ++ name))
    else none
  else none

/-- `authenticate_robot`; the time of last use, which nothing reads, is left out. -/
def authenticateRobot (state : AppState) (now : Time) (name secret : String) : Except RegistryError String :=
  ((state.robotAccounts.entries.map (·.2)).findSome? (tryRobot state.sha now name secret)).getD
    (.error .unauthorized)

def higherPrivilegeRole : Role → Role → Role
  | .admin, _ => .admin
  | _, .admin => .admin
  | .maintainer, _ => .maintainer
  | _, .maintainer => .maintainer
  | _, _ => .reader

/-- The text after the first occurrence of a piece, and whether it starts the text. -/
def afterFirst (piece : List Char) : List Char → Option (Bool × List Char)
  | [] => if piece.isEmpty then some (true, []) else none
  | c :: rest =>
    if piece.isPrefixOf (c :: rest) then some (true, (c :: rest).drop piece.length)
    else (afterFirst piece rest).map fun found => (false, found.2)

/-- The pieces of a pattern, matched one after the other; the first one has to
start the text. -/
def matchPieces (first : Bool) (pieces : List (List Char)) (text : List Char) :
    Option (List Char) :=
  match pieces with
  | [] => some text
  | piece :: rest =>
    if piece.isEmpty then matchPieces false rest text
    else match afterFirst piece text with
      | none => none
      | some (starts, remaining) =>
        if first && !starts then none else matchPieces false rest remaining

def groupMatches (pattern group : String) : Bool :=
  if pattern = "*" then true
  else if '*' ∉ pattern.toList then pattern = group
  else match matchPieces true (pattern.toList.splitOn '*') group.toList with
    | none => false
    | some remaining => pattern.toList.getLast? = some '*' || remaining.isEmpty

def resolveRoleFromGroups (state : AppState) (subject : String) : Option Role :=
  match state.users.lookup subject with
  | none => none
  | some user =>
    let granted := state.groupRoleMappings.flatMap fun mapping =>
      (user.groups.filter (groupMatches mapping.group)).map fun _ => mapping.role
    granted.foldl (fun best role => some (best.elim role fun existing =>
      higherPrivilegeRole existing role)) none

/-- The loop over the access policies: a policy of the project ends it, a policy
of the whole tenant is remembered. -/
def policyRole (subject : String) (tenantId : Uuid) (projectId : Option Uuid) :
    List AccessPolicy → Option Role → Option Role
  | [], bestRole => bestRole
  | policy :: rest, bestRole =>
    if policy.subject ≠ subject || policy.tenantId ≠ tenantId then
      policyRole subject tenantId projectId rest bestRole
    else if projectId.isSome && policy.projectId = projectId then some policy.role
    else if policy.projectId = none then
      policyRole subject tenantId projectId rest (some policy.role)
    else policyRole subject tenantId projectId rest bestRole

def resolveRole (state : AppState) (subject : String) (tenantId : Uuid) (projectId : Option Uuid) : Role :=
  if state.bootstrapAdmin.any fun admin => subject = admin.username then .admin
  else match policyRole subject tenantId projectId state.accessPolicies none with
    | some role => role
    | none => (resolveRoleFromGroups state subject).getD .reader

/-- The role of a subject that no policy names. -/
def unlistedRole (state : AppState) (subject : String) : Role :=
  if state.bootstrapAdmin.any fun admin => subject = admin.username then .admin
  else (resolveRoleFromGroups state subject).getD .reader

theorem policyRole_unlisted (unlisted : ∀ policy ∈ policies, policy.subject ≠ subject)
    (best : Option Role) : policyRole subject tenantId projectId policies best = best := by
  induction policies with
  | nil => rfl
  | cons policy rest ih =>
    have other : policy.subject ≠ subject := unlisted policy List.mem_cons_self
    have remaining := ih fun later member => unlisted later (List.mem_cons_of_mem policy member)
    simp [policyRole, other, remaining]

theorem resolveRole_unlisted (unlisted : ∀ policy ∈ state.accessPolicies, policy.subject ≠ subject) :
    resolveRole state subject tenantId projectId = unlistedRole state subject := by
  simp only [resolveRole, unlistedRole, policyRole_unlisted unlisted]

/-- `provision_user` as the login paths call it, without groups. -/
def provisionUser (state : AppState) (subject : String) : AppState :=
  match state.users.lookup subject with
  | some user => { state with users := state.users.insert subject { user with groups := [] } }
  | none =>
    if state.autoProvisionUsers then { state with users := state.users.insert subject ⟨[]⟩ }
    else state

/-- `authenticate_request`, with the state it leaves. -/
def authenticateRequest (state : AppState) (now : Time) (authorization : Option String)
    (identityToken : String) : Except RegistryError (String × AppState) :=
  let byIdentity : Except RegistryError (String × AppState) :=
    (state.validateIdentityToken identityToken).bind fun subject =>
      .ok (subject, provisionUser state subject)
  match extractBasicAuth authorization with
  | none => byIdentity
  | some (username, password) =>
    match authenticateBasic state username password with
    | .ok subject => .ok (subject, provisionUser state subject)
    | .error _ =>
      match (Text.stripPrefix username "robot:").map fun name =>
          authenticateRobot state now name password with
      | some (.ok subject) => .ok (subject, state)
      | _ => byIdentity

end SpectonCr.Auth
