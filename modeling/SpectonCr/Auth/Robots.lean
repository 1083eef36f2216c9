import SpectonCr.Auth.Isolation

namespace SpectonCr.Auth

section Accounts

variable (state : AppState) (now : Time)

/-- The account at which the loop over the robots ends with a subject. -/
def authenticatedRobot (name secret : String) : Option RobotAccount :=
  ((state.robotAccounts.entries.map (·.2)).find? fun robot =>
    (tryRobot state.sha now name secret robot).isSome).filter fun robot =>
      tryRobot state.sha now name secret robot = some (.ok ("robot:" ++ name))

/-- The account a user name and a password authenticate. -/
def robotOf (pair : String × String) : Option RobotAccount :=
  match authenticateBasic state pair.1 pair.2 with
  | .ok _ => none
  | .error _ =>
    (Text.stripPrefix pair.1 "robot:").bind fun name => authenticatedRobot state now name pair.2

variable {state now}

theorem authenticateRobot_ok_iff : authenticateRobot state now name secret = .ok subject ↔
      subject = "robot:" ++ name ∧ ∃ robot, authenticatedRobot state now name secret = some robot := by
  rw [authenticateRobot_found]
  constructor
  · intro answer
    obtain ⟨before, robot, after, split, tried, earlier⟩ := List.findSome?_eq_some_iff.mp answer
    obtain rfl := tryRobot_ok tried
    refine ⟨rfl, robot, Option.filter_eq_some_iff.mpr ⟨?_, by simpa using tried⟩⟩
    refine List.find?_eq_some_iff_append.mpr ⟨by simp [tried], before, after, split, ?_⟩
    intro other member
    simp [earlier other member]
  · rintro ⟨rfl, robot, found⟩
    obtain ⟨first, accepted⟩ := Option.filter_eq_some_iff.mp found
    obtain ⟨_, before, after, split, earlier⟩ := List.find?_eq_some_iff_append.mp first
    refine List.findSome?_eq_some_iff.mpr ⟨before, robot, after, split, by simpa using accepted, ?_⟩
    intro other member
    simpa using earlier other member

theorem robotOf_eq_some (login : robotOf state now pair = some robot) :
    ∃ name failure, authenticateBasic state pair.1 pair.2 = .error failure ∧
      Text.stripPrefix pair.1 "robot:" = some name ∧ pair.1 = "robot:" ++ name ∧
      authenticateRobot state now name pair.2 = .ok pair.1 := by
  unfold robotOf at login
  split at login
  · cases login
  rename_i failure refused
  obtain ⟨name, stripped, found⟩ := Option.bind_eq_some_iff.mp login
  have named := Text.stripPrefix_eq_some.mp stripped
  refine ⟨name, failure, refused, stripped, named, ?_⟩
  exact authenticateRobot_ok_iff.mpr ⟨named, robot, found⟩

theorem loginSubject_of_robot (login : robotOf state now pair = some robot) :
    loginSubject state now pair.1 pair.2 = pair.1 := by
  obtain ⟨name, failure, refused, stripped, _, answered⟩ := robotOf_eq_some login
  simp [loginSubject, refused, stripped, answered]

theorem authenticateRequest_of_robot (carried : extractBasicAuth authorization = some pair)
    (login : robotOf state now pair = some robot) :
    authenticateRequest state now authorization identityToken = .ok (pair.1, state) := by
  obtain ⟨name, failure, refused, stripped, _, answered⟩ := robotOf_eq_some login
  simp [authenticateRequest, carried, refused, stripped, answered]

end Accounts

/-- No access policy is written for a robot. -/
def NoRobotPolicy (state : AppState) : Prop :=
  ∀ policy ∈ state.accessPolicies, Text.startsWith policy.subject "robot:" = false

private theorem robot_unlisted (unnamed : NoRobotPolicy state) (name : String) :
    ∀ policy ∈ state.accessPolicies, policy.subject ≠ "robot:" ++ name := by
  intro policy member same
  have refused := unnamed policy member
  rw [same, Text.startsWith_append] at refused
  cases refused

/-- The claims keep to what the account records. -/
structure KeepsTo (state : AppState) (robot : RobotAccount) (claims : TokenClaims) : Prop where
  tenant : ∃ home, state.tenants.lookup robot.tenant = some home ∧ claims.tenantId = home.id
  project : ∀ name, robot.project = some name →
    ∃ project, state.projects.lookup (claims.tenantId, name) = some project ∧
      claims.projectId = some project.id
  role : claims.role = robot.role

/-- The scope asks for what the account records, and the account records the
role that its subject resolves to. -/
structure AsksWithin (state : AppState) (robot : RobotAccount) (subject : String)
    (scope : RequestedScope) : Prop where
  tenant : ∃ home named, state.tenants.lookup robot.tenant = some home ∧
    state.tenants.lookup scope.tenant = some named ∧ named.id = home.id
  project : ∀ name named, robot.project = some name → state.tenants.lookup scope.tenant = some named →
    ∃ project, state.projects.lookup (named.id, name) = some project ∧
      lookupProject state named scope = some project.id
  role : unlistedRole state subject = robot.role

theorem requireProject_ok (success : requireProject state tenant scope.project = .ok projectId) :
    projectId = lookupProject state tenant scope := by
  unfold requireProject at success
  cases asked : scope.project with
  | none =>
    simp only [asked] at success
    simp [lookupProject, asked, ← Except.ok.inj success]
  | some name =>
    simp only [asked] at success
    cases found : state.projects.lookup (tenant.id, name) with
    | none => simp [found] at success
    | some project =>
      simp only [found] at success
      simp [lookupProject, asked, found, ← Except.ok.inj success]

private theorem keepsTo_iff (found : state.tenants.lookup scope.tenant = some tenant)
    (granted : GrantedAs claims subject (unlistedRole state subject) scope)
    (placed : IssuedIn claims tenant (lookupProject state tenant scope)) :
    KeepsTo state robot claims ↔ AsksWithin state robot subject scope := by
  constructor
  · rintro ⟨⟨home, registered, same⟩, project, role⟩
    rw [placed.inTenant] at same project
    rw [placed.inProject] at project
    rw [granted.inRole] at role
    refine ⟨⟨home, tenant, registered, found, same⟩, ?_, role⟩
    intro name named restricted lookup
    cases found.symm.trans lookup
    exact project name restricted
  · rintro ⟨⟨home, named, registered, lookup, same⟩, project, role⟩
    cases found.symm.trans lookup
    refine ⟨⟨home, registered, placed.inTenant.trans same⟩, ?_, granted.inRole.trans role⟩
    intro name restricted
    rw [placed.inTenant, placed.inProject]
    exact project name tenant restricted found

/-- A robot's token keeps to its account exactly when the request asks for the
account's tenant and project and the account has the role nobody gave it. -/
theorem robot_token_keepsTo_iff (state : AppState) (unnamed : NoRobotPolicy state) :
    (∀ request pair robot issued, request.carried.head? = some pair →
      robotOf state request.now pair = some robot → getTokenInner state request = .ok issued →
      (KeepsTo state robot issued.claims ↔ AsksWithin state robot pair.1 request.query.requestedScope)) ∧
    (∀ request pair robot issued, extractBasicAuth request.authorization = some pair →
      robotOf state request.now pair = some robot → postToken state request = .ok issued →
      (KeepsTo state robot issued.claims ↔ AsksWithin state robot pair.1 request.scope)) := by
  constructor
  · intro request pair robot issued carried login success
    have subject : dockerSubject state request = pair.1 := by
      rw [dockerSubject_eq]
      cases carries : request.carried with
      | nil =>
        rw [carries] at carried
        cases carried
      | cons first rest =>
        rw [carries] at carried
        cases carried
        exact loginSubject_of_robot login
    obtain ⟨name, _, _, _, named, _⟩ := robotOf_eq_some login
    obtain ⟨tenant, found, granted, placed⟩ := getTokenInner_ok success
    have unlisted := robot_unlisted unnamed name
    rw [← named] at unlisted
    rw [dockerRole, subject, resolveRole_unlisted unlisted] at granted
    exact keepsTo_iff found granted placed
  · intro request pair robot issued carried login success
    obtain ⟨name, _, _, _, named, _⟩ := robotOf_eq_some login
    obtain ⟨subject, after, tenant, projectId, authenticated, found, _, project, granted, placed⟩ :=
      postToken_ok success
    rw [authenticateRequest_of_robot carried login] at authenticated
    cases authenticated
    have unlisted := robot_unlisted unnamed name
    rw [← named] at unlisted
    rw [resolveRole_unlisted unlisted] at granted
    rw [requireProject_ok project] at placed
    exact keepsTo_iff found granted placed

/-- The robot `ci`, with the secret `secret`. -/
def ciRobot (tenant : String) (project : Option String) (role : Role) : RobotAccount :=
  ⟨.nil, "ci", tenant, project, role,
    "2bb80d537b1da3e38bd30361aa855686bde0eacd7162fef6a25fe97bf527a25b", none, true⟩

def robotState (robot : RobotAccount) : AppState :=
  { twoTenants with accessPolicies := [], robotAccounts := AList.insert "ci" robot ∅ }

def robotRequest : DockerRequest := demoRequest none (some "robot:ci") (some "secret")

/-- A maintainer of one tenant becomes a reader of the tenant it asks for. -/
theorem robot_leaves_tenant : robotOf (robotState (ciRobot "acme" none .maintainer)) robotRequest.now
        ("robot:ci", "secret") = some (ciRobot "acme" none .maintainer) ∧
      ∃ issued, getTokenInner (robotState (ciRobot "acme" none .maintainer)) robotRequest = .ok issued ∧
        (issued.claims.sub, issued.claims.tenantId, issued.claims.role) = ("robot:ci", .nil, .reader) ∧
        ¬ KeepsTo (robotState (ciRobot "acme" none .maintainer)) (ciRobot "acme" none .maintainer)
          issued.claims := by
  refine ⟨by decide +kernel, ?_⟩
  obtain ⟨issued, success, seen⟩ := exists_ok_of_map
    (show ((getTokenInner (robotState (ciRobot "acme" none .maintainer)) robotRequest).toOption.map
      fun issued => (issued.claims.sub, issued.claims.tenantId, issued.claims.role)) =
        some ("robot:ci", .nil, .reader) by decide +kernel)
  refine ⟨issued, success, seen, ?_⟩
  rintro ⟨_, _, role⟩
  simp only [Prod.mk.injEq] at seen
  cases seen.2.2.symm.trans role

theorem robot_kept_home : robotOf (robotState (ciRobot "demo" (some "default") .reader)) robotRequest.now
        ("robot:ci", "secret") = some (ciRobot "demo" (some "default") .reader) ∧
      ∃ issued, getTokenInner (robotState (ciRobot "demo" (some "default") .reader)) robotRequest =
          .ok issued ∧
        KeepsTo (robotState (ciRobot "demo" (some "default") .reader))
          (ciRobot "demo" (some "default") .reader) issued.claims := by
  have login : robotOf (robotState (ciRobot "demo" (some "default") .reader)) robotRequest.now
      ("robot:ci", "secret") = some (ciRobot "demo" (some "default") .reader) := by
    decide +kernel
  have here : (robotState (ciRobot "demo" (some "default") .reader)).tenants.lookup "demo" =
      some ⟨.nil, true, "demo"⟩ := by
    decide +kernel
  have scope : robotRequest.query.requestedScope.tenant = "demo" ∧
      robotRequest.query.requestedScope.project = some "default" := by
    decide +kernel
  refine ⟨login, _, rfl, ?_⟩
  refine ((robot_token_keepsTo_iff _ (by intro policy member; cases member)).1 robotRequest
    ("robot:ci", "secret") _ _ rfl login rfl).mpr ⟨?_, ?_, by decide +kernel⟩
  · exact ⟨_, _, here, scope.1 ▸ here, rfl⟩
  · intro name named restricted found
    cases restricted
    rw [scope.1] at found
    cases here.symm.trans found
    exact ⟨⟨.nil, .isPrivate⟩, by decide +kernel, by decide +kernel⟩

section Exactness

variable (sha : Storage.Sha256) (now : Time) (name secret : String) (robot : RobotAccount)

/-- An enabled account of the name whose time is over. -/
def lapsed : Bool :=
  robot.name = name && robot.enabled && robot.expiresAt.any fun expiresAt => expiresAt < now

/-- An enabled account of the name, not expired, with the hash of the secret. -/
def fits : Bool :=
  robot.name = name && robot.enabled && !(robot.expiresAt.any fun expiresAt => expiresAt < now) &&
    sha256Hex sha secret = robot.secretHash

theorem tryRobot_eq : tryRobot sha now name secret robot =
    if lapsed now name robot then some (.error .unauthorized)
    else if fits sha now name secret robot then some (.ok ("robot:" ++ name)) else none := by
  have hashed : constantTimeEq (sha256Hex sha secret).toByteArray.data.toList
      robot.secretHash.toByteArray.data.toList = decide (sha256Hex sha secret = robot.secretHash) :=
    Bool.eq_iff_iff.mpr (verifyBootstrapPassword_iff.trans decide_eq_true_iff.symm)
  rw [tryRobot, hashed, lapsed, fits]
  cases (decide (robot.name = name) && robot.enabled) with
  | false => rfl
  | true => cases robot.expiresAt.any fun expiresAt => decide (expiresAt < now) <;> simp

/-- A login succeeds if a fitting account comes before every one that has lapsed. -/
theorem authenticateRobot_isOk_iff (state : AppState) :
    (∃ subject, authenticateRobot state now name secret = .ok subject) ↔
      ∃ robot ∈ (state.robotAccounts.entries.map (·.2)).takeWhile (!lapsed now name ·),
        fits state.sha now name secret robot := by
  unfold authenticateRobot
  induction state.robotAccounts.entries.map (·.2) with
  | nil => simp
  | cons robot rest ih =>
    rw [List.findSome?_cons, tryRobot_eq, List.takeWhile_cons]
    cases late : lapsed now name robot with
    | true => simp
    | false =>
      cases good : fits state.sha now name secret robot with
      | true => simp [good]
      | false => simpa [good] using ih

/-- Login is exact if, where an account fits, one does so before any that has lapsed. -/
theorem robot_login_exact_iff (state : AppState) :
    ((∃ subject, authenticateRobot state now name secret = .ok subject) ↔
      ∃ robot ∈ state.robotAccounts.entries.map (·.2), fits state.sha now name secret robot) ↔
    ((∃ robot ∈ state.robotAccounts.entries.map (·.2), fits state.sha now name secret robot) →
      ∃ robot ∈ (state.robotAccounts.entries.map (·.2)).takeWhile (!lapsed now name ·),
        fits state.sha now name secret robot) := by
  rw [authenticateRobot_isOk_iff]
  constructor
  · exact fun exact => exact.mpr
  · intro front
    refine ⟨?_, front⟩
    rintro ⟨robot, member, good⟩
    exact ⟨robot, (List.takeWhile_sublist _).mem member, good⟩

/-- The account of another tenant with the same name has expired and comes first. -/
theorem expired_namesake_refuses :
    let accounts := AList.insert "1" { ciRobot "demo" none .reader with expiresAt := some 0 }
      (AList.insert "2" (ciRobot "acme" none .reader) ∅)
    let state : AppState := { twoTenants with robotAccounts := accounts }
    authenticateRobot state 1 "ci" "secret" = .error .unauthorized ∧
      fits state.sha 1 "ci" "secret" (ciRobot "acme" none .reader) = true ∧
      ciRobot "acme" none .reader ∈ state.robotAccounts.entries.map (·.2) := by
  decide +kernel

end Exactness

end SpectonCr.Auth
