import SpectonCr.Auth.Token

namespace SpectonCr.Auth

/-- The credentials in a request: the header's first, then the form's. -/
def DockerRequest.carried (request : DockerRequest) : List (String × String) :=
  (extractBasicAuth request.authorization).toList ++
    match request.query.username, request.query.password with
    | some username, some password => [(username, password)]
    | _, _ => []

section Credentials

variable (state : AppState) (now : Time)

/-- The pair is the bootstrap administrator's. -/
def BasicAccepts (pair : String × String) (subject : String) : Prop :=
  authenticateBasic state pair.1 pair.2 = .ok subject

/-- The pair is a robot's login name and secret. -/
def RobotAccepts (pair : String × String) (subject : String) : Prop :=
  ∃ name, pair.1 = "robot:" ++ name ∧ authenticateRobot state now name pair.2 = .ok subject

variable {state now}

theorem BasicAccepts.admin (accepted : BasicAccepts state pair subject) :
    subject = pair.1 ∧ ∃ admin, state.bootstrapAdmin = some admin ∧ admin.username = subject := by
  obtain ⟨rfl, admin, configured, named, _⟩ := authenticateBasic_ok_iff.mp accepted
  exact ⟨rfl, admin, configured, named⟩

theorem tryRobot_ok (accepted : tryRobot sha now name secret robot = some (.ok subject)) :
    subject = "robot:" ++ name := by
  unfold tryRobot at accepted
  split at accepted
  · split at accepted
    · cases accepted
    · split at accepted
      · exact (Except.ok.inj (Option.some.inj accepted)).symm
      · cases accepted
  · cases accepted

theorem authenticateRobot_found : authenticateRobot state now name secret = .ok subject ↔
    (state.robotAccounts.entries.map (·.2)).findSome? (tryRobot state.sha now name secret) =
      some (.ok subject) := by
  unfold authenticateRobot
  cases (state.robotAccounts.entries.map (·.2)).findSome? _ <;> simp

theorem RobotAccepts.subject {pair : String × String} {subject : String}
    (accepted : RobotAccepts state now pair subject) : subject = pair.1 := by
  obtain ⟨name, login, answered⟩ := accepted
  obtain ⟨robot, _, tried⟩ := List.exists_of_findSome?_eq_some (authenticateRobot_found.mp answered)
  rw [tryRobot_ok tried, login]

theorem loginSubject_cases (pair : String × String) :
    BasicAccepts state pair (loginSubject state now pair.1 pair.2) ∨
      ((∀ subject, ¬ BasicAccepts state pair subject) ∧
        RobotAccepts state now pair (loginSubject state now pair.1 pair.2)) ∨
      ((∀ subject, ¬ BasicAccepts state pair subject) ∧ (∀ subject, ¬ RobotAccepts state now pair subject) ∧
          loginSubject state now pair.1 pair.2 = "anonymous") := by
  unfold loginSubject BasicAccepts RobotAccepts
  cases basic : authenticateBasic state pair.1 pair.2 with
  | ok subject => exact .inl rfl
  | error _ =>
    right
    cases login : Text.stripPrefix pair.1 "robot:" with
    | none =>
      right
      refine ⟨by simp, ?_, rfl⟩
      rintro subject ⟨name, named, _⟩
      rw [Text.stripPrefix_eq_some.mpr named] at login
      cases login
    | some name =>
      cases robot : authenticateRobot state now name pair.2 with
      | ok subject =>
        left
        exact ⟨by simp, name, Text.stripPrefix_eq_some.mp login, by simp [robot]⟩
      | error failure =>
        right
        refine ⟨by simp, ?_, by simp [robot]⟩
        rintro subject ⟨other, named, accepted⟩
        rw [Text.stripPrefix_eq_some.mpr named] at login
        cases login
        rw [robot] at accepted
        cases accepted

end Credentials

theorem dockerSubject_eq (state : AppState) (request : DockerRequest) : dockerSubject state request =
      match request.carried with
      | pair :: _ => loginSubject state request.now pair.1 pair.2
      | [] => request.query.account.getD "anonymous" := by
  unfold dockerSubject DockerRequest.carried
  cases extractBasicAuth request.authorization with
  | some pair => rfl
  | none =>
    cases request.query.username with
    | none => rfl
    | some username =>
      cases request.query.password with
      | none | some password => rfl

section Subject

variable (state : AppState) (request : DockerRequest)

/-- The subject was shown by a secret in the request, and the administrator's
name by the bootstrap password. -/
def Authenticated (subject : String) : Prop :=
  (subject ≠ "anonymous" → ∃ pair ∈ request.carried,
    BasicAccepts state pair subject ∨ RobotAccepts state request.now pair subject) ∧
  ∀ admin, state.bootstrapAdmin = some admin → subject = admin.username →
    ∃ pair ∈ request.carried, BasicAccepts state pair admin.username

/-- The credentials the endpoint looks at are a robot's. -/
def RobotLogin (username : String) : Prop :=
  ∃ pair, request.carried.head? = some pair ∧ RobotAccepts state request.now pair username

/-- No account is taken on trust, and the administrator's name is neither the
robot's that logs in nor the anonymous one. -/
def SoundLogin : Prop :=
  (request.carried = [] → ∀ account, request.query.account = some account → account = "anonymous") ∧
  ∀ admin, state.bootstrapAdmin = some admin →
    (∃ pair ∈ request.carried, BasicAccepts state pair admin.username) ∨
      (¬ RobotLogin state request admin.username ∧
        (admin.username = "anonymous" → ∃ username, RobotLogin state request username))

variable {state request}

private theorem authenticated_of_none (none : request.carried = []) :
    Authenticated state request (request.query.account.getD "anonymous") ↔ SoundLogin state request := by
  have robots : ∀ username, ¬ RobotLogin state request username := by
    rintro username ⟨pair, head, _⟩
    simp [none] at head
  have accounts : request.query.account.getD "anonymous" = "anonymous" ↔
      ∀ account, request.query.account = some account → account = "anonymous" := by
    cases request.query.account <;> simp
  simp only [Authenticated, SoundLogin, none, List.not_mem_nil, false_and, exists_false,
    imp_false, not_not, forall_const, false_or, robots, not_false_eq_true, true_and]
  rw [← accounts]
  constructor
  · rintro ⟨anonymous, admins⟩
    exact ⟨anonymous, fun admin configured same =>
      admins admin configured (anonymous.trans same.symm)⟩
  · rintro ⟨anonymous, admins⟩
    exact ⟨anonymous, fun admin configured same =>
      admins admin configured (same.symm.trans anonymous)⟩

private theorem robotLogin_iff (carries : request.carried = pair :: rest) (username : String) :
    RobotLogin state request username ↔ RobotAccepts state request.now pair username := by
  simp [RobotLogin, carries]

private theorem authenticated_of_pair (carries : request.carried = pair :: rest) :
    Authenticated state request (loginSubject state request.now pair.1 pair.2) ↔
      SoundLogin state request := by
  have used : pair ∈ request.carried := by simp [carries]
  have empty : request.carried ≠ [] := by simp [carries]
  have outcomes := @loginSubject_cases state request.now pair
  rcases outcomes with basic | ⟨_, robot⟩ | ⟨_, stranger, anonymous⟩
  · obtain ⟨_, owner, configured, named⟩ := basic.admin
    rw [← named] at basic ⊢
    have shown : ∃ pair ∈ request.carried, BasicAccepts state pair owner.username := ⟨pair, used, basic⟩
    constructor
    · intro _
      refine ⟨fun none => absurd none empty, fun admin other => .inl ?_⟩
      cases configured.symm.trans other
      exact shown
    · intro _
      exact ⟨fun _ => ⟨pair, used, .inl basic⟩, fun admin _ same => same ▸ shown⟩
  · have login := robot.subject
    rw [login] at robot ⊢
    have only : ∀ username, RobotLogin state request username ↔ username = pair.1 := by
      intro username
      rw [robotLogin_iff carries]
      exact ⟨RobotAccepts.subject, fun same => same ▸ robot⟩
    constructor
    · rintro ⟨_, admins⟩
      refine ⟨fun none => absurd none empty, fun admin configured => ?_⟩
      by_cases same : pair.1 = admin.username
      · exact .inl (admins admin configured same)
      · exact .inr ⟨fun robotAdmin => same ((only _).mp robotAdmin).symm, fun _ => ⟨pair.1, (only _).mpr rfl⟩⟩
    · rintro ⟨_, admins⟩
      refine ⟨fun _ => ⟨pair, used, .inr robot⟩, fun admin configured same => ?_⟩
      rcases admins admin configured with shown | ⟨apart, _⟩
      · exact shown
      · exact absurd ((only _).mpr same.symm) apart
  · rw [anonymous]
    have robots : ∀ username, ¬ RobotLogin state request username := by
      intro username
      rw [robotLogin_iff carries]
      exact stranger username
    constructor
    · rintro ⟨_, admins⟩
      refine ⟨fun none => absurd none empty, fun admin configured => ?_⟩
      by_cases same : "anonymous" = admin.username
      · exact .inl (admins admin configured same)
      · exact .inr ⟨robots _, fun again => absurd again.symm same⟩
    · rintro ⟨_, admins⟩
      refine ⟨fun named => absurd rfl named, fun admin configured same => ?_⟩
      rcases admins admin configured with shown | ⟨_, someone⟩
      · exact shown
      · obtain ⟨username, login⟩ := someone same.symm
        exact absurd login (robots username)

/-- A token's subject was authenticated exactly on the requests listed here. -/
theorem issued_subject_authenticated_iff {issued : IssuedToken}
    (success : getTokenInner state request = .ok issued) :
    Authenticated state request issued.claims.sub ↔ SoundLogin state request := by
  obtain ⟨_, _, granted, _⟩ := getTokenInner_ok success
  rw [granted.forSubject, dockerSubject_eq]
  cases carries : request.carried with
  | nil => exact authenticated_of_none carries
  | cons pair rest => exact authenticated_of_pair carries

end Subject

private def secretHash : List UInt8 :=
  [0x2b, 0xb8, 0x0d, 0x53, 0x7b, 0x1d, 0xa3, 0xe3, 0x8b, 0xd3, 0x03, 0x61,
    0xaa, 0x85, 0x56, 0x86, 0xbd, 0xe0, 0xea, 0xcd, 0x71, 0x62, 0xfe, 0xf6,
    0xa2, 0x5f, 0xe9, 0x7b, 0xf5, 0x27, 0xa2, 0x5b]

/-- The service with its demo tenant, an administrator whose password is
`secret`, and no other policy. -/
def demoState : AppState where
  sha := .ofTable [("secret".toByteArray, secretHash)] (by decide)
  encode _ := some "header.claims.signature"
  validateIdentityToken _ := .error (.tokenInvalid "identity token is not a valid JWT (expected 3 parts)")
  validateGithubOidcToken _ := .ok ⟨"acme/app", "acme"⟩
  tenants := AList.insert "demo" ⟨.nil, true, "demo"⟩ ∅
  projects := AList.insert (.nil, "default") ⟨.nil, .isPrivate⟩ ∅
  accessPolicies := []
  bootstrapAdmin := some ⟨"admin", "2bb80d537b1da3e38bd30361aa855686bde0eacd7162fef6a25fe97bf527a25b"⟩
  issuer := "specton-auth"
  audience := "specton-registry"
  tokenTtlSeconds := 300
  groupRoleMappings := []
  autoProvisionUsers := true
  githubOidcConfig := some ⟨[], [], "reader"⟩
  users := ∅
  robotAccounts := ∅

/-- A request with a scope for the demo project, and the given form fields. -/
def demoRequest (account username password : Option String) : DockerRequest :=
  ⟨none, ⟨some "repository:demo/default/app:pull", account, username, password⟩, 0, .nil⟩

/-- A request that only says it is the administrator's gets the administrator's token. -/
theorem account_field_impersonates_admin :
    ∃ issued, getTokenInner demoState (demoRequest (some "admin") none none) = .ok issued ∧
      issued.claims.role = .admin ∧
        ¬ Authenticated demoState (demoRequest (some "admin") none none) issued.claims.sub := by
  refine ⟨_, rfl, by decide, ?_⟩
  rintro ⟨shown, _⟩
  obtain ⟨pair, member, _⟩ := shown (by decide)
  cases member

theorem bootstrap_password_authenticates :
    ∃ issued, getTokenInner demoState (demoRequest none (some "admin") (some "secret")) = .ok issued ∧
      Authenticated demoState (demoRequest none (some "admin") (some "secret")) issued.claims.sub := by
  have accepted : BasicAccepts demoState ("admin", "secret") "admin" := by
    unfold BasicAccepts
    decide +kernel
  refine ⟨_, rfl, (issued_subject_authenticated_iff rfl).mpr ⟨?_, ?_⟩⟩
  · intro none
    cases none
  · intro admin configured
    cases configured
    exact .inl ⟨("admin", "secret"), List.mem_singleton.mpr rfl, accepted⟩

end SpectonCr.Auth
