import SpectonCr.Auth.Groups

namespace SpectonCr.Auth

open Registry

section Private

variable (state : AppState)

def PrivateProject (tenantName projectName : String) : Prop :=
  ∃ tenant project, state.tenants.lookup tenantName = some tenant ∧
    state.projects.lookup (tenant.id, projectName) = some project ∧
    project.visibility = .isPrivate

/-- Nobody vouched for the subject, or neither a policy of the tenant nor a mapping to it names the
subject. -/
def Unprivileged (request : DockerRequest) : Prop :=
  dockerSubject state request = "anonymous" ∨
    ∀ tenant, state.tenants.lookup request.query.requestedScope.tenant = some tenant →
      (∀ policy ∈ state.accessPolicies, policy.subject = dockerSubject state request →
        policy.tenantId ≠ tenant.id) ∧
      ∀ user, state.users.lookup (dockerSubject state request) = some user →
        ∀ mapping ∈ state.groupRoleMappings, mapping.tenant = request.query.requestedScope.tenant →
            ∀ group ∈ user.groups, groupMatches mapping.group group = false

/-- The token lists no action for a private project that its scope names, and the registry accepts
it for no repository of a private project. -/
structure HidesPrivate (scope : RequestedScope) (claims : TokenClaims) : Prop where
  listed : ∀ project, scope.project = some project → PrivateProject state scope.tenant project →
    ∀ granted ∈ claims.scopes, granted.actions = []
  accepted : ∀ tenant project name action, PrivateProject state tenant project →
    authorize claims tenant project name action ≠ .ok ()

/-- The role permits nothing that the scope asks for in a private project, and gives no way to one
by rights, a pattern or a full path. -/
structure AsksNothingPrivate (role : Role) (scope : RequestedScope) : Prop where
  named : ∀ project, scope.project = some project → PrivateProject state scope.tenant project →
    ∀ action ∈ scope.actions, role.can action = false
  reached : ∀ tenant project, PrivateProject state tenant project → role ≠ .admin ∧
    ∀ action ∈ scope.actions, role.can action = true → scope.repository.getD "" ≠ "*" ∧
        ∀ name, scope.repository.getD "" ≠ repoPath tenant project name

variable {state}

theorem hidesPrivate_iff (granted : GrantedAs claims subject role scope) :
    HidesPrivate state scope claims ↔ AsksNothingPrivate state role scope := by
  have actions : (∀ listed ∈ claims.scopes, listed.actions = []) ↔
      ∀ action ∈ scope.actions, role.can action = false := by
    rw [granted.withScope]
    simp [List.filter_eq_nil_iff]
  constructor
  · intro hides
    constructor
    · intro project named hidden
      exact actions.mp (hides.listed project named hidden)
    · intro tenant project hidden
      constructor
      · intro admin
        exact hides.accepted tenant project "" .pull hidden
          ((authorize_granted granted).mpr ⟨role.can_pull, .inl admin⟩)
      · intro action requested permitted
        constructor
        · intro pattern
          exact hides.accepted tenant project "" action hidden
            ((authorize_granted granted).mpr ⟨permitted, .inr ⟨.inr pattern, requested⟩⟩)
        · intro name path
          exact hides.accepted tenant project name action hidden
            ((authorize_granted granted).mpr ⟨permitted, .inr ⟨.inl path, requested⟩⟩)
  · intro asks
    constructor
    · intro project named hidden
      exact actions.mpr (asks.named project named hidden)
    · intro tenant project name action hidden accepted
      obtain ⟨ordinary, apart⟩ := asks.reached tenant project hidden
      obtain ⟨permitted, admin | ⟨path, requested⟩⟩ := (authorize_granted granted).mp accepted
      · exact ordinary admin
      · obtain ⟨literal, elsewhere⟩ := apart action requested permitted
        rcases path with full | pattern
        · exact elsewhere name full
        · exact literal pattern

end Private

/-- A token of the Docker endpoint hides the private projects exactly if its role and scope ask for
nothing in them. -/
theorem private_projects_hidden_iff (state : AppState) (request : DockerRequest) (issued : IssuedToken)
    (success : getTokenInner state request = .ok issued) :
    ∃ tenant, state.tenants.lookup request.query.requestedScope.tenant = some tenant ∧
      (HidesPrivate state request.query.requestedScope issued.claims ↔
        AsksNothingPrivate state (dockerRole state request tenant) request.query.requestedScope) := by
  obtain ⟨tenant, found, granted, _⟩ := getTokenInner_ok success
  exact ⟨tenant, found, hidesPrivate_iff granted⟩

theorem demo_default_private : PrivateProject demoState "demo" "default" :=
  ⟨⟨.nil, true, "demo"⟩, ⟨.nil, .isPrivate⟩, by decide +kernel, by decide +kernel, rfl⟩

/-- A request to push gets a reader's token without actions. -/
theorem refused_push_hidden :
    ∃ issued, getTokenInner demoState (scopeRequest "repository:demo/default/app:push") = .ok issued ∧
      HidesPrivate demoState
        (scopeRequest "repository:demo/default/app:push").query.requestedScope issued.claims := by
  refine ⟨_, rfl, ?_⟩
  obtain ⟨tenant, found, characterised⟩ := private_projects_hidden_iff demoState
    (scopeRequest "repository:demo/default/app:push") _ rfl
  cases found.symm.trans (by decide +kernel : _ = some ⟨.nil, true, "demo"⟩)
  have refused : dockerRole demoState (scopeRequest "repository:demo/default/app:push")
        ⟨.nil, true, "demo"⟩ = .reader ∧
      ∀ action ∈ (scopeRequest "repository:demo/default/app:push").query.requestedScope.actions,
        Role.reader.can action = false := by
    decide +kernel
  refine characterised.mpr ?_
  rw [refused.1]
  refine ⟨fun _ _ _ => refused.2, fun _ _ _ => ⟨by decide, ?_⟩⟩
  intro action requested permitted
  rw [refused.2 action requested] at permitted
  cases permitted

/-- Without credentials, a token lists `pull` for the private project of its scope, and one for a
longer scope is accepted there. -/
theorem anonymous_pulls_private :
    (∃ issued, getTokenInner demoState (scopeRequest "repository:demo/default/app:pull") = .ok issued ∧
      dockerSubject demoState (scopeRequest "repository:demo/default/app:pull") = "anonymous" ∧
      PrivateProject demoState "demo" "default" ∧
      issued.claims.scopes = [⟨"app", [.pull]⟩] ∧
      ¬ HidesPrivate demoState
        (scopeRequest "repository:demo/default/app:pull").query.requestedScope issued.claims) ∧
    (∃ issued, getTokenInner demoState
        (scopeRequest "repository:demo/default/demo/default/app:pull") = .ok issued ∧
      Unprivileged demoState (scopeRequest "repository:demo/default/demo/default/app:pull") ∧
      authorize issued.claims "demo" "default" "app" .pull = .ok ()) := by
  refine ⟨⟨_, rfl, rfl, demo_default_private, by decide +kernel, ?_⟩, ⟨_, rfl, .inl rfl, by decide +kernel⟩⟩
  intro hides
  have listed := hides.listed "default" (by decide +kernel)
    ((show (scopeRequest "repository:demo/default/app:pull").query.requestedScope.tenant = "demo" by
      decide +kernel) ▸ demo_default_private)
  revert listed
  decide +kernel

end SpectonCr.Auth
