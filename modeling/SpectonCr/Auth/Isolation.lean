import SpectonCr.Auth.Login

/-! How far an issued token reaches. -/

namespace SpectonCr.Auth

open Registry Storage

/-- The scope names the repository, by its parts or by its full path. -/
def Names (scope : RequestedScope) (tenant project name : String) : Prop :=
  scope.tenant = tenant ∧ ((scope.project = some project ∧ scope.repository = some name) ∨
      scope.repository = some (repoPath tenant project name))

/-- What a request names: one path segment for the tenant, and any decoded text for the rest, with
slashes if they were escaped. -/
def Addressed (tenant project name : String) : Prop := Plain tenant ∧ project ≠ "" ∧ name ≠ ""

/-- Whatever the registry accepts the claims for lies in the tenant the role was
resolved for, and was named by the scope. -/
def Isolated (scope : RequestedScope) (claims : TokenClaims) : Prop :=
  ∀ tenant project name action, Addressed tenant project name →
    authorize claims tenant project name action = .ok () → Names scope tenant project name

/-- The role is checked against the scope, and the scope's text is no pattern
and no path into another tenant. -/
def Confined (role : Role) (scope : RequestedScope) : Prop :=
  role ≠ .admin ∧ ((∀ action ∈ scope.actions, role.can action = false) ∨ (scope.repository ≠ some "*" ∧
        ∀ tenant project name, Addressed tenant project name →
          scope.repository = some (repoPath tenant project name) → tenant = scope.tenant))

private theorem eq_some_of_getD (present : text ≠ "") (same : repository.getD "" = text) :
    repository = some text := by
  cases repository with
  | none => exact absurd same.symm present
  | some _ => exact congrArg some same

private theorem exists_foreign (tenant : String) : ∃ other, other ≠ tenant ∧ Addressed other "app" "web" := by
  by_cases same : tenant = "a"
  · exact ⟨"b", by simp [same], by decide, by decide, by decide⟩
  · exact ⟨"a", fun other => same other.symm, by decide, by decide, by decide⟩

theorem isolated_iff (granted : GrantedAs claims subject role scope) :
    Isolated scope claims ↔ Confined role scope := by
  constructor
  · intro isolated
    have everywhere : ∀ action, ¬ ∀ tenant project name,
        authorize claims tenant project name action = .ok () := by
      intro action accepted
      obtain ⟨other, foreign, plain⟩ := exists_foreign scope.tenant
      exact foreign (isolated other "app" "web" action plain (accepted _ _ _)).1.symm
    refine ⟨?_, ?_⟩
    · intro admin
      apply everywhere .pull
      intro tenant project name
      exact (authorize_granted granted).mpr ⟨role.can_pull, .inl admin⟩
    · by_cases useless : ∀ action ∈ scope.actions, role.can action = false
      · exact .inl useless
      right
      simp only [not_forall, Bool.not_eq_false] at useless
      obtain ⟨action, requested, permitted⟩ := useless
      constructor
      · intro pattern
        apply everywhere action
        intro tenant project name
        exact (authorize_granted granted).mpr
          ⟨permitted, .inr ⟨.inr (by rw [pattern, Option.getD_some]), requested⟩⟩
      · intro tenant project name plain path
        have accepted := (authorize_granted granted).mpr
          ⟨permitted, .inr ⟨.inl (by rw [path, Option.getD_some]), requested⟩⟩
        exact (isolated tenant project name action plain accepted).1.symm
  · rintro ⟨ordinary, limits⟩ tenant project name action plain accepted
    obtain ⟨permitted, admin | ⟨path, requested⟩⟩ := (authorize_granted granted).mp accepted
    · exact absurd admin ordinary
    · rcases limits with useless | ⟨literal, home⟩
      · rw [useless action requested] at permitted
        cases permitted
      rcases path with full | pattern
      · have named := eq_some_of_getD (ne_repoPath (by decide)).symm full
        exact ⟨(home tenant project name plain named).symm, .inr named⟩
      · exact absurd (eq_some_of_getD (by decide) pattern) literal

/-- The tokens of both endpoints, with the role each resolves. -/
theorem issued_isolated_iff (state : AppState) : (∀ request issued, getTokenInner state request = .ok issued →
      ∃ tenant, state.tenants.lookup request.query.requestedScope.tenant = some tenant ∧
        (Isolated request.query.requestedScope issued.claims ↔
          Confined (dockerRole state request tenant) request.query.requestedScope)) ∧
    (∀ request issued, postToken state request = .ok issued → ∃ subject after tenant projectId,
        authenticateRequest state request.now request.authorization request.identityToken =
          .ok (subject, after) ∧
        after.tenants.lookup request.scope.tenant = some tenant ∧
        requireProject after tenant request.scope.project = .ok projectId ∧
        (Isolated request.scope issued.claims ↔
          Confined (resolveRole after subject tenant.id projectId) request.scope)) := by
  constructor
  · intro request issued success
    obtain ⟨tenant, found, granted, _⟩ := getTokenInner_ok success
    exact ⟨tenant, found, isolated_iff granted⟩
  · intro request issued success
    obtain ⟨subject, after, tenant, projectId, authenticated, found, _, project, granted, _⟩ :=
      postToken_ok success
    exact ⟨subject, after, tenant, projectId, authenticated, found, project, isolated_iff granted⟩

/-- A second tenant, and a policy that makes `ops` an administrator of the first. -/
def twoTenants : AppState :=
  { demoState with
    tenants := demoState.tenants.insert "acme" ⟨⟨List.replicate 16 1, rfl⟩, true, "acme"⟩
    accessPolicies := [⟨.nil, .nil, none, "ops", .admin, 0⟩]
    validateIdentityToken := fun _ => .ok "ops" }

def scopeRequest (scope : String) : DockerRequest := ⟨none, ⟨some scope, none, none, none⟩, 0, .nil⟩

def opsRequest : TokenRequest :=
  ⟨none, "header.ops.signature", ⟨"demo", none, some "app", [.pull]⟩, false, 0, .nil⟩

private theorem not_isolated (action : Action)
    (accepted : authorize claims "acme" "web" "app" action = .ok ())
    (elsewhere : scope.tenant ≠ "acme") : ¬ Isolated scope claims := by
  intro isolated
  exact elsewhere (isolated "acme" "web" "app" action ⟨by decide, by decide, by decide⟩ accepted).1

/-- A reader of one tenant pulls from another by a longer scope, and an
administrator of one tenant deletes in another. -/
theorem tokens_cross_tenants :
    (∃ issued, getTokenInner twoTenants (scopeRequest "repository:demo/default/acme/web/app:pull") =
        .ok issued ∧
      issued.claims.sub = "anonymous" ∧ issued.claims.role = .reader ∧
      authorize issued.claims "acme" "web" "app" .pull = .ok () ∧
      ¬ Isolated (scopeRequest "repository:demo/default/acme/web/app:pull").query.requestedScope
        issued.claims) ∧
    (∃ issued, postToken twoTenants opsRequest = .ok issued ∧ issued.claims.sub = "ops" ∧
      authorize issued.claims "acme" "web" "app" .delete = .ok () ∧
      ¬ Isolated opsRequest.scope issued.claims) := by
  constructor
  · refine ⟨_, rfl, by decide +kernel, by decide +kernel, by decide +kernel, ?_⟩
    exact not_isolated .pull (by decide +kernel) (by decide +kernel)
  · refine ⟨_, rfl, by decide +kernel, by decide +kernel, ?_⟩
    exact not_isolated .delete (by decide +kernel) (by decide)

/-- A plain pull scope reaches nothing outside its tenant. -/
theorem plain_scope_isolated :
    ∃ issued, getTokenInner twoTenants (scopeRequest "repository:demo/default/app:pull") = .ok issued ∧
      Isolated (scopeRequest "repository:demo/default/app:pull").query.requestedScope issued.claims := by
  refine ⟨_, rfl, ?_⟩
  obtain ⟨tenant, found, characterised⟩ := (issued_isolated_iff twoTenants).1
    (scopeRequest "repository:demo/default/app:pull") _ rfl
  cases found.symm.trans (by decide +kernel : _ = some ⟨.nil, true, "demo"⟩)
  have named : (scopeRequest "repository:demo/default/app:pull").query.requestedScope.repository =
      some "app" := by
    decide +kernel
  refine characterised.mpr ⟨by decide +kernel, .inr ⟨by simp [named], ?_⟩⟩
  intro tenant project name _ path
  exact absurd (Option.some.inj (named.symm.trans path)) (ne_repoPath (by decide))

end SpectonCr.Auth
