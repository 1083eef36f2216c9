import SpectonCr.Auth.CiExchange

namespace SpectonCr.Auth

/-- An enabled tenant is registered under the identifier. -/
def EnabledId (tenants : Table String Tenant) (id : Uuid) : Prop :=
  ∃ name tenant, tenants.lookup name = some tenant ∧ tenant.id = id ∧ tenant.enabled = true

/-- The tenant of that name is enabled, or one that shares its identifier. -/
def EnabledName (tenants : Table String Tenant) (name : String) : Prop :=
  ∃ tenant, tenants.lookup name = some tenant ∧ EnabledId tenants tenant.id

private theorem enabledId_iff (found : tenants.lookup name = some tenant)
    (placed : IssuedIn claims tenant projectId) :
    EnabledId tenants claims.tenantId ↔ EnabledName tenants name := by
  rw [placed.inTenant]
  constructor
  · intro enabled
    exact ⟨tenant, found, enabled⟩
  · rintro ⟨named, registered, enabled⟩
    cases registered.symm.trans found
    exact enabled

theorem provisionUser_tenants (state : AppState) (subject : String) :
    (provisionUser state subject).tenants = state.tenants := by
  unfold provisionUser
  split
  · rfl
  · split <;> rfl

theorem authenticateRequest_tenants
    (authenticated : authenticateRequest state now authorization identityToken = .ok (subject, after)) :
    after.tenants = state.tenants := by
  have byIdentity : ∀ {subject after}, ((state.validateIdentityToken identityToken).bind fun subject =>
        (.ok (subject, provisionUser state subject) : Except RegistryError _)) =
          .ok (subject, after) → after.tenants = state.tenants := by
    intro subject after accepted
    obtain ⟨_, _, kept⟩ := bind_ok accepted
    cases kept
    exact provisionUser_tenants state _
  simp only [authenticateRequest] at authenticated
  split at authenticated
  · exact byIdentity authenticated
  split at authenticated
  · cases authenticated
    exact provisionUser_tenants state _
  split at authenticated
  · cases authenticated
    rfl
  · exact byIdentity authenticated

/-- A token of `post_token` is always for an enabled tenant; one of another
handler only if the tenant that its request names is. -/
theorem issued_tenant_enabled_iff (state : AppState) :
    (∀ request issued, postToken state request = .ok issued →
      EnabledId state.tenants issued.claims.tenantId) ∧
    (∀ request issued, getTokenInner state request = .ok issued →
      (EnabledId state.tenants issued.claims.tenantId ↔
        EnabledName state.tenants request.query.requestedScope.tenant)) ∧
    (∀ request issued, githubActionsToken state request = .ok issued →
      (EnabledId state.tenants issued.claims.tenantId ↔ EnabledName state.tenants request.tenant)) ∧
    (∀ (Key : Type) (lib : JwtLib Key) fetch (service : CiService Key) request issued,
      service.state = state → (ciTokenExchange lib fetch service request).1 = .ok issued →
      (EnabledId state.tenants issued.claims.tenantId ↔ EnabledName state.tenants request.tenant)) := by
  refine ⟨?_, ?_, ?_, ?_⟩
  · intro request issued success
    obtain ⟨subject, after, tenant, projectId, authenticated, found, enabled, _, _, placed⟩ :=
      postToken_ok success
    rw [authenticateRequest_tenants authenticated] at found
    rw [placed.inTenant]
    exact ⟨request.scope.tenant, tenant, found, rfl, enabled⟩
  · intro request issued success
    obtain ⟨tenant, found, _, placed⟩ := getTokenInner_ok success
    exact enabledId_iff found placed
  · intro request issued success
    obtain ⟨_, _, tenant, _, _, _, _, found, _, placed⟩ := githubActionsToken_ok success
    exact enabledId_iff found placed
  · rintro Key lib fetch service request issued rfl success
    obtain ⟨_, _, tenant, _, _, _, _, _, _, _, found, _, placed⟩ := ciTokenExchange_ok success
    exact enabledId_iff found placed

/-- The demo tenant, suspended. -/
def suspendedState : AppState := { demoState with tenants := AList.insert "demo" ⟨.nil, false, "demo"⟩ ∅ }

private theorem not_enabledId (id : Uuid) : ¬ EnabledId suspendedState.tenants id := by
  rintro ⟨name, tenant, found, _, enabled⟩
  rcases Table.lookup_insert_cases found with ⟨_, rfl⟩ | ⟨_, other⟩
  · cases enabled
  · cases other

/-- Three handlers issue tokens for the suspended tenant. -/
theorem suspended_tenant_issued :
    (∃ issued, getTokenInner suspendedState (demoRequest none (some "admin") (some "secret")) =
        .ok issued ∧ ¬ EnabledId suspendedState.tenants issued.claims.tenantId) ∧
    (∃ issued, githubActionsToken suspendedState (workflowGithubRequest unsignedToken) =
        .ok issued ∧ ¬ EnabledId suspendedState.tenants issued.claims.tenantId) ∧
    (∃ issued, (ciTokenExchange workflowLib workflowFetch { workflowService [] with state := suspendedState }
        (workflowCiRequest unsignedToken)).1 = .ok issued ∧
      ¬ EnabledId suspendedState.tenants issued.claims.tenantId) := by
  refine ⟨⟨_, rfl, not_enabledId _⟩, ⟨_, rfl, not_enabledId _⟩, ?_⟩
  obtain ⟨issued, success, _⟩ := exists_ok_of_map (show ((ciTokenExchange workflowLib workflowFetch
      { workflowService [] with state := suspendedState }
      (workflowCiRequest unsignedToken)).1.toOption.map fun issued => issued.claims.role) =
        some .maintainer by decide +kernel)
  exact ⟨issued, success, not_enabledId _⟩

theorem enabled_tenant_issued :
    ∃ issued, getTokenInner demoState (demoRequest none (some "admin") (some "secret")) =
        .ok issued ∧ EnabledId demoState.tenants issued.claims.tenantId := by
  refine ⟨_, rfl, ((issued_tenant_enabled_iff demoState).2.1
    (demoRequest none (some "admin") (some "secret")) _ rfl).mpr ?_⟩
  exact ⟨⟨.nil, true, "demo"⟩, by decide +kernel, "demo", ⟨.nil, true, "demo"⟩, by decide +kernel, rfl, rfl⟩

end SpectonCr.Auth
