import SpectonCr.Auth.Groups

namespace SpectonCr.Auth

/-- The credentials in the header are a robot's, and not the administrator's. -/
def ByRobot (state : AppState) (now : Time) (authorization : Option String) : Prop :=
  ∃ pair, extractBasicAuth authorization = some pair ∧
    (∀ subject, ¬ BasicAccepts state pair subject) ∧ ∃ subject, RobotAccepts state now pair subject

/-- A login leaves every user record, and the role of its subject everywhere. -/
structure LoginKeeps (state after : AppState) (subject : String) : Prop where
  records : ∀ name user, state.users.lookup name = some user → after.users.lookup name = some user
  roles : ∀ tenantId projectId,
    resolveRole after subject tenantId projectId = resolveRole state subject tenantId projectId

section Effect

variable {state after : AppState} {now : Time} {authorization : Option String}
  {identityToken subject : String}

theorem authenticateRequest_after
    (authenticated : authenticateRequest state now authorization identityToken = .ok (subject, after)) :
    ByRobot state now authorization ∧ after = state ∨
      ¬ ByRobot state now authorization ∧ after = provisionUser state subject := by
  have byIdentity : ((state.validateIdentityToken identityToken).bind fun subject =>
      (.ok (subject, provisionUser state subject) : Except RegistryError _)) =
        .ok (subject, after) → after = provisionUser state subject := by
    intro accepted
    obtain ⟨_, _, kept⟩ := bind_ok accepted
    cases kept
    rfl
  unfold authenticateRequest at authenticated
  cases shown : extractBasicAuth authorization with
  | none =>
    rw [shown] at authenticated
    refine .inr ⟨?_, byIdentity authenticated⟩
    rintro ⟨pair, carried, _⟩
    cases shown.symm.trans carried
  | some pair =>
    obtain ⟨username, password⟩ := pair
    rw [shown] at authenticated
    simp only at authenticated
    cases basic : authenticateBasic state username password with
    | ok admin =>
      rw [basic] at authenticated
      cases authenticated
      refine .inr ⟨?_, rfl⟩
      rintro ⟨pair, carried, refused, _⟩
      cases shown.symm.trans carried
      exact refused subject basic
    | error _ =>
      rw [basic] at authenticated
      have refused : ∀ subject, ¬ BasicAccepts state (username, password) subject := by
        intro subject accepted
        cases basic.symm.trans accepted
      simp only at authenticated
      split at authenticated
      · rename_i robot answered
        obtain ⟨name, login, robotLogin⟩ := Option.map_eq_some_iff.mp answered
        cases authenticated
        exact .inl ⟨⟨(username, password), shown, refused, subject, name,
          Text.stripPrefix_eq_some.mp login, robotLogin⟩, rfl⟩
      · rename_i unanswered
        refine .inr ⟨?_, byIdentity authenticated⟩
        rintro ⟨pair, carried, _, robot, name, login, robotLogin⟩
        cases shown.symm.trans carried
        refine unanswered robot ?_
        rw [Text.stripPrefix_eq_some.mpr login, Option.map_some, robotLogin]

theorem lookup_provisionUser_other (other : name ≠ subject) :
    (provisionUser state subject).users.lookup name = state.users.lookup name := by
  unfold provisionUser
  split
  · exact AList.lookup_insert_ne other
  · split
    · exact AList.lookup_insert_ne other
    · rfl

theorem groups_provisionUser (found : (provisionUser state subject).users.lookup subject = some user) :
    user.groups = [] := by
  unfold provisionUser at found
  split at found
  · rw [AList.lookup_insert] at found
    cases found
    rfl
  rename_i unknown
  split at found
  · rw [AList.lookup_insert] at found
    cases found
    rfl
  · cases unknown.symm.trans found

theorem lookup_provisionUser (known : state.users.lookup subject = some user) :
    (provisionUser state subject).users.lookup subject = some { user with groups := [] } := by
  unfold provisionUser
  rw [known]
  exact AList.lookup_insert _

theorem resolveRoleFromGroups_none
    (groupless : ∀ user, state.users.lookup subject = some user → user.groups = []) :
    resolveRoleFromGroups state subject = none := by
  unfold resolveRoleFromGroups
  cases found : state.users.lookup subject with
  | none => rfl
  | some user =>
    have granted : (state.groupRoleMappings.flatMap fun mapping =>
        (user.groups.filter (groupMatches mapping.group)).map fun _ => mapping.role) = [] := by
      rw [groupless user found]
      exact List.flatMap_eq_nil_iff.mpr fun _ _ => rfl
    simp only [granted, List.foldl_nil]

theorem resolveRole_provisionUser (state : AppState) (subject : String) (tenantId : Uuid)
    (projectId : Option Uuid) :
    resolveRole (provisionUser state subject) subject tenantId projectId =
      if state.bootstrapAdmin.any fun admin => subject = admin.username then .admin
      else (policyRole subject tenantId projectId state.accessPolicies none).getD .reader := by
  have rest : (provisionUser state subject).bootstrapAdmin = state.bootstrapAdmin ∧
      (provisionUser state subject).accessPolicies = state.accessPolicies := by
    unfold provisionUser
    split
    · exact ⟨rfl, rfl⟩
    · split <;> exact ⟨rfl, rfl⟩
  have groups : resolveRoleFromGroups (provisionUser state subject) subject = none :=
    resolveRoleFromGroups_none fun _ found => groups_provisionUser found
  rw [resolveRole, rest.1, rest.2, groups]
  cases policyRole subject tenantId projectId state.accessPolicies none <;> rfl

end Effect

/-- A login keeps the records and the roles exactly if it is a robot's or its user has no groups. -/
theorem login_keeps_groups_iff (state after : AppState) (request : TokenRequest) (subject : String)
    (authenticated : authenticateRequest state request.now request.authorization
      request.identityToken = .ok (subject, after)) :
    LoginKeeps state after subject ↔ ByRobot state request.now request.authorization ∨
        ∀ user, state.users.lookup subject = some user → user.groups = [] := by
  rcases authenticateRequest_after authenticated with ⟨robot, rfl⟩ | ⟨other, rfl⟩
  · exact iff_of_true ⟨fun _ _ known => known, fun _ _ => rfl⟩ (.inl robot)
  constructor
  · intro keeps
    refine .inr fun user known => ?_
    exact groups_provisionUser (keeps.records subject user known)
  · rintro (robot | groupless)
    · exact absurd robot other
    · constructor
      · intro name user known
        by_cases same : name = subject
        · subst same
          rw [lookup_provisionUser known, ← groupless user known]
        · rw [lookup_provisionUser_other same, known]
      · intro tenantId projectId
        rw [resolveRole_provisionUser, resolveRole, resolveRoleFromGroups_none groupless]
        cases policyRole subject tenantId projectId state.accessPolicies none <;> rfl

/-- The tenant `demo`, and an identity token of `eve`, whose groups are given. -/
def loginState (groups : List String) : AppState :=
  { mappedState "demo" with
    users := AList.insert "eve" ⟨groups⟩ ∅
    validateIdentityToken := fun _ => .ok "eve" }

def eveRequest : TokenRequest :=
  ⟨none, "header.eve.signature", ⟨"demo", none, some "app", [.push]⟩, false, 0, .nil⟩

theorem groupless_login_keeps :
    ∃ after, authenticateRequest (loginState []) eveRequest.now eveRequest.authorization
        eveRequest.identityToken = .ok ("eve", after) ∧
      LoginKeeps (loginState []) after "eve" := by
  refine ⟨_, rfl, (login_keeps_groups_iff (loginState []) _ eveRequest "eve" rfl).mpr (.inr ?_)⟩
  intro user known
  rw [loginState, AList.lookup_insert] at known
  cases known
  rfl

/-- The administrator of `demo` by the group `devs-web` logs in and is a reader, so the request to
push is refused. -/
theorem login_drops_groups :
    ∃ after, authenticateRequest (loginState ["devs-web"]) eveRequest.now eveRequest.authorization
        eveRequest.identityToken = .ok ("eve", after) ∧
      after.users.lookup "eve" = some ⟨[]⟩ ∧
      resolveRole (loginState ["devs-web"]) "eve" .nil none = .admin ∧
      resolveRole after "eve" .nil none = .reader ∧
      ¬ LoginKeeps (loginState ["devs-web"]) after "eve" ∧
      postToken (loginState ["devs-web"]) eveRequest =
        .error (.forbidden "role 'Reader' does not permit requested actions") := by
  refine ⟨_, rfl, by decide +kernel, by decide +kernel, by decide +kernel, ?_, by decide +kernel⟩
  intro keeps
  have kept := keeps.roles .nil none
  revert kept
  decide +kernel

end SpectonCr.Auth
