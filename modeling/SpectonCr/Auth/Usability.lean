import SpectonCr.Auth.Isolation

namespace SpectonCr.Auth

open Registry

/-- A name that a scope string can carry as one of its parts. -/
def ScopeName (name : String) : Prop := '/' ∉ name.toList ∧ ':' ∉ name.toList

instance (name : String) : Decidable (ScopeName name) := inferInstanceAs (Decidable (_ ∧ _))

/-- The scope string a Docker client sends for a repository. -/
def scopeText (tenant project name actions : String) : String :=
  "repository:" ++ repoPath tenant project name ++ ":" ++ actions

theorem parseDockerScope_scopeText (t : ScopeName tenant) (p : ScopeName project)
    (n : ScopeName name) (actions : String) :
    parseDockerScope (scopeText tenant project name actions) =
      some ⟨tenant, some project, some name, parseActions actions⟩ := by
  have path : ':' ∉ (repoPath tenant project name).toList := by
    simp [repoPath, t.2, p.2, n.2]
  have outer : Text.splitn 3 (scopeText tenant project name actions) ':' =
      ["repository", repoPath tenant project name, actions] :=
    Text.splitn_three (by simp [scopeText]) (by decide) path
  have inner : Text.splitn 3 (repoPath tenant project name) '/' = [tenant, project, name] :=
    Text.splitn_three (by simp [repoPath]) t.1 p.1
  simp [parseDockerScope, outer, inner]

/-- The registry accepts exactly what was requested and the role permits. -/
def Usable (claims : TokenClaims) (tenant project name : String) (role : Role)
    (requested : List Action) : Prop :=
  ∀ action, authorize claims tenant project name action = .ok () ↔ action ∈ requested ∧ role.can action = true

/-- Without a slash in its repository a scope is usable only as a pattern, or
when it grants nothing. -/
theorem usable_iff (granted : GrantedAs claims subject role scope) (ordinary : role ≠ .admin)
    (plain : '/' ∉ (scope.repository.getD "").toList) (tenant project name : String) :
    Usable claims tenant project name role scope.actions ↔
      scope.repository.getD "" = "*" ∨ ∀ action ∈ scope.actions, role.can action = false := by
  have accepts : ∀ action, authorize claims tenant project name action = .ok () ↔
      role.can action = true ∧ scope.repository.getD "" = "*" ∧ action ∈ scope.actions := by
    intro action
    rw [authorize_granted granted]
    simp [ordinary, ne_repoPath plain]
  simp only [Usable, accepts]
  constructor
  · intro usable
    by_cases pattern : scope.repository.getD "" = "*"
    · exact .inl pattern
    right
    intro action requested
    by_contra permitted
    rw [Bool.not_eq_false] at permitted
    exact pattern ((usable action).mpr ⟨requested, permitted⟩).2.1
  · rintro (pattern | useless) action
    · simp [pattern, and_comm]
    · constructor
      · rintro ⟨permitted, _, requested⟩
        exact ⟨requested, permitted⟩
      · rintro ⟨requested, permitted⟩
        rw [useless action requested] at permitted
        cases permitted

/-- When the tokens of the Docker endpoint and of the GitHub exchange are usable. -/
theorem granted_scope_usable_iff (state : AppState) {tenant project name : String} (t : ScopeName tenant)
    (p : ScopeName project) (n : ScopeName name) :
    (∀ request actions row issued, request.query.scope = some (scopeText tenant project name actions) →
      state.tenants.lookup tenant = some row →
      dockerRole state request row ≠ .admin →
      getTokenInner state request = .ok issued →
      (Usable issued.claims tenant project name (dockerRole state request row) (parseActions actions) ↔
        name = "*" ∨ ∀ action ∈ parseActions actions, (dockerRole state request row).can action = false)) ∧
    (∀ request config issued, request.tenant = tenant → request.project = project →
      state.githubOidcConfig = some config → config.role ≠ .admin →
      githubActionsToken state request = .ok issued →
      (Usable issued.claims tenant project name config.role request.actions ↔
        ∀ action ∈ request.actions, config.role.can action = false)) := by
  constructor
  · intro request actions row issued asked exist ordinary success
    obtain ⟨found, present, granted, _⟩ := getTokenInner_ok success
    have scope : request.query.requestedScope = ⟨tenant, some project, some name, parseActions actions⟩ := by
      simp [DockerTokenQuery.requestedScope, asked, parseDockerScope_scopeText t p n]
    rw [scope] at present granted
    cases present.symm.trans exist
    exact usable_iff granted ordinary n.1 tenant project name
  · intro request config issued _ _ configured ordinary success
    obtain ⟨other, _, _, _, found, _, _, _, granted, _⟩ := githubActionsToken_ok success
    cases found.symm.trans configured
    have useless := usable_iff granted ordinary (by simp) tenant project name
    simpa using useless

def ciRequest (actions : List Action) : GitHubRequest :=
  ⟨"header.github.signature", "demo", "default", actions, 0, .nil⟩

/-- A reader's token for a pull is refused the pull, from either endpoint. -/
theorem granted_pull_refused :
    (∃ issued, getTokenInner demoState (scopeRequest (scopeText "demo" "default" "app" "pull")) = .ok issued ∧
      issued.claims.role = .reader ∧
      ¬ Usable issued.claims "demo" "default" "app" .reader (parseActions "pull")) ∧
    (∃ issued, githubActionsToken demoState (ciRequest [.pull]) = .ok issued ∧ issued.claims.role = .reader ∧
      ¬ Usable issued.claims "demo" "default" "app" .reader [.pull]) := by
  constructor
  · refine ⟨_, rfl, by decide +kernel, ?_⟩
    intro usable
    have accepted := (usable .pull).mpr (by decide +kernel)
    revert accepted
    decide +kernel
  · refine ⟨_, rfl, by decide +kernel, ?_⟩
    intro usable
    have accepted := (usable .pull).mpr (by decide)
    revert accepted
    decide +kernel

/-- The repository written as a pattern is usable, and so is an empty request. -/
theorem pattern_scope_usable :
    (∃ issued, getTokenInner demoState (scopeRequest (scopeText "demo" "default" "*" "pull")) = .ok issued ∧
      Usable issued.claims "demo" "default" "*" .reader (parseActions "pull")) ∧
    (∃ issued, githubActionsToken demoState (ciRequest []) = .ok issued ∧
      Usable issued.claims "demo" "default" "*" .reader []) := by
  have characterised := @granted_scope_usable_iff demoState "demo" "default" "*" (by decide)
    (by decide) (by decide)
  constructor
  · have role : dockerRole demoState (scopeRequest (scopeText "demo" "default" "*" "pull"))
        ⟨.nil, true, "demo"⟩ = .reader := by
      decide +kernel
    refine ⟨_, rfl, ?_⟩
    have usable := characterised.1 (scopeRequest (scopeText "demo" "default" "*" "pull")) "pull"
      ⟨.nil, true, "demo"⟩ _ rfl (by decide +kernel) (by simp [role]) rfl
    rw [role] at usable
    exact usable.mpr (.inl rfl)
  · refine ⟨_, rfl, ?_⟩
    have usable := characterised.2 (ciRequest []) ⟨[], [], "reader"⟩ _ rfl rfl rfl (by decide) rfl
    exact usable.mpr (by simp [ciRequest])

end SpectonCr.Auth
