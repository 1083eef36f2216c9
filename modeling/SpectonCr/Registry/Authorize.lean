import SpectonCr.Common.Model

namespace SpectonCr.Registry

/-- The path a token scope is compared with. -/
def repoPath (tenant project name : String) : String := tenant ++ "/" ++ project ++ "/" ++ name

theorem ne_repoPath (plain : '/' ∉ text.toList) : text ≠ repoPath tenant project name := by
  rintro rfl
  simp [repoPath] at plain

def authorize (claims : TokenClaims) (tenant project name : String) (action : Action) :
    Except RegistryError Unit :=
  if !claims.role.can action then
    .error (.forbidden ("role " ++ claims.role.debug ++ " does not permit action " ++ action.debug))
  else if claims.role = .admin then .ok ()
  else if claims.scopes.any fun scope =>
      (scope.repository = repoPath tenant project name || scope.repository = "*") &&
        scope.actions.contains action then .ok ()
  else
    .error (.forbidden ("token scopes do not grant " ++ action.debug ++ " on " ++
      repoPath tenant project name))

/-- Everything an accepted request rests on. -/
theorem authorize_ok_iff : authorize claims tenant project name action = .ok () ↔
      claims.role.can action = true ∧ (claims.role = .admin ∨ ∃ scope ∈ claims.scopes,
          (scope.repository = repoPath tenant project name ∨ scope.repository = "*") ∧
            action ∈ scope.actions) := by
  unfold authorize
  cases permitted : claims.role.can action with
  | false => simp
  | true =>
    by_cases admin : claims.role = .admin
    · simp [admin]
    simp only [Bool.not_true, Bool.false_eq_true, ↓reduceIte, admin, false_or, true_and]
    split
    · rename_i granted
      simpa [List.any_eq_true] using granted
    · rename_i denied
      simpa [List.any_eq_true] using denied

/-- Claims of an administrator, for concrete requests. -/
def adminClaims : TokenClaims where
  iss := "specton-auth"
  sub := "admin"
  aud := "specton-registry"
  exp := 0
  iat := 0
  jti := Uuid.nil.hyphenated
  tenantId := Uuid.nil
  tenantName := none
  projectId := none
  role := .admin
  scopes := []

end SpectonCr.Registry
