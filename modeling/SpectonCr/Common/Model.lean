import SpectonCr.Base.Hex

namespace SpectonCr

/-- Instants, in nanoseconds since the epoch. -/
abbrev Time := Int

/-- `DateTime::timestamp`: whole seconds, rounded down. -/
def Time.timestamp (now : Time) : Int := now / 1000000000

inductive Role where
  | admin
  | maintainer
  | reader
  deriving DecidableEq, Repr

inductive Action where
  | pull
  | push
  | delete
  | tag
  | manage
  deriving DecidableEq, Repr

def Role.allowedActions : Role → List Action
  | .admin => [.pull, .push, .delete, .tag, .manage]
  | .maintainer => [.pull, .push, .delete, .tag]
  | .reader => [.pull]

def Role.can (role : Role) (action : Action) : Bool := action ∈ role.allowedActions

/-- The variant's name, as `Debug` prints it. -/
def Role.debug : Role → String
  | .admin => "Admin"
  | .maintainer => "Maintainer"
  | .reader => "Reader"

def Action.debug : Action → String
  | .pull => "Pull"
  | .push => "Push"
  | .delete => "Delete"
  | .tag => "Tag"
  | .manage => "Manage"

@[simp] theorem Role.can_pull (role : Role) : role.can .pull = true := by
  cases role <;> decide

/-- `models::AccessPolicy`: a subject's role in one tenant, or in one project of it. -/
structure AccessPolicy where
  (id tenantId : Uuid)
  projectId : Option Uuid
  subject : String
  role : Role
  createdAt : Time
  deriving DecidableEq

structure TokenScope where
  repository : String
  actions : List Action
  deriving DecidableEq

structure TokenClaims where
  (iss sub aud : String)
  (exp iat : Int)
  jti : String
  tenantId : Uuid
  tenantName : Option String
  projectId : Option Uuid
  role : Role
  scopes : List TokenScope
  deriving DecidableEq

structure RequestedScope where
  tenant : String
  (project repository : Option String)
  actions : List Action
  deriving DecidableEq

/-- `errors::RegistryError`, the variants the modelled handlers answer with. -/
inductive RegistryError where
  | blobUnknown (digest : String)
  | blobUploadInvalid
  | digestInvalid (expected actual : String)
  | manifestUnknown (reference : String)
  | manifestInvalid (reason : String)
  | tagUnknown (tag : String)
  | unauthorized
  | forbidden (reason : String)
  | tenantNotFound (tenant : String)
  | projectNotFound (project : String)
  | rateLimitExceeded
  | tokenExpired
  | tokenInvalid (reason : String)
  | internal (reason : String)
  | storage (reason : String)
  | auditUnavailable (reason : String)
  | manifestUnverified (reason : String)
  deriving DecidableEq

end SpectonCr
