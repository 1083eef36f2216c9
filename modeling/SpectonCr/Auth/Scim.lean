import SpectonCr.Auth.Model
import SpectonCr.Base.Json
import SpectonCr.Base.Run

namespace SpectonCr.Auth

structure ScimConfig where
  enabled : Bool
  bearerToken : Option String
  autoDeactivate : Bool

structure ScimError where
  status : Nat
  detail : String

structure ScimGroupRef where
  value : String
  display : Option String

structure ScimUser where
  userName : String
  active : Bool
  groups : List ScimGroupRef

/-- A group with the `value` of each member, the only field that is read. -/
structure ScimGroup where
  displayName : String
  members : List String

structure ScimPatchOperation where
  op : String
  path : Option String
  value : Option Json

/-- What the provisioning calls change. -/
structure Directory where
  users : Table String UserRecord
  accessPolicies : List AccessPolicy
  scimGroups : Table String ScimGroup

inductive ScimRequest where
  | createUser (user : ScimUser)
  | replaceUser (id : String) (user : ScimUser)
  | createGroup (id : Option String) (group : ScimGroup)
  | patchGroup (id : String) (operations : List ScimPatchOperation)
  | deleteGroup (id : String)

/-- The instant of a call and the identifiers it draws, for a new group and for a subject's policy
from the mapping of an index; policies derived again replace the first. -/
structure ScimDraw where
  now : Time
  groupId : Uuid
  policyId : String → Nat → Uuid

structure ScimCall where
  authorization : Option String
  request : ScimRequest
  draw : ScimDraw

/-- A member of a patch's value, which is a parsed document already: objects by
name, arrays by position. -/
def scimMember : Json → Option String
  | .obj fields =>
    match (Json.obj fields).get "value" with
    | some (.str value) =>
      (Json.optionalStr ((Json.obj fields).get "$ref")).bind fun _ =>
        (Json.optionalStr ((Json.obj fields).get "display")).map fun _ => value
    | _ => none
  | .arr [.str value, refUri, display] =>
    (Json.optionalStr (some refUri)).bind fun _ =>
      (Json.optionalStr (some display)).map fun _ => value
  | _ => none

def ScimPatchOperation.members (operation : ScimPatchOperation) : Option (List String) :=
  operation.value.bind fun value => value.asArray.bind fun items => items.mapM scimMember

/-- The text between the first and the last quotation mark. -/
def extractMemberIdFromPath (path : String) : Option String :=
  let rest := (path.toList.dropWhile (· != '"')).drop 1
  let member := ((rest.reverse.dropWhile (· != '"')).drop 1).reverse
  if member.isEmpty then none else some (String.ofList member)

def ScimUser.groupNames (user : ScimUser) : List String :=
  user.groups.map fun group => group.display.getD group.value

/-- The rule of `apply_group_policies`: a pattern with a wildcard matches by what
is left of it. -/
def mappingMatches (pattern group : String) : Bool :=
  if '*' ∈ pattern.toList then
    let bare := String.ofList (pattern.toList.filter (· != '*'))
    Text.startsWith group bare || Text.endsWith group bare || Text.contains group bare
  else group = pattern

/-- What a policy permits, without its identifier and its time. -/
structure Access where
  tenantId : Uuid
  projectId : Option Uuid
  role : Role
  deriving DecidableEq

def policyAccess (policy : AccessPolicy) : Access := ⟨policy.tenantId, policy.projectId, policy.role⟩

section Provisioning

variable (config : ScimConfig) (service : AppState)

def authenticateScim (authorization : Option String) : Except ScimError Unit :=
  if !config.enabled then .error ⟨404, "SCIM provisioning is not enabled"⟩
  else match config.bearerToken with
    | none => .error ⟨500, "SCIM bearer token not configured"⟩
    | some expected =>
      let shown := (authorization.bind (Text.stripPrefix · "Bearer ")).getD ""
      if constantTimeEq shown.toByteArray.data.toList expected.toByteArray.data.toList then .ok ()
      else .error ⟨401, "Invalid SCIM bearer token"⟩

/-- What a mapping derives for a list of groups. -/
def mappingAccess (groups : List String) (mapping : GroupRoleMapping) : Option Access :=
  if groups.any (mappingMatches mapping.group) then
    (service.tenants.lookup mapping.tenant).map fun tenant =>
      { tenantId := tenant.id
        projectId := mapping.project.bind fun name =>
          (service.projects.lookup (tenant.id, name)).map Project.id
        role := mapping.role }
  else none

def derivedAccess (groups : List String) : List Access :=
  service.groupRoleMappings.filterMap (mappingAccess service groups)

/-- The policies that the loop over the mappings pushes. -/
def derivedPolicies (draw : ScimDraw) (subject : String) (groups : List String) : List AccessPolicy :=
  service.groupRoleMappings.zipIdx.filterMap fun (mapping, index) =>
    (mappingAccess service groups mapping).map fun access =>
      ⟨draw.policyId subject index, access.tenantId, access.projectId, subject, access.role, draw.now⟩

def applyGroupPolicies (draw : ScimDraw) (subject : String) (groups : List String)
    (policies : List AccessPolicy) : List AccessPolicy :=
  (policies.filter fun policy => policy.subject ≠ subject) ++ derivedPolicies service draw subject groups

/-- A user's new groups, with the policies derived from them. -/
def Directory.regroup (directory : Directory) (draw : ScimDraw) (subject : String)
    (groups : List String) : Directory :=
  { directory with
    users := directory.users.insert subject ⟨groups⟩
    accessPolicies := applyGroupPolicies service draw subject groups directory.accessPolicies }

def Directory.putGroup (directory : Directory) (id : String) (group : ScimGroup) : Directory :=
  { directory with scimGroups := directory.scimGroups.insert id group }

def Directory.deactivate (directory : Directory) (subject : String) : Directory :=
  { directory with
    users := directory.users.erase subject
    accessPolicies := directory.accessPolicies.filter fun policy => policy.subject ≠ subject }

def scimCreateUser (draw : ScimDraw) (directory : Directory) (user : ScimUser) : Except ScimError Directory :=
  if user.userName = "" then .error ⟨400, "userName is required"⟩
  else .ok (directory.regroup service draw user.userName user.groupNames)

def scimReplaceUser (draw : ScimDraw) (directory : Directory) (id : String) (user : ScimUser) :
    Directory :=
  if !user.active && config.autoDeactivate then directory.deactivate id
  else directory.regroup service draw id user.groupNames

/-- Adds a group's name to a user that is provisioned and does not have it. -/
def pushGroup (name : String) (users : Table String UserRecord) (subject : String) :
    Table String UserRecord :=
  match users.lookup subject with
  | none => users
  | some user =>
    if name ∈ user.groups then users
    else users.insert subject { user with groups := user.groups ++ [name] }

def scimCreateGroup (draw : ScimDraw) (directory : Directory) (id : Option String)
    (group : ScimGroup) : Directory :=
  { directory with
    users := group.members.foldl (pushGroup group.displayName) directory.users }.putGroup
      (id.getD draw.groupId.hyphenated) group

/-- One member of an `add` operation. -/
def addMember (draw : ScimDraw) (id : String) (directory : Directory) (member : String) :
    Directory :=
  match directory.scimGroups.lookup id with
  | none => directory
  | some group =>
    if member ∈ group.members then directory
    else
      let joined :=
        match directory.users.lookup member with
        | none => directory
        | some user =>
          if group.displayName ∈ user.groups then directory
          else directory.regroup service draw member (user.groups ++ [group.displayName])
      joined.putGroup id { group with members := group.members ++ [member] }

def removeMember (draw : ScimDraw) (id : String) (directory : Directory) (member : String) :
    Directory :=
  match directory.scimGroups.lookup id with
  | none => directory
  | some group =>
    let left := directory.putGroup id { group with members := group.members.filter (· != member) }
    match directory.users.lookup member with
    | none => left
    | some user => left.regroup service draw member (user.groups.filter (· != group.displayName))

def replaceMembers (id : String) (directory : Directory) (members : List String) : Directory :=
  match directory.scimGroups.lookup id with
  | none => directory
  | some group => directory.putGroup id { group with members }

inductive PatchKind where
  | add
  | remove
  | replace

/-- The operation's name in lower case; no character outside ASCII has one of
these letters as its lower case. -/
def ScimPatchOperation.kind (operation : ScimPatchOperation) : Option PatchKind :=
  let op := operation.op.toList.map Char.toLower
  if op = "add".toList then some .add
  else if op = "remove".toList then some .remove
  else if op = "replace".toList then some .replace
  else none

/-- One operation of a patch to the group of this identifier. -/
def patchOperation (draw : ScimDraw) (id : String) (directory : Directory)
    (operation : ScimPatchOperation) : Directory :=
  match operation.kind with
  | some .add => (operation.members.getD []).foldl (addMember service draw id) directory
  | some .remove =>
    match operation.path.bind extractMemberIdFromPath with
    | none => directory
    | some member => removeMember service draw id directory member
  | some .replace =>
    if operation.path = some "members" || operation.path = none then
      match operation.members with
      | none => directory
      | some members => replaceMembers id directory members
    else directory
  | none => directory

def scimPatchGroup (draw : ScimDraw) (directory : Directory) (id : String)
    (operations : List ScimPatchOperation) : Except ScimError Directory :=
  match directory.scimGroups.lookup id with
  | none => .error ⟨404, "Group '" ++ id ++ "' not found"⟩
  | some _ => .ok (Run.after (patchOperation service draw id) directory operations)

def scimDeleteGroup (directory : Directory) (id : String) : Directory :=
  match directory.scimGroups.lookup id with
  | none => directory
  | some group =>
    { directory with
      scimGroups := directory.scimGroups.erase id
      users := directory.users.mapRows fun user =>
        { user with groups := user.groups.filter (· != group.displayName) } }

/-- A call that passed authentication. -/
def scimHandle (draw : ScimDraw) (directory : Directory) : ScimRequest → Except ScimError Directory
  | .createUser user => scimCreateUser service draw directory user
  | .replaceUser id user => .ok (scimReplaceUser config service draw directory id user)
  | .createGroup id group => .ok (scimCreateGroup draw directory id group)
  | .patchGroup id operations => scimPatchGroup service draw directory id operations
  | .deleteGroup id => .ok (scimDeleteGroup directory id)

def scimCall (directory : Directory) (call : ScimCall) : Except ScimError Directory :=
  (authenticateScim config call.authorization).bind fun _ =>
    scimHandle config service call.draw directory call.request

/-- The directory after a call; a refused one changes nothing. -/
def scimStep (directory : Directory) (call : ScimCall) : Directory :=
  (scimCall config service directory call).toOption.getD directory

end Provisioning

end SpectonCr.Auth
