import SpectonCr.Auth.ScimAccess

/-! What group synchronisation derives, and what it leaves of other policies. -/

namespace SpectonCr.Auth

/-- The identifiers drawn for derived policies are those of none of these. -/
def ScimDraw.Fresh (draw : ScimDraw) (policies : List AccessPolicy) : Prop :=
  ∀ policy ∈ policies, ∀ subject index, draw.policyId subject index ≠ policy.id

/-- A member of an `add` operation whose groups change. -/
def Joins (id : String) (directory : Directory) (member : String) : Prop :=
  ∃ group user, directory.scimGroups.lookup id = some group ∧ member ∉ group.members ∧
    directory.users.lookup member = some user ∧ group.displayName ∉ user.groups

/-- A provisioned user that a `remove` operation names. -/
def Leaves (id : String) (directory : Directory) (member : String) : Prop :=
  directory.scimGroups.lookup id ≠ none ∧ directory.users.lookup member ≠ none

section Spares

variable (config : ScimConfig) (service : AppState) (draw : ScimDraw)

/-- The operation changes the groups of others than the subject. -/
def OperationSpares (id subject : String) (directory : Directory) (operation : ScimPatchOperation) : Prop :=
  match operation.kind with
  | some .add =>
    Run.Along (addMember service draw id)
      (fun directory member => Joins id directory member → member ≠ subject) directory
      (operation.members.getD [])
  | some .remove =>
    ∀ member, operation.path.bind extractMemberIdFromPath = some member →
      Leaves id directory member → member ≠ subject
  | _ => True

def RequestSpares (directory : Directory) (subject : String) : ScimRequest → Prop
  | .createUser user => user.userName ≠ "" → user.userName ≠ subject
  | .replaceUser id _ => id ≠ subject
  | .patchGroup id operations =>
    directory.scimGroups.lookup id ≠ none →
      Run.Along (patchOperation service draw id) (OperationSpares service draw id subject) directory
        operations
  | .createGroup _ _ => True
  | .deleteGroup _ => True

/-- The call is refused, or is not about the groups of the subject. -/
def CallSpares (directory : Directory) (call : ScimCall) (subject : String) : Prop :=
  authenticateScim config call.authorization = .ok () →
    RequestSpares service call.draw directory subject call.request

end Spares

section Kept

variable {config : ScimConfig} {service : AppState} {draw : ScimDraw} {policy : AccessPolicy}
  (undrawn : ∀ subject index, draw.policyId subject index ≠ policy.id)

include undrawn

theorem not_mem_derivedPolicies (subject : String) (groups : List String) :
    policy ∉ derivedPolicies service draw subject groups := by
  intro member
  obtain ⟨⟨mapping, index⟩, _, derived⟩ := List.mem_filterMap.mp member
  obtain ⟨access, _, rfl⟩ := Option.map_eq_some_iff.mp derived
  exact undrawn subject index rfl

theorem mem_regroup (directory : Directory) (subject : String) (groups : List String) :
    policy ∈ (directory.regroup service draw subject groups).accessPolicies ↔
      policy ∈ directory.accessPolicies ∧ subject ≠ policy.subject := by
  simp only [Directory.regroup, applyGroupPolicies, List.mem_append, List.mem_filter,
    not_mem_derivedPolicies undrawn, or_false, decide_eq_true_eq]
  exact and_congr_right fun _ => ne_comm

variable (id : String)

theorem mem_addMember (directory : Directory) (member : String) :
    policy ∈ (addMember service draw id directory member).accessPolicies ↔
      policy ∈ directory.accessPolicies ∧ (Joins id directory member → member ≠ policy.subject) := by
  unfold addMember
  cases found : directory.scimGroups.lookup id with
  | none =>
    refine (and_iff_left ?_).symm
    rintro ⟨group, user, listed, _⟩
    cases found.symm.trans listed
  | some group =>
    simp only
    split
    · rename_i already
      refine (and_iff_left ?_).symm
      rintro ⟨other, user, listed, absent, _⟩
      cases found.symm.trans listed
      exact absurd already absent
    · rename_i absent
      cases known : directory.users.lookup member with
      | none =>
        refine (and_iff_left ?_).symm
        rintro ⟨_, user, _, _, provisioned, _⟩
        cases known.symm.trans provisioned
      | some user =>
        simp only
        split
        · rename_i already
          refine (and_iff_left ?_).symm
          rintro ⟨other, record, listed, _, provisioned, lacks⟩
          cases found.symm.trans listed
          cases known.symm.trans provisioned
          exact absurd already lacks
        · rename_i lacks
          have joins : Joins id directory member := ⟨group, user, found, absent, known, lacks⟩
          exact (mem_regroup undrawn directory member _).trans
            (and_congr_right fun _ => (imp_iff_right joins).symm)

theorem mem_removeMember (directory : Directory) (member : String) :
    policy ∈ (removeMember service draw id directory member).accessPolicies ↔
      policy ∈ directory.accessPolicies ∧ (Leaves id directory member → member ≠ policy.subject) := by
  unfold removeMember
  cases found : directory.scimGroups.lookup id with
  | none => exact (and_iff_left fun leaves => absurd found leaves.1).symm
  | some group =>
    cases known : directory.users.lookup member with
    | none => exact (and_iff_left fun leaves => absurd known leaves.2).symm
    | some user =>
      have leaves : Leaves id directory member := by simp [Leaves, found, known]
      exact (mem_regroup undrawn _ member _).trans (and_congr_right fun _ => (imp_iff_right leaves).symm)

omit undrawn in
theorem replaceMembers_accessPolicies (directory : Directory) (members : List String) :
    (replaceMembers id directory members).accessPolicies = directory.accessPolicies := by
  unfold replaceMembers
  split <;> rfl

theorem mem_patchOperation (directory : Directory) (operation : ScimPatchOperation) :
    policy ∈ (patchOperation service draw id directory operation).accessPolicies ↔
      policy ∈ directory.accessPolicies ∧
        OperationSpares service draw id policy.subject directory operation := by
  unfold patchOperation OperationSpares
  cases operation.kind with
  | none => exact (and_iff_left trivial).symm
  | some kind =>
    cases kind with
    | add =>
      exact Run.after_iff_along (fun directory => policy ∈ directory.accessPolicies)
        (mem_addMember undrawn id) directory _
    | remove =>
      simp only
      cases operation.path.bind extractMemberIdFromPath with
      | none => exact (and_iff_left nofun).symm
      | some member =>
        rw [mem_removeMember undrawn]
        refine and_congr_right fun _ => ?_
        constructor
        · intro spares other named
          cases named
          exact spares
        · intro spares
          exact spares member rfl
    | replace =>
      rw [and_true]
      simp only
      split
      · split
        · exact Iff.rfl
        · rw [replaceMembers_accessPolicies]
      · exact Iff.rfl

/-- A call keeps a policy that it did not derive exactly if it spares the policy's subject. -/
theorem mem_scimStep (drawn : call.draw = draw) (directory : Directory) :
    policy ∈ (scimStep config service directory call).accessPolicies ↔ policy ∈ directory.accessPolicies ∧
        CallSpares config service directory call policy.subject := by
  unfold scimStep scimCall CallSpares
  cases authenticateScim config call.authorization with
  | error _ => exact (and_iff_left nofun).symm
  | ok _ =>
    rw [imp_iff_right rfl, drawn]
    simp only [Except.bind]
    cases call.request with
    | createUser user =>
      simp only [scimHandle, scimCreateUser, RequestSpares]
      split
      · rename_i empty
        exact (and_iff_left fun named => absurd empty named).symm
      · rename_i named
        rw [imp_iff_right named]
        exact mem_regroup undrawn directory _ _
    | replaceUser id user =>
      simp only [scimHandle, RequestSpares, scimReplaceUser]
      split
      · simp only [Except.toOption, Option.getD_some, Directory.deactivate, List.mem_filter,
          decide_eq_true_eq]
        exact and_congr_right fun _ => ne_comm
      · exact mem_regroup undrawn directory _ _
    | createGroup id group => exact (and_iff_left trivial).symm
    | patchGroup id operations =>
      simp only [scimHandle, scimPatchGroup, RequestSpares]
      cases found : directory.scimGroups.lookup id with
      | none => exact (and_iff_left fun known => absurd rfl known).symm
      | some group =>
        rw [imp_iff_right (Option.some_ne_none group)]
        exact Run.after_iff_along (fun directory => policy ∈ directory.accessPolicies)
          (mem_patchOperation undrawn id) directory operations
    | deleteGroup id =>
      simp only [scimHandle, RequestSpares, and_true, scimDeleteGroup]
      split <;> exact Iff.rfl

end Kept

/-- Granted policies outlive a call exactly if it spares the subjects they were granted to. -/
theorem granted_policies_kept_iff (config : ScimConfig) (service : AppState) (directory : Directory)
    (call : ScimCall) (granted : List AccessPolicy)
    (stored : ∀ policy ∈ granted, policy ∈ directory.accessPolicies) (fresh : call.draw.Fresh granted) :
    (∀ policy ∈ granted, policy ∈ (scimStep config service directory call).accessPolicies) ↔
      ∀ policy ∈ granted, CallSpares config service directory call policy.subject := by
  refine forall₂_congr fun policy member => ?_
  rw [mem_scimStep (fresh policy member) rfl]
  exact and_iff_right (stored policy member)

/-- A grant to `eve` that no mapping derives. -/
def eveGrant : AccessPolicy := ⟨⟨List.replicate 16 7, rfl⟩, .nil, none, "eve", .maintainer, 0⟩

/-- The user `eve`, the empty group `devs` and the grant. -/
def grantedDirectory : Directory :=
  { scimRun [authenticCall (.createUser ⟨"eve", true, []⟩),
      authenticCall (.createGroup (some "g") ⟨"devs", []⟩)] with
    accessPolicies := [eveGrant] }

def policiesAfter (request : ScimRequest) : List AccessPolicy :=
  (scimStep scimConfig (mappedState "demo") grantedDirectory (authenticCall request)).accessPolicies

theorem eveGrant_fresh (request : ScimRequest) : (authenticCall request).draw.Fresh [eveGrant] := by
  intro policy member subject index
  obtain rfl := List.mem_singleton.mp member
  show Uuid.nil ≠ eveGrant.id
  decide

/-- A call about another user. -/
theorem grant_of_another_kept : eveGrant ∈ policiesAfter (.createUser ⟨"bob", true, []⟩) := by
  refine (granted_policies_kept_iff scimConfig (mappedState "demo") grantedDirectory
    (authenticCall (.createUser ⟨"bob", true, []⟩)) [eveGrant] ?_ (eveGrant_fresh _)).mpr ?_
    eveGrant List.mem_cons_self
  · exact fun policy member => member
  · intro policy member _ _
    obtain rfl := List.mem_singleton.mp member
    show "bob" ≠ "eve"
    decide

/-- Each of the three calls drops the grant of the user whose groups it sets. -/
theorem group_sync_drops_grant : policiesAfter (.createUser ⟨"eve", true, []⟩) = [] ∧
      policiesAfter (.replaceUser "eve" ⟨"eve", true, []⟩) = [] ∧
      eveGrant ∉ policiesAfter (.patchGroup "g"
        [⟨"add", none, some (.arr [.obj [("value", .str "eve")]])⟩]) := by
  decide +kernel

section Stated

variable (service : AppState) (groups : List String)

/-- The project a mapping names, if it exists, or none for the whole tenant. -/
def statedProject (tenant : Tenant) : Option String → Option (Option Uuid)
  | none => some none
  | some name => (service.projects.lookup (tenant.id, name)).map fun project => some project.id

/-- What a mapping says: its pattern with any text for each wildcard, and its own tenant, project
and role. -/
def Says (mapping : GroupRoleMapping) (access : Access) : Prop :=
  (∃ group ∈ groups, Glob '*' mapping.group.toList group.toList) ∧
    ∃ tenant projectId, service.tenants.lookup mapping.tenant = some tenant ∧
      statedProject service tenant mapping.project = some projectId ∧
      access = ⟨tenant.id, projectId, mapping.role⟩

/-- The pattern without its wildcards stands in the group in one piece; one that has none is the
group. -/
def HoldsText (pattern group : String) : Prop :=
  if '*' ∈ pattern.toList then pattern.toList.filter (· != '*') <:+: group.toList else group = pattern

theorem mappingMatches_iff : mappingMatches pattern group = true ↔ HoldsText pattern group := by
  unfold mappingMatches HoldsText
  split
  · simp only [Text.startsWith, Text.endsWith, Text.contains, String.toList_ofList, Bool.or_eq_true,
      List.isPrefixOf_iff_prefix, List.isSuffixOf_iff_suffix, List.any_eq_true, List.mem_tails]
    constructor
    · rintro ((front | back) | ⟨tail, ends, starts⟩)
      · exact front.isInfix
      · exact back.isInfix
      · exact starts.isInfix.trans ends.isInfix
    · intro inside
      obtain ⟨tail, starts, ends⟩ := List.infix_iff_prefix_suffix.mp inside
      exact .inr ⟨tail, ends, starts⟩
  · exact decide_eq_true_iff

/-- Policies are derived as the mappings say exactly where a group with the text of a pattern comes
with one that fits the pattern and with the named project, and one that fits with one with the text. -/
theorem derivedPolicies_says_iff (draw : ScimDraw) (subject : String) :
    (derivedPolicies service draw subject groups).map policyAccess =
      service.groupRoleMappings.filterMap (mappingAccess service groups) ∧
    ((∀ mapping ∈ service.groupRoleMappings, ∀ access,
        mappingAccess service groups mapping = some access ↔ Says service groups mapping access) ↔
      ∀ mapping ∈ service.groupRoleMappings, ∀ tenant, service.tenants.lookup mapping.tenant = some tenant →
        ((∃ group ∈ groups, HoldsText mapping.group group) →
          (∃ group ∈ groups, Glob '*' mapping.group.toList group.toList) ∧
            ∀ name, mapping.project = some name → (tenant.id, name) ∈ service.projects) ∧
        ((∃ group ∈ groups, Glob '*' mapping.group.toList group.toList) →
          (∀ name, mapping.project = some name → (tenant.id, name) ∈ service.projects) →
            ∃ group ∈ groups, HoldsText mapping.group group)) := by
  refine ⟨map_derivedPolicies draw subject groups, forall₂_congr fun mapping _ => ?_⟩
  cases registered : service.tenants.lookup mapping.tenant with
  | none => simp [mappingAccess, Says, registered]
  | some tenant =>
    have found : groups.any (mappingMatches mapping.group) = true ↔
        ∃ group ∈ groups, HoldsText mapping.group group := by
      simp only [List.any_eq_true, mappingMatches_iff]
    have exists_ : (∀ name, mapping.project = some name → (tenant.id, name) ∈ service.projects) ↔
        (statedProject service tenant mapping.project).isSome = true := by
      cases named : mapping.project with
      | none => simp [statedProject]
      | some name => simp [statedProject, AList.lookup_isSome]
    simp only [mappingAccess, Says, registered, Option.map_some, Option.some.injEq,
      forall_eq', Option.ite_none_right_eq_some, exists_, ← found]
    generalize groups.any (mappingMatches mapping.group) = matched
    generalize (∃ group ∈ groups, Glob '*' mapping.group.toList group.toList) = fitting
    cases stated : statedProject service tenant mapping.project with
    | none => cases matched <;> simp [stated]
    | some projectId =>
      have granted : (mapping.project.bind fun name =>
          (service.projects.lookup (tenant.id, name)).map Project.id) = projectId := by
        cases named : mapping.project with
        | none => simpa [statedProject, named] using stated
        | some name =>
          rw [named, statedProject, Option.map_eq_some_iff] at stated
          obtain ⟨project, found, rfl⟩ := stated
          rw [Option.bind_some, found, Option.map_some]
      rw [granted]
      cases matched <;> by_cases fitting <;> simp [*, eq_comm]

/-- A mapping for a project that does not exist gives the whole tenant away. -/
theorem missing_project_widens :
    mappingAccess twoTenants ["devs"] ⟨"devs", "demo", some "gone", .admin⟩ = some ⟨.nil, none, .admin⟩ := by
  decide +kernel

end Stated

end SpectonCr.Auth
