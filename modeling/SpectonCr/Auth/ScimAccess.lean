import SpectonCr.Auth.Groups
import SpectonCr.Auth.Scim

namespace SpectonCr.Auth

/-- What the policies of a subject permit. -/
def accessOf (directory : Directory) (subject : String) : List Access :=
  (directory.accessPolicies.filter fun policy => policy.subject = subject).map policyAccess

/-- The names of the groups that list the subject. -/
def memberOf (directory : Directory) (subject : String) : List String :=
  ((directory.scimGroups.entries.map (·.2)).filter fun group => subject ∈ group.members).map
    ScimGroup.displayName

/-- A group of the name other than the one of the identifier lists the subject. -/
def ListedElsewhere (directory : Directory) (id subject name : String) : Prop :=
  ∃ other group, other ≠ id ∧ directory.scimGroups.lookup other = some group ∧
    group.displayName = name ∧ subject ∈ group.members

section Access

variable (service : AppState)

/-- Some mapping looks at groups of this name. -/
def Mapped (name : String) : Prop :=
  ∃ mapping ∈ service.groupRoleMappings, mappingMatches mapping.group name = true

/-- The policies of every provisioned user are those the mappings derive from the
groups that list the user. -/
def FollowsMembership (directory : Directory) : Prop :=
  ∀ subject user, directory.users.lookup subject = some user →
    accessOf directory subject = derivedAccess service (memberOf directory subject)

/-- The policies are derived from the user's groups, and these are the groups
that list the user, as far as a mapping looks at them. -/
structure UserSynced (directory : Directory) (subject : String) (groups : List String) : Prop where
  derived : accessOf directory subject = derivedAccess service groups
  listed : ∀ name, Mapped service name → (name ∈ groups ↔ name ∈ memberOf directory subject)

def Synced (directory : Directory) : Prop :=
  ∀ subject user, directory.users.lookup subject = some user →
    UserSynced service directory subject user.groups

variable {service}

theorem mem_memberOf : name ∈ memberOf directory subject ↔
      ∃ id group, directory.scimGroups.lookup id = some group ∧ group.displayName = name ∧
        subject ∈ group.members := by
  simp only [memberOf, List.mem_map, List.mem_filter, decide_eq_true_eq]
  constructor
  · rintro ⟨_, ⟨⟨⟨id, group⟩, member, rfl⟩, listed⟩, named⟩
    exact ⟨id, group, AList.mem_lookup_iff.mpr member, named, listed⟩
  · rintro ⟨id, group, found, named, listed⟩
    exact ⟨group, ⟨⟨⟨id, group⟩, AList.mem_lookup_iff.mp found, rfl⟩, listed⟩, named⟩

theorem mem_memberOf_at (directory : Directory) (id : String) : name ∈ memberOf directory subject ↔
      (∃ group, directory.scimGroups.lookup id = some group ∧ group.displayName = name ∧
        subject ∈ group.members) ∨ ListedElsewhere directory id subject name := by
  rw [mem_memberOf]
  constructor
  · rintro ⟨other, group, found, named, listed⟩
    by_cases same : other = id
    · subst same
      exact .inl ⟨group, found, named, listed⟩
    · exact .inr ⟨other, group, same, found, named, listed⟩
  · rintro (⟨group, found, named, listed⟩ | ⟨other, group, _, found, named, listed⟩)
    · exact ⟨id, group, found, named, listed⟩
    · exact ⟨other, group, found, named, listed⟩

theorem mem_memberOf_putGroup (directory : Directory) (id : String) (group : ScimGroup) :
    name ∈ memberOf (directory.putGroup id group) subject ↔
      (group.displayName = name ∧ subject ∈ group.members) ∨ ListedElsewhere directory id subject name := by
  have elsewhere : ListedElsewhere (directory.putGroup id group) id subject name ↔
      ListedElsewhere directory id subject name := by
    unfold ListedElsewhere Directory.putGroup
    constructor
    · rintro ⟨other, found, apart, lookup, rest⟩
      rw [AList.lookup_insert_ne apart] at lookup
      exact ⟨other, found, apart, lookup, rest⟩
    · rintro ⟨other, found, apart, lookup, rest⟩
      exact ⟨other, found, apart, by rwa [AList.lookup_insert_ne apart], rest⟩
  rw [mem_memberOf_at _ id, elsewhere, Directory.putGroup, AList.lookup_insert]
  simp

theorem mem_memberOf_deleteGroup {directory : Directory} {id : String} {group : ScimGroup}
    (found : directory.scimGroups.lookup id = some group) {subject name : String} :
    name ∈ memberOf (scimDeleteGroup directory id) subject ↔ ListedElsewhere directory id subject name := by
  rw [mem_memberOf]
  simp only [scimDeleteGroup, found]
  constructor
  · rintro ⟨other, listed, lookup, rest⟩
    obtain ⟨apart, lookup⟩ := Table.lookup_erase_cases lookup
    exact ⟨other, listed, apart, lookup, rest⟩
  · rintro ⟨other, listed, apart, lookup, rest⟩
    exact ⟨other, listed, by rwa [AList.lookup_erase_ne apart], rest⟩

/-- Groups that the mappings cannot tell apart derive the same access. -/
theorem derivedAccess_congr
    (same : ∀ mapping ∈ service.groupRoleMappings, (∃ name ∈ first, mappingMatches mapping.group
      name = true) ↔ ∃ name ∈ second, mappingMatches mapping.group name = true) :
    derivedAccess service first = derivedAccess service second := by
  unfold derivedAccess
  apply List.filterMap_congr
  intro mapping listed
  have equal : first.any (mappingMatches mapping.group) = second.any (mappingMatches mapping.group) := by
    rw [Bool.eq_iff_iff, List.any_eq_true, List.any_eq_true]
    exact same mapping listed
  simp only [mappingAccess, equal]

theorem derivedAccess_of_mapped (same : ∀ name, Mapped service name → (name ∈ first ↔ name ∈ second)) :
    derivedAccess service first = derivedAccess service second := by
  apply derivedAccess_congr
  intro mapping listed
  constructor
  · rintro ⟨name, member, matched⟩
    exact ⟨name, (same name ⟨mapping, listed, matched⟩).mp member, matched⟩
  · rintro ⟨name, member, matched⟩
    exact ⟨name, (same name ⟨mapping, listed, matched⟩).mpr member, matched⟩

theorem Synced.followsMembership (synced : Synced service directory) :
    FollowsMembership service directory := by
  intro subject user found
  have state := synced subject user found
  rw [state.derived]
  exact derivedAccess_of_mapped state.listed

private theorem accessOf_filter (policies : List AccessPolicy) (subject other : String) :
    ((policies.filter fun policy => policy.subject ≠ subject).filter fun policy => policy.subject = other) =
      if other = subject then [] else policies.filter fun policy => policy.subject = other := by
  rw [List.filter_filter]
  by_cases same : other = subject
  · rw [if_pos same, List.filter_eq_nil_iff]
    intro policy _
    simp [same]
  rw [if_neg same]
  apply List.filter_congr
  intro policy _
  by_cases named : policy.subject = other
  · simp [named, same]
  · simp [named]

theorem subject_of_derivedPolicies (member : policy ∈ derivedPolicies service draw subject groups) :
    policy.subject = subject := by
  obtain ⟨pair, _, derived⟩ := List.mem_filterMap.mp member
  obtain ⟨access, _, rfl⟩ := Option.map_eq_some_iff.mp derived
  rfl

theorem map_derivedPolicies (draw : ScimDraw) (subject : String) (groups : List String) :
    (derivedPolicies service draw subject groups).map policyAccess = derivedAccess service groups := by
  have mappings : (service.groupRoleMappings.zipIdx.map Prod.fst).filterMap
      (mappingAccess service groups) = derivedAccess service groups := by
    simp [derivedAccess]
  rw [← mappings, derivedPolicies, List.map_filterMap, List.filterMap_map]
  congr 1
  funext pair
  simp [Function.comp_def, policyAccess]

theorem accessOf_regroup (directory : Directory) (draw : ScimDraw) (subject other : String)
    (groups : List String) :
    accessOf (directory.regroup service draw subject groups) other =
      if other = subject then derivedAccess service groups else accessOf directory other := by
  simp only [accessOf, Directory.regroup, applyGroupPolicies]
  rw [List.filter_append, accessOf_filter]
  by_cases same : other = subject
  · subst same
    have all : (derivedPolicies service draw other groups).filter
        (fun policy => policy.subject = other) = derivedPolicies service draw other groups := by
      rw [List.filter_eq_self]
      intro policy member
      simpa using subject_of_derivedPolicies member
    rw [if_pos rfl, if_pos rfl, List.nil_append, all, map_derivedPolicies]
  · have none : (derivedPolicies service draw subject groups).filter
        (fun policy => policy.subject = other) = [] := by
      rw [List.filter_eq_nil_iff]
      intro policy member
      rw [subject_of_derivedPolicies member]
      simpa using fun again => same again.symm
    rw [if_neg same, if_neg same, none, List.append_nil]

theorem accessOf_deactivate (directory : Directory) (apart : other ≠ subject) :
    accessOf (directory.deactivate subject) other = accessOf directory other := by
  simp only [accessOf, Directory.deactivate]
  rw [accessOf_filter, if_neg apart]

end Access

section Steps

variable (service : AppState) (directory : Directory)

/-- The groups given for a user are, as far as mapped, those that list the user. -/
def ListsRightly (subject : String) (groups : List String) : Prop :=
  ∀ name, Mapped service name → (name ∈ groups ↔ name ∈ memberOf directory subject)

/-- Whatever a mapping gives for the group, it gives the subject for another one. -/
def Redundant (subject name : String) : Prop :=
  ∀ mapping ∈ service.groupRoleMappings, mappingMatches mapping.group name = true →
    ∃ other ∈ memberOf directory subject, other ≠ name ∧ mappingMatches mapping.group other = true

/-- A new group gives its members nothing, and takes nothing from the members of
the group it overwrites. -/
structure CreateGroupSound (id : String) (group : ScimGroup) : Prop where
  joined : ∀ subject ∈ group.members, subject ∈ directory.users →
    group.displayName ∈ memberOf directory subject ∨ Redundant service directory subject group.displayName
  replaced : ∀ old, directory.scimGroups.lookup id = some old → Mapped service old.displayName →
    ∀ subject ∈ old.members, subject ∈ directory.users →
      (group.displayName = old.displayName ∧ subject ∈ group.members) ∨
        ListedElsewhere directory id subject old.displayName

/-- No second group of a mapped name lists the member. -/
def RemoveSound (id member : String) : Prop :=
  ∀ group, directory.scimGroups.lookup id = some group → Mapped service group.displayName →
    member ∈ directory.users → ¬ ListedElsewhere directory id member group.displayName

/-- The new members of a mapped group are the old ones. -/
def ReplaceSound (id : String) (members : List String) : Prop :=
  ∀ group, directory.scimGroups.lookup id = some group → Mapped service group.displayName →
    ∀ subject, subject ∈ directory.users → ¬ ListedElsewhere directory id subject group.displayName →
      (subject ∈ members ↔ subject ∈ group.members)

/-- The group gave its members nothing, and no second group of its name lists them. -/
def DeleteSound (id : String) : Prop :=
  ∀ group, directory.scimGroups.lookup id = some group → Mapped service group.displayName →
    ∀ subject, subject ∈ directory.users → group.displayName ∈ memberOf directory subject →
      ¬ ListedElsewhere directory id subject group.displayName ∧
        Redundant service directory subject group.displayName

variable {service directory}

variable {id subject : String} {group : ScimGroup} {groups : List String}

theorem UserSynced.relist (synced : UserSynced service directory subject groups)
    (same : ∀ name, Mapped service name → (name ∈ memberOf (directory.putGroup id group) subject ↔
        name ∈ memberOf directory subject)) :
    UserSynced service (directory.putGroup id group) subject groups := by
  refine ⟨synced.derived, ?_⟩
  intro name mapped
  rw [same name mapped, synced.listed name mapped]

theorem synced_regroup {draw : ScimDraw}
    (others : ∀ other user, other ≠ subject → directory.users.lookup other = some user →
      UserSynced service directory other user.groups)
    (rightly : ListsRightly service directory subject groups) :
    Synced service (directory.regroup service draw subject groups) := by
  intro other user found
  rcases Table.lookup_insert_cases found with ⟨rfl, rfl⟩ | ⟨same, old⟩
  · refine ⟨?_, rightly⟩
    rw [accessOf_regroup, if_pos rfl]
  · obtain ⟨derived, listed⟩ := others other user same old
    refine ⟨?_, listed⟩
    rw [accessOf_regroup, if_neg same, derived]

/-- A member the registry does not know has no access to keep in step. -/
theorem synced_of_others (others : ∀ other user, other ≠ subject → directory.users.lookup other = some user →
      UserSynced service directory other user.groups) (unknown : directory.users.lookup subject = none) :
    Synced service directory := by
  intro other user found
  refine others other user ?_ found
  rintro rfl
  cases unknown.symm.trans found

theorem Synced.deactivate (synced : Synced service directory) (subject : String) :
    Synced service (directory.deactivate subject) := by
  intro other user found
  obtain ⟨apart, kept⟩ := Table.lookup_erase_cases found
  obtain ⟨derived, listed⟩ := synced other user kept
  refine ⟨?_, listed⟩
  rw [accessOf_deactivate directory apart, derived]

/-- A user with a group's name added, unless it is there. -/
private def joinGroup (name : String) (user : UserRecord) : UserRecord :=
  if name ∈ user.groups then user else { user with groups := user.groups ++ [name] }

private theorem mem_joinGroup :
    other ∈ (joinGroup name user).groups ↔ other ∈ user.groups ∨ other = name := by
  unfold joinGroup
  split
  · rename_i present
    constructor
    · exact Or.inl
    · rintro (old | rfl)
      · exact old
      · exact present
  · simp

variable (name : String)

private theorem joinGroup_idempotent (user : UserRecord) :
    joinGroup name (joinGroup name user) = joinGroup name user := by
  have present : name ∈ (joinGroup name user).groups := mem_joinGroup.mpr (.inr rfl)
  rw [joinGroup, if_pos present]

private theorem lookup_pushGroup (users : Table String UserRecord) (member subject : String) :
    (pushGroup name users member).lookup subject =
      if subject = member then (users.lookup subject).map (joinGroup name)
      else users.lookup subject := by
  unfold pushGroup
  by_cases same : subject = member
  · subst same
    rw [if_pos rfl]
    cases found : users.lookup subject with
    | none => exact found
    | some user =>
      by_cases present : name ∈ user.groups
      · simp [present, found, joinGroup]
      · simp [present, joinGroup]
  · rw [if_neg same]
    cases users.lookup member with
    | none => rfl
    | some user =>
      by_cases present : name ∈ user.groups
      · simp [present]
      · simp [present, AList.lookup_insert_ne same]

private theorem lookup_pushGroups (members : List String) (users : Table String UserRecord) (subject : String) :
    (members.foldl (pushGroup name) users).lookup subject =
      if subject ∈ members then (users.lookup subject).map (joinGroup name)
      else users.lookup subject := by
  induction members generalizing users with
  | nil => simp
  | cons member rest ih =>
    rw [List.foldl_cons, ih, lookup_pushGroup]
    by_cases same : subject = member
    · subst same
      simp only [List.mem_cons_self, if_true, Option.map_map]
      have again : joinGroup name ∘ joinGroup name = joinGroup name := by
        funext user
        exact joinGroup_idempotent name user
      rw [again, ite_self]
    · simp [same]

/-- Whom a sound creation lists: everybody who was listed, and its members. -/
private theorem mem_memberOf_create (sound : CreateGroupSound service directory id group) {name : String}
    (provisioned : subject ∈ directory.users) (mapped : Mapped service name) :
    name ∈ memberOf (directory.putGroup id group) subject ↔
      name ∈ memberOf directory subject ∨ (name = group.displayName ∧ subject ∈ group.members) := by
  rw [mem_memberOf_putGroup, mem_memberOf_at directory id]
  constructor
  · rintro (⟨named, listed⟩ | elsewhere)
    · exact .inr ⟨named.symm, listed⟩
    · exact .inl (.inr elsewhere)
  · rintro ((⟨old, found, rfl, listed⟩ | elsewhere) | ⟨named, listed⟩)
    · exact sound.replaced old found mapped subject listed provisioned
    · exact .inr elsewhere
    · exact .inl ⟨named.symm, listed⟩

theorem Synced.createGroup (synced : Synced service directory) {draw : ScimDraw} {id : Option String}
    (sound : CreateGroupSound service directory (id.getD draw.groupId.hyphenated) group) :
    Synced service (scimCreateGroup draw directory id group) := by
  intro subject user found
  have users : (if subject ∈ group.members then
      (directory.users.lookup subject).map (joinGroup group.displayName)
      else directory.users.lookup subject) = some user :=
    (lookup_pushGroups group.displayName group.members directory.users subject).symm.trans found
  by_cases joins : subject ∈ group.members
  · rw [if_pos joins] at users
    obtain ⟨old, known, rfl⟩ := Option.map_eq_some_iff.mp users
    have provisioned : subject ∈ directory.users := Table.mem_of_lookup known
    obtain ⟨derived, listed⟩ := synced subject old known
    refine ⟨derived.trans (derivedAccess_congr ?_), ?_⟩
    · intro mapping mentioned
      constructor
      · rintro ⟨name, member, matched⟩
        exact ⟨name, mem_joinGroup.mpr (.inl member), matched⟩
      · rintro ⟨name, member, matched⟩
        rcases mem_joinGroup.mp member with kept | rfl
        · exact ⟨name, kept, matched⟩
        rcases sound.joined subject joins provisioned with already | redundant
        · exact ⟨_, (listed _ ⟨mapping, mentioned, matched⟩).mpr already, matched⟩
        · obtain ⟨other, elsewhere, _, again⟩ := redundant mapping mentioned matched
          exact ⟨other, (listed _ ⟨mapping, mentioned, again⟩).mpr elsewhere, again⟩
    · intro name mapped
      have members : name ∈ memberOf (scimCreateGroup draw directory id group) subject ↔ _ :=
        mem_memberOf_create sound provisioned mapped
      rw [members, mem_joinGroup, listed name mapped]
      simp [joins]
  · rw [if_neg joins] at users
    have provisioned : subject ∈ directory.users := Table.mem_of_lookup users
    obtain ⟨derived, listed⟩ := synced subject user users
    refine ⟨derived, ?_⟩
    intro name mapped
    have members : name ∈ memberOf (scimCreateGroup draw directory id group) subject ↔ _ :=
      mem_memberOf_create sound provisioned mapped
    rw [members, listed name mapped]
    simp [joins]

private theorem mem_memberOf_addMember (member : String)
    (found : directory.scimGroups.lookup id = some group) (subject name : String) :
    name ∈ memberOf (directory.putGroup id { group with members := group.members ++ [member] })
        subject ↔
      name ∈ memberOf directory subject ∨ (name = group.displayName ∧ subject = member) := by
  rw [mem_memberOf_putGroup, mem_memberOf_at directory id, found]
  simp only [List.mem_append, List.mem_singleton, Option.some.injEq, exists_eq_left']
  tauto

variable (synced : Synced service directory)
include synced

theorem Synced.addMember (draw : ScimDraw)
    (id member : String) : Synced service (addMember service draw id directory member) := by
  unfold SpectonCr.Auth.addMember
  split
  · exact synced
  rename_i group found
  split
  · exact synced
  rename_i absent
  have members := mem_memberOf_addMember member found
  have others : ∀ other user, other ≠ member → directory.users.lookup other = some user → UserSynced service
        (directory.putGroup id { group with members := group.members ++ [member] }) other
        user.groups := by
    intro other user apart known
    apply (synced other user known).relist
    intro name _
    simp [members, apart]
  cases known : directory.users.lookup member with
  | none => exact synced_of_others others known
  | some user =>
    have listed := (synced member user known).listed
    by_cases present : group.displayName ∈ user.groups
    · simp only [present, if_true]
      intro other record lookup
      by_cases same : other = member
      · subst same
        cases known.symm.trans lookup
        apply (synced other user known).relist
        intro name mapped
        rw [members]
        constructor
        · rintro (old | ⟨rfl, _⟩)
          · exact old
          · exact (listed _ mapped).mp present
        · exact Or.inl
      · exact others other record same lookup
    · simp only [present, if_false]
      have rightly : ListsRightly service
          (directory.putGroup id { group with members := group.members ++ [member] }) member
          (user.groups ++ [group.displayName]) := by
        intro name mapped
        rw [members, ← listed name mapped]
        simp
      exact synced_regroup others rightly

theorem Synced.removeMember (draw : ScimDraw)
    {member : String} (sound : RemoveSound service directory id member) :
    Synced service (removeMember service draw id directory member) := by
  unfold SpectonCr.Auth.removeMember
  split
  · exact synced
  rename_i group found
  have members : ∀ subject name, name ∈ memberOf (directory.putGroup id
      { group with members := group.members.filter (· != member) }) subject ↔
        (group.displayName = name ∧ subject ∈ group.members ∧ subject ≠ member) ∨
          ListedElsewhere directory id subject name := by
    intro subject name
    rw [mem_memberOf_putGroup]
    simp
  have others : ∀ other user, other ≠ member → directory.users.lookup other = some user →
      UserSynced service (directory.putGroup id
        { group with members := group.members.filter (· != member) }) other user.groups := by
    intro other user apart known
    apply (synced other user known).relist
    intro name _
    rw [members, mem_memberOf_at directory id, found]
    simp [apart]
  cases known : directory.users.lookup member with
  | none => exact synced_of_others others known
  | some user =>
    have provisioned : member ∈ directory.users := Table.mem_of_lookup known
    have rightly : ListsRightly service (directory.putGroup id
        { group with members := group.members.filter (· != member) }) member
        (user.groups.filter (· != group.displayName)) := by
      intro name mapped
      rw [members, List.mem_filter, (synced member user known).listed name mapped,
        mem_memberOf_at directory id, found]
      by_cases same : group.displayName = name
      · subst same
        have single := sound group found mapped provisioned
        simp [single]
      · simp [same, Ne.symm same]
    exact synced_regroup others rightly

theorem Synced.replaceMembers {members : List String} (sound : ReplaceSound service directory id members) :
    Synced service (replaceMembers id directory members) := by
  unfold SpectonCr.Auth.replaceMembers
  split
  · exact synced
  rename_i group found
  intro subject user known
  have old : directory.users.lookup subject = some user := known
  have provisioned : subject ∈ directory.users := Table.mem_of_lookup old
  apply (synced subject user old).relist
  intro name mapped
  rw [mem_memberOf_putGroup, mem_memberOf_at directory id, found]
  by_cases elsewhere : ListedElsewhere directory id subject name
  · simp [elsewhere]
  simp only [elsewhere, or_false, Option.some.injEq, exists_eq_left']
  constructor
  · rintro ⟨rfl, listed⟩
    exact ⟨rfl, (sound group found mapped subject provisioned elsewhere).mp listed⟩
  · rintro ⟨rfl, listed⟩
    exact ⟨rfl, (sound group found mapped subject provisioned elsewhere).mpr listed⟩

theorem Synced.deleteGroup (sound : DeleteSound service directory id) :
    Synced service (scimDeleteGroup directory id) := by
  cases found : directory.scimGroups.lookup id with
  | none =>
    rw [scimDeleteGroup, found]
    exact synced
  | some group =>
    intro subject user lookup
    have changed : (directory.users.lookup subject).map (fun user : UserRecord =>
        { user with groups := user.groups.filter (· != group.displayName) }) = some user := by
      rw [← Table.lookup_mapRows, ← lookup, scimDeleteGroup, found]
    obtain ⟨old, known, rfl⟩ := Option.map_eq_some_iff.mp changed
    have provisioned : subject ∈ directory.users := Table.mem_of_lookup known
    obtain ⟨derived, listed⟩ := synced subject old known
    have access : accessOf (scimDeleteGroup directory id) subject = accessOf directory subject := by
      rw [scimDeleteGroup, found]
      rfl
    refine ⟨access.trans (derived.trans (derivedAccess_congr ?_)), ?_⟩
    · intro mapping mentioned
      constructor
      · rintro ⟨name, member, matched⟩
        by_cases same : name = group.displayName
        · subst same
          have mapped : Mapped service group.displayName := ⟨mapping, mentioned, matched⟩
          obtain ⟨_, redundant⟩ := sound group found mapped subject provisioned ((listed _ mapped).mp member)
          obtain ⟨other, elsewhere, apart, again⟩ := redundant mapping mentioned matched
          have kept := (listed other ⟨mapping, mentioned, again⟩).mpr elsewhere
          exact ⟨other, by simp [kept, apart], again⟩
        · exact ⟨name, by simp [member, same], matched⟩
      · rintro ⟨name, member, matched⟩
        exact ⟨name, (List.mem_filter.mp member).1, matched⟩
    · intro name mapped
      rw [mem_memberOf_deleteGroup found, List.mem_filter, listed name mapped,
        mem_memberOf_at directory id, found]
      by_cases same : group.displayName = name
      · subst same
        have single : ¬ ListedElsewhere directory id subject group.displayName := by
          intro elsewhere
          have member := (mem_memberOf_at directory id).mpr (.inr elsewhere)
          exact (sound group found mapped subject provisioned member).1 elsewhere
        simp [single]
      · simp [same, Ne.symm same]

end Steps

section Runs

variable (config : ScimConfig) (service : AppState)

/-- An operation of a patch keeps the two sides together. -/
def OperationSound (id : String) (directory : Directory) (operation : ScimPatchOperation) : Prop :=
  match operation.kind with
  | some .remove => ∀ member, operation.path.bind extractMemberIdFromPath = some member →
    RemoveSound service directory id member
  | some .replace => ∀ members, operation.path = some "members" ∨ operation.path = none →
    operation.members = some members → ReplaceSound service directory id members
  | _ => True

def RequestSound (draw : ScimDraw) (directory : Directory) : ScimRequest → Prop
  | .createUser user =>
    user.userName ≠ "" → ListsRightly service directory user.userName user.groupNames
  | .replaceUser id user =>
    (user.active = false ∧ config.autoDeactivate = true) ∨ ListsRightly service directory id user.groupNames
  | .createGroup id group =>
    CreateGroupSound service directory (id.getD draw.groupId.hyphenated) group
  | .patchGroup id operations =>
    Run.Along (patchOperation service draw id) (OperationSound service id) directory operations
  | .deleteGroup id => DeleteSound service directory id

/-- The call is refused, or keeps what a user is listed for and what the user's
policies give together. -/
def CallSound (directory : Directory) (call : ScimCall) : Prop :=
  authenticateScim config call.authorization = .ok () →
    RequestSound config service call.draw directory call.request

/-- No policies yet, and no provisioned user in a group that a mapping looks at. -/
structure ScimStart (directory : Directory) : Prop where
  policies : directory.accessPolicies = []
  unmapped : ∀ subject user, directory.users.lookup subject = some user →
    ∀ name, Mapped service name → name ∉ user.groups ∧ name ∉ memberOf directory subject

variable {config service} {directory : Directory}

theorem ScimStart.synced (start : ScimStart service directory) : Synced service directory := by
  intro subject user known
  have unmapped := start.unmapped subject user known
  constructor
  · have none : derivedAccess service user.groups = derivedAccess service [] := by
      apply derivedAccess_of_mapped
      intro name mapped
      simp [(unmapped name mapped).1]
    rw [none, accessOf, start.policies]
    simp [derivedAccess, mappingAccess]
  · intro name mapped
    simp [unmapped name mapped]

theorem Synced.patchOperation (synced : Synced service directory) (draw : ScimDraw) {id : String}
    {operation : ScimPatchOperation} (sound : OperationSound service id directory operation) :
    Synced service (patchOperation service draw id directory operation) := by
  unfold OperationSound at sound
  unfold SpectonCr.Auth.patchOperation
  cases kind : operation.kind with
  | none => exact synced
  | some kind' =>
    rw [kind] at sound
    cases kind' with
    | add =>
      exact Run.after_invariant (Synced service)
        (fun state member kept _ => kept.addMember draw id member) synced
        (Run.along_true _ _)
    | remove =>
      cases named : operation.path.bind extractMemberIdFromPath with
      | none => exact synced
      | some member => exact synced.removeMember draw (sound member named)
    | replace =>
      dsimp only
      split
      · rename_i whole
        cases given : operation.members with
        | none => exact synced
        | some members => exact synced.replaceMembers (sound members (by simpa using whole) given)
      · exact synced

theorem Synced.scimHandle (synced : Synced service directory) {draw : ScimDraw} {request : ScimRequest}
    (sound : RequestSound config service draw directory request) {after : Directory}
    (handled : scimHandle config service draw directory request = .ok after) : Synced service after := by
  cases request with
  | createUser user =>
    simp only [SpectonCr.Auth.scimHandle, scimCreateUser] at handled
    split at handled
    · cases handled
    · rename_i named
      cases handled
      exact synced_regroup (fun other user _ => synced other user) (sound named)
  | replaceUser id user =>
    cases handled
    unfold scimReplaceUser
    split
    · exact synced.deactivate id
    rename_i active
    rcases sound with inactive | rightly
    · simp [inactive] at active
    · exact synced_regroup (fun other user _ => synced other user) rightly
  | createGroup id group =>
    cases handled
    exact synced.createGroup sound
  | patchGroup id operations =>
    simp only [SpectonCr.Auth.scimHandle, scimPatchGroup] at handled
    split at handled
    · cases handled
    · cases handled
      exact Run.after_invariant (Synced service)
        (fun state operation kept guard => kept.patchOperation draw guard) synced sound
  | deleteGroup id =>
    cases handled
    exact synced.deleteGroup sound

theorem Synced.scimStep (synced : Synced service directory) (sound : CallSound config service directory call) :
    Synced service (scimStep config service directory call) := by
  unfold SpectonCr.Auth.scimStep scimCall
  cases authentic : authenticateScim config call.authorization with
  | error _ => exact synced
  | ok _ =>
    cases handled : SpectonCr.Auth.scimHandle config service call.draw directory call.request with
    | error _ =>
      simp only [Except.bind]
      exact synced
    | ok after =>
      simp only [Except.bind]
      exact synced.scimHandle (sound authentic) handled

/-- Along every run of sound calls, access follows membership. -/
theorem access_follows_membership (config : ScimConfig) (service : AppState) (start : Directory)
    (calls : List ScimCall) (initial : ScimStart service start)
    (sound : Run.Along (scimStep config service) (CallSound config service) start calls) :
    FollowsMembership service (Run.after (scimStep config service) start calls) := by
  have synced : Synced service (Run.after (scimStep config service) start calls) :=
    Run.after_invariant (Synced service) (fun state call kept guard => kept.scimStep guard)
      initial.synced sound
  exact synced.followsMembership

end Runs

def scimConfig : ScimConfig := ⟨true, some "scim", true⟩

def emptyDirectory : Directory := ⟨∅, [], ∅⟩

def authenticCall (request : ScimRequest) : ScimCall :=
  ⟨some "Bearer scim", request, ⟨0, .nil, fun _ _ => .nil⟩⟩

def patchCall (op : String) (members : List Json) : ScimCall :=
  authenticCall (.patchGroup "g" [⟨op, none, some (.arr members)⟩])

/-- `eve` is provisioned and added to the new, mapped group `devs`. -/
def addEve : List ScimCall :=
  [authenticCall (.createUser ⟨"eve", true, []⟩), authenticCall (.createGroup (some "g") ⟨"devs", []⟩),
    patchCall "add" [.obj [("value", .str "eve")]]]

def scimRun (calls : List ScimCall) : Directory :=
  Run.after (scimStep scimConfig (mappedState "demo")) emptyDirectory calls

/-- A user keeps the access that an emptied or deleted group takes away, and a group created with a
member gives the member nothing. -/
theorem access_outlives_membership :
    (accessOf (scimRun (addEve ++ [patchCall "replace" []])) "eve" = [⟨.nil, none, .admin⟩] ∧
      memberOf (scimRun (addEve ++ [patchCall "replace" []])) "eve" = [] ∧
      ¬ FollowsMembership (mappedState "demo") (scimRun (addEve ++ [patchCall "replace" []]))) ∧
    (accessOf (scimRun (addEve ++ [authenticCall (.deleteGroup "g")])) "eve" = [⟨.nil, none, .admin⟩] ∧
      memberOf (scimRun (addEve ++ [authenticCall (.deleteGroup "g")])) "eve" = []) ∧
    (accessOf (scimRun [authenticCall (.createUser ⟨"eve", true, []⟩),
        authenticCall (.createGroup (some "g") ⟨"devs", ["eve"]⟩)]) "eve" = [] ∧
      derivedAccess (mappedState "demo") (memberOf (scimRun [authenticCall (.createUser ⟨"eve", true, []⟩),
          authenticCall (.createGroup (some "g") ⟨"devs", ["eve"]⟩)]) "eve") =
        [⟨.nil, none, .admin⟩]) := by
  have replaced : accessOf (scimRun (addEve ++ [patchCall "replace" []])) "eve" = [⟨.nil, none, .admin⟩] ∧
      memberOf (scimRun (addEve ++ [patchCall "replace" []])) "eve" = [] ∧
      (scimRun (addEve ++ [patchCall "replace" []])).users.lookup "eve" = some ⟨["devs"]⟩ := by
    decide +kernel
  refine ⟨⟨replaced.1, replaced.2.1, ?_⟩, by decide +kernel, by decide +kernel⟩
  intro follows
  have same := follows "eve" ⟨["devs"]⟩ replaced.2.2
  rw [replaced.1, replaced.2.1] at same
  exact absurd same (by decide +kernel)

theorem added_member_has_access :
    ScimStart (mappedState "demo") emptyDirectory ∧ Run.Along (scimStep scimConfig (mappedState "demo"))
        (CallSound scimConfig (mappedState "demo")) emptyDirectory addEve ∧
      accessOf (scimRun addEve) "eve" = [⟨.nil, none, .admin⟩] ∧
      FollowsMembership (mappedState "demo") (scimRun addEve) := by
  have start : ScimStart (mappedState "demo") emptyDirectory := by
    refine ⟨rfl, ?_⟩
    intro subject user known
    cases known
  have sound : Run.Along (scimStep scimConfig (mappedState "demo"))
      (CallSound scimConfig (mappedState "demo")) emptyDirectory addEve := by
    refine ⟨?_, ?_, ?_, trivial⟩
    · intro _ _ name _
      exact Iff.rfl
    · intro _
      refine ⟨?_, ?_⟩
      · intro subject member
        cases member
      · intro old found
        cases found
    · intro _
      exact ⟨trivial, trivial⟩
  refine ⟨start, sound, by decide +kernel, ?_⟩
  exact access_follows_membership scimConfig (mappedState "demo") emptyDirectory addEve start sound

end SpectonCr.Auth
