import SpectonCr.Auth.Isolation
import SpectonCr.Base.Glob

namespace SpectonCr.Auth

theorem afterFirst_sound (found : afterFirst piece text = some (starts, remaining)) :
    ∃ skipped, text = skipped ++ (piece ++ remaining) ∧ (starts = true → skipped = []) := by
  induction text generalizing starts with
  | nil =>
    cases piece with
    | nil =>
      cases found
      exact ⟨[], rfl, fun _ => rfl⟩
    | cons _ _ => cases found
  | cons c rest ih =>
    unfold afterFirst at found
    split at found
    · rename_i here
      cases found
      refine ⟨[], ?_, fun _ => rfl⟩
      exact (List.prefix_iff_eq_append.mp (List.isPrefixOf_iff_prefix.mp here)).symm
    · obtain ⟨⟨_, _⟩, later, same⟩ := Option.map_eq_some_iff.mp found
      cases same
      obtain ⟨skipped, whole, _⟩ := ih later
      exact ⟨c :: skipped, by rw [whole, List.cons_append], by simp⟩

/-- The first occurrence of a piece leaves at least what any other leaves. -/
theorem afterFirst_complete (occurs : text = skipped ++ (piece ++ extra)) :
    ∃ starts remaining, afterFirst piece text = some (starts, remaining) ∧ extra <:+ remaining ∧
      (skipped = [] → starts = true) := by
  induction text generalizing skipped with
  | nil =>
    obtain ⟨rfl, rfl, rfl⟩ : skipped = [] ∧ piece = [] ∧ extra = [] := by simpa using occurs
    exact ⟨true, [], rfl, List.suffix_rfl, fun _ => rfl⟩
  | cons c rest ih =>
    unfold afterFirst
    split
    · rename_i here
      obtain ⟨later, whole⟩ := List.isPrefixOf_iff_prefix.mp here
      refine ⟨true, _, rfl, ?_, fun _ => rfl⟩
      rw [← whole, List.drop_left]
      have kept : extra <:+ c :: rest := ⟨skipped ++ piece, by rw [occurs, List.append_assoc]⟩
      have lengths := congrArg List.length (whole.trans occurs)
      simp only [List.length_append] at lengths
      exact List.suffix_of_suffix_length_le kept ⟨piece, whole⟩ (by omega)
    · rename_i apart
      cases skipped with
      | nil => exact absurd (List.isPrefixOf_iff_prefix.mpr ⟨extra, occurs.symm⟩) apart
      | cons first others =>
        obtain ⟨starts, remaining, found, kept, _⟩ := ih (List.cons.inj occurs).2
        exact ⟨false, remaining, by rw [found, Option.map_some], kept, by simp⟩

/-- The pattern that pieces were cut from; after the first, every piece follows a wildcard. -/
def rejoin (first : Bool) : List (List Char) → List Char
  | [] => []
  | piece :: rest => (if first then piece else '*' :: piece) ++ rejoin false rest

theorem matchPieces_sound (matched : matchPieces first pieces text = some remaining) :
    ∃ used, text = used ++ remaining ∧ Glob '*' (rejoin first pieces) used := by
  induction pieces generalizing first text with
  | nil =>
    cases matched
    exact ⟨[], rfl, .nil⟩
  | cons piece rest ih =>
    unfold matchPieces at matched
    split at matched
    · rename_i empty
      obtain ⟨used, whole, later⟩ := ih matched
      refine ⟨used, whole, ?_⟩
      cases List.isEmpty_iff.mp empty
      cases first with
      | true => exact later
      | false => exact .wild [] later
    · split at matched
      · cases matched
      rename_i starts middle found
      obtain ⟨skipped, split, anchored⟩ := afterFirst_sound found
      split at matched
      · cases matched
      rename_i start
      obtain ⟨used, whole, later⟩ := ih matched
      refine ⟨skipped ++ (piece ++ used), by simp [split, whole], ?_⟩
      cases first with
      | true =>
        rw [anchored (by simpa using start)]
        exact (Glob.literal piece).append later
      | false => exact .wild skipped ((Glob.literal piece).append later)

theorem matchPieces_complete (plain : ∀ piece ∈ pieces, '*' ∉ piece)
    (matched : Glob '*' (rejoin first pieces) used) (whole : text = before ++ (used ++ extra))
    (anchored : first = true → before = []) :
    ∃ remaining, matchPieces first pieces text = some remaining ∧ extra <:+ remaining := by
  induction pieces generalizing first used text before with
  | nil =>
    cases matched
    exact ⟨text, rfl, before, whole.symm⟩
  | cons piece rest ih =>
    obtain ⟨bare, later⟩ := List.forall_mem_cons.mp plain
    obtain ⟨skipped, others, rfl, start, words⟩ : ∃ skipped others,
        used = skipped ++ (piece ++ others) ∧ (first = true → skipped = []) ∧
          Glob '*' (rejoin false rest) others := by
      cases first with
      | true =>
        obtain ⟨others, same, words⟩ := Glob.of_piece bare matched
        exact ⟨[], others, same, fun _ => rfl, words⟩
      | false =>
        obtain ⟨skipped, _, rfl, follows⟩ := Glob.of_wildcard matched
        obtain ⟨others, rfl, words⟩ := Glob.of_piece bare follows
        exact ⟨skipped, others, rfl, nofun, words⟩
    have occurs : text = (before ++ skipped) ++ (piece ++ (others ++ extra)) := by simp [whole]
    obtain ⟨starts, remaining, found, ⟨between, kept⟩, leads⟩ := afterFirst_complete occurs
    unfold matchPieces
    split
    · rename_i empty
      cases List.isEmpty_iff.mp empty
      exact ih later words occurs nofun
    have fits : ¬ (first && !starts) = true := by
      cases first with
      | true => simp [leads (by simp [anchored rfl, start rfl])]
      | false => simp
    simpa only [found, if_neg fits] using ih later words kept.symm nofun

theorem groupMatches_literal (plain : '*' ∉ pattern.toList) :
    groupMatches pattern group = decide (pattern = group) := by
  have other : pattern ≠ "*" := by
    rintro rfl
    exact plain (by decide)
  simp [groupMatches, other, plain]

theorem cut_pieces (pattern : String) :
    rejoin true (pattern.toList.splitOn '*') = pattern.toList ∧
      ∀ piece ∈ pattern.toList.splitOn '*', '*' ∉ piece := by
  have whole : ∀ pieces, rejoin true pieces = ['*'].intercalate pieces := by
    intro pieces
    induction pieces with
    | nil => rfl
    | cons piece rest ih =>
      cases rest with
      | nil => simp [rejoin]
      | cons next others =>
        rw [List.intercalate_cons_cons, ← ih]
        simp [rejoin]
  refine ⟨by rw [whole, List.intercalate_splitOn], ?_⟩
  intro piece member
  simpa using Text.not_mem_of_mem_split (List.mem_map_of_mem member)

/-- A pattern with a wildcard, cut into its pieces. -/
theorem groupMatches_cut (group : String) (wild : '*' ∈ pattern.toList) :
    ∃ pieces, rejoin true pieces = pattern.toList ∧ (∀ piece ∈ pieces, '*' ∉ piece) ∧
      (groupMatches pattern group = true ↔ ∃ remaining,
        matchPieces true pieces group.toList = some remaining ∧
          (pattern.toList.getLast? = some '*' ∨ remaining = [])) := by
  refine ⟨pattern.toList.splitOn '*', (cut_pieces pattern).1, (cut_pieces pattern).2, ?_⟩
  unfold groupMatches
  split
  · rename_i everything
    subst everything
    rw [show "*".toList.splitOn '*' = [[], []] by decide +kernel]
    exact iff_of_true rfl ⟨group.toList, rfl, .inl (by decide)⟩
  · cases matchPieces true (pattern.toList.splitOn '*') group.toList <;> simp

theorem groupMatches_sound (matched : groupMatches pattern group = true) :
    Glob '*' pattern.toList group.toList := by
  by_cases wild : '*' ∈ pattern.toList
  · obtain ⟨pieces, whole, _, accepts⟩ := groupMatches_cut group wild
    obtain ⟨remaining, found, ended⟩ := accepts.mp matched
    obtain ⟨used, split, words⟩ := matchPieces_sound found
    rw [whole] at words
    rw [split]
    rcases ended with open_ | rfl
    · obtain ⟨before, ends⟩ := List.getLast?_eq_some_iff.mp open_
      rw [ends] at words ⊢
      exact words.extend remaining
    · rwa [List.append_nil]
  · rw [groupMatches_literal wild] at matched
    rw [of_decide_eq_true matched]
    exact .literal group.toList

/-- The resolution accepts the words of a pattern, if the pattern is open or no shorter text is
one of its words. -/
theorem groupMatches_iff : groupMatches pattern group = true ↔
    Glob '*' pattern.toList group.toList ∧ (pattern.toList.getLast? = some '*' ∨
      ∀ shorter, shorter <+: group.toList → Glob '*' pattern.toList shorter → shorter = group.toList) := by
  by_cases wild : '*' ∈ pattern.toList
  · obtain ⟨pieces, whole, plain, accepts⟩ := groupMatches_cut group wild
    constructor
    · intro matched
      obtain ⟨remaining, found, ended⟩ := accepts.mp matched
      refine ⟨groupMatches_sound matched, ended.imp_right ?_⟩
      rintro rfl shorter ⟨extra, split⟩ word
      rw [← whole] at word
      obtain ⟨_, again, left⟩ := matchPieces_complete plain word
        (show group.toList = [] ++ (shorter ++ extra) from split.symm) fun _ => rfl
      cases found.symm.trans again
      rw [← split, List.suffix_nil.mp left, List.append_nil]
    · rintro ⟨word, ended⟩
      rw [← whole] at word
      obtain ⟨remaining, found, _⟩ := matchPieces_complete plain word
        (show group.toList = [] ++ (group.toList ++ []) by simp) fun _ => rfl
      refine accepts.mpr ⟨remaining, found, ended.imp_right fun shortest => ?_⟩
      obtain ⟨used, split, words⟩ := matchPieces_sound found
      have all := shortest used ⟨remaining, split.symm⟩ (whole ▸ words)
      simpa [all] using split
  · rw [groupMatches_literal wild, Glob.iff_eq_of_notMem wild, decide_eq_true_iff]
    constructor
    · rintro rfl
      exact ⟨rfl, .inr fun shorter _ word => (Glob.iff_eq_of_notMem wild).mp word⟩
    · rintro ⟨same, _⟩
      exact String.toList_injective same.symm

theorem groupMatches_glob_iff (pattern group : String) :
    (groupMatches pattern group = true ↔ Glob '*' pattern.toList group.toList) ↔
      (Glob '*' pattern.toList group.toList → pattern.toList.getLast? = some '*' ∨
        ∀ shorter, shorter <+: group.toList → Glob '*' pattern.toList shorter → shorter = group.toList) := by
  rw [groupMatches_iff, and_iff_left_iff_imp]

/-- The first occurrence of the last piece is not at the end. -/
theorem closed_pattern_missed : groupMatches "*a" "aa" = false ∧ Glob '*' "*a".toList "aa".toList :=
  ⟨by decide +kernel, .wild ['a'] (.literal ['a'])⟩

section Order

variable (subject : String) (tenantId : Uuid) (projectId : Option Uuid)

/-- A policy for the project the subject asks for. -/
def forProject (policy : AccessPolicy) : Bool :=
  policy.subject = subject && policy.tenantId = tenantId && projectId.isSome && policy.projectId = projectId

/-- A policy for the whole tenant. -/
def forTenant (policy : AccessPolicy) : Bool :=
  policy.subject = subject && policy.tenantId = tenantId && policy.projectId = none

def SameRoles (policies : List AccessPolicy) : Prop :=
  ∀ first ∈ policies, ∀ second ∈ policies, first.role = second.role

variable {subject tenantId projectId}

theorem policyRole_cons : policyRole subject tenantId projectId (policy :: rest) best =
    if forProject subject tenantId projectId policy then some policy.role
    else policyRole subject tenantId projectId rest
      (if forTenant subject tenantId policy then some policy.role else best) := by
  rw [policyRole]
  grind [forProject, forTenant]

/-- The first policy of the project decides, and without one the last of the tenant. -/
theorem policyRole_eq (policies : List AccessPolicy) (best : Option Role) :
    policyRole subject tenantId projectId policies best =
      ((policies.filter (forProject subject tenantId projectId)).map AccessPolicy.role).head?.or
        (((policies.filter (forTenant subject tenantId)).map AccessPolicy.role).getLast?.or best) := by
  induction policies generalizing best with
  | nil => simp [policyRole]
  | cons policy rest ih =>
    rw [policyRole_cons, ih, List.filter_cons, List.filter_cons]
    cases forProject subject tenantId projectId policy with
    | true => simp
    | false =>
      cases forTenant subject tenantId policy with
      | false => simp
      | true => cases rest.filter (forTenant subject tenantId) <;> simp [List.getLast?_cons]

theorem SameRoles.map_perm (same : SameRoles policies) (order : policies.Perm others) :
    others.map AccessPolicy.role = policies.map AccessPolicy.role := by
  cases policies with
  | nil => rw [← order.nil_eq]
  | cons first rest =>
    have flat : (first :: rest).map AccessPolicy.role = List.replicate (rest.length + 1) first.role := by
      refine List.eq_replicate_iff.mpr ⟨by simp, List.forall_mem_map.mpr ?_⟩
      exact fun policy member => same policy member first (.head rest)
    rw [flat, ← List.perm_replicate, ← flat]
    exact (order.map AccessPolicy.role).symm

/-- The role is that of every order exactly for the administrator, and where the policies that
decide have one role. -/
theorem resolveRole_perm_iff (state : AppState) (subject : String) (tenantId : Uuid)
    (projectId : Option Uuid) :
    (∀ policies, state.accessPolicies.Perm policies →
      resolveRole { state with accessPolicies := policies } subject tenantId projectId =
        resolveRole state subject tenantId projectId) ↔
    (state.bootstrapAdmin.any fun admin => subject = admin.username) = true ∨
      SameRoles (state.accessPolicies.filter (forProject subject tenantId projectId)) ∧
        (state.accessPolicies.filter (forProject subject tenantId projectId) = [] →
          SameRoles (state.accessPolicies.filter (forTenant subject tenantId))) := by
  cases bootstrap : state.bootstrapAdmin.any fun admin => subject = admin.username with
  | true => simp [resolveRole, bootstrap]
  | false =>
    simp only [Bool.false_eq_true, false_or]
    constructor
    · intro stable
      have own : ∀ policy ∈ state.accessPolicies.filter (forProject subject tenantId projectId),
          policy.role = resolveRole state subject tenantId projectId := by
        intro policy listed
        obtain ⟨member, own⟩ := List.mem_filter.mp listed
        rw [← stable _ (List.perm_cons_erase member)]
        simp [resolveRole, bootstrap, policyRole_cons, own]
      refine ⟨fun first one second two => (own first one).trans (own second two).symm, ?_⟩
      intro unscoped
      have wide : ∀ policy ∈ state.accessPolicies.filter (forTenant subject tenantId),
          policy.role = resolveRole state subject tenantId projectId := by
        intro policy listed
        obtain ⟨member, wide⟩ := List.mem_filter.mp listed
        have order : state.accessPolicies.Perm (state.accessPolicies.erase policy ++ [policy]) :=
          (List.perm_cons_erase member).trans (List.perm_append_singleton policy _).symm
        have others := order.filter (forProject subject tenantId projectId)
        rw [unscoped] at others
        rw [← stable _ order, resolveRole, policyRole_eq, ← others.nil_eq]
        simp [bootstrap, wide]
      exact fun first one second two => (wide first one).trans (wide second two).symm
    · rintro ⟨own, wide⟩ policies order
      have same : policyRole subject tenantId projectId policies none =
          policyRole subject tenantId projectId state.accessPolicies none := by
        rw [policyRole_eq, policyRole_eq, own.map_perm (order.filter _)]
        cases projects : state.accessPolicies.filter (forProject subject tenantId projectId) with
        | nil => rw [(wide projects).map_perm (order.filter _)]
        | cons _ _ => rfl
      simp only [resolveRole, same]
      rfl

/-- Two policies for one tenant: the later of them counts. -/
theorem tenant_policies_ordered :
    let reads : AccessPolicy := ⟨.nil, .nil, none, "eve", .reader, 0⟩
    let rules : AccessPolicy := ⟨.nil, .nil, none, "eve", .admin, 0⟩
    resolveRole { twoTenants with accessPolicies := [reads, rules] } "eve" .nil none = .admin ∧
      resolveRole { twoTenants with accessPolicies := [rules, reads] } "eve" .nil none = .reader := by
  decide +kernel

end Order

section Resolution

/-- How much a role permits. -/
def privilege : Role → Nat
  | .reader => 0
  | .maintainer => 1
  | .admin => 2

theorem privilege_higherPrivilegeRole (first second : Role) :
    privilege (higherPrivilegeRole first second) = max (privilege first) (privilege second) := by
  cases first <;> cases second <;> rfl

private theorem higherPrivilegeRole_eq (first second : Role) :
    higherPrivilegeRole first second = first ∨ higherPrivilegeRole first second = second := by
  cases first <;> cases second <;> simp [higherPrivilegeRole]

/-- The loop over the roles ends with one that is at least every other. -/
theorem foldl_higher (roles : List Role) (start : Role) :
    ∃ best, roles.foldl (fun best role => some (best.elim role fun existing =>
        higherPrivilegeRole existing role)) (some start) = some best ∧
      best ∈ start :: roles ∧ ∀ role ∈ start :: roles, privilege role ≤ privilege best := by
  induction roles generalizing start with
  | nil => exact ⟨start, rfl, by simp, by simp⟩
  | cons role rest ih =>
    obtain ⟨best, folded, member, above⟩ := ih (higherPrivilegeRole start role)
    have step : privilege (higherPrivilegeRole start role) ≤ privilege best := above _ List.mem_cons_self
    rw [privilege_higherPrivilegeRole] at step
    refine ⟨best, folded, ?_, ?_⟩
    · rcases List.mem_cons.mp member with same | later
      · rcases higherPrivilegeRole_eq start role with first | second
        · rw [same, first]
          exact List.mem_cons_self
        · rw [same, second]
          exact List.mem_cons_of_mem start List.mem_cons_self
      · exact List.mem_cons_of_mem start (List.mem_cons_of_mem role later)
    · intro other listed
      rcases List.mem_cons.mp listed with rfl | listed
      · exact le_trans (le_max_left _ _) step
      · rcases List.mem_cons.mp listed with rfl | listed
        · exact le_trans (le_max_right _ _) step
        · exact above other (List.mem_cons_of_mem _ listed)

variable (state : AppState)

/-- The resolution counts the mapping for a user with these groups. -/
def Counted (groups : List String) (mapping : GroupRoleMapping) : Prop :=
  mapping ∈ state.groupRoleMappings ∧ ∃ group ∈ groups, groupMatches mapping.group group = true

/-- The mapping is for the tenant, for the project if it names one, and for one
of the groups. -/
structure Grants (groups : List String) (tenantId : Uuid) (projectId : Option Uuid)
    (mapping : GroupRoleMapping) : Prop where
  listed : mapping ∈ state.groupRoleMappings
  tenant : ∃ tenant, state.tenants.lookup mapping.tenant = some tenant ∧ tenant.id = tenantId
  project : ∀ name, mapping.project = some name →
    ∃ project, state.projects.lookup (tenantId, name) = some project ∧ projectId = some project.id
  group : ∃ group ∈ groups, Glob '*' mapping.group.toList group.toList

variable {state}

theorem resolveRoleFromGroups_cases (known : state.users.lookup subject = some user) :
    (resolveRoleFromGroups state subject = none ∧ ∀ mapping, ¬ Counted state user.groups mapping) ∨
      ∃ best, resolveRoleFromGroups state subject = some best.role ∧ Counted state user.groups best ∧
        ∀ mapping, Counted state user.groups mapping → privilege mapping.role ≤ privilege best.role := by
  have member : ∀ role, role ∈ (state.groupRoleMappings.flatMap fun mapping =>
      (user.groups.filter (groupMatches mapping.group)).map fun _ => mapping.role) ↔
        ∃ mapping, Counted state user.groups mapping ∧ mapping.role = role := by
    intro role
    simp only [List.mem_flatMap, List.mem_map, List.mem_filter, Counted]
    constructor
    · rintro ⟨mapping, listed, group, ⟨belongs, matched⟩, same⟩
      exact ⟨mapping, ⟨listed, group, belongs, matched⟩, same⟩
    · rintro ⟨mapping, ⟨listed, group, belongs, matched⟩, same⟩
      exact ⟨mapping, listed, group, ⟨belongs, matched⟩, same⟩
  simp only [resolveRoleFromGroups, known]
  generalize (state.groupRoleMappings.flatMap fun mapping =>
      (user.groups.filter (groupMatches mapping.group)).map fun _ => mapping.role) = granted at member ⊢
  cases granted with
  | nil =>
    refine .inl ⟨rfl, ?_⟩
    intro mapping counted
    cases (member mapping.role).mpr ⟨mapping, counted, rfl⟩
  | cons first rest =>
    obtain ⟨best, folded, kept, above⟩ := foldl_higher rest first
    obtain ⟨mapping, counted, rfl⟩ := (member best).mp kept
    refine .inr ⟨mapping, folded, counted, ?_⟩
    intro other otherCounted
    exact above other.role ((member other.role).mpr ⟨other, otherCounted, rfl⟩)

theorem Counted.grants (counted : Counted state groups mapping)
    (tenant : ∃ tenant, state.tenants.lookup mapping.tenant = some tenant ∧ tenant.id = tenantId)
    (project : ∀ name, mapping.project = some name → ∃ project, state.projects.lookup (tenantId,
      name) = some project ∧ projectId = some project.id) :
    Grants state groups tenantId projectId mapping := by
  obtain ⟨listed, group, belongs, matched⟩ := counted
  exact ⟨listed, tenant, project, group, belongs, groupMatches_sound matched⟩

/-- Every mapping that counts towards a role above reader is outdone by one that
grants, and so is the bootstrap administrator's name. -/
structure Covered (state : AppState) (subject : String) (groups : List String) (tenantId : Uuid)
    (projectId : Option Uuid) : Prop where
  administrator : ∀ admin, state.bootstrapAdmin = some admin → subject = admin.username →
    ∃ mapping, Grants state groups tenantId projectId mapping ∧ mapping.role = .admin
  counted : ∀ mapping, Counted state groups mapping → mapping.role ≠ .reader →
    ∃ other, Grants state groups tenantId projectId other ∧ privilege mapping.role ≤ privilege other.role

private theorem eq_admin_of_privilege (above : privilege .admin ≤ privilege role) : role = .admin := by
  cases role with
  | admin => rfl
  | maintainer | reader => exact absurd above (by decide)

private theorem eq_reader_of_privilege (below : privilege role ≤ privilege .reader) : role = .reader := by
  cases role with
  | admin | maintainer => exact absurd below (by decide)
  | reader => rfl

/-- A role above reader comes from a mapping that grants it exactly when what the
resolution counts is covered. -/
theorem role_granted_iff (state : AppState) (subject : String) (user : UserRecord) (tenantId : Uuid)
    (projectId : Option Uuid) (known : state.users.lookup subject = some user)
    (unlisted : ∀ policy ∈ state.accessPolicies, policy.subject ≠ subject) :
    (resolveRole state subject tenantId projectId ≠ .reader →
      ∃ mapping, Grants state user.groups tenantId projectId mapping ∧
        privilege (resolveRole state subject tenantId projectId) ≤ privilege mapping.role) ↔
    Covered state subject user.groups tenantId projectId := by
  rw [resolveRole_unlisted unlisted]
  unfold unlistedRole
  by_cases administrator : ∃ admin, state.bootstrapAdmin = some admin ∧ subject = admin.username
  · obtain ⟨admin, configured, same⟩ := administrator
    rw [if_pos (by simp [configured, same])]
    constructor
    · intro granted
      obtain ⟨mapping, grants, above⟩ := granted (by decide)
      have top := eq_admin_of_privilege above
      refine ⟨fun _ _ _ => ⟨mapping, grants, top⟩, ?_⟩
      intro other _ _
      refine ⟨mapping, grants, ?_⟩
      rw [top]
      cases other.role <;> decide
    · intro covered _
      obtain ⟨mapping, grants, top⟩ := covered.administrator admin configured same
      exact ⟨mapping, grants, top ▸ le_refl _⟩
  · have other : ¬ (state.bootstrapAdmin.any fun admin => subject = admin.username) = true := by
      cases configured : state.bootstrapAdmin with
      | none => simp
      | some admin =>
        intro same
        exact administrator ⟨admin, configured, by simpa using same⟩
    rw [if_neg other]
    have ordinary : ∀ admin, state.bootstrapAdmin = some admin → subject = admin.username →
        ∃ mapping, Grants state user.groups tenantId projectId mapping ∧ mapping.role = .admin :=
      fun admin configured same => absurd ⟨admin, configured, same⟩ administrator
    rcases resolveRoleFromGroups_cases known with ⟨none, uncounted⟩ | ⟨best, resolved, kept, above⟩
    · rw [none, Option.getD_none]
      constructor
      · intro _
        exact ⟨ordinary, fun mapping counted => absurd counted (uncounted mapping)⟩
      · intro _ higher
        exact absurd rfl higher
    · rw [resolved, Option.getD_some]
      constructor
      · intro granted
        refine ⟨ordinary, ?_⟩
        intro mapping counted higher
        have below := above mapping counted
        have bestHigher : best.role ≠ .reader := by
          intro reader
          rw [reader] at below
          exact higher (eq_reader_of_privilege below)
        obtain ⟨other, grants, outdone⟩ := granted bestHigher
        exact ⟨other, grants, le_trans below outdone⟩
      · intro covered higher
        exact covered.counted best kept higher

end Resolution

/-- The mapping of the groups `devs*` to administrators of one tenant, and a user
`eve` in such a group. -/
def mappedState (tenant : String) : AppState :=
  { twoTenants with
    accessPolicies := []
    groupRoleMappings := [⟨"devs*", tenant, none, .admin⟩]
    users := AList.insert "eve" ⟨["devs-web"]⟩ ∅ }

private theorem known_eve (tenant : String) :
    (mappedState tenant).users.lookup "eve" = some ⟨["devs-web"]⟩ := AList.lookup_insert _

/-- A mapping of the tenant `acme` makes an administrator of the tenant `demo`. -/
theorem mapping_crosses_tenants : resolveRole (mappedState "acme") "eve" .nil none = .admin ∧
      ¬ ∃ mapping, Grants (mappedState "acme") ["devs-web"] .nil none mapping := by
  refine ⟨by decide +kernel, ?_⟩
  rintro ⟨mapping, grants⟩
  obtain rfl := List.mem_singleton.mp grants.listed
  obtain ⟨tenant, found, same⟩ := grants.tenant
  have acme : (mappedState "acme").tenants.lookup "acme" =
      some ⟨⟨List.replicate 16 1, rfl⟩, true, "acme"⟩ := by
    decide +kernel
  cases acme.symm.trans found
  exact absurd same (by decide)

theorem mapping_of_tenant_grants : resolveRole (mappedState "demo") "eve" .nil none ≠ .reader ∧
      ∃ mapping, Grants (mappedState "demo") ["devs-web"] .nil none mapping ∧
        privilege (resolveRole (mappedState "demo") "eve" .nil none) ≤ privilege mapping.role := by
  have higher : resolveRole (mappedState "demo") "eve" .nil none ≠ .reader := by
    decide +kernel
  refine ⟨higher, (role_granted_iff (mappedState "demo") "eve" ⟨["devs-web"]⟩ .nil none
    (known_eve "demo") (by intro policy member; cases member)).mpr ⟨?_, ?_⟩ higher⟩
  · intro admin configured same
    cases configured
    exact absurd same (by decide)
  · intro mapping counted _
    have only := List.mem_singleton.mp counted.1
    refine ⟨mapping, counted.grants ?_ ?_, le_refl _⟩
    · rw [only]
      exact ⟨⟨.nil, true, "demo"⟩, by decide +kernel, rfl⟩
    · intro name restricted
      rw [only] at restricted
      cases restricted

end SpectonCr.Auth
