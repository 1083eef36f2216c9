import SpectonCr.Mirror.Service

namespace SpectonCr.Mirror

open Storage Registry

structure UpstreamConfig where
  (name url : String)
  (username password tenantPrefix : Option String)

structure MirrorConfig where
  upstreams : List UpstreamConfig
  scope : MirrorScope

/-- One turn of the loop in `MirrorService::new`: a later upstream takes the place of an earlier
one with the same prefix. -/
def routeUpstream (routing : Table String Nat) (upstream : UpstreamConfig × Nat) : Table String Nat :=
  match upstream.1.tenantPrefix with
  | some tenant => routing.insert tenant upstream.2
  | none => routing

def tenantRouting (upstreams : List UpstreamConfig) : Table String Nat :=
  upstreams.zipIdx.foldl routeUpstream ∅

def MirrorService.new (config : MirrorConfig) (codec : CacheCodec) : MirrorService where
  upstreams := config.upstreams.map UpstreamConfig.name
  tenantRouting := Mirror.tenantRouting config.upstreams
  scope := config.scope
  codec := codec

/-- The tenant that the upstream at the index is bound to. -/
def boundTenant (upstreams : List UpstreamConfig) (index : Nat) : Option String :=
  (upstreams[index]?).bind UpstreamConfig.tenantPrefix

open MirrorService

section Resolve

variable {upstreams : List UpstreamConfig} {tenant : String} {index : Nat}

theorem lt_length_of_bound (bound : boundTenant upstreams index = some tenant) :
    index < upstreams.length := by
  by_contra beyond
  rw [boundTenant, List.getElem?_eq_none (Nat.le_of_not_lt beyond)] at bound
  cases bound

theorem boundTenant_append_lt (last : UpstreamConfig) (before : index < upstreams.length) :
    boundTenant (upstreams ++ [last]) index = boundTenant upstreams index := by
  rw [boundTenant, boundTenant, List.getElem?_append_left before]

theorem boundTenant_append_length (last : UpstreamConfig) :
    boundTenant (upstreams ++ [last]) upstreams.length = last.tenantPrefix := by
  rw [boundTenant, List.getElem?_append_right (Nat.le_refl _), Nat.sub_self]
  rfl

theorem lookup_tenantRouting :
    (tenantRouting upstreams).lookup tenant = some index ↔ boundTenant upstreams index = some tenant ∧
        ∀ later, index < later → boundTenant upstreams later ≠ some tenant := by
  induction upstreams using List.reverseRecOn generalizing index with
  | nil =>
    constructor
    · intro found
      cases found
    · rintro ⟨bound, _⟩
      cases bound
  | append_singleton front last ih =>
    have turn : tenantRouting (front ++ [last]) =
        routeUpstream (tenantRouting front) (last, front.length) := by
      simp [tenantRouting, List.zipIdx_append, List.foldl_append]
    have past : ∀ other, boundTenant (front ++ [last]) other = some tenant →
        other < front.length ∨ (other = front.length ∧ last.tenantPrefix = some tenant) := by
      intro other bound
      have inside := lt_length_of_bound bound
      rw [List.length_append, List.length_singleton] at inside
      by_cases before : other < front.length
      · exact .inl before
      · have same : other = front.length := by omega
        subst same
        exact .inr ⟨rfl, (boundTenant_append_length last).symm.trans bound⟩
    rw [turn, routeUpstream]
    by_cases own : last.tenantPrefix = some tenant
    · simp only [own, AList.lookup_insert]
      constructor
      · intro found
        cases found
        refine ⟨(boundTenant_append_length last).trans own, ?_⟩
        intro later beyond bound
        rcases past later bound with before | ⟨same, _⟩ <;> omega
      · rintro ⟨bound, final⟩
        rcases past index bound with before | ⟨same, _⟩
        · exact absurd ((boundTenant_append_length last).trans own) (final _ before)
        · rw [same]
    · have kept : (match last.tenantPrefix with
          | some other => (tenantRouting front).insert other front.length
          | none => tenantRouting front).lookup tenant = (tenantRouting front).lookup tenant := by
        cases bound : last.tenantPrefix with
        | none => rfl
        | some other =>
          have apart : tenant ≠ other := fun same => own (bound.trans (congrArg some same.symm))
          exact AList.lookup_insert_ne apart
      rw [kept, ih]
      constructor
      · rintro ⟨bound, final⟩
        have before := lt_length_of_bound bound
        refine ⟨(boundTenant_append_lt last before).trans bound, ?_⟩
        intro later beyond held
        rcases past later held with inside | ⟨_, owned⟩
        · exact final later beyond ((boundTenant_append_lt last inside).symm.trans held)
        · exact own owned
      · rintro ⟨bound, final⟩
        rcases past index bound with before | ⟨_, owned⟩
        · refine ⟨(boundTenant_append_lt last before).symm.trans bound, ?_⟩
          intro later beyond held
          exact final later beyond ((boundTenant_append_lt last (lt_length_of_bound held)).trans held)
        · exact absurd owned own

theorem exists_route (bound : boundTenant upstreams index = some tenant) :
    ∃ last, (tenantRouting upstreams).lookup tenant = some last := by
  have mine : index ∈ (Finset.range upstreams.length).filter
      fun other => boundTenant upstreams other = some tenant :=
    Finset.mem_filter.mpr ⟨Finset.mem_range.mpr (lt_length_of_bound bound), bound⟩
  obtain ⟨last, member, greatest⟩ := Finset.exists_max_image _ id ⟨index, mine⟩
  have held := (Finset.mem_filter.mp member).2
  refine ⟨last, lookup_tenantRouting.mpr ⟨held, ?_⟩⟩
  intro later beyond other
  have listed : later ∈ (Finset.range upstreams.length).filter
      fun other => boundTenant upstreams other = some tenant :=
    Finset.mem_filter.mpr ⟨Finset.mem_range.mpr (lt_length_of_bound other), other⟩
  exact absurd (greatest later listed) (Nat.not_le_of_lt beyond)

variable {config : MirrorConfig} {codec : CacheCodec}

/-- The upstreams of a tenant with one of its own: that one, then the others in their order. -/
theorem resolveUpstreams_of_route {last : Nat}
    (route : (tenantRouting config.upstreams).lookup tenant = some last) :
    (new config codec).resolveUpstreams tenant =
      last :: (List.range config.upstreams.length).filter fun other => !([last].contains other) := by
  simp [resolveUpstreams, new, route]

theorem mem_resolveUpstreams :
    index ∈ (new config codec).resolveUpstreams tenant ↔ index < config.upstreams.length := by
  cases route : (tenantRouting config.upstreams).lookup tenant with
  | none => simp [resolveUpstreams, new, route]
  | some last =>
    have inside := lt_length_of_bound (lookup_tenantRouting.mp route).1
    rw [resolveUpstreams_of_route route]
    constructor
    · intro member
      rcases List.mem_cons.mp member with rfl | later
      · exact inside
      · exact List.mem_range.mp (List.mem_of_mem_filter later)
    · intro before
      by_cases same : index = last
      · exact List.mem_cons.mpr (.inl same)
      · refine List.mem_cons_of_mem last (List.mem_filter.mpr ⟨List.mem_range.mpr before, ?_⟩)
        simpa using same

/-- In a strictly ordered list, what stands before an element is what is less than it. -/
theorem mem_front_iff {list front back : List Nat} {other : Nat} (ordered : list.Pairwise (· < ·))
    (parts : list = front ++ other :: back) (member : index ∈ list) : index ∈ front ↔ index < other := by
  subst parts
  obtain ⟨_, rest, across⟩ := List.pairwise_append.mp ordered
  constructor
  · exact fun early => across index early other List.mem_cons_self
  · intro less
    rcases List.mem_append.mp member with early | late
    · exact early
    · rcases List.mem_cons.mp late with rfl | later
      · exact absurd less (lt_irrefl _)
      · exact absurd less (lt_asymm ((List.pairwise_cons.mp rest).1 index later))

end Resolve

section Calls

/-- A fetch, with the time it is made at and what the upstreams answer to it. -/
inductive MirrorCall where
  | manifest (params : ManifestRef) (now : Time) (answers : Answers)
  | blob (params : ManifestRef) (now : Time) (answers : Answers)

def MirrorCall.params : MirrorCall → ManifestRef
  | .manifest params _ _ => params
  | .blob params _ _ => params

def MirrorCall.answers : MirrorCall → Answers
  | .manifest _ _ answers => answers
  | .blob _ _ answers => answers

/-- The checks before the upstreams are asked. -/
def MirrorCall.inScope (service : MirrorService) (store : ObjectStore) : MirrorCall → Bool
  | .manifest params _ _ => service.scope.tenantProjectEligible params.tenant params.project
  | .blob params now _ =>
    service.scope.tenantProjectEligible params.tenant params.project && (service.scope ≠ .manifestLinked ||
        service.isBlobManifestLinked now params.tenant params.project params.name params.reference store)

/-- The upstreams that the loop turns to: up to the first success. -/
def tries (answers : Answers) : List Nat → List Nat
  | [] => []
  | index :: rest =>
    match answers index with
    | .ok _ => [index]
    | .error _ => index :: tries answers rest

def MirrorCall.tried (service : MirrorService) (store : ObjectStore) (call : MirrorCall) : List Nat :=
  if call.inScope service store then
    tries call.answers (service.resolveUpstreams call.params.tenant)
  else []

/-- A request that goes out to an upstream, for a tenant, with the credentials it can show. -/
structure Contact where
  upstream : Nat
  tenant : String
  credentials : Option (String × String)

def UpstreamConfig.credentials (upstream : UpstreamConfig) : Option (String × String) :=
  upstream.username.bind fun username => upstream.password.map fun password => (username, password)

/-- The upstream's circuit breaker did not let the request out. -/
def heldBack : Except UpstreamError UpstreamResponse → Bool
  | .error (.circuitBreakerOpen _) => true
  | _ => false

def MirrorCall.contacts (config : MirrorConfig) (service : MirrorService) (store : ObjectStore)
    (call : MirrorCall) : List Contact :=
  ((call.tried service store).filter fun index => !heldBack (call.answers index)).map fun index =>
    ⟨index, call.params.tenant, (config.upstreams[index]?).bind UpstreamConfig.credentials⟩

def mirrorStep (service : MirrorService) (sha : Sha256) (store : ObjectStore) : MirrorCall → ObjectStore
  | .manifest params now answers => (service.fetchManifest sha now params answers store).2
  | .blob params now answers => (service.fetchBlob now params answers store).2

theorem tries_prefix (answers : Answers) (indices : List Nat) :
    ∃ rest, indices = tries answers indices ++ rest := by
  induction indices with
  | nil => exact ⟨[], rfl⟩
  | cons index rest ih =>
    cases answered : answers index with
    | ok response => exact ⟨rest, by simp only [tries, answered, List.singleton_append]⟩
    | error error =>
      obtain ⟨untried, parts⟩ := ih
      refine ⟨untried, ?_⟩
      simp only [tries, answered, List.cons_append, ← parts]

theorem tries_of_errors (errors : ∀ index, ∃ error, answers index = .error error) :
    tries answers indices = indices := by
  induction indices with
  | nil => rfl
  | cons index rest ih =>
    obtain ⟨error, answered⟩ := errors index
    simp only [tries, answered, ih]

variable (config : MirrorConfig) (codec : CacheCodec)

/-- The upstreams that a call contacts are bound to its tenant or to none, and those bound to its
tenant are tried before any other. -/
structure TenantBound (store : ObjectStore) (call : MirrorCall) : Prop where
  contacts : ∀ contact ∈ call.contacts config (.new config codec) store,
    ∀ owner, boundTenant config.upstreams contact.upstream = some owner → owner = contact.tenant
  ownFirst : ∀ front other back, call.tried (.new config codec) store = front ++ other :: back →
    boundTenant config.upstreams other ≠ some call.params.tenant →
    ∀ index, boundTenant config.upstreams index = some call.params.tenant → index ∈ front

/-- The condition, for every tenant in scope with some project: all bound upstreams are bound to it,
and one of these with another upstream before it is the last. -/
structure Separated : Prop where
  owners : ∀ tenant project, config.scope.tenantProjectEligible tenant project = true →
    ∀ index owner, boundTenant config.upstreams index = some owner → owner = tenant
  order : ∀ tenant project, config.scope.tenantProjectEligible tenant project = true →
    ∀ index earlier, boundTenant config.upstreams index = some tenant → earlier < index →
      boundTenant config.upstreams earlier ≠ some tenant →
      ∀ later, index < later → boundTenant config.upstreams later ≠ some tenant

variable {config codec} {store : ObjectStore} {call : MirrorCall}

theorem MirrorCall.eligible_of_inScope (reached : call.inScope service store = true) :
    service.scope.tenantProjectEligible call.params.tenant call.params.project = true := by
  cases call with
  | manifest params now answers => exact reached
  | blob params now answers => exact (Bool.and_eq_true_iff.mp reached).1

theorem ordered_others (last : Nat) :
    ((List.range config.upstreams.length).filter fun other => !([last].contains other)).Pairwise (· < ·) :=
  List.Pairwise.filter _ List.pairwise_lt_range

theorem Separated.own_first (separated : Separated config) {tenant project : String}
    (eligible : config.scope.tenantProjectEligible tenant project = true) {front back : List Nat}
    {other index : Nat} (parts : (new config codec).resolveUpstreams tenant = front ++ other :: back)
    (foreign : boundTenant config.upstreams other ≠ some tenant)
    (own : boundTenant config.upstreams index = some tenant) : index ∈ front := by
  obtain ⟨last, route⟩ := exists_route own
  obtain ⟨held, final⟩ := lookup_tenantRouting.mp route
  rw [resolveUpstreams_of_route route] at parts
  cases front with
  | nil =>
    obtain ⟨rfl, _⟩ := List.cons.inj parts
    exact absurd held foreign
  | cons first rest =>
    obtain ⟨rfl, others⟩ := List.cons.inj parts
    by_cases same : index = last
    · exact List.mem_cons.mpr (.inl same)
    have below : index < last := by
      by_contra beyond
      exact final index (by omega) own
    have before : index < other := by
      by_contra beyond
      have apart : index ≠ other := by
        rintro rfl
        exact foreign own
      exact separated.order tenant project eligible index other own (by omega) foreign last below held
    refine List.mem_cons_of_mem last ((mem_front_iff (ordered_others last) others ?_).mpr before)
    exact List.mem_filter.mpr ⟨List.mem_range.mpr (lt_length_of_bound own), by simpa using same⟩

theorem Separated.tenantBound (separated : Separated config) : TenantBound config codec store call := by
  refine ⟨?_, ?_⟩
  · intro contact member owner bound
    obtain ⟨index, listed, rfl⟩ := List.mem_map.mp member
    have tried := List.mem_of_mem_filter listed
    unfold MirrorCall.tried at tried
    split at tried
    · rename_i reached
      exact separated.owners _ _ (MirrorCall.eligible_of_inScope reached) index owner bound
    · cases tried
  · intro front other back parts foreign index own
    unfold MirrorCall.tried at parts
    split at parts
    · rename_i reached
      obtain ⟨untried, whole⟩ := tries_prefix call.answers
        ((new config codec).resolveUpstreams call.params.tenant)
      rw [parts, List.append_assoc, List.cons_append] at whole
      exact separated.own_first (MirrorCall.eligible_of_inScope reached) whole foreign own
    · cases front <;> cases parts

/-- A fetch of a manifest that no upstream has. -/
def missedFetch (tenant project : String) : MirrorCall :=
  .manifest ⟨tenant, project, "app", "latest"⟩ 0 fun _ => .error (.manifestNotFound "latest")

theorem tried_missedFetch {tenant project : String}
    (eligible : config.scope.tenantProjectEligible tenant project = true) :
    (missedFetch tenant project).tried (.new config codec) store =
      (new config codec).resolveUpstreams tenant := by
  have reached : (missedFetch tenant project).inScope (.new config codec) store = true := eligible
  rw [MirrorCall.tried, if_pos reached]
  exact tries_of_errors fun _ => ⟨_, rfl⟩

theorem separated_of_tenantBound
    (bound : ∀ tenant project, TenantBound config codec ∅ (missedFetch tenant project)) :
    Separated config := by
  refine ⟨?_, ?_⟩
  · intro tenant project eligible index owner held
    have inside := lt_length_of_bound held
    have tried : index ∈ (missedFetch tenant project).tried (.new config codec) ∅ := by
      rw [tried_missedFetch eligible]
      exact mem_resolveUpstreams.mpr inside
    have contacted : ⟨index, tenant, (config.upstreams[index]?).bind UpstreamConfig.credentials⟩ ∈
        (missedFetch tenant project).contacts config (.new config codec) ∅ :=
      List.mem_map.mpr ⟨index, List.mem_filter.mpr ⟨tried, rfl⟩, rfl⟩
    exact (bound tenant project).contacts _ contacted owner held
  · intro tenant project eligible index earlier own before foreign later beyond held
    obtain ⟨last, route⟩ := exists_route own
    obtain ⟨ending, final⟩ := lookup_tenantRouting.mp route
    have below : index < last := by
      by_contra reached
      exact final later (by omega) held
    have order : (new config codec).resolveUpstreams tenant = _ := resolveUpstreams_of_route route
    have listed : ∀ other, other < last → other ∈ (List.range config.upstreams.length).filter
        fun other => !([last].contains other) := by
      intro other less
      have whole := lt_length_of_bound ending
      exact List.mem_filter.mpr ⟨List.mem_range.mpr (by omega), by simp; omega⟩
    obtain ⟨front, back, parts⟩ := List.append_of_mem (listed earlier (by omega))
    have tried : (missedFetch tenant project).tried (.new config codec) ∅ = _ := tried_missedFetch eligible
    rw [order, parts] at tried
    have early := (bound tenant project).ownFirst (last :: front) earlier back tried foreign index own
    rcases List.mem_cons.mp early with same | inFront
    · omega
    · have less := (mem_front_iff (ordered_others last) parts (listed index below)).mp inFront
      omega

end Calls

theorem tenant_bound_iff_separated (config : MirrorConfig) (codec : CacheCodec) (sha : Sha256) :
    (∀ start calls, Run.Along (mirrorStep (.new config codec) sha) (TenantBound config codec) start
      calls) ↔ Separated config := by
  constructor
  · intro holds
    exact separated_of_tenantBound fun tenant project => (holds ∅ [missedFetch tenant project]).1
  · intro separated start calls
    have everywhere : ∀ store call, TenantBound config codec store call ↔ True :=
      fun store call => iff_of_true separated.tenantBound trivial
    exact (Run.along_congr everywhere).mpr (Run.along_true start calls)

/-- An upstream without a tenant, and two of `acme` with the credentials of `acme`. -/
def acmeMirror : MirrorConfig where
  upstreams :=
    [⟨"hub", "hub.local", none, none, none⟩, ⟨"old", "old.local", some "acme", some "secret", some "acme"⟩,
      ⟨"new", "new.local", some "acme", some "secret", some "acme"⟩]
  scope := .all

/-- A codec that reads every index as missing. -/
def blindCodec : CacheCodec := ⟨fun _ => "".toUTF8, fun _ => none⟩

/-- A fetch of another tenant shows the credentials of `acme`, and a fetch of `acme` comes to one
of its upstreams after the common one. -/
theorem acme_upstreams_shared : ¬ TenantBound acmeMirror blindCodec ∅ (missedFetch "globex" "web") ∧
      ¬ TenantBound acmeMirror blindCodec ∅ (missedFetch "acme" "web") := by
  have shown : ∃ contact ∈ (missedFetch "globex" "web").contacts acmeMirror
      (.new acmeMirror blindCodec) ∅, contact.tenant = "globex" ∧
        contact.credentials = some ("acme", "secret") ∧
        boundTenant acmeMirror.upstreams contact.upstream = some "acme" := by
    decide +kernel
  obtain ⟨contact, made, tenant, _, bound⟩ := shown
  constructor
  · intro holds
    have same := holds.contacts contact made "acme" bound
    rw [tenant] at same
    exact absurd same (by decide)
  · intro holds
    have early := holds.ownFirst [2] 0 [1] (by decide +kernel) (by decide) 1 (by decide)
    exact absurd early (by decide)

end SpectonCr.Mirror
