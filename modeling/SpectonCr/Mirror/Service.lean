import SpectonCr.Registry.Manifests

namespace SpectonCr.Mirror

open Storage Registry

inductive MirrorScope where
  | all
  | defaultTenantOnly (defaultTenant : String)
  | allowlist (tenants projects : List String)
  | denylist (tenants projects : List String)
  | manifestLinked
  deriving DecidableEq

/-- Whether a scope's list names the tenant, the project, or the pair. -/
def listed (tenants projects : List String) (tenant project : String) : Bool :=
  tenants.contains tenant || projects.contains (tenant ++ "/" ++ project) || projects.contains project

def MirrorScope.tenantProjectEligible (scope : MirrorScope) (tenant project : String) : Bool :=
  match scope with
  | .all => true
  | .defaultTenantOnly defaultTenant => tenant = defaultTenant
  | .allowlist tenants projects => listed tenants projects tenant project
  | .denylist tenants projects => !listed tenants projects tenant project
  | .manifestLinked => true

inductive UpstreamError where
  | request (reason : String)
  | http (status : Nat) (body : String)
  | auth (reason : String)
  | circuitBreakerOpen (name : String)
  | manifestNotFound (reference : String)
  | blobNotFound (digest : String)

def UpstreamError.isNotFoundEquivalent : UpstreamError → Bool
  | .manifestNotFound _ | .blobNotFound _ | .circuitBreakerOpen _ | .request _ => true
  | .http status _ => 500 ≤ status || status = 404
  | .auth _ => false

structure UpstreamResponse where
  data : Bytes
  contentType : String
  digest : Option String

inductive MirrorError where
  | upstream (error : UpstreamError)
  | noUpstreamsConfigured
  | notFoundOnAnyUpstream
  | notInScope

structure MirrorFetchResult where
  data : Bytes
  (contentType digest : String)

structure CacheEntry where
  (digest upstreamName upstreamRepo : String)
  cachedAt : Time
  size : Nat
  contentType : String

/-- The JSON form of the cache index: `serde_json::to_vec_pretty` and `from_slice`. -/
structure CacheCodec where
  encode : List CacheEntry → Bytes
  decode : Bytes → Option (List CacheEntry)

structure MirrorService where
  upstreams : List String
  tenantRouting : Table String Nat
  scope : MirrorScope
  codec : CacheCodec

def cacheIndexPath (tenant project repo : String) : String :=
  tenant ++ "/" ++ project ++ "/" ++ repo ++ "/.mirror/cache-index.json"

/-- `load_index`: a missing or unreadable index is empty. -/
def MirrorService.loadIndex (service : MirrorService) (store : ObjectStore) (path : StorePath) :
    List CacheEntry :=
  ((store.lookup path).bind service.codec.decode).getD []

def MirrorService.recordCached (service : MirrorService) (tenant project repo : String)
    (entry : CacheEntry) (store : ObjectStore) : ObjectStore :=
  let path := StorePath.ofString (cacheIndexPath tenant project repo)
  let entries := (service.loadIndex store path).filter fun old => old.digest ≠ entry.digest
  store.insert path (service.codec.encode (entries ++ [entry]))

/-- `is_cached_valid` with the largest time to live: the entry is not from the future. -/
def MirrorService.isBlobManifestLinked (service : MirrorService) (now : Time)
    (tenant project name digest : String) (store : ObjectStore) : Bool :=
  match (service.loadIndex store (.ofString (cacheIndexPath tenant project name))).find?
      fun entry => entry.digest = digest with
  | some entry => 0 ≤ (now - entry.cachedAt).tdiv 1000000000
  | none => false

/-- The tenant's own upstream first, then the others in order. -/
def MirrorService.resolveUpstreams (service : MirrorService) (tenant : String) : List Nat :=
  let own := (service.tenantRouting.lookup tenant).toList
  own ++ (List.range service.upstreams.length).filter fun index => !own.contains index

/-- What each upstream, by index, answers to one request. -/
abbrev Answers := Nat → Except UpstreamError UpstreamResponse

/-- The loop over upstreams: the first success, or the error of a full miss. -/
def firstAnswer (answers : Answers) : List Nat → (allNotFound : Bool) → Option UpstreamError →
    Except MirrorError (Nat × UpstreamResponse)
  | [], true, _ => .error .notFoundOnAnyUpstream
  | [], false, some error => .error (.upstream error)
  | [], false, none => .error .noUpstreamsConfigured
  | index :: rest, allNotFound, _ =>
    match answers index with
    | .ok response => .ok (index, response)
    | .error error => firstAnswer answers rest (allNotFound && error.isNotFoundEquivalent) (some error)

def MirrorService.entryOf (service : MirrorService) (params : ManifestRef) (now : Time)
    (index : Nat) (response : UpstreamResponse) (digest : String) : CacheEntry where
  digest := digest
  upstreamName := service.upstreams.getD index ""
  upstreamRepo := params.project ++ "/" ++ params.name
  cachedAt := now
  size := response.data.size
  contentType := response.contentType

/-- The answer of the upstreams to a request in scope. -/
def MirrorService.ask (service : MirrorService) (tenant : String) (answers : Answers) :
    Except MirrorError (Nat × UpstreamResponse) :=
  let indices := service.resolveUpstreams tenant
  if indices = [] then .error .noUpstreamsConfigured else firstAnswer answers indices true none

/-- `fetch_manifest`. The digest is the upstream's header where it sent one. -/
def MirrorService.fetchManifest (service : MirrorService) (sha : Sha256) (now : Time)
    (params : ManifestRef) (answers : Answers) (store : ObjectStore) :
    Except MirrorError MirrorFetchResult × ObjectStore :=
  if !service.scope.tenantProjectEligible params.tenant params.project then
    (.error .notInScope, store)
  else match service.ask params.tenant answers with
    | .error error => (.error error, store)
    | .ok (index, response) =>
      let digest := response.digest.getD (sha.digest response.data)
      (.ok ⟨response.data, response.contentType, digest⟩,
        service.recordCached params.tenant params.project params.name
          (service.entryOf params now index response digest)
          (storeManifest params digest response.data store))

/-- `fetch_blob`; `params.reference` is the digest asked for. -/
def MirrorService.fetchBlob (service : MirrorService) (now : Time) (params : ManifestRef)
    (answers : Answers) (store : ObjectStore) :
    Except MirrorError MirrorFetchResult × ObjectStore :=
  let digest := params.reference
  if !service.scope.tenantProjectEligible params.tenant params.project then
    (.error .notInScope, store)
  else if service.scope = .manifestLinked ∧
      ¬ service.isBlobManifestLinked now params.tenant params.project params.name digest store then
    (.error .notInScope, store)
  else match service.ask params.tenant answers with
    | .error error => (.error error, store)
    | .ok (index, response) =>
      (.ok ⟨response.data, response.contentType, digest⟩,
        service.recordCached params.tenant params.project params.name
          (service.entryOf params now index response digest)
          (store.insert (.ofString (blobPath params.tenant params.project params.name digest)) response.data))

theorem parts_cacheIndexPath (plain : PlainRepo tenant project repo) :
    (StorePath.ofString (cacheIndexPath tenant project repo)).parts =
      [tenant, project, repo, ".mirror", "cache-index.json"] := by
  have layout : cacheIndexPath tenant project repo =
      tenant ++ "/" ++ project ++ "/" ++ repo ++ "/" ++ ".mirror" ++ "/" ++ "cache-index.json" := by
    rw [cacheIndexPath, show ("/.mirror/cache-index.json" : String) =
      "/" ++ ".mirror" ++ "/" ++ "cache-index.json" by decide]
    simp only [String.append_assoc]
  have file : segments "cache-index.json" = ["cache-index.json"] := by decide
  simp only [StorePath.ofString, layout]
  rw [segments_append_of_plain (by decide) (by decide), segments_join, segments_join, file,
    ← repoSegments, plain.segments]
  rfl

variable (service : MirrorService) (sha : Sha256) (now : Time) (params : ManifestRef)
  (answers : Answers) (store : ObjectStore)

theorem fetchManifest_cases :
    (∃ error, service.fetchManifest sha now params answers store = (.error error, store)) ∨
      ∃ index response entry, service.scope.tenantProjectEligible params.tenant params.project = true ∧
        service.ask params.tenant answers = .ok (index, response) ∧
        entry.digest = response.digest.getD (sha.digest response.data) ∧ entry.cachedAt = now ∧
        service.fetchManifest sha now params answers store =
          (.ok ⟨response.data, response.contentType, entry.digest⟩,
            service.recordCached params.tenant params.project params.name entry
              (storeManifest params entry.digest response.data store)) := by
  unfold MirrorService.fetchManifest
  split
  · exact .inl ⟨_, rfl⟩
  rename_i eligible
  split
  · exact .inl ⟨_, rfl⟩
  rename_i index response answered
  exact .inr ⟨index, response, service.entryOf params now index response
    (response.digest.getD (sha.digest response.data)), by simpa using eligible, answered, rfl,
    rfl, rfl⟩

theorem fetchBlob_cases :
    (∃ error, service.fetchBlob now params answers store = (.error error, store)) ∨ ∃ index response entry,
        service.scope.tenantProjectEligible params.tenant params.project = true ∧
        service.ask params.tenant answers = .ok (index, response) ∧
        entry.digest = params.reference ∧ entry.cachedAt = now ∧
        service.fetchBlob now params answers store =
          (.ok ⟨response.data, response.contentType, params.reference⟩,
            service.recordCached params.tenant params.project params.name entry (store.insert
                (.ofString (blobPath params.tenant params.project params.name params.reference))
                response.data)) := by
  simp only [MirrorService.fetchBlob]
  split
  · exact .inl ⟨_, rfl⟩
  rename_i eligible
  split
  · exact .inl ⟨_, rfl⟩
  split
  · exact .inl ⟨_, rfl⟩
  · rename_i index response answered
    exact .inr ⟨index, response, _, by simpa using eligible, answered, rfl, rfl, rfl⟩

end SpectonCr.Mirror
