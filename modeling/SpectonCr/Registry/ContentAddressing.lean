import SpectonCr.Mirror.Service
import SpectonCr.Registry.LiveData

namespace SpectonCr.Registry

open Storage Gc Mirror

/-- The header values a request carries as text. -/
abbrev Headers := String → Option String

def extractHeader (headers : Headers) (name : String) : Except RegistryError String :=
  match headers name with
  | some value => .ok value
  | none => .error (.internal ("missing header: " ++ name))

/-- The repository and the digest a replicated blob is announced with. -/
def replicatedBlob (headers : Headers) : Except RegistryError (UploadRef × String) := do
  let tenant ← extractHeader headers "x-replication-tenant"
  let project ← extractHeader headers "x-replication-project"
  let repo ← extractHeader headers "x-replication-repo"
  let digest ← extractHeader headers "x-replication-digest"
  return (⟨tenant, project, repo, ""⟩, digest)

/-- The reference and the digest a replicated manifest is announced with. -/
def replicatedManifest (headers : Headers) : Except RegistryError (ManifestRef × String) := do
  let tenant ← extractHeader headers "x-replication-tenant"
  let project ← extractHeader headers "x-replication-project"
  let repo ← extractHeader headers "x-replication-repo"
  let reference ← extractHeader headers "x-replication-reference"
  let digest ← extractHeader headers "x-replication-digest"
  return (⟨tenant, project, repo, reference⟩, digest)

def internalReplicateManifest (headers : Headers) (body : Bytes) (audit : Except String Unit)
    (store : ObjectStore) : Except RegistryError Unit × ObjectStore :=
  match replicatedManifest headers with
  | .error error => (.error error, store)
  | .ok (params, digest) =>
    (audit.mapError RegistryError.auditUnavailable, storeManifest params digest body store)

def internalReplicateBlob (headers : Headers) (body : Bytes) (store : ObjectStore) :
    Except RegistryError Unit × ObjectStore :=
  match replicatedBlob headers with
  | .error error => (.error error, store)
  | .ok (params, digest) => (.ok (), store.insert (params.blob digest) body)

/-- Everything that writes objects. -/
inductive Writer where
  | registry (event : Event)
  | replicateManifest (headers : Headers) (body : Bytes) (audit : Except String Unit)
  | replicateBlob (headers : Headers) (body : Bytes)
  | fetchManifest (service : MirrorService) (now : Time) (params : ManifestRef) (answers : Answers)
  | fetchBlob (service : MirrorService) (now : Time) (params : ManifestRef) (answers : Answers)

def write (env : Env) (backend : Backend) : Writer → Backend
  | .registry event => step env backend event
  | .replicateManifest headers body audit =>
    { backend with store := (internalReplicateManifest headers body audit backend.store).2 }
  | .replicateBlob headers body =>
    { backend with store := (internalReplicateBlob headers body backend.store).2 }
  | .fetchManifest service now params answers =>
    { backend with store := (service.fetchManifest env.sha now params answers backend.store).2 }
  | .fetchBlob service now params answers =>
    { backend with store := (service.fetchBlob now params answers backend.store).2 }

/-- An object of a repository whose key ends in `manifests/sha256:<hex>` or
`blobs/sha256/<hex>`. -/
def ContentPath (path : StorePath) (hex : String) : Prop :=
  ∃ tenant project repo, path.parts = [tenant, project, repo, "manifests", "sha256:" ++ hex] ∨
    path.parts = [tenant, project, repo, "blobs", "sha256", hex]

def ContentAddressed (sha : Sha256) (store : ObjectStore) : Prop :=
  ∀ path bytes hex, store.lookup path = some bytes → ContentPath path hex → hexEncode (sha.hash bytes) = hex

/-- A digest that names one manifest object names the hash of the bytes. -/
def ManifestDigestOf (sha : Sha256) (bytes : Bytes) (digest : String) : Prop :=
  ∀ hex, segments digest = ["sha256:" ++ hex] → hexEncode (sha.hash bytes) = hex

/-- A digest that names one blob object names the hash of the bytes. -/
def BlobDigestOf (sha : Sha256) (bytes : Bytes) (digest : String) : Prop :=
  ∀ hex, segments (blobHex digest) = [hex] → hexEncode (sha.hash bytes) = hex

/-- The condition on a write: names are single path segments, and a digest from a peer or an
upstream is that of the bytes that come with it. -/
def Writer.Verified (env : Env) : Writer → Prop
  | .registry (.upload event) =>
    Storage.PlainRepo event.params.tenant event.params.project event.params.name
  | .registry (.put request body) =>
    request.params.authorize request.claims .push = .ok () →
      (∃ document, env.parse body = .ok document) → request.params.PlainRepo
  | .registry _ => True
  | .replicateManifest headers body _ =>
    ∀ params digest, replicatedManifest headers = .ok (params, digest) →
      params.PlainRepo ∧ ManifestDigestOf env.sha body digest
  | .replicateBlob headers body =>
    ∀ params digest, replicatedBlob headers = .ok (params, digest) →
      Storage.PlainRepo params.tenant params.project params.name ∧ BlobDigestOf env.sha body digest
  | .fetchManifest service _ params answers =>
    service.scope.tenantProjectEligible params.tenant params.project = true →
      ∀ index response, service.ask params.tenant answers = .ok (index, response) → params.PlainRepo ∧
        ∀ digest, response.digest = some digest → ManifestDigestOf env.sha response.data digest
  | .fetchBlob service _ params answers =>
    service.scope.tenantProjectEligible params.tenant params.project = true →
      ∀ index response, service.ask params.tenant answers = .ok (index, response) →
        params.PlainRepo ∧ BlobDigestOf env.sha response.data params.reference

section writes

variable {sha : Sha256} {store : ObjectStore}

theorem ContentAddressed.empty : ContentAddressed sha ∅ := by
  intro path bytes hex found
  simp at found

theorem ContentAddressed.insert (addressed : ContentAddressed sha store) {path : StorePath}
    {bytes : Bytes} (own : ∀ hex, ContentPath path hex → hexEncode (sha.hash bytes) = hex) :
    ContentAddressed sha (store.insert path bytes) := by
  intro other found hex stored content
  rcases Table.lookup_insert_cases stored with ⟨rfl, rfl⟩ | ⟨_, stored⟩
  · exact own hex content
  · exact addressed other found hex stored content

theorem ContentAddressed.within (addressed : ContentAddressed sha store)
    (within : Within smaller store) : ContentAddressed sha smaller := by
  intro path bytes hex stored
  exact addressed path bytes hex (within path bytes stored)

theorem not_contentPath (parts : path.parts = first :: second :: third :: directory :: rest)
    (noManifest : directory ≠ "manifests") (noBlob : directory ≠ "blobs") : ¬ ContentPath path hex := by
  rintro ⟨tenant, project, repo, manifest | blob⟩
  · rw [parts] at manifest
    simp only [List.cons.injEq] at manifest
    exact noManifest manifest.2.2.2.1
  · rw [parts] at blob
    simp only [List.cons.injEq] at blob
    exact noBlob blob.2.2.2.1

section

variable (addressed : ContentAddressed sha store)

include addressed

theorem ContentAddressed.insert_elsewhere (parts : path.parts = first :: second :: third :: directory :: rest)
    (noManifest : directory ≠ "manifests") (noBlob : directory ≠ "blobs") :
    ContentAddressed sha (store.insert path bytes) :=
  addressed.insert fun _ content => absurd content (not_contentPath parts noManifest noBlob)

theorem ContentAddressed.insert_blob (plain : Storage.PlainRepo tenant project repo)
    (verified : BlobDigestOf sha bytes digest) :
    ContentAddressed sha (store.insert (.ofString (blobPath tenant project repo digest)) bytes) := by
  apply addressed.insert
  rintro hex ⟨_, _, _, manifest | blob⟩
  · simp [parts_blobPath plain] at manifest
  · rw [parts_blobPath plain] at blob
    simp only [List.cons.injEq, true_and] at blob
    exact verified hex blob.2.2.2

theorem ContentAddressed.storeManifest (plain : params.PlainRepo)
    (verified : ManifestDigestOf sha body digest) :
    ContentAddressed sha (Registry.storeManifest params digest body store) := by
  have stored : ContentAddressed sha (store.insert (params.object digest) body) := by
    apply addressed.insert
    rintro hex ⟨_, _, _, manifest | blob⟩
    · rw [ManifestRef.object, parts_manifestPath plain] at manifest
      simp only [List.cons.injEq, true_and] at manifest
      exact verified hex manifest.2.2.2
    · rw [ManifestRef.object, parts_manifestPath plain] at blob
      simp at blob
  unfold Registry.storeManifest
  split
  · exact stored
  · exact stored.insert_elsewhere (parts_tagLinkPath plain _) (by decide) (by decide)

theorem ContentAddressed.recordCached (plain : Storage.PlainRepo tenant project repo)
    (service : MirrorService) (entry : CacheEntry) :
    ContentAddressed sha (service.recordCached tenant project repo entry store) :=
  addressed.insert_elsewhere (parts_cacheIndexPath plain) (by decide) (by decide)

end

theorem digestOf_hash (sha : Sha256) (bytes : Bytes) :
    ManifestDigestOf sha bytes (sha.digest bytes) ∧ BlobDigestOf sha bytes (sha.digest bytes) := by
  constructor
  · intro hex named
    rw [sha.segments_digest, Sha256.digest] at named
    simpa using named
  · intro hex named
    rw [Sha256.digest, blobHex_digest, (sha.hex_plain bytes).segments] at named
    simpa using named

end writes

section steps

variable {env : Env} {backend : Backend}

theorem ContentAddressed.reapBlob (addressed : ContentAddressed env.sha backend.store) (key : BlobKey)
    (bytes : Int) : ContentAddressed env.sha (Gc.reapBlob backend key bytes).2.store := by
  rcases reapBlob_cases backend key bytes with same | ⟨_, reaped⟩
  · rwa [same]
  rw [reaped]
  apply addressed.within
  intro path data found
  rw [lookup_reapRow] at found
  split at found
  · cases found
  · exact found

theorem ContentAddressed.step (addressed : ContentAddressed env.sha backend.store)
    (verified : (Writer.registry event).Verified env) :
    ContentAddressed env.sha (step env backend event).store := by
  cases event with
  | upload event =>
    have session := parts_uploadPath verified event.params.uuid
    change ContentAddressed env.sha (event.step env.sha backend.store)
    rcases event.step_cases env.sha backend.store with same | ⟨data, written⟩ | ⟨data, finished⟩
    · rwa [same]
    · rw [written]
      exact addressed.insert_elsewhere session (by decide) (by decide)
    rw [finished]
    have stored : ContentAddressed env.sha
        (backend.store.insert (event.params.blob (env.sha.digest data)) data) :=
      addressed.insert_blob verified (digestOf_hash env.sha data).2
    exact stored.within ((Within.refl _).erase _)
  | put request body =>
    change ContentAddressed env.sha (putManifest env request body backend).2.store
    rcases putManifest_cases env request body backend with same | ⟨document, allowed, parsed, stored⟩
    · rwa [same]
    · rw [stored]
      exact addressed.storeManifest (verified allowed ⟨document, parsed⟩) (digestOf_hash env.sha body).1
  | delete request =>
    change ContentAddressed env.sha (deleteManifest request backend).2.store
    rcases deleteManifest_cases request backend with ⟨within, _⟩ | ⟨digest, deleted⟩
    · exact addressed.within within
    · exact addressed.within deleted.within
  | reapBlob key bytes => exact addressed.reapBlob key bytes
  | reapOneCycle config now halted =>
    exact reapOneCycle_induction (fun backend => ContentAddressed env.sha backend.store)
      (fun _ key bytes held => held.reapBlob key bytes) addressed config now halted

theorem ContentAddressed.write (addressed : ContentAddressed env.sha backend.store)
    (verified : writer.Verified env) : ContentAddressed env.sha (write env backend writer).store := by
  cases writer with
  | registry event => exact addressed.step verified
  | replicateManifest headers body audit =>
    simp only [Registry.write, internalReplicateManifest]
    split
    · exact addressed
    · rename_i params digest announced
      obtain ⟨plain, hashed⟩ := verified params digest announced
      exact addressed.storeManifest plain hashed
  | replicateBlob headers body =>
    simp only [Registry.write, internalReplicateBlob]
    split
    · exact addressed
    · rename_i params digest announced
      obtain ⟨plain, hashed⟩ := verified params digest announced
      exact addressed.insert_blob plain hashed
  | fetchManifest service now params answers =>
    change ContentAddressed env.sha (service.fetchManifest env.sha now params answers _).2
    rcases fetchManifest_cases service env.sha now params answers backend.store with
      ⟨error, failed⟩ | ⟨index, response, entry, eligible, answered, named, _, cached⟩
    · rwa [failed]
    obtain ⟨plain, hashed⟩ := verified eligible index response answered
    rw [cached, named]
    refine (addressed.storeManifest plain ?_).recordCached plain service entry
    cases header : response.digest with
    | none => exact (digestOf_hash env.sha response.data).1
    | some digest => exact hashed digest header
  | fetchBlob service now params answers =>
    change ContentAddressed env.sha (service.fetchBlob now params answers _).2
    rcases fetchBlob_cases service now params answers backend.store with
      ⟨error, failed⟩ | ⟨index, response, entry, eligible, answered, _, _, cached⟩
    · rwa [failed]
    · obtain ⟨plain, hashed⟩ := verified eligible index response answered
      rw [cached]
      exact (addressed.insert_blob plain hashed).recordCached plain service entry

end steps

/-- In every state a run of verified writes reaches, content is addressed by
its hash. -/
theorem reachable_contentAddressed (env : Env) (front back : List Writer)
    (verified : Run.Along (write env) (fun _ writer => writer.Verified env) ⟨∅, .empty⟩ (front ++ back)) :
    ContentAddressed env.sha (Run.after (write env) ⟨∅, .empty⟩ front).store :=
  Run.after_invariant (fun backend => ContentAddressed env.sha backend.store)
    (fun _ _ addressed verified => addressed.write verified) .empty
    (Run.Along.append.mp verified).1

/-- The pretty-printed index entry of something cached at the epoch. -/
def entryText (entry : CacheEntry) : String :=
  "    \x7b\n      \"digest\": " ++ Json.quote entry.digest ++
  ",\n      \"upstream_name\": " ++ Json.quote entry.upstreamName ++
  ",\n      \"upstream_repo\": " ++ Json.quote entry.upstreamRepo ++
  ",\n      \"cached_at\": \"1970-01-01T00:00:00Z\",\n      \"size\": " ++ toString entry.size ++
  ",\n      \"content_type\": " ++ Json.quote entry.contentType ++ "\n    \x7d"

/-- A mirror with one upstream, open to every tenant, over an empty index. -/
def openMirror : MirrorService where
  upstreams := ["hub"]
  tenantRouting := ∅
  scope := .all
  codec :=
    { encode := fun entries => ("\x7b\n  \"entries\": [\n" ++
        String.intercalate ",\n" (entries.map entryText) ++ "\n  ]\n\x7d").toUTF8
      decode := fun _ => none }

/-- Headers of a replicated object that claims the digest `sha256:00`. -/
def wrongHeaders : Headers
  | "x-replication-tenant" => some "acme"
  | "x-replication-project" => some "web"
  | "x-replication-repo" => some "app"
  | "x-replication-reference" => some "latest"
  | "x-replication-digest" => some "sha256:00"
  | _ => none

def wrongAnswer : UpstreamResponse := ⟨layer, "application/octet-stream", some "sha256:00"⟩

/-- One write of each unverified kind, all of the layer under `sha256:00`. -/
def unverifiedWrites : List Writer :=
  [.replicateManifest wrongHeaders layer (.ok ()), .replicateBlob wrongHeaders layer,
    .fetchManifest openMirror 0 ⟨"acme", "web", "app", "latest"⟩ fun _ => .ok wrongAnswer,
    .fetchBlob openMirror 0 ⟨"acme", "web", "app", "sha256:00"⟩ fun _ => .ok wrongAnswer]

private theorem layer_misplaced (content : ContentPath path "00") (stored : store.lookup path = some layer) :
    ¬ ContentAddressed layerEnv.sha store := by
  intro addressed
  have same := addressed path layer "00" stored content
  exact absurd same (by decide +kernel)

theorem unverified_writes_misplace : unverifiedWrites.Forall fun writer => ¬ ContentAddressed layerEnv.sha
      (Run.after (write layerEnv) ⟨∅, .empty⟩ [writer]).store := by
  have manifest : ContentPath (.ofString "acme/web/app/manifests/sha256:00") "00" :=
    ⟨"acme", "web", "app", .inl (by decide +kernel)⟩
  have blob : ContentPath (.ofString "acme/web/app/blobs/sha256/00") "00" :=
    ⟨"acme", "web", "app", .inr (by decide +kernel)⟩
  refine ⟨?_, ?_, ?_, ?_⟩
  · exact layer_misplaced manifest (by decide +kernel)
  · exact layer_misplaced blob (by decide +kernel)
  · exact layer_misplaced manifest (by decide +kernel)
  · exact layer_misplaced blob (by decide +kernel)

/-- The layer fetched from an upstream under its own digest, then pushed. -/
def verifiedWrites : List Writer :=
  .fetchBlob openMirror 0 ⟨"acme", "web", "one", layerDigest⟩
      (fun _ => .ok ⟨layer, "application/octet-stream", none⟩) ::
    (uploadTo "one").map .registry

theorem verifiedWrites_addressed :
    ContentAddressed layerEnv.sha (Run.after (write layerEnv) ⟨∅, .empty⟩ verifiedWrites).store := by
  have plain : Storage.PlainRepo "acme" "web" "one" := by decide
  have digest : layerDigest = layerEnv.sha.digest layer := by decide +kernel
  refine reachable_contentAddressed layerEnv verifiedWrites [] ⟨?_, plain, plain, trivial⟩
  intro _ index response answered
  cases answered
  exact ⟨plain, digest ▸ (digestOf_hash layerEnv.sha layer).2⟩

end SpectonCr.Registry
