import SpectonCr.Registry.Blobs

/-! The registry and the reaper over one store. -/

namespace SpectonCr.Registry

open Storage Gc

/-- One request, one reaper cycle, or one deletion of a cycle in progress. -/
inductive Event where
  | upload (event : UploadEvent)
  | put (request : ManifestRequest) (body : Bytes)
  | delete (request : ManifestRequest)
  | reapBlob (key : BlobKey) (bytes : Int)
  | reapOneCycle (config : ReaperConfig) (now : Time) (halted : List Bool)

def step (env : Env) (backend : Backend) : Event → Backend
  | .upload event => { backend with store := event.step env.sha backend.store }
  | .put request body => (putManifest env request body backend).2
  | .delete request => (deleteManifest request backend).2
  | .reapBlob key bytes => (Gc.reapBlob backend key bytes).2
  | .reapOneCycle config now halted => (Gc.reapOneCycle config now halted backend).2

def Event.isReaper : Event → Bool
  | .reapBlob .. | .reapOneCycle .. => true
  | _ => false

/-- The manifest stored in a repository under a digest names a blob. -/
def References (env : Env) (store : ObjectStore) (params : ManifestRef) (manifest blob : String) :
    Prop :=
  ∃ body document, store.lookup (params.object manifest) = some body ∧
    env.parse body = .ok document ∧ blob ∈ collectReferencedDigests document ∧ blob ≠ ""

def ManifestRef.PlainRepo (params : ManifestRef) : Prop :=
  Storage.PlainRepo params.tenant params.project params.name

instance (params : ManifestRef) : Decidable params.PlainRepo :=
  inferInstanceAs (Decidable (Storage.PlainRepo _ _ _))

/-- The object is a blob that a manifest stored in the same repository names. -/
def Live (env : Env) (store : ObjectStore) (path : StorePath) : Prop :=
  ∃ (params : ManifestRef) (manifest blob : String), params.PlainRepo ∧ Plain manifest ∧
    References env store params manifest blob ∧
    path = .ofString (blobPath params.tenant params.project params.name blob)

/-- No reaper step takes a live object out of the store. -/
def ReaperSafe (env : Env) (backend : Backend) (event : Event) : Prop :=
  event.isReaper = true → ∀ path ∈ backend.store, path ∉ (step env backend event).store →
    ¬ Live env backend.store path

/-- The rows of `blob_paths` after a push. -/
def RowAfter (tables : Tables) (params : ManifestRef) (document : Json) (row : BlobPath) : Prop :=
  (∃ blobs, extractBlobDigests document = some blobs ∧
    ∃ blob ∈ blobs, row = ⟨params.tenant, params.project, params.name, blob.digest⟩) ∨
  row ∈ tables.blobPaths

/-- What a push that takes effect has to meet. -/
structure SoundPut (tables : Tables) (params : ManifestRef) (document : Json) (panics : Bool) : Prop where
  plain : params.PlainRepo
  counted : (∃ blob ∈ collectReferencedDigests document, blob ≠ "") →
    panics = false ∧ (extractBlobDigests document).isSome
  distinct : ∀ first second, RowAfter tables params document first →
    RowAfter tables params document second → first.object = second.object → first = second

/-- The condition on a step: names are single path segments, a manifest that names blobs is one the
typed reader accepts and comes without a TTL that panics, no two path rows stand for one object, and
a delete of a digest that the store does not refuse comes only when no other repository of the tenant
stores a manifest under it that names blobs. -/
def Event.Sound (env : Env) (backend : Backend) : Event → Prop
  | .upload event => Storage.PlainRepo event.params.tenant event.params.project event.params.name
  | .put request body =>
    request.params.authorize request.claims .push = .ok () →
      ∀ document, env.parse body = .ok document →
        SoundPut backend.tables request.params document (env.ttlPanics request)
  | .delete request =>
    ∀ digest, request.params.authorize request.claims .delete = .ok () →
      deleteTarget backend.store request.params = .ok (digest, false) →
      (request.reportsAbsent →
        request.params.object digest ∈ backend.store ∨ TaggedWith backend.store request.params digest) →
      ∀ other : ManifestRef, other.PlainRepo → other.tenant = request.params.tenant →
        ¬ (other.project = request.params.project ∧ other.name = request.params.name) →
        ∀ blob, ¬ References env backend.store other digest blob
  | .reapBlob .. => True
  | .reapOneCycle .. => True

/-- What a run of sound steps keeps: counts stand for edges, every blob a stored manifest names has
its edge and path row, and path rows stand for distinct objects. -/
structure Invariant (env : Env) (backend : Backend) : Prop where
  counted : backend.tables.Counted
  tracked : ∀ (params : ManifestRef) (manifest blob : String), params.PlainRepo → Plain manifest →
    References env backend.store params manifest blob →
      (⟨params.tenant, manifest, blob⟩ : Edge) ∈ backend.tables.manifestBlobRefs ∧
      (⟨params.tenant, params.project, params.name, blob⟩ : BlobPath) ∈ backend.tables.blobPaths
  plain : ∀ row ∈ backend.tables.blobPaths, Storage.PlainRepo row.tenant row.project row.repository
  distinct : ∀ first ∈ backend.tables.blobPaths, ∀ second ∈ backend.tables.blobPaths,
    first.object = second.object → first = second

theorem Invariant.empty (env : Env) : Invariant env ⟨∅, .empty⟩ where
  counted := .empty
  tracked := by
    rintro params manifest blob - - ⟨body, document, found, -⟩
    simp at found
  plain := by
    intro row member
    exact absurd member (AList.notMem_empty row)
  distinct := by
    intro row member
    exact absurd member (AList.notMem_empty row)

theorem parts_object {params : ManifestRef} {manifest : String} (repo : params.PlainRepo)
    (plain : Plain manifest) :
    (params.object manifest).parts = [params.tenant, params.project, params.name, "manifests", manifest] := by
  rw [ManifestRef.object, parts_manifestPath repo, plain.segments]

theorem object_ne_of_parts {params : ManifestRef} {manifest : String} (repo : params.PlainRepo)
    (plain : Plain manifest) {path : StorePath} {first second third directory : String}
    {rest : List String} (parts : path.parts = first :: second :: third :: directory :: rest)
    (elsewhere : directory ≠ "manifests") : params.object manifest ≠ path := by
  intro same
  have both := congrArg StorePath.parts same
  rw [parts_object repo plain, parts] at both
  simp only [List.cons.injEq] at both
  exact elsewhere both.2.2.2.1.symm

section steps

variable {env : Env} {backend : Backend}

theorem References.of_lookup {store later : ObjectStore} {params : ManifestRef} {manifest blob : String}
    (references : References env later params manifest blob)
    (old : ∀ body, later.lookup (params.object manifest) = some body →
      store.lookup (params.object manifest) = some body) : References env store params manifest blob := by
  obtain ⟨body, document, found, rest⟩ := references
  exact ⟨body, document, old body found, rest⟩

theorem Invariant.upload (inv : Invariant env backend) {event : UploadEvent}
    (plain : Storage.PlainRepo event.params.tenant event.params.project event.params.name) :
    Invariant env { backend with store := event.step env.sha backend.store } where
  counted := inv.counted
  plain := inv.plain
  distinct := inv.distinct
  tracked := by
    intro params manifest blob repo named references
    refine inv.tracked params manifest blob repo named (references.of_lookup ?_)
    have notUpload : params.object manifest ≠ event.params.object :=
      object_ne_of_parts repo named (parts_uploadPath plain event.params.uuid) (by decide)
    have notBlob : ∀ digest, params.object manifest ≠ event.params.blob digest := fun digest =>
      object_ne_of_parts repo named (parts_blobPath plain digest) (by decide)
    intro body found
    rcases event.step_cases env.sha backend.store with same | ⟨data, written⟩ | ⟨data, finished⟩
    · rwa [same] at found
    · rwa [written, AList.lookup_insert_ne notUpload] at found
    · rwa [finished, AList.lookup_erase_ne notUpload, AList.lookup_insert_ne (notBlob _)] at found

private theorem mem_recordRefs (env : Env) (request : ManifestRequest) (digest : String)
    (document : Json) (tables : Tables) :
    (∀ row ∈ (recordRefs env request digest document tables).blobPaths,
      RowAfter tables request.params document row) ∧
    (∀ row ∈ tables.blobPaths, row ∈ (recordRefs env request digest document tables).blobPaths) ∧
    (∀ edge ∈ tables.manifestBlobRefs, edge ∈ (recordRefs env request digest document tables).manifestBlobRefs) ∧
    (tables.Counted → (recordRefs env request digest document tables).Counted) := by
  unfold recordRefs RowAfter
  split
  · exact ⟨fun row => .inr, fun row => id, fun edge => id, id⟩
  cases extracted : extractBlobDigests document with
  | none => simp
  | some blobs =>
    refine ⟨fun row => ?_, fun row => ?_, fun edge known => ?_, fun counted => addRefs_counted counted blobs⟩
    · simp [mem_paths_addRefs]
    · exact fun known => mem_paths_addRefs.mpr (.inr known)
    · exact mem_refs_addRefs.mpr (.inr known)

/-- A push records an edge and a path row for every blob its manifest names. -/
private theorem tracked_recordRefs {env : Env}
    (accepted : env.ttlPanics request = false ∧ (extractBlobDigests document).isSome)
    (referenced : blob ∈ collectReferencedDigests document) (present : blob ≠ "") :
    (⟨request.params.tenant, digest, blob⟩ : Edge) ∈
        (recordRefs env request digest document tables).manifestBlobRefs ∧
      (⟨request.params.tenant, request.params.project, request.params.name, blob⟩ : BlobPath) ∈
        (recordRefs env request digest document tables).blobPaths := by
  obtain ⟨blobs, extracted⟩ := Option.isSome_iff_exists.mp accepted.2
  obtain ⟨descriptor, member, rfl⟩ :=
    List.mem_map.mp (extractBlobDigests_complete extracted referenced present)
  rw [recordRefs, accepted.1, if_neg Bool.false_ne_true, extracted]
  exact ⟨mem_refs_addRefs.mpr (.inl ⟨descriptor, member, rfl⟩),
    mem_paths_addRefs.mpr (.inl ⟨descriptor, member, rfl⟩)⟩

section

variable (inv : Invariant env backend)

include inv

theorem Invariant.put {request : ManifestRequest} {body : Bytes}
    (sound : (Event.put request body).Sound env backend) :
    Invariant env (putManifest env request body backend).2 := by
  rcases putManifest_cases env request body backend with same | ⟨document, allowed, parsed, stored⟩
  · rwa [same]
  obtain ⟨repo, extracts, distinct⟩ := sound allowed document parsed
  obtain ⟨rows, kept, edges, counted⟩ :=
    mem_recordRefs env request (env.sha.digest body) document backend.tables
  rw [stored]
  refine ⟨counted inv.counted, ?_, ?_, ?_⟩
  · intro params manifest blob plain named references
    by_cases same : params.object manifest = request.params.object (env.sha.digest body)
    · obtain ⟨other, read, found, parsedAgain, referenced, present⟩ := references
      rw [same, lookup_storeManifest_object] at found
      cases found
      rw [parsed] at parsedAgain
      cases parsedAgain
      have parts := congrArg StorePath.parts same
      rw [parts_object plain named, parts_object repo (env.sha.digest_plain _)] at parts
      simp only [List.cons.injEq, and_true, true_and] at parts
      obtain ⟨tenant, project, name, rfl⟩ := parts
      rw [tenant, project, name]
      exact tracked_recordRefs (extracts ⟨blob, referenced, present⟩) referenced present
    · have notLink : params.object manifest ≠ request.params.tagLink request.params.reference :=
        object_ne_of_parts plain named (parts_tagLinkPath repo _) (by decide)
      have before : References env backend.store params manifest blob :=
        references.of_lookup fun body found => by
          rwa [lookup_storeManifest_ne same notLink] at found
      obtain ⟨edge, path⟩ := inv.tracked params manifest blob plain named before
      exact ⟨edges _ edge, kept _ path⟩
  · intro row member
    rcases rows row member with ⟨blobs, _, blob, _, rfl⟩ | old
    · exact repo
    · exact inv.plain row old
  · intro first firstIn second secondIn
    exact distinct first second (rows first firstIn) (rows second secondIn)

theorem Invariant.delete {request : ManifestRequest} (sound : (Event.delete request).Sound env backend) :
    Invariant env (deleteManifest request backend).2 := by
  rcases deleteManifest_cases request backend with ⟨within, tables⟩ | ⟨digest, deleted⟩
  · refine ⟨tables ▸ inv.counted, ?_, tables ▸ inv.plain, tables ▸ inv.distinct⟩
    intro params manifest blob repo named references
    rw [tables]
    exact inv.tracked params manifest blob repo named (references.of_lookup fun body => within _ body)
  · refine ⟨?_, ?_, ?_, ?_⟩
    · exact deleted.tables ▸ removeRefs_counted inv.counted
    · intro params manifest blob repo named references
      have before := references.of_lookup fun body => deleted.within _ body
      obtain ⟨edge, path⟩ := inv.tracked params manifest blob repo named before
      rw [deleted.tables, paths_removeRefs]
      refine ⟨mem_refs_removeRefs.mpr ⟨?_, edge⟩, path⟩
      by_contra dropped
      simp only [ofManifest, Bool.not_eq_false, Bool.and_eq_true, decide_eq_true_eq] at dropped
      obtain ⟨tenant, rfl⟩ := dropped
      by_cases here : params.project = request.params.project ∧ params.name = request.params.name
      · obtain ⟨body, _, found, _⟩ := references
        have object : params.object manifest = request.params.object manifest := by
          rw [ManifestRef.object, tenant, here.1, here.2, ManifestRef.object]
        rw [object, deleted.gone] at found
        cases found
      · exact sound manifest deleted.authorized deleted.target deleted.known params repo tenant
          here blob before
    · rw [deleted.tables, paths_removeRefs]
      exact inv.plain
    · rw [deleted.tables, paths_removeRefs]
      exact inv.distinct

theorem Invariant.positive {params : ManifestRef} {manifest blob : String} (repo : params.PlainRepo)
    (named : Plain manifest) (references : References env backend.store params manifest blob) :
    backend.tables.refcount ⟨params.tenant, blob⟩ ≠ 0 := by
  intro zero
  rw [inv.counted, Table.countKeys_eq_zero] at zero
  have edge := (inv.tracked params manifest blob repo named references).1
  have uncounted := zero _ edge
  simp [Edge.counts] at uncounted

theorem lookup_object_reapRow {key : BlobKey} {bytes : Int} {params : ManifestRef}
    {manifest : String} (repo : params.PlainRepo) (named : Plain manifest) :
    (reapRow backend key bytes).store.lookup (params.object manifest) =
      backend.store.lookup (params.object manifest) := by
  rw [lookup_reapRow, if_neg]
  intro member
  obtain ⟨row, found, object⟩ := List.mem_map.mp member
  have plain := inv.plain row (Table.mem_keysWhere.mp found).1
  exact object_ne_of_parts repo named (parts_blobPath plain row.blobDigest) (by decide) object.symm

theorem Invariant.reapBlob (key : BlobKey) (bytes : Int) :
    Invariant env (Gc.reapBlob backend key bytes).2 := by
  rcases reapBlob_cases backend key bytes with same | ⟨zero, reaped⟩
  · rwa [same]
  rw [reaped]
  have older : ∀ row, row ∈ (reapRow backend key bytes).tables.blobPaths →
      row ∈ backend.tables.blobPaths := fun row member => (Table.mem_deleteWhere.mp member).2
  refine ⟨reapRow_counted inv.counted zero, ?_, ?_, ?_⟩
  · intro params manifest blob repo named references
    have before : References env backend.store params manifest blob :=
      references.of_lookup fun body found => by
        rwa [lookup_object_reapRow inv repo named] at found
    obtain ⟨edge, path⟩ := inv.tracked params manifest blob repo named before
    refine ⟨edge, Table.mem_deleteWhere.mpr ⟨?_, path⟩⟩
    by_contra selected
    simp only [BlobPath.isOf, Bool.not_eq_false, Bool.and_eq_true, decide_eq_true_eq] at selected
    apply inv.positive repo named before
    rw [show (⟨params.tenant, blob⟩ : BlobKey) = key by rw [selected.1, selected.2]]
    exact zero
  · intro row member
    exact inv.plain row (older row member)
  · intro first firstIn second secondIn
    exact inv.distinct first (older first firstIn) second (older second secondIn)

theorem Live.reapBlob {key : BlobKey} {bytes : Int} {path : StorePath} (live : Live env backend.store path) :
    Live env (Gc.reapBlob backend key bytes).2.store path := by
  rcases reapBlob_cases backend key bytes with same | ⟨_, reaped⟩
  · rwa [same]
  obtain ⟨params, manifest, blob, repo, named, references, object⟩ := live
  refine ⟨params, manifest, blob, repo, named, references.of_lookup ?_, object⟩
  intro body found
  rwa [reaped, lookup_object_reapRow inv repo named]

theorem Invariant.reapBlob_spares (present : path ∈ backend.store)
    (live : Live env backend.store path) : path ∈ (Gc.reapBlob backend key bytes).2.store := by
  rcases reapBlob_cases backend key bytes with same | ⟨zero, reaped⟩
  · rwa [same]
  obtain ⟨params, manifest, blob, repo, named, references, rfl⟩ := live
  rw [reaped, ← AList.lookup_isSome, lookup_reapRow, if_neg]
  · exact AList.lookup_isSome.mpr present
  · intro member
    obtain ⟨row, found, object⟩ := List.mem_map.mp member
    obtain ⟨known, selected⟩ := Table.mem_keysWhere.mp found
    have path := (inv.tracked params manifest blob repo named references).2
    obtain rfl := inv.distinct row known _ path object
    simp only [BlobPath.isOf, Bool.and_eq_true, decide_eq_true_eq] at selected
    apply inv.positive repo named references
    rw [show (⟨params.tenant, blob⟩ : BlobKey) = key by rw [selected.1, selected.2]]
    exact zero

theorem Invariant.step (sound : event.Sound env backend) : Invariant env (step env backend event) := by
  cases event with
  | upload event => exact inv.upload sound
  | put request body => exact inv.put sound
  | delete request => exact inv.delete sound
  | reapBlob key bytes => exact inv.reapBlob key bytes
  | reapOneCycle config now halted =>
    exact reapOneCycle_induction (Invariant env) (fun _ key bytes inv => inv.reapBlob key bytes)
      inv config now halted

theorem Invariant.reaperSafe (event : Event) : ReaperSafe env backend event := by
  intro reaper path present missing live
  cases event with
  | upload event | put request body | delete request => cases reaper
  | reapBlob key bytes => exact missing (inv.reapBlob_spares present live)
  | reapOneCycle config now halted =>
    have kept := reapOneCycle_induction
      (fun backend => Invariant env backend ∧ path ∈ backend.store ∧ Live env backend.store path)
      (fun _ key bytes held => ⟨held.1.reapBlob key bytes,
        held.1.reapBlob_spares held.2.1 held.2.2, held.2.2.reapBlob held.1⟩)
      ⟨inv, present, live⟩ config now halted
    exact missing kept.2.1

end

end steps

/-- In every run of sound steps, no reaper step destroys a live blob. -/
theorem reaper_spares_live (env : Env) (events : List Event)
    (sound : Run.Along (step env) (Event.Sound env) ⟨∅, .empty⟩ events) :
    Run.Along (step env) (ReaperSafe env) ⟨∅, .empty⟩ events :=
  Run.along_of_invariant (fun _ _ inv sound => Invariant.step inv sound)
    (fun _ event inv _ => inv.reaperSafe event) (Invariant.empty env) sound

def layer : Bytes := "abc".toUTF8

def layerDigest : String := "sha256:ba7816bf8f01cfea414140de5dae2223b00361a396177a9cb410ff61f20015ad"

def layerManifest : Bytes :=
  ("\x7b\"layers\":[\x7b\"digest\":\"sha256:" ++
    "ba7816bf8f01cfea414140de5dae2223b00361a396177a9cb410ff61f20015ad\",\"size\":3\x7d]\x7d").toUTF8

def layerManifestDigest : String := "sha256:53bec0539aa968e0a0a7fccd32c8e7ed6251c052c91d57bb0632d2ec9a80cfb3"

def layerDocument : Json := .obj [("layers", .arr [.obj [("digest", .str layerDigest), ("size", .int 3)]])]

/-- An environment that knows one layer and the manifest that names it. -/
def layerEnv : Env where
  toTtlLib := Ephemeral.durationsOnly
  gcPool := true
  sha := .ofTable
    [(layer, [186, 120, 22, 191, 143, 1, 207, 234, 65, 65, 64, 222, 93, 174, 34, 35, 176, 3, 97, 163,
        150, 23, 122, 156, 180, 16, 255, 97, 242, 0, 21, 173]),
      (layerManifest, [83, 190, 192, 83, 154, 169, 104, 224, 160, 167, 252, 205, 50, 200, 231, 237,
        98, 81, 192, 82, 201, 29, 87, 187, 6, 50, 210, 236, 154, 128, 207, 179])] (by decide)
  parse body := if body = layerManifest then .ok layerDocument else .error "expected value"

def requestTo (name reference : String) : ManifestRequest where
  claims := adminClaims
  params := ⟨"acme", "web", name, reference⟩
  now := 0
  audit := .ok ()
  ttl := none
  reportsAbsent := true

/-- The layer, uploaded to one repository. -/
def uploadTo (name : String) : List Event :=
  [.upload (.initiate adminClaims ⟨"acme", "web", name, "u1"⟩),
    .upload (.complete adminClaims ⟨"acme", "web", name, "u1"⟩ (some layerDigest) layer (.ok ()))]

/-- A cycle one hour after the instant zero, with a grace of one second. -/
def laterCycle : Event := .reapOneCycle ⟨1, 100⟩ 3600000000000 []

/-- One manifest pushed to two repositories and deleted from the first. -/
def sharedRun : List Event :=
  uploadTo "two" ++ [.put (requestTo "one" layerManifestDigest) layerManifest,
    .put (requestTo "two" layerManifestDigest) layerManifest,
    .delete (requestTo "one" layerManifestDigest)]

def sharedBlob : StorePath := .ofString (blobPath "acme" "web" "two" layerDigest)

theorem shared_layer_lost :
    ¬ Run.Along (step layerEnv) (ReaperSafe layerEnv) ⟨∅, .empty⟩ (sharedRun ++ [laterCycle]) := by
  intro safe
  have last := Run.Along.at_event safe
  -- One conjunction, so that the run is evaluated once.
  obtain ⟨present, lost, stored⟩ : sharedBlob ∈ (Run.after (step layerEnv) ⟨∅, .empty⟩ sharedRun).store ∧
      sharedBlob ∉ (step layerEnv (Run.after (step layerEnv) ⟨∅, .empty⟩ sharedRun) laterCycle).store ∧
      (Run.after (step layerEnv) ⟨∅, .empty⟩ sharedRun).store.lookup
        ((requestTo "two" "latest").params.object layerManifestDigest) = some layerManifest := by
    decide +kernel
  refine last rfl sharedBlob present lost ⟨(requestTo "two" "latest").params, layerManifestDigest,
    layerDigest, by decide, by decide +kernel, ?_, rfl⟩
  exact ⟨layerManifest, layerDocument, stored, rfl, by decide +kernel, by decide +kernel⟩

/-- One manifest pushed to one repository, deleted, and reaped. -/
def soundRun : List Event :=
  uploadTo "one" ++ [.put (requestTo "one" layerManifestDigest) layerManifest,
    .delete (requestTo "one" layerManifestDigest), laterCycle]

private theorem rowAfter_layer
    (after : RowAfter .empty (requestTo "one" layerManifestDigest).params layerDocument row) :
    row = ⟨"acme", "web", "one", layerDigest⟩ := by
  rcases after with ⟨blobs, extracted, blob, member, rfl⟩ | old
  · have only : extractBlobDigests layerDocument = some [⟨layerDigest, 3⟩] := by decide +kernel
    rw [only] at extracted
    cases extracted
    rw [List.mem_singleton.mp member]
    rfl
  · exact absurd old (AList.notMem_empty row)

private theorem soundPut_layer :
    SoundPut .empty (requestTo "one" layerManifestDigest).params layerDocument
      (layerEnv.ttlPanics (requestTo "one" layerManifestDigest)) where
  plain := by decide
  counted _ := by decide +kernel
  distinct first second firstRow secondRow _ := by
    rw [rowAfter_layer firstRow, rowAfter_layer secondRow]

private theorem parse_layer (parsed : layerEnv.parse body = .ok document) : document = layerDocument := by
  simp only [layerEnv] at parsed
  split at parsed
  · exact (Except.ok.inj parsed).symm
  · cases parsed

/-- The run up to the deletion. -/
def pushRun : List Event := uploadTo "one" ++ [.put (requestTo "one" layerManifestDigest) layerManifest]

theorem soundRun_sound : Run.Along (step layerEnv) (Event.Sound layerEnv) ⟨∅, .empty⟩ soundRun := by
  have plain : Storage.PlainRepo "acme" "web" "one" := by decide
  have pushed : Run.Along (step layerEnv) (Event.Sound layerEnv) ⟨∅, .empty⟩ pushRun := by
    refine ⟨plain, plain, ?_, trivial⟩
    intro _ document parsed
    rw [parse_layer parsed]
    exact soundPut_layer
  have inv : Invariant layerEnv (Run.after (step layerEnv) ⟨∅, .empty⟩ pushRun) :=
    Run.after_invariant (Invariant layerEnv) (fun _ _ inv sound => inv.step sound)
      (Invariant.empty layerEnv) pushed
  refine ⟨pushed.1, pushed.2.1, pushed.2.2.1, ?_, trivial, trivial⟩
  intro digest _ target _ other repo tenant elsewhere blob references
  obtain rfl : layerManifestDigest = digest := by
    have direct : deleteTarget (Run.after (step layerEnv) ⟨∅, .empty⟩ pushRun).store
        (requestTo "one" layerManifestDigest).params = .ok (layerManifestDigest, false) := by
      decide +kernel
    exact (Prod.mk.inj (Except.ok.inj (direct.symm.trans target))).1
  have rows : (Run.after (step layerEnv) ⟨∅, .empty⟩ pushRun).tables.blobPaths.keys =
      [⟨"acme", "web", "one", layerDigest⟩] := by decide +kernel
  have row := (inv.tracked other _ blob repo (by decide +kernel) references).2
  rw [AList.mem_keys, rows, List.mem_singleton, BlobPath.mk.injEq] at row
  exact elsewhere ⟨row.2.1, row.2.2.1⟩

theorem soundRun_spares_live : Run.Along (step layerEnv) (ReaperSafe layerEnv) ⟨∅, .empty⟩ soundRun :=
  reaper_spares_live layerEnv soundRun soundRun_sound

end SpectonCr.Registry
