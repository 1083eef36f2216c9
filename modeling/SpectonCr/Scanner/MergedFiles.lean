import SpectonCr.Scanner.Dedup

/-! The packages of an image against its merged file system. -/

namespace SpectonCr.Scanner

open Storage

/-- What a whiteout takes away. -/
inductive Whiteout where
  | path (parts : List String)
  | contents (parts : List String)

/-- A file named `.wh..wh..opq` empties its directory, one named `.wh.name` removes `name`. -/
def File.whiteout (file : File) : Option Whiteout :=
  let parts := segments file.path
  match parts.getLast? with
  | none => none
  | some name =>
    if name = ".wh..wh..opq" then some (.contents parts.dropLast)
    else (Text.stripPrefix name ".wh.").map fun removed => .path (parts.dropLast ++ [removed])

/-- Whether an entry of a layer takes away a path below. A file also replaces the directory of its
name, and a file named like one of its directories. -/
def File.hides (entry : File) (path : String) : Bool :=
  let parts := segments path
  match entry.whiteout with
  | some (.path removed) => removed.isPrefixOf parts
  | some (.contents directory) => directory.isPrefixOf parts && directory ≠ parts
  | none => (segments entry.path).isPrefixOf parts || parts.isPrefixOf (segments entry.path)

/-- The files a layer adds: of two at one path the later. -/
def addedFiles : List File → List File
  | [] => []
  | file :: rest =>
    if file.whiteout.isSome || rest.any fun later => segments later.path = segments file.path then
      addedFiles rest
    else file :: addedFiles rest

def overlay (lower upper : List File) : List File :=
  (lower.filter fun file => !upper.any fun entry => entry.hides file.path) ++ addedFiles upper

/-- The file system of a stack of layers, the lowest first. -/
def mergedFiles (layers : List (List File)) : List File := layers.foldl overlay []

def Component.identity (component : Component) : String × String × String :=
  (component.name, component.version, component.ecosystem)

/-- What `dispatch` finds in a file, by name, version and ecosystem. -/
def File.yields (parsers : Parsers) (file : File) : List (String × String × String) :=
  (components parsers file.path file.contents).map Component.identity

/-- The packages are those of the files. -/
def Describes (parsers : Parsers) (packages : List Package) (files : List File) : Prop :=
  ∀ identity, identity ∈ packages.map (fun package => package.identity) ↔
    ∃ file ∈ files, identity ∈ file.yields parsers

/-- An image whose layers are all there and can be unpacked. -/
structure ImageContents (worker : Worker) (loc : ImageLocator) where
  layers : List LayerDescriptor
  data : LayerDescriptor → Bytes
  files : LayerDescriptor → List File
  resolved : resolveLayers worker.lib worker.objects loc = .ok layers
  fetched : ∀ layer ∈ layers, fetchBlob worker.lib worker.objects loc layer.digest = .ok (data layer)
  unpacked : ∀ layer ∈ layers, layerFiles worker.lib layer (data layer) = .ok (files layer)

section Image

variable {worker : Worker} {loc : ImageLocator}

def ImageContents.merged (image : ImageContents worker loc) : List File :=
  mergedFiles (image.layers.map image.files)

/-- The files of a layer that are handed to the parsers when it is walked. -/
def ImageContents.visited (image : ImageContents worker loc) (layer : LayerDescriptor) : List File :=
  if (image.data layer).size > maxLayerBytes then []
  else (image.files layer).filter fun file => isInteresting file.path

/-- A package of a layer whose packages are cached. -/
def ImageContents.Cached (image : ImageContents worker loc) (faults : Faults)
    (layerSboms : Table String (List Package)) (package : Package) : Prop :=
  ∃ entry ∈ image.layers.zipIdx, ∃ packages,
    cachedLayer faults layerSboms entry = some packages ∧ package ∈ packages

/-- A file that is handed to the parsers: of a layer that is not cached and not too large, at a
path whose bytes are read. -/
def ImageContents.Reads (image : ImageContents worker loc) (faults : Faults)
    (layerSboms : Table String (List Package)) (file : File) : Prop :=
  ∃ entry ∈ image.layers.zipIdx, cachedLayer faults layerSboms entry = none ∧ file ∈ image.visited entry.1

/-- The condition on an image and the cache: what a file that did not last, or the cache, adds is in
a file that lasted, and what a lasting file that was not read holds is found elsewhere. -/
structure ImageContents.Undisturbed (image : ImageContents worker loc) (faults : Faults)
    (layerSboms : Table String (List Package)) : Prop where
  replaced : ∀ file, image.Reads faults layerSboms file → file ∉ image.merged →
    ∀ identity ∈ file.yields worker.parsers, ∃ other ∈ image.merged, identity ∈ other.yields worker.parsers
  cached : ∀ package, image.Cached faults layerSboms package →
    ∃ other ∈ image.merged, package.identity ∈ other.yields worker.parsers
  unread : ∀ file ∈ image.merged, ¬image.Reads faults layerSboms file →
    ∀ identity ∈ file.yields worker.parsers,
      (∃ package, image.Cached faults layerSboms package ∧ package.identity = identity) ∨
        ∃ other, image.Reads faults layerSboms other ∧ identity ∈ other.yields worker.parsers

theorem mem_regroup {layers : List LayerDescriptor} {packages : List Package} {package : Package} :
    package ∈ (regroup layers packages).flatMap Prod.snd ↔
      package ∈ packages ∧ ∃ layer ∈ layers, package.layerDigest.getD "" = layer.digest := by
  induction layers generalizing packages with
  | nil => simp [regroup]
  | cons layer rest ih =>
    simp only [regroup, List.flatMap_cons, List.mem_append, ih, List.mem_filter,
      decide_eq_true_eq, List.mem_cons, exists_eq_or_imp]
    by_cases here : package.layerDigest.getD "" = layer.digest <;> simp [here]

/-- The packages of the visited files of some layers. -/
def ImageContents.walked (image : ImageContents worker loc) (layers : List LayerDescriptor) : List Package :=
  layers.flatMap fun layer => (image.visited layer).flatMap fun file =>
    dispatch worker.parsers layer.digest file.path file.contents

variable (image : ImageContents worker loc)

theorem ImageContents.walk {layers : List LayerDescriptor} (known : ∀ layer ∈ layers, layer ∈ image.layers) :
    walkSelectedLayers worker.lib worker.parsers worker.objects loc layers = .ok (image.walked layers) := by
  induction layers with
  | nil => rfl
  | cons layer rest ih =>
    have present := known layer (List.mem_cons_self)
    have later := ih fun other member => known other (List.mem_cons_of_mem _ member)
    have unpacked := image.unpacked layer present
    simp only [walkSelectedLayers, image.fetched layer present, later, bind, Except.bind, pure, Except.pure]
    by_cases large : (image.data layer).size > maxLayerBytes
    · simp [large, walked, visited]
    · simp [large, walkLayer, unpacked, Except.map, walked, visited]

theorem mem_walked {image : ImageContents worker loc} {layers : List LayerDescriptor} {package : Package} :
    package ∈ image.walked layers ↔ ∃ layer ∈ layers, ∃ file ∈ image.visited layer,
      package.toComponent ∈ components worker.parsers file.path file.contents ∧
        package.layerDigest = some layer.digest := by
  simp only [ImageContents.walked, List.mem_flatMap, dispatch, List.mem_map]
  constructor
  · rintro ⟨layer, member, file, visited, found, here, rfl⟩
    exact ⟨layer, member, file, visited, here, rfl⟩
  · rintro ⟨layer, member, file, visited, here, digest⟩
    refine ⟨layer, member, file, visited, package.toComponent, here, ?_⟩
    rw [← digest]

/-- The extraction for an image that is there succeeds, with the cached packages and those of the
files that are read. -/
theorem ImageContents.extract (faults : Faults) (layerSboms : Table String (List Package)) :
    ∃ packages cache, extractPackages worker faults loc layerSboms = .ok (packages, cache) ∧
      ∀ identity, identity ∈ packages.map (fun package => package.identity) ↔
        (∃ package, image.Cached faults layerSboms package ∧ package.identity = identity) ∨
          ∃ file, image.Reads faults layerSboms file ∧ identity ∈ file.yields worker.parsers := by
  have known : ∀ layer ∈ (image.layers.zipIdx.filter fun entry =>
      (cachedLayer faults layerSboms entry).isNone).map Prod.fst, layer ∈ image.layers := by
    intro layer member
    obtain ⟨entry, present, rfl⟩ := List.mem_map.mp member
    exact (List.mem_zipIdx' (List.mem_filter.mp present).1).2 ▸ List.getElem_mem _
  simp only [extractPackages, image.resolved, image.walk known, bind, Except.bind, pure, Except.pure]
  refine ⟨_, _, rfl, ?_⟩
  intro identity
  simp only [List.mem_map, List.mem_append, or_and_right, exists_or]
  apply or_congr
  · simp only [List.mem_flatten, List.mem_filterMap, Cached]
    constructor
    · rintro ⟨package, ⟨packages, ⟨entry, member, hit⟩, here⟩, same⟩
      exact ⟨package, ⟨entry, member, packages, hit, here⟩, same⟩
    · rintro ⟨package, ⟨entry, member, packages, hit, here⟩, same⟩
      exact ⟨package, ⟨packages, ⟨entry, member, hit⟩, here⟩, same⟩
  · constructor
    · rintro ⟨package, found, rfl⟩
      obtain ⟨layer, member, file, visited, here, _⟩ := mem_walked.mp (mem_regroup.mp found).1
      obtain ⟨entry, present, rfl⟩ := List.mem_map.mp member
      obtain ⟨listed, absent⟩ := List.mem_filter.mp present
      exact ⟨file, ⟨entry, listed, by simpa using absent, visited⟩,
        List.mem_map.mpr ⟨package.toComponent, here, rfl⟩⟩
    · rintro ⟨file, ⟨entry, listed, absent, visited⟩, yielded⟩
      obtain ⟨component, here, rfl⟩ := List.mem_map.mp yielded
      have walkedLayer : entry.1 ∈ (image.layers.zipIdx.filter fun entry =>
          (cachedLayer faults layerSboms entry).isNone).map Prod.fst :=
        List.mem_map.mpr ⟨entry, List.mem_filter.mpr ⟨listed, by simp [absent]⟩, rfl⟩
      refine ⟨⟨component, some entry.1.digest⟩, mem_regroup.mpr ⟨?_, entry.1, walkedLayer, rfl⟩, rfl⟩
      exact mem_walked.mpr ⟨entry.1, walkedLayer, file, visited, here, rfl⟩

end Image

/-- The packages asked about are those of the merged file system, exactly when no replaced or
removed file, no cached layer and no unread file makes a difference. -/
theorem sbom_describes_merged_files_iff (worker : Worker) (faults : Faults) (job : ScanJob)
    (started now : Time) (settings : ImageSettings) (layerSboms : Table String (List Package))
    (image : ImageContents worker job.locator) :
    ∃ made, (runPipeline worker faults job started now settings layerSboms).query = some made ∧
      (Describes worker.parsers made.packages image.merged ↔ image.Undisturbed faults layerSboms) := by
  obtain ⟨packages, cache, extracted, found⟩ := image.extract faults layerSboms
  obtain ⟨made, _⟩ := @runPipeline_completes worker faults job started now settings _ _ _ extracted
  refine ⟨_, made, ?_⟩
  constructor
  · intro describes
    refine ⟨?_, ?_, ?_⟩
    · intro file reads _ identity yielded
      exact (describes identity).mp ((found identity).mpr (.inr ⟨file, reads, yielded⟩))
    · intro package cached
      exact (describes _).mp ((found _).mpr (.inl ⟨package, cached, rfl⟩))
    · intro file lasted _ identity yielded
      exact (found identity).mp ((describes identity).mpr ⟨file, lasted, yielded⟩)
  · intro undisturbed identity
    rw [found identity]
    constructor
    · rintro (⟨package, cached, rfl⟩ | ⟨file, reads, yielded⟩)
      · exact undisturbed.cached package cached
      · by_cases lasted : file ∈ image.merged
        · exact ⟨file, lasted, yielded⟩
        · exact undisturbed.replaced file reads lasted identity yielded
    · rintro ⟨file, lasted, yielded⟩
      by_cases reads : image.Reads faults layerSboms file
      · exact .inr ⟨file, reads, yielded⟩
      · exact undisturbed.unread file lasted reads identity yielded

/-- Two layers, of which the second upgrades the package of the first. -/
def upgradedWorker : Worker :=
  sampleWorker ["acme"]
    [("sha256:l1", dpkgStatus "3.0.1"), ("sha256:l2", dpkgStatus "3.0.2")] criticalForAll []

def tarLayer (digest : String) : LayerDescriptor := ⟨digest, "application/vnd.oci.image.layer.v1.tar"⟩

def upgradedData (layer : LayerDescriptor) : Bytes :=
  dpkgStatus (if layer.digest = "sha256:l1" then "3.0.1" else "3.0.2")

def upgradedImage : ImageContents upgradedWorker (sampleJob .nil "acme").locator where
  layers := [tarLayer "sha256:l1", tarLayer "sha256:l2"]
  data := upgradedData
  files := fun layer => [⟨"var/lib/dpkg/status", upgradedData layer⟩]
  resolved := by decide +kernel
  fetched := by decide +kernel
  unpacked := by decide +kernel

/-- The version that the second layer replaced is reported beside the new one. -/
theorem replaced_version_reported :
    (runPipeline upgradedWorker .none (sampleJob .nil "acme") 1 2 .default ∅).query.map
        (fun made => made.packages.map fun package => package.identity) =
      some [("openssl", "3.0.1", "deb"), ("openssl", "3.0.2", "deb")] ∧
    upgradedImage.merged.flatMap (File.yields upgradedWorker.parsers) = [("openssl", "3.0.2", "deb")] ∧
    ¬∃ made, (runPipeline upgradedWorker .none (sampleJob .nil "acme") 1 2 .default ∅).query =
        some made ∧ Describes upgradedWorker.parsers made.packages upgradedImage.merged := by
  have seen : (runPipeline upgradedWorker .none (sampleJob .nil "acme") 1 2 .default ∅).query.map
        (fun made => made.packages.map fun package => package.identity) =
      some [("openssl", "3.0.1", "deb"), ("openssl", "3.0.2", "deb")] ∧
    upgradedImage.merged.flatMap (File.yields upgradedWorker.parsers) = [("openssl", "3.0.2", "deb")] := by
    decide +kernel
  obtain ⟨asked, lasting⟩ := seen
  refine ⟨asked, lasting, ?_⟩
  rintro ⟨made, made_eq, describes⟩
  rw [made_eq, Option.map_some, Option.some.injEq] at asked
  have old := (describes ("openssl", "3.0.1", "deb")).mp (by rw [asked]; simp)
  rw [← List.mem_flatMap, lasting] at old
  exact absurd old (by decide)

end SpectonCr.Scanner
