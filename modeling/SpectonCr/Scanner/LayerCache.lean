import SpectonCr.Base.Result
import SpectonCr.Scanner.MergedFiles

namespace SpectonCr.Scanner

open Storage

/-- What is fixed for a registry of content-addressed layers: the bytes under a digest and the
media type that its descriptors give. -/
structure LayerWorld where
  lib : ImageLib
  parsers : Parsers
  content : String → Bytes
  mediaType : String → String

/-- The packages that `walk_layer` and `dispatch` extract from the bytes of a layer. -/
def LayerWorld.extracted (world : LayerWorld) (digest : String) : List Package :=
  match walkLayer world.lib ⟨digest, world.mediaType digest⟩ (world.content digest) with
  | .ok files => files.flatMap fun file => dispatch world.parsers digest file.path file.contents
  | .error _ => []

def LayerWorld.CacheCorrect (world : LayerWorld) (layerSboms : Table String (List Package)) :
    Prop :=
  ∀ digest packages, layerSboms.lookup digest = some packages → packages = world.extracted digest

/-- A call of `run_pipeline`, with what it finds in the object store. -/
structure PipelineCall where
  worker : Worker
  faults : Faults
  job : ScanJob
  (started now : Time)
  settings : ImageSettings

def PipelineCall.extract (call : PipelineCall) (layerSboms : Table String (List Package)) :
    Except ScanError (List Package × Table String (List Package)) :=
  extractPackages call.worker call.faults call.job.locator layerSboms

/-- The layer cache that a call leaves. -/
def pipelineStep (layerSboms : Table String (List Package)) (call : PipelineCall) :
    Table String (List Package) :=
  (runPipeline call.worker call.faults call.job call.started call.now call.settings layerSboms).layerSboms

/-- The blobs of the image are those of the world. -/
structure LayerWorld.Addressed (world : LayerWorld) (call : PipelineCall) : Prop where
  lib : call.worker.lib = world.lib
  parsers : call.worker.parsers = world.parsers
  blobs : ∀ digest data, fetchBlob call.worker.lib call.worker.objects call.job.locator digest =
    .ok data → data = world.content digest

/-- The image lists each layer once, under its media type, and none is too large. -/
def LayerWorld.Plain (world : LayerWorld) (call : PipelineCall) : Prop :=
  ∀ layers, resolveLayers call.worker.lib call.worker.objects call.job.locator = .ok layers →
    (layers.map LayerDescriptor.digest).Nodup ∧ ∀ layer ∈ layers,
      layer.mediaType = world.mediaType layer.digest ∧ (world.content layer.digest).size ≤ maxLayerBytes

variable {world : LayerWorld} {call : PipelineCall} {layers : List LayerDescriptor}
  {layerSboms : Table String (List Package)}

theorem LayerWorld.layerDigest_extracted (member : package ∈ world.extracted digest) :
    package.layerDigest = some digest := by
  unfold extracted at member
  split at member
  · obtain ⟨file, _, here⟩ := List.mem_flatMap.mp member
    obtain ⟨found, _, rfl⟩ := List.mem_map.mp here
    rfl
  · cases member

theorem LayerWorld.Addressed.walk (addressed : world.Addressed call)
    (plain : ∀ layer ∈ layers, layer.mediaType = world.mediaType layer.digest ∧
      (world.content layer.digest).size ≤ maxLayerBytes)
    (walked : walkSelectedLayers call.worker.lib call.worker.parsers call.worker.objects
      call.job.locator layers = .ok packages) :
    packages = layers.flatMap fun layer => world.extracted layer.digest := by
  induction layers generalizing packages with
  | nil => exact (Except.ok.inj walked).symm
  | cons layer rest ih =>
    obtain ⟨typed, small⟩ := plain layer List.mem_cons_self
    rw [walkSelectedLayers] at walked
    obtain ⟨data, fetched, walked⟩ := bind_ok walked
    obtain rfl := addressed.blobs layer.digest data fetched
    rw [if_neg (Nat.not_lt.mpr small)] at walked
    obtain ⟨files, read, walked⟩ := bind_ok walked
    obtain ⟨others, later, same⟩ := bind_ok walked
    have here : world.extracted layer.digest = files.flatMap fun file =>
        dispatch world.parsers layer.digest file.path file.contents := by
      rw [LayerWorld.extracted, ← typed, ← addressed.lib, read]
    rw [List.flatMap_cons, here, ← ih (fun other member => plain other (.tail _ member)) later,
      ← addressed.parsers]
    exact (Except.ok.inj same).symm

/-- Layers with distinct digests get their own packages back. -/
theorem LayerWorld.regroup_extracted (distinct : (layers.map LayerDescriptor.digest).Nodup) :
    regroup layers (layers.flatMap fun layer => world.extracted layer.digest) =
      layers.map fun layer => (layer.digest, world.extracted layer.digest) := by
  induction layers with
  | nil => rfl
  | cons layer rest ih =>
    obtain ⟨absent, distinct⟩ := List.nodup_cons.mp distinct
    have own : ∀ package ∈ world.extracted layer.digest, package.layerDigest.getD "" = layer.digest := by
      intro package member
      rw [layerDigest_extracted member, Option.getD_some]
    have others : ∀ package ∈ rest.flatMap fun layer => world.extracted layer.digest,
        ¬package.layerDigest.getD "" = layer.digest := by
      intro package member same
      obtain ⟨other, listed, here⟩ := List.mem_flatMap.mp member
      rw [layerDigest_extracted here, Option.getD_some] at same
      exact absent (same ▸ List.mem_map_of_mem listed)
    have front : (world.extracted layer.digest ++ rest.flatMap fun layer =>
        world.extracted layer.digest).filter (fun package =>
          package.layerDigest.getD "" = layer.digest) = world.extracted layer.digest := by
      rw [List.filter_append, List.filter_eq_self.mpr (by simpa using own),
        List.filter_eq_nil_iff.mpr (by simpa using others), List.append_nil]
    have back : (world.extracted layer.digest ++ rest.flatMap fun layer =>
        world.extracted layer.digest).filter (fun package =>
          ¬package.layerDigest.getD "" = layer.digest) =
        rest.flatMap fun layer => world.extracted layer.digest := by
      rw [List.filter_append, List.filter_eq_nil_iff.mpr (by simpa using own),
        List.filter_eq_self.mpr (by simpa using others), List.nil_append]
    rw [List.flatMap_cons, regroup, front, back, ih distinct, List.map_cons]

theorem LayerWorld.CacheCorrect.insert (correct : world.CacheCorrect layerSboms)
    (digest : String) : world.CacheCorrect (layerSboms.insert digest (world.extracted digest)) := by
  intro other packages found
  rcases Table.lookup_insert_cases found with ⟨rfl, rfl⟩ | ⟨_, found⟩
  · rfl
  · exact correct other packages found

theorem LayerWorld.CacheCorrect.putLayers (correct : world.CacheCorrect layerSboms)
    (faults : Faults) (layers : List LayerDescriptor) :
    world.CacheCorrect (putLayers faults
      (layers.map fun layer => (layer.digest, world.extracted layer.digest)) layerSboms) := by
  unfold Scanner.putLayers
  generalize (0 : Nat) = start
  induction layers generalizing layerSboms start with
  | nil => exact correct
  | cons layer rest ih =>
    rw [List.map_cons, List.zipIdx_cons, List.foldl_cons]
    split
    · exact ih correct _
    · exact ih (correct.insert layer.digest) _

/-- Hits and misses together are everything, in another order. -/
theorem hits_and_misses (hit : Item → Option (List Found)) (all : Item → List Found)
    (right : ∀ item packages, hit item = some packages → packages = all item) (items : List Item) :
    ((items.filterMap hit).flatten ++ (items.filter fun item => (hit item).isNone).flatMap all).Perm
      (items.flatMap all) := by
  induction items with
  | nil => rfl
  | cons item rest ih =>
    cases found : hit item with
    | some packages =>
      obtain rfl := right item packages found
      simp only [List.filterMap_cons, found, List.flatten_cons, List.append_assoc,
        List.flatMap_cons, List.filter_cons, Option.isNone_some, Bool.false_eq_true, if_false]
      exact ih.append_left _
    | none =>
      simp only [List.filterMap_cons, found, List.flatMap_cons, List.filter_cons, Option.isNone_none, if_true]
      exact (List.perm_append_comm_assoc _ _ _).trans (ih.append_left _)

/-- A scan of a plain image keeps the cache correct, and finds what all its layers hold. -/
theorem LayerWorld.CacheCorrect.extract (correct : world.CacheCorrect layerSboms)
    (addressed : world.Addressed call) (plain : world.Plain call)
    (extracts : call.extract layerSboms = .ok (packages, cache)) :
    world.CacheCorrect cache ∧ ∃ layers,
      resolveLayers call.worker.lib call.worker.objects call.job.locator = .ok layers ∧
        packages.Perm (layers.flatMap fun layer => world.extracted layer.digest) := by
  obtain ⟨layers, resolved, extracts⟩ := bind_ok extracts
  obtain ⟨walked, reads, same⟩ := bind_ok extracts
  cases same
  obtain ⟨distinct, typed⟩ := plain layers resolved
  have missed : ((layers.zipIdx.filter fun entry =>
      (cachedLayer call.faults layerSboms entry).isNone).map Prod.fst).Sublist layers := by
    have part := (List.filter_sublist (p := fun entry : LayerDescriptor × Nat =>
      (cachedLayer call.faults layerSboms entry).isNone) (l := layers.zipIdx)).map Prod.fst
    rwa [List.zipIdx_map_fst] at part
  have right : ∀ entry packages, cachedLayer call.faults layerSboms entry = some packages →
      packages = world.extracted entry.1.digest := by
    intro entry packages hit
    unfold cachedLayer at hit
    split at hit
    · cases hit
    obtain ⟨stored, found, rfl⟩ := Option.map_eq_some_iff.mp hit
    rw [correct _ _ found, normalise]
    refine (List.map_congr_left fun package member => ?_).trans (List.map_id _)
    have digest := layerDigest_extracted member
    cases package
    simp_all
  rw [addressed.walk (fun layer member => typed layer (missed.subset member)) reads,
    regroup_extracted (distinct.sublist (missed.map _))]
  refine ⟨correct.putLayers _ _, layers, resolved, ?_⟩
  have both := hits_and_misses (cachedLayer call.faults layerSboms)
    (fun entry => world.extracted entry.1.digest) right layers.zipIdx
  have all : (layers.zipIdx.flatMap fun entry => world.extracted entry.1.digest) =
      layers.flatMap fun layer => world.extracted layer.digest := by
    conv_rhs => rw [← List.zipIdx_map_fst 0 layers]
    rw [List.flatMap_map]
  simpa only [List.flatMap_map, all] using both

theorem LayerWorld.CacheCorrect.step (correct : world.CacheCorrect layerSboms)
    (addressed : world.Addressed call) (plain : world.Plain call) :
    world.CacheCorrect (pipelineStep layerSboms call) := by
  unfold pipelineStep runPipeline
  cases extracts : extractPackages call.worker call.faults call.job.locator layerSboms with
  | error error => exact correct
  | ok found => exact (correct.extract addressed plain extracts).1

/-- Over scans of images that list each layer once, under one media type, and none too large, every
cached entry is what its layer holds, and a scan finds the same packages as with an empty cache. -/
theorem layer_cache_correct (world : LayerWorld) (start : Table String (List Package))
    (correct : world.CacheCorrect start) (calls : List PipelineCall)
    (addressed : ∀ call ∈ calls, world.Addressed call) (plain : ∀ call ∈ calls, world.Plain call) :
    world.CacheCorrect (Run.after pipelineStep start calls) ∧
      ∀ call, world.Addressed call → world.Plain call → ∀ warm cold cache empty,
        call.extract (Run.after pipelineStep start calls) = .ok (warm, cache) →
          call.extract ∅ = .ok (cold, empty) → warm.Perm cold := by
  have kept : world.CacheCorrect (Run.after pipelineStep start calls) := by
    induction calls generalizing start with
    | nil => exact correct
    | cons call rest ih =>
      refine ih _ (correct.step (addressed call (.head _)) (plain call (.head _))) ?_ ?_
      · exact fun other member => addressed other (.tail _ member)
      · exact fun other member => plain other (.tail _ member)
  refine ⟨kept, ?_⟩
  intro call addressed plain warm cold cache empty filled cleared
  obtain ⟨_, layers, resolved, one⟩ := kept.extract addressed plain filled
  have none : world.CacheCorrect ∅ := nofun
  obtain ⟨_, others, again, two⟩ := none.extract addressed plain cleared
  cases resolved.symm.trans again
  exact one.trans two.symm

/-- The layers as a worker finds them, all tar archives. -/
def foundWorld (worker : Worker) (loc : ImageLocator) : LayerWorld where
  lib := worker.lib
  parsers := worker.parsers
  content := fun digest => (fetchBlob worker.lib worker.objects loc digest).toOption.getD .empty
  mediaType := fun _ => (tarLayer "").mediaType

def upgradedCall : PipelineCall := ⟨upgradedWorker, .none, sampleJob .nil "acme", 1, 2, .default⟩

theorem upgraded_image_cached : (foundWorld upgradedWorker upgradedCall.job.locator).CacheCorrect
      (Run.after pipelineStep ∅ [upgradedCall]) := by
  refine (layer_cache_correct (foundWorld upgradedWorker upgradedCall.job.locator) ∅
    nofun [upgradedCall] ?_ ?_).1
  · intro call member
    obtain rfl := List.mem_singleton.mp member
    refine ⟨rfl, rfl, fun digest data fetched => ?_⟩
    have found : fetchBlob upgradedWorker.lib upgradedWorker.objects upgradedCall.job.locator digest =
      .ok data := fetched
    simp [foundWorld, found, Except.toOption]
  · intro call member layers resolved
    obtain rfl := List.mem_singleton.mp member
    cases upgradedImage.resolved.symm.trans resolved
    decide +kernel

/-- An image that lists one layer twice. -/
def twiceWorker : Worker :=
  sampleWorker ["acme"]
    [("sha256:l1", dpkgStatus "3.0.1"), ("sha256:l1", dpkgStatus "3.0.1")] criticalForAll []

/-- The second listing empties the cached entry of the layer, and the next scan finds nothing. -/
theorem repeated_layer_empties_entry :
    ((foundWorld twiceWorker upgradedCall.job.locator).extracted "sha256:l1").length = 1 ∧
    (pipelineStep ∅ { upgradedCall with worker := twiceWorker }).lookup "sha256:l1" = some [] ∧
    (runPipeline twiceWorker .none (sampleJob .nil "acme") 1 2 .default
      (pipelineStep ∅ { upgradedCall with worker := twiceWorker })).query.map
        (fun made => made.packages) = some [] := by
  decide +kernel

end SpectonCr.Scanner
