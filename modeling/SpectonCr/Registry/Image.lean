import SpectonCr.Base.Result
import SpectonCr.Registry.Manifests

namespace SpectonCr.Registry

open Storage Gc

/-- An object an image consists of. -/
inductive Part where
  | manifest (digest : String)
  | blob (digest : String)
  deriving DecidableEq

def Part.layout : Part → String → String → String → String → String
  | .manifest _ => manifestPath
  | .blob _ => blobPath

def Part.digest : Part → String
  | .manifest digest => digest
  | .blob digest => digest

/-- Where a repository keeps the part. -/
def Part.place (tenant project name : String) : Part → StorePath
  | .manifest digest => .ofString (manifestPath tenant project name digest)
  | .blob digest => .ofString (blobPath tenant project name digest)

def descriptors (document : Json) (name : String) : List Json :=
  ((document.get name).bind Json.asArray).getD []

/-- The configuration and the layers of a document, and the manifests of an index. -/
def documentParts (document : Json) : List Part :=
  ((((document.get "config").bind digestOf).toList ++
    (descriptors document "layers").filterMap digestOf).map Part.blob) ++
    ((descriptors document "manifests").filterMap digestOf).map Part.manifest

section Closure

variable (parse : Bytes → Except String Json) (store : ObjectStore) (place : Part → StorePath)

/-- The parts a stored manifest names. -/
def references : Part → List Part
  | .blob _ => []
  | .manifest digest =>
    match store.lookup (place (.manifest digest)) with
    | none => []
    | some bytes =>
      match parse bytes with
      | .error _ => []
      | .ok document => documentParts document

/-- The part belongs to the image of the manifest, at any depth. -/
def Reaches (digest : String) (part : Part) : Prop :=
  Relation.ReflTransGen (fun whole part => part ∈ references parse store place whole) (.manifest digest) part

/-- Everything the image consists of is stored. -/
def Whole (digest : String) : Prop := ∀ part, Reaches parse store place digest part → place part ∈ store

end Closure

/-- A list that holds the root and what its members name holds the whole image. -/
theorem Reaches.mem_of_closed {parse : Bytes → Except String Json} {store : ObjectStore}
    {place : Part → StorePath} {digest : String} {parts : List Part} (root : .manifest digest ∈ parts)
    (closed : ∀ whole ∈ parts, ∀ part ∈ references parse store place whole, part ∈ parts) {part : Part}
    (reached : Reaches parse store place digest part) : part ∈ parts := by
  induction reached with
  | refl => exact root
  | tail _ named ih => exact closed _ ih _ named

theorem collectReferencedDigests_eq (document : Json) :
    collectReferencedDigests document = (documentParts document).map Part.digest := by
  simp [collectReferencedDigests, documentParts, descriptors, Part.digest, Function.comp_def]

section Status

structure ManifestStatus where
  (digest mediaType : String)
  size : Nat

/-- The entry of a layer, of the configuration, or of a manifest with its platform. -/
structure ComponentStatus where
  digest : String
  size : Nat
  available : Bool
  platform : Option Json

structure ImageStatus where
  available : Bool
  image : String
  manifest : Option ManifestStatus
  layers : List ComponentStatus
  config : Option ComponentStatus
  (missingLayers totalSize : Nat)
  reason : Option String

def detectManifestMediaType (env : Env) (data : Bytes) : String :=
  let image := "application/vnd.oci.image.manifest.v1+json"
  match env.parse data with
  | .error _ => image
  | .ok value =>
    match (value.get "mediaType").bind Json.asStr with
    | some mediaType => mediaType
    | none =>
      if (value.get "schemaVersion").bind Json.asU64 = some 2 ∧ (value.get "manifests").isSome then
        "application/vnd.oci.image.index.v1+json"
      else image

/-- A descriptor counts only with a digest and a size. -/
def sizedDescriptor (descriptor : Json) : Option (String × Nat) :=
  (digestOf descriptor).bind fun digest =>
    ((descriptor.get "size").bind Json.asU64).map fun size => (digest, size)

/-- The check of one descriptor, of a part of the given kind. -/
def checkDescriptor (store : ObjectStore) (params : ManifestRef) (part : String → Part)
    (platform : Json → Option Json) (descriptor : Json) : Option ComponentStatus :=
  (sizedDescriptor descriptor).map fun (digest, size) =>
    ⟨digest, size, decide ((part digest).place params.tenant params.project params.name ∈ store),
      platform descriptor⟩

def checkBlob (store : ObjectStore) (params : ManifestRef) (descriptor : Json) : Option ComponentStatus :=
  checkDescriptor store params .blob (fun _ => none) descriptor

def checkManifest (store : ObjectStore) (params : ManifestRef) (descriptor : Json) : Option ComponentStatus :=
  checkDescriptor store params .manifest (fun value => some ((value.get "platform").getD .null)) descriptor

def unavailable (image reason : String) : ImageStatus := ⟨false, image, none, [], none, 0, 0, some reason⟩

def imageStatus (env : Env) (claims : TokenClaims) (params : ManifestRef) (store : ObjectStore) :
    Except RegistryError ImageStatus :=
  (params.authorize claims .pull).bind fun _ =>
    let image := params.tenant ++ "/" ++ params.project ++ "/" ++ params.name ++ ":" ++
      params.reference
    match resolveManifestPath store params with
    | .error _ => .ok (unavailable image "manifest not found")
    | .ok path =>
      match store.lookup (.ofString path) with
      | none => .ok (unavailable image "manifest not found")
      | some data =>
        match env.parse data with
        | .error reason => .error (.manifestInvalid reason)
        | .ok document =>
          let config := (document.get "config").bind (checkBlob store params)
          let layers := (descriptors document "layers").filterMap (checkBlob store params) ++
            (descriptors document "manifests").filterMap (checkManifest store params)
          let checked := config.toList ++ layers
          let missingLayers := checked.countP fun component => !component.available
          .ok {
            available := missingLayers = 0
            image
            manifest := some ⟨env.sha.digest data, detectManifestMediaType env data, data.size⟩
            layers
            config
            missingLayers
            totalSize := (data.size + (checked.map ComponentStatus.size).sum) % 2 ^ 64
            reason := none }

/-- The parts of a document whose descriptor has a size, so that the handler looks for them. -/
def sizedParts (document : Json) : List Part :=
  (((document.get "config").toList ++ descriptors document "layers").filterMap
      sizedDescriptor).map (fun entry => .blob entry.1) ++
    ((descriptors document "manifests").filterMap sizedDescriptor).map fun entry =>
      .manifest entry.1

/-- The digest a reference stands for. -/
def resolvedDigest (store : ObjectStore) (params : ManifestRef) : Option String :=
  if Text.startsWith (normalizedRef params.reference) "sha256:" then
    some (normalizedRef params.reference)
  else (store.lookup (params.tagLink params.reference)).bind fun bytes =>
    (String.fromUTF8? bytes).map Text.trim

variable {env : Env} {claims : TokenClaims} {params : ManifestRef} {store : ObjectStore}

theorem resolveManifestPath_of_digest (resolved : resolvedDigest store params = some digest) :
    resolveManifestPath store params =
      .ok (manifestPath params.tenant params.project params.name digest) := by
  unfold resolvedDigest at resolved
  unfold resolveManifestPath
  dsimp only
  split at resolved
  · rename_i direct
    cases resolved
    exact if_pos direct
  rename_i tag
  rw [if_neg tag]
  obtain ⟨bytes, found, read⟩ := Option.bind_eq_some_iff.mp resolved
  obtain ⟨text, valid, rfl⟩ := Option.map_eq_some_iff.mp read
  simp only [found, valid]

theorem resolveManifestPath_of_unresolved (unresolved : resolvedDigest store params = none) :
    ∃ error, resolveManifestPath store params = .error error := by
  unfold resolvedDigest at unresolved
  unfold resolveManifestPath
  dsimp only
  split at unresolved
  · cases unresolved
  rename_i tag
  rw [if_neg tag]
  cases found : store.lookup (params.tagLink params.reference) with
  | none => exact ⟨_, rfl⟩
  | some bytes =>
    rw [found, Option.bind_some, Option.map_eq_none_iff] at unresolved
    simp only [unresolved]
    exact ⟨_, rfl⟩

/-- The part lies in the repository. -/
def ManifestRef.place (params : ManifestRef) (part : Part) : StorePath :=
  part.place params.tenant params.project params.name

theorem checkDescriptor_available {part : String → Part} {platform : Json → Option Json} {items : List Json} :
    (∀ component ∈ items.filterMap (checkDescriptor store params part platform), component.available = true) ↔
      ∀ entry ∈ items.filterMap sizedDescriptor, params.place (part entry.1) ∈ store := by
  simp only [List.mem_filterMap, checkDescriptor, Option.map_eq_some_iff]
  constructor
  · rintro all entry ⟨item, listed, sized⟩
    have found := all _ ⟨item, listed, entry, sized, rfl⟩
    exact of_decide_eq_true found
  · rintro all component ⟨item, listed, entry, sized, rfl⟩
    exact decide_eq_true (all entry ⟨item, listed, sized⟩)

theorem missing_eq_zero_iff (document : Json) :
    ((((document.get "config").bind (checkBlob store params)).toList ++
        ((descriptors document "layers").filterMap (checkBlob store params) ++
          (descriptors document "manifests").filterMap (checkManifest store params))).countP
      fun component => !component.available) = 0 ↔
    ∀ part ∈ sizedParts document, params.place part ∈ store := by
  have config : ((document.get "config").bind (checkBlob store params)).toList =
      (document.get "config").toList.filterMap (checkBlob store params) := by
    cases document.get "config" with
    | none => rfl
    | some value => simp [List.filterMap_cons]; cases checkBlob store params value <;> rfl
  rw [config, ← List.append_assoc, ← List.filterMap_append, List.countP_eq_zero]
  simp only [List.forall_mem_append, Bool.not_eq_true', Bool.not_eq_false, sizedParts, List.forall_mem_map]
  exact and_congr checkDescriptor_available checkDescriptor_available

/-- The answer is positive exactly if the manifest is there, is a document, and every descriptor
with a size is stored. -/
theorem available_iff (answered : imageStatus env claims params store = .ok status) :
    status.available = true ↔ ∃ digest bytes document, resolvedDigest store params = some digest ∧
      store.lookup (params.place (.manifest digest)) = some bytes ∧
      env.parse bytes = .ok document ∧ ∀ part ∈ sizedParts document, params.place part ∈ store := by
  obtain ⟨_, _, answered⟩ := bind_ok answered
  dsimp only at answered
  cases resolved : resolvedDigest store params with
  | none =>
    obtain ⟨error, failed⟩ := resolveManifestPath_of_unresolved resolved
    rw [failed] at answered
    cases answered
    simp [unavailable]
  | some digest =>
    rw [resolveManifestPath_of_digest resolved] at answered
    cases found : store.lookup (.ofString (manifestPath params.tenant params.project params.name digest)) with
    | none =>
      have absent : store.lookup (params.place (.manifest digest)) = none := found
      simp only [found] at answered
      cases answered
      simp [unavailable, absent]
    | some bytes =>
      have present : store.lookup (params.place (.manifest digest)) = some bytes := found
      simp only [found] at answered
      cases parsed : env.parse bytes with
      | error reason =>
        simp only [parsed] at answered
        cases answered
      | ok document =>
        simp only [parsed] at answered
        cases answered
        rw [decide_eq_true_eq, missing_eq_zero_iff]
        constructor
        · intro stored
          exact ⟨digest, bytes, document, rfl, present, parsed, stored⟩
        · rintro ⟨_, _, _, same, found', parsed', stored⟩
          cases same
          cases present.symm.trans found'
          cases parsed.symm.trans parsed'
          exact stored

/-- The image is available only when all of it is stored, exactly if what the handler does not look
for (entries without a size, everything below an index) is there whenever the rest is. -/
theorem available_whole_iff (env : Env) (claims : TokenClaims) (params : ManifestRef) (store : ObjectStore)
    (status : ImageStatus) (answered : imageStatus env claims params store = .ok status) :
    (status.available = true → ∃ digest, resolvedDigest store params = some digest ∧
      Whole env.parse store params.place digest) ↔
    ∀ digest bytes document, resolvedDigest store params = some digest →
      store.lookup (params.place (.manifest digest)) = some bytes →
      env.parse bytes = .ok document → (∀ part ∈ sizedParts document, params.place part ∈ store) →
      ∀ part, Reaches env.parse store params.place digest part → part ∉ sizedParts document →
        part ≠ .manifest digest → params.place part ∈ store := by
  rw [available_iff answered]
  constructor
  · intro claimed digest bytes document resolved found parsed stored part reached _ _
    obtain ⟨other, same, whole⟩ := claimed ⟨digest, bytes, document, resolved, found, parsed, stored⟩
    cases resolved.symm.trans same
    exact whole part reached
  · rintro rest ⟨digest, bytes, document, resolved, found, parsed, stored⟩
    refine ⟨digest, resolved, ?_⟩
    intro part reached
    by_cases root : part = .manifest digest
    · subst root
      exact Table.mem_of_lookup found
    · by_cases sized : part ∈ sizedParts document
      · exact stored part sized
      · exact rest digest bytes document resolved found parsed stored part reached sized root

/-- A registry with two documents: an image of one layer, and an index of that image. -/
def twoDocuments : Env where
  toTtlLib := Ephemeral.durationsOnly
  gcPool := true
  sha := Sha256.ofTable [] (by simp)
  parse bytes :=
    if bytes = "image".toUTF8 then
      .ok (.obj [("layers", .arr [.obj [("digest", .str "sha256:l"), ("size", .int 7)]])])
    else if bytes = "index".toUTF8 then
      .ok (.obj [("manifests", .arr [.obj [("digest", .str "sha256:m"), ("size", .int 5)]])])
    else .error "expected value"

/-- The repository of the two documents. -/
def sampleImage (reference : String) : ManifestRef := ⟨"acme", "shop", "web", reference⟩

/-- The image with its layer. -/
def imageStore : ObjectStore :=
  ((∅ : ObjectStore).insert ((sampleImage "").place (.manifest "sha256:m")) "image".toUTF8).insert
    ((sampleImage "").place (.blob "sha256:l")) "layer".toUTF8

/-- The index with the manifest of the image, whose layer is not there. -/
def indexStore : ObjectStore :=
  ((∅ : ObjectStore).insert ((sampleImage "").place (.manifest "sha256:m")) "image".toUTF8).insert
    ((sampleImage "").place (.manifest "sha256:i")) "index".toUTF8

/-- An image without an index is whole when it is available. -/
theorem image_available_whole :
    ∃ status, imageStatus twoDocuments adminClaims (sampleImage "sha256:m") imageStore = .ok status ∧
      (status.available = true → ∃ digest, resolvedDigest imageStore (sampleImage "sha256:m") = some digest ∧
          Whole twoDocuments.parse imageStore (sampleImage "sha256:m").place digest) := by
  have facts : (imageStatus twoDocuments adminClaims (sampleImage "sha256:m")
        imageStore).toOption.isSome = true ∧
      resolvedDigest imageStore (sampleImage "sha256:m") = some "sha256:m" ∧
      (sampleImage "sha256:m").place (.blob "sha256:l") ∈ imageStore := by decide +kernel
  obtain ⟨answer, resolved, layer⟩ := facts
  cases answered : imageStatus twoDocuments adminClaims (sampleImage "sha256:m") imageStore with
  | error error =>
    rw [answered] at answer
    cases answer
  | ok status =>
    refine ⟨status, rfl, (available_whole_iff _ _ _ _ status answered).mpr ?_⟩
    intro digest _ _ same _ _ _ part reached _ root
    cases resolved.symm.trans same
    have member : part ∈ [Part.manifest "sha256:m", .blob "sha256:l"] :=
      reached.mem_of_closed List.mem_cons_self (by decide +kernel)
    rcases List.mem_cons.mp member with first | second
    · exact (root first).elim
    · rw [List.mem_singleton.mp second]
      exact layer

/-- An index is available although a layer of its image is not stored. -/
theorem index_available_without_layer :
    (imageStatus twoDocuments adminClaims (sampleImage "sha256:i") indexStore).toOption.map
        ImageStatus.available = some true ∧
      Reaches twoDocuments.parse indexStore (sampleImage "sha256:i").place "sha256:i" (.blob "sha256:l") ∧
      (sampleImage "sha256:i").place (.blob "sha256:l") ∉ indexStore := by
  have child : Part.manifest "sha256:m" ∈ references twoDocuments.parse indexStore
      (sampleImage "sha256:i").place (.manifest "sha256:i") := by
    decide +kernel
  refine ⟨by decide +kernel, ?_, by decide +kernel⟩
  exact (Relation.ReflTransGen.single child).tail (by decide +kernel)

end Status

end SpectonCr.Registry
