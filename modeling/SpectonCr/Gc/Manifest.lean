import SpectonCr.Base.Json

namespace SpectonCr.Gc

structure BlobDescriptor where
  digest : String
  size : Int
  deriving DecidableEq

structure RawDescriptor where
  digest : String
  size : Int

structure RawManifest where
  config : Option RawDescriptor
  (layers manifests : List RawDescriptor)
  subject : Option RawDescriptor

def RawDescriptor.decode (value : Json) : Option RawDescriptor :=
  match value.structFields ["digest", "size"] with
  | some [some digest, none] => digest.asStr.map (⟨·, 0⟩)
  | some [some digest, some size] => digest.asStr.bind fun digest => size.asI64.map (⟨digest, ·⟩)
  | _ => none

/-- A defaulted `Option` field: absent and `null` both give `None`. -/
def decodeOptional : Option Json → Option (Option RawDescriptor)
  | none => some none
  | some .null => some none
  | some value => (RawDescriptor.decode value).map some

/-- A defaulted `Vec` field: absent gives the empty list, `null` is an error. -/
def decodeMany : Option Json → Option (List RawDescriptor)
  | none => some []
  | some (.arr items) => items.mapM RawDescriptor.decode
  | some _ => none

def RawManifest.decode (document : Json) : Option RawManifest :=
  match document.structFields ["config", "layers", "manifests", "subject"] with
  | some [config, layers, manifests, subject] => do
    let config ← decodeOptional config
    let layers ← decodeMany layers
    let manifests ← decodeMany manifests
    let subject ← decodeOptional subject
    return ⟨config, layers, manifests, subject⟩
  | _ => none

/-- Empty digests are skipped and repeated ones kept once. -/
def pushDescriptor (sink : List BlobDescriptor) (descriptor : RawDescriptor) : List BlobDescriptor :=
  if descriptor.digest = "" then sink
  else if descriptor.digest ∈ sink.map BlobDescriptor.digest then sink
  else sink ++ [⟨descriptor.digest, descriptor.size⟩]

def RawManifest.counted (raw : RawManifest) : List RawDescriptor :=
  raw.config.toList ++ raw.layers ++ raw.manifests

/-- `extract_blob_digests` on a parsed body. `subject` is not counted. -/
def extractBlobDigests (document : Json) : Option (List BlobDescriptor) :=
  (RawManifest.decode document).map fun raw => raw.counted.foldl pushDescriptor []

def digestOf (value : Json) : Option String := (value.get "digest").bind Json.asStr

def collectReferencedDigests (manifest : Json) : List String :=
  ((manifest.get "config").bind digestOf).toList ++
    (((manifest.get "layers").bind Json.asArray).getD []).filterMap digestOf ++
    (((manifest.get "manifests").bind Json.asArray).getD []).filterMap digestOf

private theorem mem_foldl_pushDescriptor {descriptors : List RawDescriptor} {digest : String}
    (present : digest ≠ "") (sink : List BlobDescriptor) :
    digest ∈ (descriptors.foldl pushDescriptor sink).map BlobDescriptor.digest ↔
      digest ∈ sink.map BlobDescriptor.digest ∨ digest ∈ descriptors.map RawDescriptor.digest := by
  induction descriptors generalizing sink with
  | nil => simp
  | cons head rest ih =>
    rw [List.foldl_cons, ih]
    unfold pushDescriptor
    split
    · rename_i empty
      simp [empty, present]
    split
    · rename_i seen
      simp only [List.map_cons, List.mem_cons]
      constructor
      · rintro (old | new)
        · exact .inl old
        · exact .inr (.inr new)
      · rintro (old | rfl | new)
        · exact .inl old
        · exact .inl seen
        · exact .inr new
    · simp [or_assoc]

private theorem decode_object (decoded : RawManifest.decode (.obj fields) = some raw) :
    decodeOptional ((Json.obj fields).get "config") = some raw.config ∧
      decodeMany ((Json.obj fields).get "layers") = some raw.layers ∧
      decodeMany ((Json.obj fields).get "manifests") = some raw.manifests := by
  unfold RawManifest.decode at decoded
  split at decoded
  · rename_i read
    obtain ⟨config, read⟩ := Json.structFields_cons read
    obtain ⟨layers, read⟩ := Json.structFields_cons read
    obtain ⟨manifests, _⟩ := Json.structFields_cons read
    simp only [Option.bind_eq_bind, Option.bind_eq_some_iff, Option.pure_def, Option.some.injEq] at decoded
    obtain ⟨_, configOk, _, layersOk, _, manifestsOk, _, _, rfl⟩ := decoded
    rw [config, layers, manifests]
    exact ⟨configOk, layersOk, manifestsOk⟩
  · cases decoded

private theorem descriptor_digest (decoded : RawDescriptor.decode value = some raw)
    (named : digestOf value = some digest) : raw.digest = digest := by
  cases value with
  | obj fields =>
    unfold RawDescriptor.decode at decoded
    split at decoded
    · rename_i read
      rw [digestOf, (Json.structFields_cons read).1, Option.bind_some] at named
      rw [named, Option.map_some] at decoded
      exact congrArg RawDescriptor.digest (Option.some.inj decoded.symm)
    · rename_i read
      rw [digestOf, (Json.structFields_cons read).1, Option.bind_some] at named
      rw [named, Option.bind_some, Option.map_eq_some_iff] at decoded
      obtain ⟨_, _, same⟩ := decoded
      exact congrArg RawDescriptor.digest same.symm
    · cases decoded
  | _ => simp [digestOf, Json.get] at named

theorem mem_digests_of_mapM {Raw : Type} {decode : Json → Option Raw} {digestIn : Raw → String}
    (keeps : ∀ value raw digest, decode value = some raw → digestOf value = some digest →
      digestIn raw = digest) {items : List Json} {raws : List Raw} {digest : String}
    (decoded : items.mapM decode = some raws) (named : digest ∈ items.filterMap digestOf) :
    digest ∈ raws.map digestIn := by
  induction items generalizing raws with
  | nil => simp at named
  | cons item rest ih =>
    simp only [List.mapM_cons, Option.bind_eq_bind, Option.bind_eq_some_iff, Option.pure_def,
      Option.some.injEq] at decoded
    obtain ⟨raw, head, tail, remaining, rfl⟩ := decoded
    rw [List.filterMap_cons] at named
    cases found : digestOf item with
    | none => simpa using .inr (by simpa using ih remaining (by simpa [found] using named))
    | some other =>
      rw [found, List.mem_cons] at named
      rcases named with rfl | later
      · simp [keeps item raw digest head found]
      · exact List.mem_cons_of_mem _ (ih remaining later)

private theorem decodeMany_digest {value : Option Json} {raws : List RawDescriptor}
    {digest : String} (decoded : decodeMany value = some raws)
    (named : digest ∈ ((value.bind Json.asArray).getD []).filterMap digestOf) :
    digest ∈ raws.map RawDescriptor.digest := by
  unfold decodeMany at decoded
  split at decoded
  · simp at named
  · exact mem_digests_of_mapM (fun _ _ _ => descriptor_digest) decoded named
  · cases decoded

private theorem decodeOptional_digest (decoded : decodeOptional value = some raw)
    (named : value.bind digestOf = some digest) : digest ∈ raw.toList.map RawDescriptor.digest := by
  unfold decodeOptional at decoded
  split at decoded
  · simp at named
  · simp [digestOf, Json.get] at named
  · simp only [Option.map_eq_some_iff] at decoded
    obtain ⟨descriptor, decoded, rfl⟩ := decoded
    simp [descriptor_digest decoded named]

/-- Every digest the untyped reader finds in an accepted manifest is counted. -/
theorem extractBlobDigests_complete {document : Json} {blobs : List BlobDescriptor}
    {digest : String} (accepted : extractBlobDigests document = some blobs)
    (referenced : digest ∈ collectReferencedDigests document) (present : digest ≠ "") :
    digest ∈ blobs.map BlobDescriptor.digest := by
  simp only [extractBlobDigests, Option.map_eq_some_iff] at accepted
  obtain ⟨raw, decoded, rfl⟩ := accepted
  rw [mem_foldl_pushDescriptor present]
  refine .inr ?_
  cases document with
  | obj fields =>
    obtain ⟨config, layers, manifests⟩ := decode_object decoded
    simp only [collectReferencedDigests, List.mem_append, Option.mem_toList] at referenced
    simp only [RawManifest.counted, List.map_append, List.mem_append]
    rcases referenced with (inConfig | inLayers) | inManifests
    · exact .inl (.inl (decodeOptional_digest config inConfig))
    · exact .inl (.inr (decodeMany_digest layers inLayers))
    · exact .inr (decodeMany_digest manifests inManifests)
  | _ => simp [collectReferencedDigests, Json.get] at referenced

end SpectonCr.Gc
