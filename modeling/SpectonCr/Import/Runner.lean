import SpectonCr.Base.Result
import SpectonCr.Base.Run
import SpectonCr.Gc.Manifest
import SpectonCr.Storage.Path

namespace SpectonCr.Import

open Run Storage

inductive ImportError where
  | http (message : String)
  | auth (message : String)
  | notFound (message : String)
  | parse (message : String)
  | io (message : String)
  deriving DecidableEq

structure Repository where
  name : String

structure Tag where
  name : String

structure ImportRunnerConfig where
  (tenant project : String)
  includePrefix : Option String

structure ImportRunReport where
  (reposSeen reposCopied tagsCopied blobsCopied bytesCopied failures : Nat)
  deriving DecidableEq

structure RawDesc where
  digest : String

structure RawManifest where
  config : Option RawDesc
  (layers manifests : List RawDesc)

def RawDesc.decode (value : Json) : Option RawDesc :=
  match value.structFields ["digest"] with
  | some [some digest] => digest.asStr.map RawDesc.mk
  | _ => none

/-- A defaulted `Option` field: absent and `null` both give `None`. -/
def decodeOptional : Option Json → Option (Option RawDesc)
  | none => some none
  | some .null => some none
  | some value => (RawDesc.decode value).map some

/-- A defaulted `Vec` field: absent gives the empty list, `null` is an error. -/
def decodeMany : Option Json → Option (List RawDesc)
  | none => some []
  | some (.arr items) => items.mapM RawDesc.decode
  | some _ => none

def RawManifest.decode (document : Json) : Option RawManifest :=
  match document.structFields ["config", "layers", "manifests"] with
  | some [config, layers, manifests] => do
    let config ← decodeOptional config
    let layers ← decodeMany layers
    let manifests ← decodeMany manifests
    return ⟨config, layers, manifests⟩
  | _ => none

/-- Empty digests are skipped and repeated ones kept once. -/
def push (out : List String) (descriptor : RawDesc) : List String :=
  if descriptor.digest = "" ∨ descriptor.digest ∈ out then out else out ++ [descriptor.digest]

def RawManifest.descriptors (manifest : RawManifest) : List RawDesc :=
  manifest.config.toList ++ manifest.layers ++ manifest.manifests

/-- The manifest as the importer reads it, behind the text parser of `serde_json`. -/
def readManifest (parse : Bytes → Option Json) (bytes : Bytes) : Option RawManifest :=
  (parse bytes).bind RawManifest.decode

/-- The digests of `parse_descriptors`. A manifest it cannot read has none. -/
def parseDescriptors (parse : Bytes → Option Json) (bytes : Bytes) : List String :=
  match readManifest parse bytes with
  | none => []
  | some manifest => manifest.descriptors.foldl push []

/-- The digests of the config, the layers and the child manifests that stand in a document. -/
def references (parse : Bytes → Option Json) (bytes : Bytes) : List String :=
  match parse bytes with
  | none => []
  | some document => Gc.collectReferencedDigests document

/-- How the source and the destination answer in one run. The number is that of the tag being copied
(of the repository, for its tags): a request may be answered differently each time. -/
structure Registries where
  listRepositories : Except ImportError (List Repository)
  listTags : Nat → Repository → Except ImportError (List Tag)
  fetchManifest : Nat → Repository → String → Except ImportError (Bytes × String)
  fetchBlob : Nat → Repository → String → Except ImportError Bytes
  putBlob : Nat → (tenant project repository digest : String) → Bytes → Except ImportError Unit
  putManifest : Nat → (tenant project repository tag : String) → Bytes → String → Except ImportError Unit

/-- What the destination has accepted. -/
inductive Put where
  | blob (repository digest : String)
  | manifest (repository tag : String) (bytes : Bytes)
  deriving DecidableEq

/-- `copies` numbers the tags; `puts` are in reverse order. -/
structure RunState where
  copies : Nat
  report : ImportRunReport
  puts : List Put

structure Importer where
  registries : Registries
  config : ImportRunnerConfig
  parse : Bytes → Option Json

/-- The loop over the descriptors of the tag with this number. A failed fetch is skipped, a failed
put ends the copy. -/
def copyBlobs (importer : Importer) (repo : Repository) (number : Nat) :
    List String → RunState → Except ImportError Unit × RunState
  | [], state => (.ok (), state)
  | digest :: rest, state =>
    match importer.registries.fetchBlob number repo digest with
    | .error _ => copyBlobs importer repo number rest
        { state with report := { state.report with failures := state.report.failures + 1 } }
    | .ok bytes =>
      match importer.registries.putBlob number importer.config.tenant importer.config.project
          repo.name digest bytes with
      | .error error => (.error error, state)
      | .ok () => copyBlobs importer repo number rest
          { state with
            report := { state.report with
              blobsCopied := state.report.blobsCopied + 1
              bytesCopied := state.report.bytesCopied + bytes.size }
            puts := .blob repo.name digest :: state.puts }

def copyTag (importer : Importer) (repo : Repository) (tag : String) (state : RunState) :
    Except ImportError Unit × RunState :=
  let number := state.copies
  let state := { state with copies := number + 1 }
  match importer.registries.fetchManifest number repo tag with
  | .error error => (.error error, state)
  | .ok (bytes, mediaType) =>
    andThen (copyBlobs importer repo number (parseDescriptors importer.parse bytes) state) fun _ state =>
        match importer.registries.putManifest number importer.config.tenant
            importer.config.project repo.name tag bytes mediaType with
        | .error error => (.error error, state)
        | .ok () => (.ok (),
            { state with
              report := { state.report with
                tagsCopied := state.report.tagsCopied + 1
                bytesCopied := state.report.bytesCopied + bytes.size }
              puts := .manifest repo.name tag bytes :: state.puts })

/-- A failure is counted, and the run goes on. -/
def RunState.fail (state : RunState) : RunState :=
  { state with report := { state.report with failures := state.report.failures + 1 } }

def tagStep (importer : Importer) (repo : Repository) (state : RunState) (tag : Tag) : RunState :=
  match copyTag importer repo tag.name state with
  | (.ok (), state) => state
  | (.error _, state) => state.fail

def copyRepo (importer : Importer) (repo : Repository) (state : RunState) :
    Except ImportError Unit × RunState :=
  match importer.registries.listTags state.report.reposSeen repo with
  | .error error => (.error error, state)
  | .ok tags => (.ok (), after (tagStep importer repo) state tags)

def ImportRunnerConfig.includes (config : ImportRunnerConfig) (repo : Repository) : Bool :=
  match config.includePrefix with
  | some start => Text.startsWith repo.name start
  | none => true

def RunState.see (state : RunState) : RunState :=
  { state with report := { state.report with reposSeen := state.report.reposSeen + 1 } }

def repoStep (importer : Importer) (state : RunState) (repo : Repository) : RunState :=
  if importer.config.includes repo then
    match copyRepo importer repo state.see with
    | (.ok (), state) =>
      { state with report := { state.report with reposCopied := state.report.reposCopied + 1 } }
    | (.error _, state) => state.fail
  else state

def RunState.initial : RunState := ⟨0, ⟨0, 0, 0, 0, 0, 0⟩, []⟩

/-- `ImportRunner::run`, with everything it has put. -/
def run (importer : Importer) : Except ImportError ImportRunReport × RunState :=
  match importer.registries.listRepositories with
  | .error error => (.error error, .initial)
  | .ok repos =>
    let state := after (repoStep importer) .initial repos
    (.ok state.report, state)

section References

variable {digest : String}

theorem mem_foldl_push {descriptors : List RawDesc} (out : List String) :
    digest ∈ descriptors.foldl push out ↔
      (∃ descriptor ∈ descriptors, digest ≠ "" ∧ descriptor.digest = digest) ∨ digest ∈ out := by
  refine Run.foldl_iff (digest ∈ ·) fun out descriptor => ?_
  unfold push
  split
  · rename_i skipped
    refine (or_iff_right_of_imp ?_).symm
    rintro ⟨filled, rfl⟩
    exact skipped.resolve_left filled
  · rename_i added
    rw [List.mem_append, List.mem_singleton, or_comm, eq_comm, and_iff_right_of_imp]
    rintro rfl empty
    exact added (.inl empty)

theorem RawDesc.decode_digest (value : Json) (raw : RawDesc) (digest : String)
    (decoded : RawDesc.decode value = some raw) (named : Gc.digestOf value = some digest) :
    raw.digest = digest := by
  cases value with
  | obj fields =>
    unfold RawDesc.decode at decoded
    split at decoded
    · rename_i read
      rw [Gc.digestOf, (Json.structFields_cons read).1, Option.bind_some] at named
      rw [named, Option.map_some] at decoded
      exact congrArg RawDesc.digest (Option.some.inj decoded.symm)
    · cases decoded
  | _ => simp [Gc.digestOf, Json.get] at named

theorem decodeMany_digest (decoded : decodeMany value = some raws)
    (named : digest ∈ ((value.bind Json.asArray).getD []).filterMap Gc.digestOf) :
    digest ∈ raws.map RawDesc.digest := by
  unfold decodeMany at decoded
  split at decoded
  · simp at named
  · exact Gc.mem_digests_of_mapM RawDesc.decode_digest decoded named
  · cases decoded

theorem decodeOptional_digest (decoded : decodeOptional value = some raw)
    (named : value.bind Gc.digestOf = some digest) : digest ∈ raw.toList.map RawDesc.digest := by
  unfold decodeOptional at decoded
  split at decoded
  · simp at named
  · simp [Gc.digestOf, Json.get] at named
  rename_i value _
  simp only [Option.map_eq_some_iff] at decoded
  obtain ⟨descriptor, decoded, rfl⟩ := decoded
  simp [RawDesc.decode_digest value descriptor digest decoded named]

theorem RawManifest.decode_digest (decoded : RawManifest.decode document = some manifest)
    (referenced : digest ∈ Gc.collectReferencedDigests document) :
    digest ∈ manifest.descriptors.map RawDesc.digest := by
  cases document with
  | obj fields =>
    unfold RawManifest.decode at decoded
    split at decoded
    · rename_i read
      obtain ⟨config, read⟩ := Json.structFields_cons read
      obtain ⟨layers, read⟩ := Json.structFields_cons read
      obtain ⟨manifests, _⟩ := Json.structFields_cons read
      simp only [Option.bind_eq_bind, Option.bind_eq_some_iff, Option.pure_def, Option.some.injEq] at decoded
      obtain ⟨_, configOk, _, layersOk, _, manifestsOk, rfl⟩ := decoded
      simp only [Gc.collectReferencedDigests, config, layers, manifests, List.mem_append,
        Option.mem_toList] at referenced
      simp only [RawManifest.descriptors, List.map_append, List.mem_append]
      rcases referenced with (inConfig | inLayers) | inManifests
      · exact .inl (.inl (decodeOptional_digest configOk inConfig))
      · exact .inl (.inr (decodeMany_digest layersOk inLayers))
      · exact .inr (decodeMany_digest manifestsOk inManifests)
    · cases decoded
  | _ => simp [Gc.collectReferencedDigests, Json.get] at referenced

/-- A referenced digest is copied exactly if it is not empty and the manifest can be read. -/
theorem mem_parseDescriptors {parse : Bytes → Option Json} {bytes : Bytes}
    (referenced : digest ∈ references parse bytes) :
    digest ∈ parseDescriptors parse bytes ↔ digest ≠ "" ∧ (readManifest parse bytes).isSome = true := by
  unfold references at referenced
  split at referenced
  · cases referenced
  rename_i document parsed
  unfold parseDescriptors
  cases read : readManifest parse bytes with
  | none => simp
  | some manifest =>
    have decoded : RawManifest.decode document = some manifest := by
      rwa [readManifest, parsed, Option.bind_some] at read
    obtain ⟨descriptor, listed, named⟩ := List.mem_map.mp (RawManifest.decode_digest decoded referenced)
    rw [mem_foldl_push, or_iff_left List.not_mem_nil]
    exact ⟨fun ⟨_, _, filled, _⟩ => ⟨filled, rfl⟩, fun ⟨filled, _⟩ => ⟨descriptor, listed, filled, named⟩⟩

end References

/-- The number of manifests among what was put. -/
def manifestCount : List Put → Nat
  | [] => 0
  | .blob _ _ :: rest => manifestCount rest
  | .manifest _ _ _ :: rest => manifestCount rest + 1

/-- Whatever a manifest references was put before it, in its repository. -/
def Complete (parse : Bytes → Option Json) : List Put → Prop
  | [] => True
  | .blob _ _ :: rest => Complete parse rest
  | .manifest repository _ bytes :: rest =>
    Complete parse rest ∧ ∀ digest ∈ references parse bytes, .blob repository digest ∈ rest

instance Complete.decide (parse : Bytes → Option Json) : ∀ puts, Decidable (Complete parse puts)
  | [] => .isTrue trivial
  | .blob _ _ :: rest => Complete.decide parse rest
  | .manifest repository _ bytes :: rest =>
    have := Complete.decide parse rest
    inferInstanceAs (Decidable (Complete parse rest ∧
      ∀ digest ∈ references parse bytes, .blob repository digest ∈ rest))

/-- No blob that the source delivers for the tag is refused by the destination. -/
def BlobsAccepted (importer : Importer) (repo : Repository) (number : Nat) (digests : List String) : Prop :=
  ∀ digest ∈ digests, ∀ bytes, importer.registries.fetchBlob number repo digest = .ok bytes →
    importer.registries.putBlob number importer.config.tenant importer.config.project repo.name
      digest bytes = .ok ()

/-- If the destination accepts the tag's manifest, each digest in it was put before in the repository, or
is one the importer reads and the source delivers. -/
def Delivers (importer : Importer) (repo : Repository) (state : RunState) (tag : Tag) : Prop :=
  ∀ bytes mediaType, importer.registries.fetchManifest state.copies repo tag.name = .ok (bytes, mediaType) →
    BlobsAccepted importer repo state.copies (parseDescriptors importer.parse bytes) →
    importer.registries.putManifest state.copies importer.config.tenant importer.config.project
      repo.name tag.name bytes mediaType = .ok () →
    ∀ digest ∈ references importer.parse bytes, .blob repo.name digest ∈ state.puts ∨
        (digest ≠ "" ∧ (readManifest importer.parse bytes).isSome = true ∧
          (importer.registries.fetchBlob state.copies repo digest).isOk = true)

section Loops

variable {importer : Importer} {repo : Repository} {number : Nat}

/-- The loop over the blobs goes through exactly if every fetched blob is accepted; then every
fetched blob was put. -/
theorem copyBlobs_ok {digests : List String} {state : RunState} :
    ((copyBlobs importer repo number digests state).1 = .ok () ↔ BlobsAccepted importer repo number digests) ∧
    ((copyBlobs importer repo number digests state).1 = .ok () → ∀ digest,
      .blob repo.name digest ∈ (copyBlobs importer repo number digests state).2.puts ↔
        .blob repo.name digest ∈ state.puts ∨ (digest ∈ digests ∧
          (importer.registries.fetchBlob number repo digest).isOk = true)) := by
  induction digests generalizing state with
  | nil =>
    refine ⟨iff_of_true rfl ?_, ?_⟩
    · intro digest member
      cases member
    · intro _ digest
      simp [copyBlobs]
  | cons head rest ih =>
    rw [copyBlobs, BlobsAccepted, List.forall_mem_cons]
    cases fetched : importer.registries.fetchBlob number repo head with
    | error failure =>
      obtain ⟨accepted, put⟩ := @ih
        { state with report := { state.report with failures := state.report.failures + 1 } }
      refine ⟨by simpa [BlobsAccepted] using accepted, fun success digest => ?_⟩
      rw [put success digest, List.mem_cons]
      refine or_congr_right ⟨fun ⟨later, delivered⟩ => ⟨.inr later, delivered⟩, ?_⟩
      rintro ⟨rfl | later, delivered⟩
      · rw [fetched] at delivered
        cases delivered
      · exact ⟨later, delivered⟩
    | ok bytes =>
      simp only [Except.ok.injEq, forall_eq']
      cases stored : importer.registries.putBlob number importer.config.tenant
          importer.config.project repo.name head bytes with
      | error failure => simp
      | ok done =>
        obtain ⟨accepted, put⟩ := @ih
          { state with
            report := { state.report with
              blobsCopied := state.report.blobsCopied + 1
              bytesCopied := state.report.bytesCopied + bytes.size }
            puts := .blob repo.name head :: state.puts }
        refine ⟨by simpa [BlobsAccepted] using accepted, fun success digest => ?_⟩
        rw [put success digest, List.mem_cons, List.mem_cons, Put.blob.injEq, and_iff_right rfl]
        constructor
        · rintro ((rfl | old) | ⟨later, delivered⟩)
          · exact .inr ⟨.inl rfl, by rw [fetched]; rfl⟩
          · exact .inl old
          · exact .inr ⟨.inr later, delivered⟩
        · rintro (old | ⟨rfl | later, delivered⟩)
          · exact .inl (.inr old)
          · exact .inl (.inl rfl)
          · exact .inr ⟨later, delivered⟩

theorem copyBlobs_manifests (parse : Bytes → Option Json) {digests : List String} {state : RunState} :
    (Complete parse (copyBlobs importer repo number digests state).2.puts ↔ Complete parse state.puts) ∧
    manifestCount (copyBlobs importer repo number digests state).2.puts = manifestCount state.puts ∧
    (copyBlobs importer repo number digests state).2.report.tagsCopied = state.report.tagsCopied := by
  induction digests generalizing state with
  | nil => exact ⟨Iff.rfl, rfl, rfl⟩
  | cons head rest ih =>
    rw [copyBlobs]
    split
    · exact ih
    · split
      · exact ⟨Iff.rfl, rfl, rfl⟩
      · exact ih

variable (state : RunState) (tag : Tag)

theorem tagStep_puts :
    (tagStep importer repo state tag).puts = (copyTag importer repo tag.name state).2.puts := by
  unfold tagStep
  split <;> simp_all [RunState.fail]

theorem tagStep_tagsCopied : (tagStep importer repo state tag).report.tagsCopied =
      (copyTag importer repo tag.name state).2.report.tagsCopied := by
  unfold tagStep
  split <;> simp_all [RunState.fail]

/-- What a tag leaves: blobs only, or blobs and then its manifest. -/
theorem copyTag_cases : ((∀ bytes mediaType,
        importer.registries.fetchManifest state.copies repo tag.name = .ok (bytes, mediaType) →
        BlobsAccepted importer repo state.copies (parseDescriptors importer.parse bytes) →
        importer.registries.putManifest state.copies importer.config.tenant
          importer.config.project repo.name tag.name bytes mediaType ≠ .ok ()) ∧
      (Complete importer.parse (copyTag importer repo tag.name state).2.puts ↔
        Complete importer.parse state.puts) ∧
      manifestCount (copyTag importer repo tag.name state).2.puts = manifestCount state.puts ∧
      (copyTag importer repo tag.name state).2.report.tagsCopied = state.report.tagsCopied) ∨
    ∃ bytes mediaType puts,
      importer.registries.fetchManifest state.copies repo tag.name = .ok (bytes, mediaType) ∧
      BlobsAccepted importer repo state.copies (parseDescriptors importer.parse bytes) ∧
      importer.registries.putManifest state.copies importer.config.tenant
        importer.config.project repo.name tag.name bytes mediaType = .ok () ∧
      (copyTag importer repo tag.name state).2.puts = .manifest repo.name tag.name bytes :: puts ∧
      (Complete importer.parse puts ↔ Complete importer.parse state.puts) ∧
      manifestCount puts = manifestCount state.puts ∧
      (copyTag importer repo tag.name state).2.report.tagsCopied = state.report.tagsCopied + 1 ∧
      ∀ digest, .blob repo.name digest ∈ puts ↔ .blob repo.name digest ∈ state.puts ∨
        (digest ∈ parseDescriptors importer.parse bytes ∧
          (importer.registries.fetchBlob state.copies repo digest).isOk = true) := by
  cases fetched : importer.registries.fetchManifest state.copies repo tag.name with
  | error failure =>
    have value : copyTag importer repo tag.name state =
        (.error failure, { state with copies := state.copies + 1 }) := by
      simp only [copyTag, fetched]
    rw [value]
    refine .inl ⟨?_, Iff.rfl, rfl, rfl⟩
    intro bytes mediaType found
    cases found
  | ok answer =>
    obtain ⟨bytes, mediaType⟩ := answer
    obtain ⟨whole, manifests, counted⟩ := @copyBlobs_manifests importer repo state.copies
      importer.parse (parseDescriptors importer.parse bytes)
      { state with copies := state.copies + 1 }
    obtain ⟨accepted, put⟩ := @copyBlobs_ok importer repo state.copies
      (parseDescriptors importer.parse bytes) { state with copies := state.copies + 1 }
    cases copied : copyBlobs importer repo state.copies (parseDescriptors importer.parse bytes)
        { state with copies := state.copies + 1 } with
    | mk answer last =>
      rw [copied] at whole manifests counted accepted put
      cases answer with
      | error failure =>
        have value : copyTag importer repo tag.name state = (.error failure, last) := by
          simp only [copyTag, fetched, copied, andThen_error]
        rw [value]
        refine .inl ⟨?_, whole, manifests, counted⟩
        intro others mediaType found all
        cases found
        cases accepted.mpr all
      | ok done =>
        cases stored : importer.registries.putManifest state.copies importer.config.tenant
            importer.config.project repo.name tag.name bytes mediaType with
        | error failure =>
          have value : copyTag importer repo tag.name state = (.error failure, last) := by
            simp only [copyTag, fetched, copied, andThen_ok, stored]
          rw [value]
          refine .inl ⟨?_, whole, manifests, counted⟩
          intro others mediaType found _ here
          cases found
          rw [stored] at here
          cases here
        | ok done =>
          refine .inr ⟨bytes, mediaType, last.puts, rfl, accepted.mp rfl, stored, ?_, whole,
            manifests, ?_, put rfl⟩
          · simp only [copyTag, fetched, copied, andThen_ok, stored]
          · simp only [copyTag, fetched, copied, andThen_ok, stored]
            exact congrArg Nat.succ counted

/-- A tag is copied whole exactly if its blobs are delivered. -/
theorem tagStep_complete : Complete importer.parse (tagStep importer repo state tag).puts ↔
      Complete importer.parse state.puts ∧ Delivers importer repo state tag := by
  rw [tagStep_puts]
  rcases @copyTag_cases importer repo state tag with
    ⟨refused, same, _, _⟩ | ⟨bytes, mediaType, puts, fetched, accepted, stored, next, same, _, _, put⟩
  · rw [same]
    refine (and_iff_left ?_).symm
    intro bytes mediaType fetched accepted stored
    exact absurd stored (refused bytes mediaType fetched accepted)
  · rw [next, Complete, same]
    refine and_congr_right fun _ => ?_
    constructor
    · intro whole other otherType found _ _ digest referenced
      rw [fetched] at found
      cases found
      rcases (put digest).mp (whole digest referenced) with old | ⟨listed, delivered⟩
      · exact .inl old
      · obtain ⟨filled, read⟩ := (mem_parseDescriptors referenced).mp listed
        exact .inr ⟨filled, read, delivered⟩
    · intro delivers digest referenced
      rcases delivers bytes mediaType fetched accepted stored digest referenced with
        old | ⟨filled, read, delivered⟩
      · exact (put digest).mpr (.inl old)
      · exact (put digest).mpr (.inr ⟨(mem_parseDescriptors referenced).mpr ⟨filled, read⟩, delivered⟩)

theorem tagStep_counts (counted : state.report.tagsCopied = manifestCount state.puts) :
    (tagStep importer repo state tag).report.tagsCopied =
      manifestCount (tagStep importer repo state tag).puts := by
  rw [tagStep_puts, tagStep_tagsCopied]
  rcases @copyTag_cases importer repo state tag with
    ⟨_, _, manifests, tags⟩ | ⟨bytes, mediaType, puts, _, _, _, next, _, manifests, tags, _⟩
  · rw [manifests, tags, counted]
  · rw [next, manifestCount, manifests, tags, counted]

end Loops

/-- Every tag of a repository that the run includes is delivered when its turn comes. -/
def RepoDelivers (importer : Importer) (state : RunState) (repo : Repository) : Prop :=
  importer.config.includes repo = true → ∀ tags,
    importer.registries.listTags state.see.report.reposSeen repo = .ok tags →
      Along (tagStep importer repo) (Delivers importer repo) state.see tags

/-- The repositories of the run: none when they cannot be listed. -/
def Importer.repositories (importer : Importer) : List Repository :=
  match importer.registries.listRepositories with
  | .ok repos => repos
  | .error _ => []

section Runs

variable {importer : Importer}

theorem repoStep_complete (state : RunState) (repo : Repository) :
    Complete importer.parse (repoStep importer state repo).puts ↔
      Complete importer.parse state.puts ∧ RepoDelivers importer state repo := by
  unfold repoStep RepoDelivers
  split
  · rename_i included
    rw [imp_iff_right included]
    unfold copyRepo
    cases listed : importer.registries.listTags state.see.report.reposSeen repo with
    | error failure =>
      refine (and_iff_left ?_).symm
      intro tags found
      cases found
    | ok tags =>
      have kept := after_iff_along (fun state : RunState => Complete importer.parse state.puts)
        (@tagStep_complete importer repo) state.see tags
      refine kept.trans (and_congr_right fun _ => ?_)
      constructor
      · intro along others found
        cases found
        exact along
      · intro all
        exact all tags rfl
  · rename_i excluded
    refine (and_iff_left ?_).symm
    intro included
    exact absurd included excluded

theorem repoStep_counts (state : RunState) (repo : Repository)
    (counted : state.report.tagsCopied = manifestCount state.puts) :
    (repoStep importer state repo).report.tagsCopied = manifestCount (repoStep importer state repo).puts := by
  unfold repoStep copyRepo
  split
  · cases importer.registries.listTags state.see.report.reposSeen repo with
    | error failure => exact counted
    | ok tags =>
      exact after_invariant (fun state : RunState =>
          state.report.tagsCopied = manifestCount state.puts)
        (fun state tag counted _ => tagStep_counts state tag counted) counted
        (along_true state.see tags)
  · exact counted

/-- Every tag counted as copied has all that its manifest references exactly if, tag by tag, that is
delivered or was put before. -/
theorem imported_tags_complete_iff (importer : Importer) :
    (run importer).2.report.tagsCopied = manifestCount (run importer).2.puts ∧
    (Complete importer.parse (run importer).2.puts ↔
      Along (repoStep importer) (RepoDelivers importer) .initial importer.repositories) := by
  have final : (run importer).2 = after (repoStep importer) .initial importer.repositories := by
    unfold run Importer.repositories
    cases importer.registries.listRepositories with
    | error failure | ok repos => rfl
  rw [final]
  refine ⟨?_, ?_⟩
  · exact after_invariant (fun state : RunState =>
        state.report.tagsCopied = manifestCount state.puts)
      (fun state repo counted _ => repoStep_counts state repo counted) rfl
      (along_true RunState.initial importer.repositories)
  · have kept := after_iff_along (fun state : RunState => Complete importer.parse state.puts)
      (@repoStep_complete importer) .initial importer.repositories
    exact kept.trans (and_iff_right trivial)

end Runs

/-- One image with a config and a layer, at a source that may not have the layer. -/
def sampleImporter (layer : Except ImportError Bytes) : Importer where
  registries :=
    { listRepositories := .ok [⟨"web"⟩]
      listTags := fun _ _ => .ok [⟨"1.0"⟩]
      fetchManifest := fun _ _ _ => .ok (⟨#[1]⟩, "application/vnd.oci.image.manifest.v1+json")
      fetchBlob := fun _ _ digest => if digest = "sha256:1a" then layer else .ok ⟨#[2]⟩
      putBlob := fun _ _ _ _ _ _ => .ok ()
      putManifest := fun _ _ _ _ _ _ _ => .ok () }
  config := ⟨"default", "default", none⟩
  parse := fun _ => some (.obj [("config", .obj [("digest", .str "sha256:c0")]),
    ("layers", .arr [.obj [("digest", .str "sha256:1a")]])])

/-- The layer is not found, and the tag is put and counted without it. -/
theorem tag_copied_without_layer :
    (run (sampleImporter (.error (.notFound "sha256:1a")))).1 = .ok ⟨1, 1, 1, 1, 2, 1⟩ ∧
      "sha256:1a" ∈ references (sampleImporter (.error (.notFound "sha256:1a"))).parse ⟨#[1]⟩ ∧
      (run (sampleImporter (.error (.notFound "sha256:1a")))).2.puts =
        [.manifest "web" "1.0" ⟨#[1]⟩, .blob "web" "sha256:c0"] ∧
      ¬Complete (sampleImporter (.error (.notFound "sha256:1a"))).parse
        (run (sampleImporter (.error (.notFound "sha256:1a")))).2.puts := by
  decide +kernel

end SpectonCr.Import
