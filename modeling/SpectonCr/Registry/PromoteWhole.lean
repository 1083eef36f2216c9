import SpectonCr.Registry.Image
import SpectonCr.Registry.PromoteEffects

namespace SpectonCr.Registry

open Storage Gc

/-- The key of the part below its repository. -/
def Part.tail : Part → List String
  | .manifest digest => "manifests" :: segments digest
  | .blob digest => "blobs" :: "sha256" :: segments (blobHex digest)

/-- Where the repository of a reference keeps the part. -/
def ImageRef.place (image : ImageRef) (part : Part) : StorePath :=
  part.place image.tenant image.project image.repository

/-- What a referenced digest is copied as. -/
def referencedPart (store : ObjectStore) (src : ImageRef) (digest : String) : Option Part :=
  if src.place (.blob digest) ∈ store then some (.blob digest)
  else if src.place (.manifest digest) ∈ store then some (.manifest digest)
  else none

/-- What is copied with a signature: the blobs of its manifest that the source has, and the
manifest. -/
def signatureParts (store : ObjectStore) (src : ImageRef) : Option (String × List String) → List Part
  | none => []
  | some (sigDigest, referenced) =>
    (referenced.filter fun digest => src.place (.blob digest) ∈ store).map Part.blob ++ [.manifest sigDigest]

/-- Everything a promotion copies. -/
def carried (lib : PromoteLib) (request : PromoteRequest) (store : ObjectStore)
    (srcDigest : String) (digests : List String) : List Part :=
  digests.filterMap (referencedPart store request.source) ++ .manifest srcDigest ::
      signatureParts store request.source (request.signature lib store srcDigest)

/-- Everything a promotion does before the link of its tag. -/
def makeCopies (lib : PromoteLib) (request : PromoteRequest) (srcDigest : String)
    (digests : List String) (stores : PromoteStores) :
    Except RegistryError (Nat × Nat × Nat) × PromoteStores :=
  let src := request.source
  let dst := request.dest
  andThen (copyReferenced lib src dst digests (0, 0) stores) fun progress stores =>
    andThen (copyObject lib (src.path manifestPath srcDigest) (dst.path manifestPath srcDigest)
      stores) fun copied stores =>
        andThen (if request.includeSignatures then
            copySignatures lib src dst srcDigest (progress.1 + copied) stores
          else (.ok (progress.1 + copied, 0), stores)) fun signed stores =>
            (.ok (signed.1, progress.2, signed.2), stores)

/-- The state after one part is copied. -/
def PromoteStores.bring (src dst : ImageRef) (stores : PromoteStores) (part : Part) :
    PromoteStores :=
  match stores.store.lookup (src.place part) with
  | none => stores
  | some bytes => stores.ensure (dst.place part) bytes

section Places

variable {image : ImageRef}

theorem ImageRef.place_eq (image : ImageRef) (part : Part) :
    image.place part = .ofString (image.path part.layout part.digest) := by
  cases part <;> rfl

theorem Part.below (part : Part) : BelowRepo part.layout := by
  cases part with
  | manifest => exact manifestPath_below
  | blob => exact blobPath_below

theorem ImageRef.parts_place (plain : image.Plain) (part : Part) :
    (image.place part).parts = image.tenant :: image.project :: image.repository :: part.tail := by
  cases part with
  | manifest digest => exact parts_manifestPath plain digest
  | blob digest => exact parts_blobPath plain digest

/-- Two parts share an object in one repository exactly if they do in every one. -/
theorem ImageRef.place_eq_iff (plain : image.Plain) (first second : Part) :
    image.place first = image.place second ↔ first.tail = second.tail := by
  rw [StorePath.mk.injEq, image.parts_place plain, image.parts_place plain]
  simp

theorem ImageRef.place_ne_link (plain : image.Plain) (part : Part) (tag : String) :
    StorePath.ofString (image.path tagLinkPath tag) ≠ image.place part := by
  intro same
  have parts := congrArg StorePath.parts same
  rw [image.parts_place plain, ImageRef.path, parts_tagLinkPath plain] at parts
  cases part <;> simp [Part.tail] at parts

end Places

open PromoteStores

section Bring

variable {src dst : ImageRef} {stores : PromoteStores} {lib : PromoteLib}

theorem copied_bring (destPlain : dst.Plain) (part : Part) :
    stores.Copied src (stores.bring src dst part) := by
  unfold bring
  split
  · exact .refl src stores
  rename_i bytes found
  rw [src.place_eq] at found
  rw [dst.place_eq]
  exact copied_ensure destPlain part.below (Table.mem_of_lookup found) bytes

theorem copied_foldl_bring (destPlain : dst.Plain) (parts : List Part) :
    stores.Copied src (parts.foldl (bring src dst) stores) := by
  induction parts generalizing stores with
  | nil => exact .refl src stores
  | cons part rest ih => exact (copied_bring destPlain part).trans ih

theorem copyObject_bring {part : Part} (present : src.place part ∈ stores.store) :
    ∃ size, copyObject lib (src.path part.layout part.digest) (dst.path part.layout part.digest)
      stores = (.ok size, stores.bring src dst part) := by
  obtain ⟨bytes, found⟩ := Option.isSome_iff_exists.mp (AList.lookup_isSome.mpr present)
  have source := found
  rw [src.place_eq] at source
  obtain ⟨size, copied⟩ := @copyObject_eq stores lib (src.path part.layout part.digest)
    (dst.path part.layout part.digest) bytes source
  refine ⟨size, copied.trans ?_⟩
  simp only [bring, found, dst.place_eq]

theorem lookup_bring (plain : src.Plain) (destPlain : dst.Plain) (copied part : Part) :
    (stores.bring src dst copied).target.lookup (dst.place part) = (stores.target.lookup (dst.place part)).or
        (if copied.tail = part.tail then stores.store.lookup (src.place part) else none) := by
  have places := src.place_eq_iff plain copied part
  have destPlaces := dst.place_eq_iff destPlain part copied
  unfold bring
  by_cases same : copied.tail = part.tail
  · rw [if_pos same, ← places.mpr same, destPlaces.mpr same.symm]
    cases found : stores.store.lookup (src.place copied) with
    | none => rw [Option.or_none]
    | some bytes =>
      simp only [ensure]
      split
      · rename_i present
        obtain ⟨old, there⟩ := Option.isSome_iff_exists.mp (AList.lookup_isSome.mpr present)
        rw [there, Option.some_or]
      · rename_i absent
        rw [lookup_target_write, if_pos rfl, AList.lookup_eq_none.mpr absent, Option.none_or]
  · rw [if_neg same, Option.or_none]
    have apart : dst.place part ≠ dst.place copied := fun equal => same (destPlaces.mp equal).symm
    split
    · rfl
    unfold ensure
    split
    · rfl
    · rw [lookup_target_write, if_neg apart]

theorem lookup_foldl_bring (plain : src.Plain) (destPlain : dst.Plain) (parts : List Part) (part : Part) :
    (parts.foldl (bring src dst) stores).target.lookup (dst.place part) =
      (stores.target.lookup (dst.place part)).or
        (if ∃ copied ∈ parts, copied.tail = part.tail then stores.store.lookup (src.place part)
          else none) := by
  induction parts generalizing stores with
  | nil => simp
  | cons first rest ih =>
    have kept : (stores.bring src dst first).store.lookup (src.place part) =
        stores.store.lookup (src.place part) := by
      apply (copied_bring destPlain first).source
      rw [src.place_eq]
      exact src.holds_path plain part.below part.digest
    rw [List.foldl_cons, ih, lookup_bring plain destPlain, kept, Option.or_assoc]
    congr 1
    simp only [List.exists_mem_cons_iff]
    by_cases same : first.tail = part.tail
    · simp only [same, if_true, true_or]
      cases stores.store.lookup (src.place part) <;> simp
    · simp only [same, if_false, false_or, Option.none_or]

theorem mem_foldl_bring (plain : src.Plain) (destPlain : dst.Plain) (parts : List Part) (part : Part) :
    dst.place part ∈ (parts.foldl (bring src dst) stores).target ↔ dst.place part ∈ stores.target ∨
        (∃ copied ∈ parts, copied.tail = part.tail) ∧ src.place part ∈ stores.store := by
  rw [← AList.lookup_isSome, lookup_foldl_bring plain destPlain, ← AList.lookup_isSome, ← AList.lookup_isSome]
  split
  · rename_i brought
    simp [brought]
  · rename_i absent
    simp [absent]

theorem referencedPart_some {store : ObjectStore} {digest : String} {part : Part}
    (found : referencedPart store src digest = some part) :
    part.digest = digest ∧ src.place part ∈ store ∧ referencedAt store src digest = some part.layout := by
  unfold referencedPart at found
  unfold referencedAt
  split at found
  · rename_i blob
    cases found
    exact ⟨rfl, blob, if_pos blob⟩
  rename_i noBlob
  split at found
  · rename_i manifest
    cases found
    exact ⟨rfl, manifest, (if_neg noBlob).trans (if_pos manifest)⟩
  · cases found

theorem referencedPart_isSome (store : ObjectStore) (src : ImageRef) (digest : String) :
    (referencedPart store src digest).isSome = (referencedAt store src digest).isSome := by
  have blob : src.place (.blob digest) = .ofString (src.path blobPath digest) := rfl
  have manifest : src.place (.manifest digest) = .ofString (src.path manifestPath digest) := rfl
  unfold referencedPart referencedAt
  rw [blob, manifest]
  split
  · rfl
  · split <;> rfl

variable {after : PromoteStores} (plain : src.Plain)
include plain

theorem mem_place_of_copied (copied : stores.Copied src after) (part : Part) :
    src.place part ∈ after.store ↔ src.place part ∈ stores.store := by
  apply copied.mem_source
  rw [src.place_eq]
  exact src.holds_path plain part.below part.digest

theorem referencedPart_of_copied (copied : stores.Copied src after) (digest : String) :
    referencedPart after.store src digest = referencedPart stores.store src digest := by
  unfold referencedPart
  rw [if_congr (mem_place_of_copied plain copied (.blob digest)) rfl rfl,
    if_congr (mem_place_of_copied plain copied (.manifest digest)) rfl rfl]

theorem copyReferenced_bring (destPlain : dst.Plain) {digests : List String}
    (complete : SourceComplete stores src digests) (progress : Nat × Nat) :
    ∃ total, copyReferenced lib src dst digests progress stores =
      (.ok total, (digests.filterMap (referencedPart stores.store src)).foldl (bring src dst) stores) := by
  induction digests generalizing progress stores with
  | nil => exact ⟨progress, rfl⟩
  | cons digest rest ih =>
    obtain ⟨here, later⟩ := List.forall_mem_cons.mp complete
    rw [← referencedPart_isSome] at here
    obtain ⟨part, found⟩ := Option.isSome_iff_exists.mp here
    obtain ⟨rfl, present, layout⟩ := referencedPart_some found
    obtain ⟨size, copy⟩ := @copyObject_bring src dst stores lib part present
    have copied := @copied_bring src dst stores destPlain part
    have same : rest.filterMap (referencedPart (stores.bring src dst part).store src) =
        rest.filterMap (referencedPart stores.store src) :=
      List.filterMap_congr fun other _ => referencedPart_of_copied plain copied other
    have rests : SourceComplete (stores.bring src dst part) src rest := by
      intro other member
      rw [copied.referencedAt plain]
      exact later other member
    obtain ⟨total, run⟩ := ih rests (progress.1 + size, progress.2 + 1)
    refine ⟨total, ?_⟩
    rw [copyReferenced, layout, List.filterMap_cons_some found, List.foldl_cons]
    simp only [copy, andThen_ok, run, same]

theorem copySignatureBlobs_bring (destPlain : dst.Plain)
    (digests : List String) (bytesCopied : Nat) (stores : PromoteStores) :
    ∃ total, copySignatureBlobs lib src dst digests bytesCopied stores =
      (.ok total, ((digests.filter fun digest => src.place (.blob digest) ∈ stores.store).map
        Part.blob).foldl (bring src dst) stores) := by
  induction digests generalizing bytesCopied stores with
  | nil => exact ⟨bytesCopied, rfl⟩
  | cons digest rest ih =>
    by_cases present : src.place (.blob digest) ∈ stores.store
    · have stored : StorePath.ofString (src.path blobPath digest) ∈ stores.store := present
      obtain ⟨size, copy⟩ := @copyObject_bring src dst stores lib (.blob digest) present
      have copied := @copied_bring src dst stores destPlain (.blob digest)
      have same : (rest.filter fun other =>
            src.place (.blob other) ∈ (stores.bring src dst (.blob digest)).store) =
          rest.filter fun other => src.place (.blob other) ∈ stores.store := by
        refine List.filter_congr fun other _ => ?_
        exact decide_eq_decide.mpr (mem_place_of_copied plain copied (.blob other))
      obtain ⟨total, run⟩ := ih (bytesCopied + size) (stores.bring src dst (.blob digest))
      refine ⟨total, ?_⟩
      rw [copySignatureBlobs, if_pos stored, List.filter_cons_of_pos (by simpa using present),
        List.map_cons, List.foldl_cons, ← same, ← run]
      exact congrArg (andThen · _) copy
    · have missing : StorePath.ofString (src.path blobPath digest) ∉ stores.store := present
      obtain ⟨total, run⟩ := ih bytesCopied stores
      refine ⟨total, ?_⟩
      rw [copySignatureBlobs, if_neg missing, List.filter_cons_of_neg (by simpa using present)]
      exact run

theorem copySignatures_bring (destPlain : dst.Plain) {srcDigest : String}
    {sigDigest : String} {referenced : List String}
    (found : signature? lib stores.store src srcDigest = some (sigDigest, referenced)) (bytesCopied : Nat) :
    ∃ total, copySignatures lib src dst srcDigest bytesCopied stores = (.ok (total, 1), PromoteStores.write
        ((signatureParts stores.store src (some (sigDigest, referenced))).foldl (bring src dst) stores)
        (.ofString (dst.path tagLinkPath (signatureTag srcDigest))) sigDigest.toUTF8) := by
  obtain ⟨total, run⟩ := @copySignatureBlobs_bring src dst lib plain destPlain referenced bytesCopied stores
  have blobs := @copied_foldl_bring src dst stores destPlain
    ((referenced.filter fun digest => src.place (.blob digest) ∈ stores.store).map Part.blob)
  have manifest := (mem_place_of_copied plain blobs (.manifest sigDigest)).mpr (signature?_manifest found)
  obtain ⟨size, copy⟩ := @copyObject_bring src dst _ lib (.manifest sigDigest) manifest
  refine ⟨total + size, ?_⟩
  unfold copySignatures
  rw [found, signatureParts, List.foldl_append]
  simp only [run, andThen_ok]
  rw [show copyObject lib (src.path manifestPath sigDigest) (dst.path manifestPath sigDigest) _ = _ from copy]
  rfl

theorem signatureParts_of_copied (copied : stores.Copied src after) (signature : Option (String × List String)) :
    signatureParts after.store src signature = signatureParts stores.store src signature := by
  cases signature with
  | none => rfl
  | some signature =>
    simp only [signatureParts]
    congr 2
    refine List.filter_congr fun digest _ => ?_
    exact decide_eq_decide.mpr (mem_place_of_copied plain copied (.blob digest))

end Bring

section Whole

variable {request : PromoteRequest} {stores : PromoteStores} {lib : PromoteLib}
  {srcDigest : String} {bytes : Bytes} {manifest : Json}
  (plain : request.source.Plain) (destPlain : request.dest.Plain)
  (resolved : resolveDigest stores.store request.source = .ok (srcDigest, bytes))
  (parsed : lib.parse bytes = .ok manifest) (writes : request.mode ≠ .dryRun)
include plain destPlain

theorem signatureStep_bring (stores : PromoteStores) (srcDigest : String) (bytesCopied : Nat) :
    ∃ signed, (if request.includeSignatures then
          copySignatures lib request.source request.dest srcDigest bytesCopied stores
        else (.ok (bytesCopied, 0), stores)) =
      (.ok signed, linkSignature request srcDigest (request.signature lib stores.store srcDigest)
        ((signatureParts stores.store request.source (request.signature lib stores.store srcDigest)).foldl
            (bring request.source request.dest) stores)) := by
  unfold PromoteRequest.signature
  cases included : request.includeSignatures with
  | false => exact ⟨(bytesCopied, 0), rfl⟩
  | true =>
    simp only [if_true]
    cases found : signature? lib stores.store request.source srcDigest with
    | none =>
      refine ⟨(bytesCopied, 0), ?_⟩
      rw [copySignatures, found]
      rfl
    | some signature =>
      obtain ⟨sigDigest, referenced⟩ := signature
      obtain ⟨total, run⟩ := copySignatures_bring plain destPlain found bytesCopied
      exact ⟨(total, 1), run⟩

include resolved

/-- With a complete source the copies are those of what the promotion carries. -/
theorem makeCopies_bring {digests : List String} (complete : SourceComplete stores request.source digests) :
    ∃ totals, makeCopies lib request srcDigest digests stores =
      (.ok totals, linkSignature request srcDigest (request.signature lib stores.store srcDigest)
        ((carried lib request stores.store srcDigest digests).foldl
          (bring request.source request.dest) stores)) := by
  obtain ⟨progress, run⟩ := @copyReferenced_bring request.source request.dest stores lib plain
    destPlain digests complete (0, 0)
  have first := @copied_foldl_bring request.source request.dest stores destPlain
    (digests.filterMap (referencedPart stores.store request.source))
  have present := (mem_place_of_copied plain first (.manifest srcDigest)).mpr
    (Table.mem_of_lookup (resolveDigest_manifest resolved))
  obtain ⟨size, copy⟩ := @copyObject_bring request.source request.dest _ lib (.manifest srcDigest) present
  have second := first.trans (@copied_bring request.source request.dest _ destPlain (.manifest srcDigest))
  obtain ⟨signed, signing⟩ := @signatureStep_bring request lib plain destPlain
    (bring request.source request.dest _ (.manifest srcDigest)) srcDigest
    (progress.1 + size)
  have wanted := @signature?_of_copied request.source stores lib _ plain second srcDigest
  have blobs := signatureParts_of_copied plain second
  rw [PromoteRequest.signature, wanted, ← PromoteRequest.signature, blobs] at signing
  refine ⟨(signed.1, progress.2, signed.2), ?_⟩
  rw [carried, List.foldl_append, List.foldl_cons]
  simp only [makeCopies, run, andThen_ok]
  rw [show copyObject lib (request.source.path manifestPath srcDigest)
    (request.dest.path manifestPath srcDigest) _ = _ from copy]
  simp only [andThen_ok]
  rw [signing]
  rfl

include parsed writes
omit plain destPlain

theorem promote_eq_makeCopies (id : Uuid) : promote lib id request stores =
      andThen (makeCopies lib request srcDigest (collectReferencedDigests manifest) stores)
        fun totals stores => (.ok ⟨id, srcDigest, srcDigest, "done", totals.1, totals.2.1, totals.2.2, none⟩,
            linkTag request srcDigest stores) := by
  simp only [promote, resolved, parsed, writes, if_false, makeCopies, andThen_assoc, andThen_ok]
  rfl

end Whole

/-- The promotion copies the object of the part. -/
def Brings (lib : PromoteLib) (request : PromoteRequest) (store : ObjectStore)
    (srcDigest : String) (part : Part) : Prop :=
  ∃ copied ∈ carried lib request store srcDigest
    ((references lib.parse store request.source.place (.manifest srcDigest)).map Part.digest),
    copied.tail = part.tail

/-- The reference of the destination is one that can stand for the digest. -/
def ImageRef.CanName (image : ImageRef) (digest : String) : Prop :=
  if Text.startsWith image.reference "sha256:" then image.reference = digest
  else Text.trim digest = digest

section Links

variable {request : PromoteRequest} {srcDigest : String} {stores : PromoteStores}

theorem lookup_place_linkTag (destPlain : request.dest.Plain) (part : Part) :
    (linkTag request srcDigest stores).target.lookup (request.dest.place part) =
      stores.target.lookup (request.dest.place part) := by
  unfold linkTag
  split
  · rfl
  · rw [lookup_target_write, if_neg]
    exact (request.dest.place_ne_link destPlain part _).symm

theorem lookup_place_linkSignature (destPlain : request.dest.Plain)
    (signature : Option (String × List String)) (part : Part) :
    (linkSignature request srcDigest signature stores).target.lookup (request.dest.place part) =
      stores.target.lookup (request.dest.place part) := by
  unfold linkSignature
  split
  · rfl
  · rw [lookup_target_write, if_neg]
    exact (request.dest.place_ne_link destPlain part _).symm

/-- After its link is written, the destination resolves to the digest exactly if it can name it
and has the manifest. -/
theorem resolves_linkTag_iff (destPlain : request.dest.Plain) :
    (∃ found, resolveDigest (linkTag request srcDigest stores).target request.dest = .ok (srcDigest, found)) ↔
      request.dest.CanName srcDigest ∧ request.dest.place (.manifest srcDigest) ∈ stores.target := by
  have read : ∀ found, (resolveDigest (linkTag request srcDigest stores).target request.dest =
      .ok (srcDigest, found)) ↔ request.dest.CanName srcDigest ∧
        stores.target.lookup (request.dest.place (.manifest srcDigest)) = some found := by
    intro found
    have kept := @lookup_place_linkTag request srcDigest stores destPlain (.manifest srcDigest)
    constructor
    · intro resolved
      refine ⟨?_, kept.symm.trans (resolveDigest_manifest resolved)⟩
      unfold resolveDigest at resolved
      obtain ⟨digest, named, resolved⟩ := bind_ok resolved
      have same : digest = srcDigest := by
        split at resolved
        · cases resolved
        · exact (Prod.mk.inj (Except.ok.inj resolved)).1
      subst same
      unfold ImageRef.CanName
      split at named
      · rename_i direct
        rw [if_pos direct]
        exact Except.ok.inj named
      rename_i tag
      rw [if_neg tag]
      rw [linkTag, if_neg tag, lookup_target_write, if_pos rfl] at named
      simpa [fromUtf8Lossy] using Except.ok.inj named
    · rintro ⟨names, manifest⟩
      have there : (linkTag request srcDigest stores).target.lookup
          (.ofString (request.dest.path manifestPath srcDigest)) = some found :=
        kept.trans manifest
      unfold ImageRef.CanName at names
      unfold resolveDigest
      split at names
      · rename_i direct
        rw [if_pos direct, names]
        simp only [Except.bind, there]
      rename_i tag
      have link : (linkTag request srcDigest stores).target.lookup
          (.ofString (request.dest.path tagLinkPath request.dest.reference)) = some srcDigest.toUTF8 := by
        rw [linkTag, if_neg tag, lookup_target_write, if_pos rfl]
      have text : Text.trim (fromUtf8Lossy srcDigest.toUTF8) = srcDigest := by
        simpa [fromUtf8Lossy] using names
      rw [if_neg tag, link]
      simp only [text]
      simp only [Except.bind, there]
  constructor
  · rintro ⟨found, resolved⟩
    obtain ⟨names, manifest⟩ := (read found).mp resolved
    exact ⟨names, Table.mem_of_lookup manifest⟩
  · rintro ⟨names, manifest⟩
    obtain ⟨found, there⟩ := Option.isSome_iff_exists.mp (AList.lookup_isSome.mpr manifest)
    exact ⟨found, (read found).mpr ⟨names, there⟩⟩

end Links

/-- A stored image has everything its first document references. -/
theorem Whole.sourceComplete {lib : PromoteLib} {stores : PromoteStores} {src : ImageRef}
    {srcDigest : String} (whole : Registry.Whole lib.parse stores.store src.place srcDigest) :
    SourceComplete stores src
      ((references lib.parse stores.store src.place (.manifest srcDigest)).map Part.digest) := by
  intro digest listed
  obtain ⟨part, named, rfl⟩ := List.mem_map.mp listed
  have stored := whole part (.single named)
  rw [← referencedPart_isSome]
  unfold referencedPart
  split
  · rfl
  rename_i noBlob
  cases part with
  | blob digest => exact absurd stored noBlob
  | manifest digest => exact congrArg Option.isSome (if_pos stored)

/-- A promotion that is done makes the destination resolve to the source digest with all of the
image stored, exactly if it can name the digest and every part is there already or copied. -/
theorem promote_whole_iff (lib : PromoteLib) (id : Uuid) (request : PromoteRequest) (stores : PromoteStores)
    (srcDigest : String) (bytes : Bytes) (outcome : PromoteOutcome) (after : PromoteStores)
    (plain : request.source.Plain) (destPlain : request.dest.Plain)
    (resolved : resolveDigest stores.store request.source = .ok (srcDigest, bytes))
    (whole : Whole lib.parse stores.store request.source.place srcDigest)
    (promoted : promote lib id request stores = (.ok outcome, after)) (done : outcome.state = "done") :
    ((∃ found, resolveDigest after.target request.dest = .ok (srcDigest, found)) ∧
      ∀ part, Reaches lib.parse stores.store request.source.place srcDigest part →
        request.dest.place part ∈ after.target) ↔
    request.dest.CanName srcDigest ∧
      ∀ part, Reaches lib.parse stores.store request.source.place srcDigest part →
        request.dest.place part ∈ stores.target ∨ Brings lib request stores.store srcDigest part := by
  cases parsed : lib.parse bytes with
  | error reason =>
    simp only [promote, resolved, parsed] at promoted
    cases (Prod.mk.inj promoted).1
  | ok manifest =>
    by_cases dry : request.mode = .dryRun
    · simp only [promote, resolved, parsed, dry, if_true] at promoted
      obtain rfl := Except.ok.inj (Prod.mk.inj promoted).1
      simp at done
    have named : (references lib.parse stores.store request.source.place
        (.manifest srcDigest)).map Part.digest = collectReferencedDigests manifest := by
      have found : stores.store.lookup (request.source.place (.manifest srcDigest)) =
          some bytes := resolveDigest_manifest resolved
      rw [collectReferencedDigests_eq]
      simp only [references, found, parsed]
    have complete := whole.sourceComplete
    rw [named] at complete
    obtain ⟨totals, run⟩ := @makeCopies_bring request stores lib srcDigest bytes plain destPlain
      resolved _ complete
    rw [promote_eq_makeCopies resolved parsed dry id, run, andThen_ok] at promoted
    obtain rfl : _ = after := (Prod.mk.inj promoted).2
    have arrives := @mem_foldl_bring request.source request.dest stores plain destPlain
      (carried lib request stores.store srcDigest (collectReferencedDigests manifest))
    have kept : ∀ part, request.dest.place part ∈ (linkTag request srcDigest
        (linkSignature request srcDigest (request.signature lib stores.store srcDigest)
          ((carried lib request stores.store srcDigest (collectReferencedDigests manifest)).foldl
              (PromoteStores.bring request.source request.dest) stores))).target ↔
        request.dest.place part ∈ ((carried lib request stores.store srcDigest
          (collectReferencedDigests manifest)).foldl
            (PromoteStores.bring request.source request.dest) stores).target := by
      intro part
      rw [← AList.lookup_isSome, lookup_place_linkTag destPlain,
        lookup_place_linkSignature destPlain, AList.lookup_isSome]
    rw [resolves_linkTag_iff destPlain]
    simp only [Brings, named, kept, arrives]
    constructor
    · rintro ⟨⟨names, _⟩, stored⟩
      exact ⟨names, fun part reached => (stored part reached).imp_right And.left⟩
    · rintro ⟨names, stored⟩
      refine ⟨⟨names, ?_⟩, fun part reached => ?_⟩
      · rw [← AList.lookup_isSome, lookup_place_linkSignature destPlain, AList.lookup_isSome, arrives]
        refine .inr ⟨⟨.manifest srcDigest, ?_, rfl⟩, whole _ .refl⟩
        exact List.mem_append_right _ List.mem_cons_self
      · exact (stored part reached).imp_right fun carries => ⟨carries, whole part reached⟩

instance (image : ImageRef) : Decidable image.Plain := inferInstanceAs (Decidable (PlainRepo _ _ _))

instance (image : ImageRef) (digest : String) : Decidable (image.CanName digest) :=
  inferInstanceAs (Decidable (if Text.startsWith image.reference "sha256:" then
    image.reference = digest else Text.trim digest = digest))

/-- A promotion of one of the two documents to a tag of another project. -/
def sampleRequest (reference : String) : PromoteRequest where
  source := ⟨"acme", "shop", "web", reference⟩
  dest := ⟨"acme", "live", "web", "v1"⟩
  includeSignatures := true
  mode := .force

def sampleLib : PromoteLib := ⟨twoDocuments.parse, fun _ => "not found"⟩

/-- The index with its image and the layer of that. -/
def fullStore : ObjectStore := indexStore.insert ((sampleImage "").place (.blob "sha256:l")) "layer".toUTF8

/-- An image without an index arrives whole. -/
theorem image_promoted_whole : (∃ found, resolveDigest (promote sampleLib Uuid.nil (sampleRequest "sha256:m")
        ⟨imageStore, none⟩).2.target (sampleRequest "sha256:m").dest = .ok ("sha256:m", found)) ∧
      (sampleRequest "sha256:m").dest.place (.blob "sha256:l") ∈
        (promote sampleLib Uuid.nil (sampleRequest "sha256:m") ⟨imageStore, none⟩).2.target := by
  have facts : (promote sampleLib Uuid.nil (sampleRequest "sha256:m") ⟨imageStore, none⟩).1 =
        .ok ⟨Uuid.nil, "sha256:m", "sha256:m", "done", 10, 1, 0, none⟩ ∧
      (∀ part ∈ [Part.manifest "sha256:m", .blob "sha256:l"],
        (sampleRequest "sha256:m").source.place part ∈ imageStore ∧
        ∃ copied ∈ carried sampleLib (sampleRequest "sha256:m") imageStore "sha256:m"
          ((references sampleLib.parse imageStore (sampleRequest "sha256:m").source.place
            (.manifest "sha256:m")).map Part.digest), copied.tail = part.tail) := by decide +kernel
  obtain ⟨answer, listed⟩ := facts
  have member : ∀ part, Reaches sampleLib.parse imageStore (sampleRequest "sha256:m").source.place
      "sha256:m" part → part ∈ [Part.manifest "sha256:m", .blob "sha256:l"] :=
    fun part reached => reached.mem_of_closed List.mem_cons_self (by decide +kernel)
  have arrived := (promote_whole_iff sampleLib Uuid.nil (sampleRequest "sha256:m")
    ⟨imageStore, none⟩ "sha256:m" "image".toUTF8 _ _ (by decide) (by decide) (by decide +kernel)
    (fun part reached => (listed part (member part reached)).1) (Prod.ext answer rfl) rfl).mpr
    ⟨by decide, fun part reached => .inr (listed part (member part reached)).2⟩
  exact ⟨arrived.1, arrived.2 _ (.single (by decide +kernel))⟩

/-- An index arrives without the layer of its image. -/
theorem index_promoted_without_layer :
    Whole sampleLib.parse fullStore (sampleRequest "sha256:i").source.place "sha256:i" ∧
      (promote sampleLib Uuid.nil (sampleRequest "sha256:i") ⟨fullStore, none⟩).1 =
        .ok ⟨Uuid.nil, "sha256:i", "sha256:i", "done", 10, 1, 0, none⟩ ∧
      Reaches sampleLib.parse fullStore (sampleRequest "sha256:i").source.place "sha256:i"
        (.blob "sha256:l") ∧
      (sampleRequest "sha256:i").dest.place (.blob "sha256:l") ∉
        (promote sampleLib Uuid.nil (sampleRequest "sha256:i") ⟨fullStore, none⟩).2.target := by
  refine ⟨?_, by decide +kernel, ?_, by decide +kernel⟩
  · have stored : ∀ part ∈ [Part.manifest "sha256:i", .manifest "sha256:m", .blob "sha256:l"],
        (sampleRequest "sha256:i").source.place part ∈ fullStore := by
      decide +kernel
    intro part reached
    exact stored part (reached.mem_of_closed List.mem_cons_self (by decide +kernel))
  · have child : Part.manifest "sha256:m" ∈ references sampleLib.parse fullStore
        (sampleRequest "sha256:i").source.place (.manifest "sha256:i") := by
      decide +kernel
    exact (Relation.ReflTransGen.single child).tail (by decide +kernel)

end SpectonCr.Registry
