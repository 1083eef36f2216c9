import SpectonCr.Registry.Promote

namespace SpectonCr.Registry

open Storage Gc

section Effects

/-- The state after a copy of these bytes: an object that is there is kept. -/
def PromoteStores.ensure (stores : PromoteStores) (path : StorePath) (bytes : Bytes) :
    PromoteStores :=
  if path ∈ stores.target then stores else stores.write path bytes

@[simp] theorem PromoteStores.lookup_target_write (stores : PromoteStores) (path : StorePath)
    (bytes : Bytes) (other : StorePath) :
    (stores.write path bytes).target.lookup other =
      if other = path then some bytes else stores.target.lookup other := by
  obtain ⟨store, dest⟩ := stores
  cases dest <;> simp only [write, target, Option.getD_none, Option.getD_some] <;> split
  all_goals rename_i same
  all_goals first
    | (subst same; exact AList.lookup_insert _)
    | exact AList.lookup_insert_ne same

theorem PromoteStores.lookup_store_write (stores : PromoteStores) (path : StorePath)
    (bytes : Bytes) (other : StorePath) :
    (stores.write path bytes).store.lookup other =
      if stores.dest.isNone ∧ other = path then some bytes else stores.store.lookup other := by
  obtain ⟨store, dest⟩ := stores
  cases dest with
  | some dest => simp [write]
  | none =>
    simp only [write, Option.isNone_none, true_and]
    split
    · rename_i same
      subst same
      exact AList.lookup_insert _
    · rename_i other
      exact AList.lookup_insert_ne other

/-- Every key of the target stays. -/
def PromoteStores.Keeps (before after : PromoteStores) : Prop := ∀ path ∈ before.target, path ∈ after.target

/-- The target has a new key. -/
def PromoteStores.Fresh (before after : PromoteStores) : Prop :=
  ∃ path, path ∉ before.target ∧ path ∈ after.target

/-- What was to be done is there already, or doing it made a new object. -/
def PromoteStores.Settled (before after : PromoteStores) (done : Prop) : Prop :=
  (after = before ∧ done) ∨ (before.Fresh after ∧ ¬ done)

/-- A key below the repository. -/
def ImageRef.Holds (image : ImageRef) (path : StorePath) : Prop :=
  [image.tenant, image.project, image.repository] <+: path.parts

def ImageRef.Plain (image : ImageRef) : Prop := PlainRepo image.tenant image.project image.repository

/-- What copies out of a repository leave alone. -/
structure PromoteStores.Copied (src : ImageRef) (before after : PromoteStores) : Prop where
  keeps : before.Keeps after
  source : ∀ path, src.Holds path → after.store.lookup path = before.store.lookup path

/-- A layout that puts the objects of a repository below it. -/
def BelowRepo (layout : String → String → String → String → String) : Prop :=
  ∀ tenant project repo name, PlainRepo tenant project repo →
    ∃ rest, (StorePath.ofString (layout tenant project repo name)).parts = tenant :: project :: repo :: rest

variable {src dst : ImageRef} {stores : PromoteStores} {lib : PromoteLib}

theorem blobPath_below : BelowRepo blobPath := fun _ _ _ digest plain => ⟨_, parts_blobPath plain digest⟩

theorem manifestPath_below : BelowRepo manifestPath :=
  fun _ _ _ reference plain => ⟨_, parts_manifestPath plain reference⟩

theorem tagLinkPath_below : BelowRepo tagLinkPath := fun _ _ _ tag plain => ⟨_, parts_tagLinkPath plain tag⟩

theorem ImageRef.parse_plain (parsed : ImageRef.parse text = .ok image) : image.Plain := by
  unfold ImageRef.parse at parsed
  obtain ⟨⟨path, reference⟩, _, parsed⟩ := bind_ok parsed
  dsimp only at parsed
  split at parsed
  · rename_i tenant project repository pieces
    have plain : ∀ name ∈ [tenant, project, repository], '/' ∉ name.toList := by
      intro name member
      rw [← pieces] at member
      exact Text.not_mem_of_mem_split member
    split at parsed
    · cases parsed
    rename_i present
    simp only [not_or] at present
    cases parsed
    exact ⟨⟨plain tenant (by simp), present.1⟩, ⟨plain project (by simp), present.2.1⟩,
      ⟨plain repository (by simp), present.2.2⟩⟩
  · cases parsed

section Paths

variable {layout : String → String → String → String → String}

theorem ImageRef.holds_path (plain : src.Plain) (below : BelowRepo layout) (name : String) :
    src.Holds (.ofString (src.path layout name)) := by
  obtain ⟨rest, parts⟩ := below src.tenant src.project src.repository name plain
  rw [Holds, path, parts]
  exact ⟨rest, rfl⟩

theorem ImageRef.path_eq_of_holds (plain : dst.Plain) (below : BelowRepo layout)
    (held : src.Holds (.ofString (dst.path layout name))) : dst.path layout name = src.path layout name := by
  obtain ⟨rest, parts⟩ := below dst.tenant dst.project dst.repository name plain
  rw [Holds, path, parts] at held
  simp only [List.cons_prefix_cons, List.nil_prefix, and_true] at held
  rw [path, path, held.1, held.2.1, held.2.2]

end Paths

namespace PromoteStores

theorem Copied.refl (src : ImageRef) (stores : PromoteStores) : stores.Copied src stores :=
  ⟨fun _ present => present, fun _ _ => rfl⟩

theorem Copied.trans {one two three : PromoteStores} (first : one.Copied src two)
    (second : two.Copied src three) : one.Copied src three := by
  refine ⟨fun path present => second.keeps path (first.keeps path present), ?_⟩
  intro path held
  rw [second.source path held, first.source path held]

variable {after : PromoteStores}

theorem Copied.mem_source (copied : stores.Copied src after)
    {path : StorePath} (held : src.Holds path) : path ∈ after.store ↔ path ∈ stores.store := by
  rw [← AList.lookup_isSome, ← AList.lookup_isSome, copied.source path held]

theorem keeps_write (stores : PromoteStores) (path : StorePath) (bytes : Bytes) :
    stores.Keeps (stores.write path bytes) := by
  intro other present
  rw [← AList.lookup_isSome] at present ⊢
  rw [lookup_target_write]
  split
  · rfl
  · exact present

variable {middle : PromoteStores}

theorem Fresh.keeps (fresh : stores.Fresh middle) (keeps : middle.Keeps after) : stores.Fresh after := by
  obtain ⟨path, absent, present⟩ := fresh
  exact ⟨path, absent, keeps path present⟩

/-- Two things to be done one after the other. -/
theorem Settled.andThen {first : Prop} (settled : stores.Settled middle first) (second : PromoteStores → Prop)
    (keeps : middle.Keeps after) (next : middle.Settled after (second middle)) :
    stores.Settled after (first ∧ second stores) := by
  rcases settled with ⟨rfl, done⟩ | ⟨fresh, undone⟩
  · rcases next with ⟨still, finished⟩ | ⟨fresh, undone⟩
    · exact .inl ⟨still, done, finished⟩
    · exact .inr ⟨fresh, fun both => undone both.2⟩
  · exact .inr ⟨fresh.keeps keeps, fun both => undone both.1⟩

theorem Settled.congr {first second : Prop} (settled : stores.Settled after first) (same : first ↔ second) :
    stores.Settled after second := by
  rwa [Settled, ← same]

theorem settled_ensure (stores : PromoteStores) (path : StorePath) (bytes : Bytes) :
    stores.Settled (stores.ensure path bytes) (path ∈ stores.target) := by
  unfold ensure
  split
  · rename_i present
    exact .inl ⟨rfl, present⟩
  rename_i absent
  refine .inr ⟨⟨path, absent, ?_⟩, absent⟩
  rw [← AList.lookup_isSome, lookup_target_write, if_pos rfl]
  rfl

end PromoteStores

theorem copyObject_eq {source dest : String} {bytes : Bytes}
    (present : stores.store.lookup (.ofString source) = some bytes) :
    ∃ size, copyObject lib source dest stores = (.ok size, stores.ensure (.ofString dest) bytes) := by
  unfold copyObject PromoteStores.ensure
  dsimp only
  split
  · rename_i same
    obtain ⟨one, rfl⟩ := same
    have there : StorePath.ofString source ∈ stores.target := by
      rw [PromoteStores.target, Option.isNone_iff_eq_none.mp one, Option.getD_none,
        ← AList.lookup_isSome, present]
      rfl
    exact ⟨bytes.size, by rw [present, if_pos there]⟩
  · cases found : stores.target.lookup (.ofString dest) with
    | some old =>
      have there : StorePath.ofString dest ∈ stores.target := by
        rw [← AList.lookup_isSome, found]
        rfl
      exact ⟨old.size, by rw [if_pos there]⟩
    | none =>
      have absent : StorePath.ofString dest ∉ stores.target := AList.lookup_eq_none.mp found
      exact ⟨bytes.size, by rw [present, if_neg absent]⟩

theorem copied_ensure (destPlain : dst.Plain) (below : BelowRepo layout)
    (present : StorePath.ofString (src.path layout name) ∈ stores.store) (bytes : Bytes) :
    stores.Copied src (stores.ensure (.ofString (dst.path layout name)) bytes) := by
  unfold PromoteStores.ensure
  split
  · exact .refl src stores
  rename_i absent
  refine ⟨stores.keeps_write _ bytes, ?_⟩
  intro path held
  rw [PromoteStores.lookup_store_write, if_neg]
  rintro ⟨one, rfl⟩
  have same := ImageRef.path_eq_of_holds destPlain below held
  rw [PromoteStores.target, Option.isNone_iff_eq_none.mp one, Option.getD_none, same] at absent
  exact absent present

variable {layout : String → String → String → String → String}

theorem copyObject_spec (lib : PromoteLib) {name : String} (destPlain : dst.Plain) (below : BelowRepo layout)
    (present : StorePath.ofString (src.path layout name) ∈ stores.store) :
    ∃ size after, copyObject lib (src.path layout name) (dst.path layout name) stores =
        (.ok size, after) ∧ stores.Copied src after ∧
      stores.Settled after (StorePath.ofString (dst.path layout name) ∈ stores.target) := by
  obtain ⟨bytes, found⟩ := Option.isSome_iff_exists.mp (AList.lookup_isSome.mpr present)
  obtain ⟨size, copied⟩ : ∃ size, copyObject lib (src.path layout name) (dst.path layout name)
      stores = (.ok size, stores.ensure (.ofString (dst.path layout name)) bytes) :=
    copyObject_eq found
  exact ⟨size, _, copied, copied_ensure destPlain below present bytes, stores.settled_ensure _ bytes⟩

/-- The source has every referenced digest. -/
def SourceComplete (stores : PromoteStores) (src : ImageRef) (digests : List String) : Prop :=
  ∀ digest ∈ digests, (referencedAt stores.store src digest).isSome = true

/-- The referenced digests are at the destination, up to the first one that the
source lacks. -/
def ReferencedThere (stores : PromoteStores) (src dst : ImageRef) (digests : List String) : Prop :=
  ∀ digest ∈ digests.takeWhile fun digest => (referencedAt stores.store src digest).isSome,
    ∀ layout, referencedAt stores.store src digest = some layout →
      StorePath.ofString (dst.path layout digest) ∈ stores.target

/-- The blobs that the source has of these are at the destination. -/
def BlobsThere (stores : PromoteStores) (src dst : ImageRef) (digests : List String) : Prop :=
  ∀ digest ∈ digests, StorePath.ofString (src.path blobPath digest) ∈ stores.store →
    StorePath.ofString (dst.path blobPath digest) ∈ stores.target

def ManifestThere (stores : PromoteStores) (dst : ImageRef) (digest : String) : Prop :=
  StorePath.ofString (dst.path manifestPath digest) ∈ stores.target

variable {store : ObjectStore}

theorem referencedAt_some {digest : String} (found : referencedAt store src digest = some layout) :
    BelowRepo layout ∧ StorePath.ofString (src.path layout digest) ∈ store := by
  unfold referencedAt at found
  split at found
  · rename_i present
    cases found
    exact ⟨blobPath_below, present⟩
  split at found
  · rename_i present
    cases found
    exact ⟨manifestPath_below, present⟩
  · cases found

variable {after : PromoteStores}

theorem PromoteStores.Copied.referencedAt (plain : src.Plain)
    (copied : stores.Copied src after) (digest : String) :
    referencedAt after.store src digest = Registry.referencedAt stores.store src digest := by
  unfold Registry.referencedAt
  rw [if_congr (copied.mem_source (src.holds_path plain blobPath_below digest)) rfl rfl,
    if_congr (copied.mem_source (src.holds_path plain manifestPath_below digest)) rfl rfl]

/-- The loop over the referenced digests: what it changes, and when it ends well. -/
theorem copyReferenced_spec (lib : PromoteLib) (plain : src.Plain) (destPlain : dst.Plain)
    (digests : List String) (progress : Nat × Nat) (stores : PromoteStores) :
    ∃ answer after, copyReferenced lib src dst digests progress stores = (answer, after) ∧
      stores.Copied src after ∧ stores.Settled after (ReferencedThere stores src dst digests) ∧
      ((SourceComplete stores src digests ∧ ∃ copied, answer = .ok copied) ∨
        (¬ SourceComplete stores src digests ∧ ∃ digest, answer = .error (.blobUnknown digest))) := by
  induction digests generalizing progress stores with
  | nil =>
    refine ⟨_, stores, rfl, .refl src stores, .inl ⟨rfl, ?_⟩, .inl ⟨?_, progress, rfl⟩⟩
    · intro digest member
      cases member
    · intro digest member
      cases member
  | cons digest rest ih =>
    rw [copyReferenced]
    cases found : referencedAt stores.store src digest with
    | none =>
      refine ⟨_, stores, rfl, .refl src stores, .inl ⟨rfl, ?_⟩, .inr ⟨?_, digest, rfl⟩⟩
      · intro other member
        rw [List.takeWhile_cons_of_neg (by simp [found])] at member
        cases member
      · intro complete
        have known := complete digest List.mem_cons_self
        rw [found] at known
        cases known
    | some layout =>
      obtain ⟨below, present⟩ := referencedAt_some found
      obtain ⟨size, middle, copy, copied, settled⟩ := copyObject_spec lib destPlain below present
      simp only [copy, andThen_ok]
      obtain ⟨answer, after, run, later, done, result⟩ := ih (progress.1 + size, progress.2 + 1) middle
      refine ⟨answer, after, run, copied.trans later, ?_, ?_⟩
      · refine (settled.andThen (ReferencedThere · src dst rest) later.keeps done).congr ?_
        rw [ReferencedThere, ReferencedThere, List.takeWhile_cons_of_pos (by simp [found]),
          List.forall_mem_cons]
        simp only [found, Option.some.injEq, forall_eq']
      · have complete : SourceComplete stores src (digest :: rest) ↔ SourceComplete middle src rest := by
          rw [SourceComplete, SourceComplete, List.forall_mem_cons]
          simp [found, copied.referencedAt plain]
        rw [complete]
        exact result

theorem copySignatureBlobs_spec (lib : PromoteLib) (src : ImageRef) (destPlain : dst.Plain)
    (digests : List String) (bytesCopied : Nat) (stores : PromoteStores) :
    ∃ total after, copySignatureBlobs lib src dst digests bytesCopied stores = (.ok total, after) ∧
      stores.Copied src after ∧ stores.Settled after (BlobsThere stores src dst digests) := by
  induction digests generalizing bytesCopied stores with
  | nil => exact ⟨bytesCopied, stores, rfl, .refl src stores, .inl ⟨rfl, by simp [BlobsThere]⟩⟩
  | cons digest rest ih =>
    rw [copySignatureBlobs]
    split
    · rename_i present
      obtain ⟨size, middle, copy, copied, settled⟩ := copyObject_spec lib destPlain blobPath_below present
      rw [copy, andThen_ok]
      obtain ⟨total, after, run, later, done⟩ := ih (bytesCopied + size) middle
      refine ⟨total, after, run, copied.trans later, ?_⟩
      exact (settled.andThen (BlobsThere · src dst rest) later.keeps done).congr
        (by simp [BlobsThere, present])
    · rename_i absent
      obtain ⟨total, after, run, later, done⟩ := ih bytesCopied stores
      exact ⟨total, after, run, later, done.congr (by simp [BlobsThere, absent])⟩

theorem signature?_of_copied (plain : src.Plain) (copied : stores.Copied src after) (srcDigest : String) :
    signature? lib after.store src srcDigest = signature? lib stores.store src srcDigest := by
  unfold signature?
  rw [copied.source _ (src.holds_path plain tagLinkPath_below _)]
  cases stores.store.lookup (.ofString (src.path tagLinkPath (signatureTag srcDigest))) with
  | none => rfl
  | some link =>
    dsimp only
    rw [copied.source _ (src.holds_path plain manifestPath_below _)]

theorem signature?_manifest (found : signature? lib store src srcDigest = some (sigDigest, referenced)) :
    StorePath.ofString (src.path manifestPath sigDigest) ∈ store := by
  unfold signature? at found
  split at found
  · cases found
  dsimp only at found
  split at found
  · cases found
  rename_i manifest present
  rw [← AList.lookup_isSome]
  split at found
  all_goals
    obtain ⟨rfl, _⟩ := Prod.mk.inj (Option.some.inj found)
    rw [present]
    rfl

theorem copySignatures_spec (plain : src.Plain) (destPlain : dst.Plain) {srcDigest sigDigest : String}
    {referenced : List String}
    (found : signature? lib stores.store src srcDigest = some (sigDigest, referenced)) (bytesCopied : Nat) :
    ∃ total copied, copySignatures lib src dst srcDigest bytesCopied stores =
        (.ok (total, 1), PromoteStores.write copied
          (.ofString (dst.path tagLinkPath (signatureTag srcDigest))) sigDigest.toUTF8) ∧
      stores.Copied src copied ∧
      stores.Settled copied (BlobsThere stores src dst referenced ∧ ManifestThere stores dst sigDigest) := by
  unfold copySignatures
  rw [found]
  obtain ⟨total, middle, run, blobs, settled⟩ :=
    copySignatureBlobs_spec lib src destPlain referenced bytesCopied stores
  have manifest : StorePath.ofString (src.path manifestPath sigDigest) ∈ middle.store :=
    (blobs.mem_source (src.holds_path plain manifestPath_below sigDigest)).mpr (signature?_manifest found)
  obtain ⟨size, after, copy, copied, done⟩ := copyObject_spec lib destPlain manifestPath_below manifest
  simp only [run, copy, andThen_ok]
  exact ⟨total + size, after, rfl, blobs.trans copied,
    settled.andThen (ManifestThere · dst sigDigest) copied.keeps done⟩

/-- The signature a promotion copies. -/
def PromoteRequest.signature (request : PromoteRequest) (lib : PromoteLib) (store : ObjectStore)
    (srcDigest : String) : Option (String × List String) :=
  if request.includeSignatures then signature? lib store request.source srcDigest else none

/-- The link of a copied signature. -/
def linkSignature (request : PromoteRequest) (srcDigest : String)
    (signature : Option (String × List String)) (stores : PromoteStores) : PromoteStores :=
  match signature with
  | none => stores
  | some (sigDigest, _) => stores.write
      (.ofString (request.dest.path tagLinkPath (signatureTag srcDigest))) sigDigest.toUTF8

/-- The link of the tag that is promoted to. -/
def linkTag (request : PromoteRequest) (srcDigest : String) (stores : PromoteStores) :
    PromoteStores :=
  if Text.startsWith request.dest.reference "sha256:" then stores
  else stores.write (.ofString (request.dest.path tagLinkPath request.dest.reference)) srcDigest.toUTF8

/-- A signature that is to be copied is at the destination. -/
def SignatureThere (lib : PromoteLib) (request : PromoteRequest) (srcDigest : String)
    (stores : PromoteStores) : Prop :=
  ∀ sigDigest signed, request.signature lib stores.store srcDigest = some (sigDigest, signed) →
    BlobsThere stores request.source request.dest signed ∧ ManifestThere stores request.dest sigDigest

/-- Every copy of a promotion is at the destination. -/
structure CopiesThere (lib : PromoteLib) (request : PromoteRequest) (srcDigest : String)
    (digests : List String) (stores : PromoteStores) : Prop where
  referenced : ReferencedThere stores request.source request.dest digests
  manifest : ManifestThere stores request.dest srcDigest
  signature : SignatureThere lib request srcDigest stores

theorem resolveDigest_manifest {digest : String} {bytes : Bytes}
    (resolved : resolveDigest store src = .ok (digest, bytes)) :
    store.lookup (.ofString (src.path manifestPath digest)) = some bytes := by
  unfold resolveDigest at resolved
  obtain ⟨named, _, resolved⟩ := bind_ok resolved
  split at resolved
  · cases resolved
  · rename_i present
    cases resolved
    exact present

theorem signatureStep_spec {request : PromoteRequest} (plain : request.source.Plain)
    (destPlain : request.dest.Plain) (srcDigest : String) (bytesCopied : Nat) :
    ∃ signed copied, (if request.includeSignatures then
          copySignatures lib request.source request.dest srcDigest bytesCopied stores
        else (.ok (bytesCopied, 0), stores)) =
        (.ok signed, linkSignature request srcDigest (request.signature lib stores.store srcDigest) copied) ∧
      stores.Copied request.source copied ∧
      stores.Settled copied (SignatureThere lib request srcDigest stores) := by
  cases included : request.includeSignatures with
  | false =>
    refine ⟨_, stores, by simp [PromoteRequest.signature, included, linkSignature]; rfl,
      .refl _ stores, .inl ⟨rfl, ?_⟩⟩
    intro sigDigest signed found
    simp [PromoteRequest.signature, included] at found
  | true =>
    have wanted : request.signature lib stores.store srcDigest =
        signature? lib stores.store request.source srcDigest := by
      simp [PromoteRequest.signature, included]
    unfold SignatureThere
    rw [if_pos rfl, wanted]
    cases found : signature? lib stores.store request.source srcDigest with
    | none =>
      refine ⟨(bytesCopied, 0), stores, ?_, .refl _ stores, .inl ⟨rfl, by simp⟩⟩
      rw [copySignatures, found]
      rfl
    | some signature =>
      obtain ⟨sigDigest, referenced⟩ := signature
      obtain ⟨total, copied, run, kept, settled⟩ := copySignatures_spec plain destPlain found bytesCopied
      refine ⟨(total, 1), copied, run, kept, settled.congr ?_⟩
      simp

end Effects

section Unchanged

variable {stores : PromoteStores} {lib : PromoteLib}

/-- Both stores have the same objects. -/
def PromoteStores.Same (before after : PromoteStores) : Prop :=
  (∀ path, after.store.lookup path = before.store.lookup path) ∧
    ∀ path, after.target.lookup path = before.target.lookup path

/-- The links of a promotion are written already. The link of the tag comes after the
one of the signature, and may replace it. -/
structure LinksThere (lib : PromoteLib) (request : PromoteRequest) (srcDigest : String)
    (stores : PromoteStores) : Prop where
  signature : ∀ sigDigest signed, request.signature lib stores.store srcDigest = some (sigDigest, signed) →
    (Text.startsWith request.dest.reference "sha256:" = false ∧
      StorePath.ofString (request.dest.path tagLinkPath (signatureTag srcDigest)) =
        .ofString (request.dest.path tagLinkPath request.dest.reference)) ∨
    stores.target.lookup (.ofString (request.dest.path tagLinkPath (signatureTag srcDigest))) =
      some sigDigest.toUTF8
  tag : Text.startsWith request.dest.reference "sha256:" = false →
    stores.target.lookup (.ofString (request.dest.path tagLinkPath request.dest.reference)) =
      some srcDigest.toUTF8

/-- Nothing of a promotion is left to be written. -/
structure AlreadyPromoted (lib : PromoteLib) (request : PromoteRequest) (srcDigest : String)
    (digests : List String) (stores : PromoteStores) : Prop where
  referenced : ReferencedThere stores request.source request.dest digests
  finished : SourceComplete stores request.source digests →
    CopiesThere lib request srcDigest digests stores ∧ LinksThere lib request srcDigest stores

namespace PromoteStores

/-- A state reached by writes to the target. -/
structure Wrote (before after : PromoteStores) : Prop where
  dest : after.dest.isNone = before.dest.isNone
  store : before.dest.isNone = false → after.store = before.store

theorem Wrote.refl (stores : PromoteStores) : stores.Wrote stores := ⟨rfl, fun _ => rfl⟩

theorem Wrote.write (wrote : stores.Wrote after) (path : StorePath) (bytes : Bytes) :
    stores.Wrote (after.write path bytes) := by
  obtain ⟨store, dest⟩ := after
  obtain ⟨same, kept⟩ := wrote
  cases dest with
  | none =>
    refine ⟨same, ?_⟩
    intro other
    rw [← same] at other
    cases other
  | some dest => exact ⟨same, kept⟩

theorem store_eq_target (one : stores.dest.isNone = true) : stores.store = stores.target := by
  rw [target, Option.isNone_iff_eq_none.mp one, Option.getD_none]

/-- The target alone tells whether writes changed anything. -/
theorem Wrote.same_iff (wrote : stores.Wrote after) :
    stores.Same after ↔ ∀ path, after.target.lookup path = stores.target.lookup path := by
  constructor
  · exact And.right
  · intro same
    refine ⟨?_, same⟩
    intro path
    cases one : stores.dest.isNone with
    | true => rw [store_eq_target one, store_eq_target (wrote.dest.trans one), same path]
    | false => rw [wrote.store one]

theorem same_write_iff (stores : PromoteStores) (path : StorePath) (bytes : Bytes) :
    stores.Same (stores.write path bytes) ↔ stores.target.lookup path = some bytes := by
  rw [((Wrote.refl stores).write path bytes).same_iff]
  simp only [lookup_target_write]
  constructor
  · intro same
    have here := same path
    rw [if_pos rfl] at here
    exact here.symm
  · intro stored other
    split
    · rename_i equal
      rw [equal, stored]
    · rfl

/-- The second of two writes may be to the same object. -/
theorem same_write_write_iff (stores : PromoteStores) (first second : StorePath) (old new : Bytes) :
    stores.Same ((stores.write first old).write second new) ↔
      (first = second ∨ stores.target.lookup first = some old) ∧ stores.target.lookup second = some new := by
  rw [(((Wrote.refl stores).write first old).write second new).same_iff]
  simp only [lookup_target_write]
  constructor
  · intro same
    have last := same second
    rw [if_pos rfl] at last
    refine ⟨?_, last.symm⟩
    by_cases equal : first = second
    · exact .inl equal
    · have before := same first
      rw [if_neg equal, if_pos rfl] at before
      exact .inr before.symm
  · rintro ⟨replaced, stored⟩ other
    split
    · rename_i equal
      rw [equal, stored]
    rename_i apart
    split
    · rename_i equal
      subst equal
      exact (replaced.resolve_left apart).symm
    · rfl

theorem Fresh.not_same (fresh : stores.Fresh after) : ¬ stores.Same after := by
  obtain ⟨path, absent, present⟩ := fresh
  intro same
  rw [← AList.lookup_isSome] at absent present
  rw [same.2 path] at present
  exact absent present

end PromoteStores

theorem keeps_links (request : PromoteRequest) (srcDigest : String)
    (signature : Option (String × List String)) (stores : PromoteStores) :
    stores.Keeps (linkTag request srcDigest (linkSignature request srcDigest signature stores)) := by
  have signed : stores.Keeps (linkSignature request srcDigest signature stores) := by
    unfold linkSignature
    split
    · exact fun _ present => present
    · exact stores.keeps_write _ _
  unfold linkTag
  split
  · exact signed
  · exact fun path present => PromoteStores.keeps_write _ _ _ path (signed path present)

theorem same_links_iff (lib : PromoteLib) (request : PromoteRequest) (srcDigest : String)
    (stores : PromoteStores) :
    stores.Same (linkTag request srcDigest (linkSignature request srcDigest
      (request.signature lib stores.store srcDigest) stores)) ↔
    LinksThere lib request srcDigest stores := by
  have there : LinksThere lib request srcDigest stores ↔ _ ∧ _ :=
    ⟨fun links => ⟨links.signature, links.tag⟩, fun both => ⟨both.1, both.2⟩⟩
  rw [there]
  cases wanted : request.signature lib stores.store srcDigest with
  | none =>
    cases digest : Text.startsWith request.dest.reference "sha256:" with
    | true => simp [linkTag, linkSignature, digest, PromoteStores.Same]
    | false => simp [linkTag, linkSignature, digest, PromoteStores.same_write_iff]
  | some signature =>
    obtain ⟨sigDigest, signed⟩ := signature
    cases digest : Text.startsWith request.dest.reference "sha256:" with
    | true => simp [linkTag, linkSignature, digest, PromoteStores.same_write_iff]
    | false => simp [linkTag, linkSignature, digest, PromoteStores.same_write_write_iff]

section Whole

variable {request : PromoteRequest} {srcDigest : String} {bytes : Bytes} {manifest : Json}
  (plain : request.source.Plain) (destPlain : request.dest.Plain)
  (resolved : resolveDigest stores.store request.source = .ok (srcDigest, bytes))
  (parsed : lib.parse bytes = .ok manifest) (writes : request.mode ≠ .dryRun)
include plain destPlain resolved parsed writes

theorem promote_incomplete (id : Uuid)
    (incomplete : ¬ SourceComplete stores request.source (collectReferencedDigests manifest)) :
    ∃ digest after, promote lib id request stores = (.error (.blobUnknown digest), after) ∧
      stores.Settled after (ReferencedThere stores request.source request.dest
        (collectReferencedDigests manifest)) := by
  obtain ⟨answer, after, run, _, settled, result⟩ := copyReferenced_spec lib plain destPlain
    (collectReferencedDigests manifest) (0, 0) stores
  rcases result with ⟨complete, _⟩ | ⟨_, digest, rfl⟩
  · exact absurd complete incomplete
  · simp only [promote, resolved, parsed, writes, if_false, run, andThen_error]
    exact ⟨digest, after, rfl, settled⟩

theorem promote_complete (id : Uuid)
    (complete : SourceComplete stores request.source (collectReferencedDigests manifest)) :
    ∃ outcome copied, promote lib id request stores = (.ok outcome, linkTag request srcDigest
        (linkSignature request srcDigest (request.signature lib stores.store srcDigest) copied)) ∧
      stores.Settled copied
        (CopiesThere lib request srcDigest (collectReferencedDigests manifest) stores) := by
  obtain ⟨answer, referenced, run, first, settled, result⟩ := copyReferenced_spec lib plain
    destPlain (collectReferencedDigests manifest) (0, 0) stores
  rcases result with ⟨_, progress, rfl⟩ | ⟨incomplete, _⟩
  · have present : StorePath.ofString (request.source.path manifestPath srcDigest) ∈ referenced.store := by
      rw [first.mem_source (request.source.holds_path plain manifestPath_below srcDigest),
        ← AList.lookup_isSome, resolveDigest_manifest resolved]
      rfl
    obtain ⟨size, middle, copy, second, done⟩ := copyObject_spec lib destPlain manifestPath_below present
    have both := settled.andThen (ManifestThere · request.dest srcDigest) second.keeps done
    obtain ⟨signed, copied, signing, third, last⟩ :=
      signatureStep_spec plain destPlain srcDigest (progress.1 + size)
    have whole := both.andThen (SignatureThere lib request srcDigest) third.keeps last
    have wanted : request.signature lib middle.store srcDigest =
        request.signature lib stores.store srcDigest := by
      rw [PromoteRequest.signature, PromoteRequest.signature, signature?_of_copied plain (first.trans second)]
    simp only [promote, resolved, parsed, writes, if_false, run, copy, signing, wanted, andThen_ok]
    refine ⟨_, copied, rfl, whole.congr ?_⟩
    constructor
    · rintro ⟨⟨one, two⟩, three⟩
      exact ⟨one, two, three⟩
    · rintro ⟨one, two, three⟩
      exact ⟨⟨one, two⟩, three⟩
  · exact absurd complete incomplete

/-- A promotion leaves the stores alone exactly when nothing is left to be written. -/
theorem promote_same_iff (id : Uuid) : stores.Same (promote lib id request stores).2 ↔
      AlreadyPromoted lib request srcDigest (collectReferencedDigests manifest) stores := by
  by_cases complete : SourceComplete stores request.source (collectReferencedDigests manifest)
  · obtain ⟨outcome, copied, run, settled⟩ :=
      promote_complete plain destPlain resolved parsed writes id complete
    rw [run]
    rcases settled with ⟨rfl, there⟩ | ⟨fresh, missing⟩
    · rw [same_links_iff]
      constructor
      · exact fun links => ⟨there.referenced, fun _ => ⟨there, links⟩⟩
      · exact fun promoted => (promoted.finished complete).2
    · constructor
      · intro same
        exact absurd same (fresh.keeps (keeps_links _ _ _ copied)).not_same
      · intro promoted
        exact absurd (promoted.finished complete).1 missing
  · obtain ⟨digest, after, run, settled⟩ :=
      promote_incomplete plain destPlain resolved parsed writes id complete
    rw [run]
    rcases settled with ⟨rfl, there⟩ | ⟨fresh, missing⟩
    · constructor
      · exact fun _ => ⟨there, fun whole => absurd whole complete⟩
      · exact fun _ => ⟨fun _ => rfl, fun _ => rfl⟩
    constructor
    · intro same
      exact absurd same fresh.not_same
    · intro promoted
      exact absurd promoted.referenced missing

end Whole

end Unchanged

end SpectonCr.Registry
