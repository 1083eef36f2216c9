import SpectonCr.Ephemeral.Header
import SpectonCr.Gc.Reaper
import SpectonCr.Registry.Authorize

namespace SpectonCr.Registry

open Storage Gc

/-- The third-party functions the handlers call. -/
structure Env extends Ephemeral.TtlLib where
  sha : Sha256
  /-- `serde_json::from_slice::<Value>`, with the text of its error. -/
  parse : Bytes → Except String Json
  /-- The database pool is configured. -/
  gcPool : Bool

structure ManifestRef where
  (tenant project name reference : String)
  deriving DecidableEq

/-- A handler's request, with the time it runs at and the answer of the audit log. -/
structure ManifestRequest where
  claims : TokenClaims
  params : ManifestRef
  now : Time
  audit : Except String Unit
  /-- `X-SpectonCR-TTL`, where its value is text. -/
  ttl : Option String
  /-- The store answers the deletion of an absent object with `NotFound`, as the one on the file
  system does. The one in memory and those in the cloud answer `Ok`. -/
  reportsAbsent : Bool

/-- A handler answers with an error, or an `unwrap` in it panics. -/
inductive Failure where
  | refused (error : RegistryError)
  | panicked
  deriving DecidableEq

structure Created where
  (dockerContentDigest location : String)
  deriving DecidableEq

def ManifestRef.object (params : ManifestRef) (digest : String) : StorePath :=
  .ofString (manifestPath params.tenant params.project params.name digest)

def ManifestRef.tagLink (params : ManifestRef) (tag : String) : StorePath :=
  .ofString (tagLinkPath params.tenant params.project params.name tag)

def ManifestRef.authorize (params : ManifestRef) (claims : TokenClaims) (action : Action) :
    Except RegistryError Unit :=
  Registry.authorize claims params.tenant params.project params.name action

/-- `HeaderValue::from_str` accepts tabs and every byte from 32 on but 127; the bytes of a character
above 127 are above 127 too. -/
def isHeaderValue (text : String) : Bool :=
  text.toList.all fun c => (32 ≤ c.toNat && c.toNat ≠ 127) || c == '\t'

def location (params : ManifestRef) (digest : String) : String :=
  "/v2/" ++ params.tenant ++ "/" ++ params.project ++ "/" ++ params.name ++ "/manifests/" ++ digest

/-- The two object writes of a push: the manifest, and the link of a tag. -/
def storeManifest (params : ManifestRef) (digest : String) (body : Bytes) (store : ObjectStore) :
    ObjectStore :=
  let stored := store.insert (params.object digest) body
  if Text.startsWith params.reference "sha256:" then stored
  else stored.insert (params.tagLink params.reference) digest.toUTF8

/-- The handler panics over the TTL of a tag, which it reads when both writes are done. -/
def Env.ttlPanics (env : Env) (request : ManifestRequest) : Bool :=
  !Text.startsWith request.params.reference "sha256:" && env.gcPool &&
    request.ttl.any fun header => (Ephemeral.parseTtlHeader env.toTtlLib request.now header).isNone

/-- The bookkeeping of a push that gets there. A body the typed reader rejects is not counted. -/
def recordRefs (env : Env) (request : ManifestRequest) (digest : String) (document : Json)
    (tables : Tables) : Tables :=
  if env.ttlPanics request then tables
  else match extractBlobDigests document with
    | some blobs =>
      addRefs request.now request.params.tenant request.params.project request.params.name digest blobs tables
    | none => tables

/-- The answer to a push that has been counted. -/
def pushAnswer (request : ManifestRequest) (digest : String) : Except Failure Created :=
  if !isHeaderValue (location request.params digest) then .error .panicked
  else match request.audit with
    | .error reason => .error (.refused (.auditUnavailable reason))
    | .ok () => .ok ⟨digest, location request.params digest⟩

def putManifest (env : Env) (request : ManifestRequest) (body : Bytes) (backend : Backend) :
    Except Failure Created × Backend :=
  match request.params.authorize request.claims .push with
  | .error error => (.error (.refused error), backend)
  | .ok () =>
    match env.parse body with
    | .error reason => (.error (.refused (.manifestInvalid reason)), backend)
    | .ok document =>
      let digest := env.sha.digest body
      (if env.ttlPanics request then .error .panicked else pushAnswer request digest,
        { store := storeManifest request.params digest body backend.store
          tables := recordRefs env request digest document backend.tables })

/-- `read_tag_link`: `none` when the tag does not exist. -/
def readTagLink (store : ObjectStore) (params : ManifestRef) (tag : String) : Option String :=
  (store.lookup (params.tagLink tag)).map fun bytes => Text.trim (fromUtf8Lossy bytes)

/-- The tag a listed object is the link of. -/
def listedTag (params : ManifestRef) (link : StorePath) : Option String :=
  (Text.stripPrefix link.asRef (tagsPrefix params.tenant params.project params.name)).filter (· ≠ "")

/-- The loop body of `delete_tags_for_digest`. -/
def deleteTag (params : ManifestRef) (digest : String) (progress : ObjectStore × List String)
    (link : StorePath) : ObjectStore × List String :=
  match listedTag params link with
  | none => progress
  | some tag =>
    if readTagLink progress.1 params tag = some digest ∧ link ∈ progress.1 then
      (progress.1.erase link, progress.2 ++ [tag])
    else progress

def deleteTagsForDigest (params : ManifestRef) (digest : String) (store : ObjectStore) :
    ObjectStore × List String :=
  (list store (.ofString (tagsPrefix params.tenant params.project params.name))).foldl
    (deleteTag params digest) (store, [])

/-- A deleted reference: a digest in either spelling, or a tag with its link. -/
def deleteTarget (store : ObjectStore) (params : ManifestRef) : Except RegistryError (String × Bool) :=
  match Text.stripPrefix params.reference "sha256-" with
  | some hex => .ok ("sha256:" ++ hex, false)
  | none =>
    if Text.startsWith params.reference "sha256:" then .ok (params.reference, false)
    else match readTagLink store params params.reference with
      | some digest => .ok (digest, true)
      | none => .error (.manifestUnknown params.reference)

def deleteManifest (request : ManifestRequest) (backend : Backend) : Except RegistryError Unit × Backend :=
  let params := request.params
  let audited := request.audit.mapError RegistryError.auditUnavailable
  match params.authorize request.claims .delete with
  | .error error => (.error error, backend)
  | .ok () =>
    match deleteTarget backend.store params with
    | .error error => (.error error, backend)
    | .ok (_, true) =>
      (audited, { backend with store := backend.store.erase (params.tagLink params.reference) })
    | .ok (digest, false) =>
      let (store, removedTags) :=
        deleteTagsForDigest params digest (backend.store.erase (params.object digest))
      if request.reportsAbsent ∧ params.object digest ∉ backend.store ∧ removedTags = [] then
        (.error (.manifestUnknown params.reference), { backend with store })
      else
        (audited, ⟨store, removeRefs request.now params.tenant digest backend.tables⟩)

/-- The dash spelling of a digest reference, turned back. -/
def normalizedRef (reference : String) : String :=
  match Text.stripPrefix reference "sha256-" with
  | some rest => "sha256:" ++ rest
  | none => reference

def resolveManifestPath (store : ObjectStore) (params : ManifestRef) : Except RegistryError String :=
  let normalized := normalizedRef params.reference
  if Text.startsWith normalized "sha256:" then
    .ok (manifestPath params.tenant params.project params.name normalized)
  else match store.lookup (params.tagLink params.reference) with
    | none => .error (.manifestUnknown params.reference)
    | some bytes =>
      match String.fromUTF8? bytes with
      | none => .error (.manifestInvalid "tag link contains invalid UTF-8")
      | some digest =>
        .ok (manifestPath params.tenant params.project params.name (Text.trim digest))

/-- Links and manifests never share an object. -/
theorem ManifestRef.object_ne_tagLink (params : ManifestRef) (digest tag : String) :
    params.object digest ≠ params.tagLink tag := by
  intro same
  rw [object, tagLink, ofString_eq_iff, segments_manifestPath, segments_tagLinkPath] at same
  have heads := List.append_cancel_left same
  simp at heads

theorem mem_of_readTagLink (read : readTagLink store params tag = some digest) :
    params.tagLink tag ∈ store := by
  obtain ⟨bytes, found, _⟩ := Option.map_eq_some_iff.mp read
  exact Table.mem_of_lookup found

/-- A push either leaves the backend alone, or was authorised, parsed, stored
and recorded. -/
theorem putManifest_cases (env : Env) (request : ManifestRequest) (body : Bytes) (backend : Backend) :
    (putManifest env request body backend).2 = backend ∨
      ∃ document, request.params.authorize request.claims .push = .ok () ∧ env.parse body = .ok document ∧
        (putManifest env request body backend).2 =
          ⟨storeManifest request.params (env.sha.digest body) body backend.store,
            recordRefs env request (env.sha.digest body) document backend.tables⟩ := by
  unfold putManifest
  split
  · exact .inl rfl
  rename_i allowed
  split
  · exact .inl rfl
  · rename_i document parsed
    exact .inr ⟨document, allowed, parsed, rfl⟩

theorem putManifest_ok (accepted : putManifest env request body backend = (.ok created, after)) :
    after.store = storeManifest request.params (env.sha.digest body) body backend.store := by
  unfold putManifest at accepted
  split at accepted
  · simp at accepted
  split at accepted
  · simp at accepted
  · simp only [Prod.mk.injEq] at accepted
    rw [← accepted.2]

theorem lookup_storeManifest_object (params : ManifestRef) (digest : String) (body : Bytes)
    (store : ObjectStore) :
    (storeManifest params digest body store).lookup (params.object digest) = some body := by
  unfold storeManifest
  split
  · exact AList.lookup_insert store
  · rw [AList.lookup_insert_ne (params.object_ne_tagLink digest params.reference)]
    exact AList.lookup_insert store

theorem lookup_storeManifest_ne (notManifest : path ≠ params.object digest)
    (notLink : path ≠ params.tagLink params.reference) :
    (storeManifest params digest body store).lookup path = store.lookup path := by
  unfold storeManifest
  split
  · exact AList.lookup_insert_ne notManifest
  · rw [AList.lookup_insert_ne notLink, AList.lookup_insert_ne notManifest]

/-- Every object of the first store is the same object of the second. -/
def Within (small large : ObjectStore) : Prop :=
  ∀ path bytes, small.lookup path = some bytes → large.lookup path = some bytes

theorem Within.refl (store : ObjectStore) : Within store store := fun _ _ found => found

theorem Within.erase (within : Within small large) (path : StorePath) : Within (small.erase path) large := by
  intro other bytes found
  exact within other bytes (Table.lookup_erase_cases found).2

/-- Some listed tag of the repository links to the digest. -/
def TaggedWith (store : ObjectStore) (params : ManifestRef) (digest : String) : Prop :=
  ∃ link tag, listedTag params link = some tag ∧ link ∈ store ∧ readTagLink store params tag = some digest

/-- Deleting tags only takes objects away, and takes the first one only when
its link named the digest. -/
theorem deleteTagsForDigest_spec (params : ManifestRef) (digest : String) (store : ObjectStore) :
    Within (deleteTagsForDigest params digest store).1 store ∧
    ((deleteTagsForDigest params digest store).2 ≠ [] → TaggedWith store params digest) := by
  unfold deleteTagsForDigest
  generalize list store _ = links
  suffices general : ∀ progress : ObjectStore × List String,
      Within progress.1 store → (progress.2 = [] → progress.1 = store) →
      (progress.2 ≠ [] → TaggedWith store params digest) →
      Within (links.foldl (deleteTag params digest) progress).1 store ∧
      ((links.foldl (deleteTag params digest) progress).2 ≠ [] → TaggedWith store params digest) from
    general (store, []) (fun _ _ found => found) (fun _ => rfl) (fun some => absurd rfl some)
  induction links with
  | nil =>
    intro progress kept _ named
    exact ⟨kept, named⟩
  | cons link rest ih =>
    intro progress kept untouched named
    rw [List.foldl_cons]
    unfold deleteTag
    split
    · exact ih progress kept untouched named
    rename_i tag listed
    split
    · rename_i removed
      refine ih _ (kept.erase link) (by simp) ?_
      · intro _
        by_cases first : progress.2 = []
        · rw [untouched first] at removed
          exact ⟨link, tag, listed, removed.2, removed.1⟩
        · exact named first
    · exact ih progress kept untouched named

private theorem TaggedWith.of_erase (tagged : TaggedWith (store.erase (params.object digest)) params digest) :
    TaggedWith store params digest := by
  obtain ⟨link, tag, listed, present, read⟩ := tagged
  refine ⟨link, tag, listed, (AList.mem_erase.mp present).2, ?_⟩
  rwa [readTagLink, AList.lookup_erase_ne (params.object_ne_tagLink digest tag).symm] at read

/-- What a delete that reached the reference counter has done. -/
structure DigestDeleted (request : ManifestRequest) (before after : Backend) (digest : String) :
    Prop where
  authorized : request.params.authorize request.claims .delete = .ok ()
  target : deleteTarget before.store request.params = .ok (digest, false)
  known : request.reportsAbsent →
    request.params.object digest ∈ before.store ∨ TaggedWith before.store request.params digest
  gone : after.store.lookup (request.params.object digest) = none
  within : Within after.store before.store
  tables : after.tables = removeRefs request.now request.params.tenant digest before.tables

/-- A delete either only takes objects away, or also drops the references of a
digest. -/
theorem deleteManifest_cases (request : ManifestRequest) (backend : Backend) :
    (Within (deleteManifest request backend).2.store backend.store ∧
      (deleteManifest request backend).2.tables = backend.tables) ∨
    ∃ digest, DigestDeleted request backend (deleteManifest request backend).2 digest := by
  simp only [deleteManifest]
  have whole := Within.refl backend.store
  split
  · exact .inl ⟨whole, rfl⟩
  rename_i allowed
  split
  · exact .inl ⟨whole, rfl⟩
  · exact .inl ⟨whole.erase _, rfl⟩
  rename_i digest target
  obtain ⟨erased, named⟩ := deleteTagsForDigest_spec request.params digest
    (backend.store.erase (request.params.object digest))
  have within : Within _ backend.store := fun path bytes found =>
    whole.erase _ path bytes (erased path bytes found)
  split
  · exact .inl ⟨within, rfl⟩
  rename_i reached
  refine .inr ⟨digest, allowed, target, ?_, ?_, within, rfl⟩
  · intro reports
    by_cases present : request.params.object digest ∈ backend.store
    · exact .inl present
    · exact .inr (named fun none => reached ⟨reports, present, none⟩).of_erase
  · apply Option.eq_none_iff_forall_not_mem.mpr
    intro bytes found
    have before := erased _ bytes found
    simp at before

end SpectonCr.Registry
