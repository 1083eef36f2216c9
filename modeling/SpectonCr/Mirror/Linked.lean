import SpectonCr.Mirror.Routing
import SpectonCr.Registry.Image

namespace SpectonCr.Mirror

open Storage Registry

/-- The cache index of the repository. -/
def indexOf (params : ManifestRef) : StorePath :=
  .ofString (cacheIndexPath params.tenant params.project params.name)

/-- The time the index at the path has for the digest. -/
def entryTime (service : MirrorService) (store : ObjectStore) (path : StorePath)
    (digest : String) : Option Time :=
  ((service.loadIndex store path).find? fun entry => entry.digest = digest).map CacheEntry.cachedAt

def MirrorCall.now : MirrorCall → Time
  | .manifest _ now _ => now
  | .blob _ now _ => now

def MirrorCall.answer (service : MirrorService) (sha : Sha256) (store : ObjectStore) :
    MirrorCall → Except MirrorError MirrorFetchResult
  | .manifest params now answers => (service.fetchManifest sha now params answers store).1
  | .blob params now answers => (service.fetchBlob now params answers store).1

/-- The time that is on record for the digest after a call: a call of the repository that was
answered under the digest sets it. -/
def MirrorCall.noted (service : MirrorService) (sha : Sha256) (path : StorePath) (digest : String)
    (store : ObjectStore) (call : MirrorCall) (found : Option Time) : Option Time :=
  match call.answer service sha store with
  | .ok result =>
    if indexOf call.params = path ∧ result.digest = digest then some call.now else found
  | .error _ => found

def recordedAt (service : MirrorService) (sha : Sha256) (path : StorePath) (digest : String) :
    ObjectStore → List MirrorCall → Option Time → Option Time
  | _, [], found => found
  | store, call :: rest, found =>
    recordedAt service sha path digest (mirrorStep service sha store call) rest
      (call.noted service sha path digest store found)

open MirrorService

section Index

variable {service : MirrorService} {sha : Sha256} {path : StorePath} {digest : String}
  {store : ObjectStore}

theorem loadIndex_insert_ne (apart : path ≠ other) (data : Bytes) :
    service.loadIndex (store.insert other data) path = service.loadIndex store path := by
  rw [loadIndex, loadIndex, AList.lookup_insert_ne apart]

theorem entryTime_congr (same : service.loadIndex after path = service.loadIndex store path) :
    entryTime service after path digest = entryTime service store path digest := by
  rw [entryTime, entryTime, same]

theorem entryTime_recordCached
    (lawful : ∀ entries, service.codec.decode (service.codec.encode entries) = some entries)
    (params : ManifestRef) (entry : CacheEntry) :
    entryTime service (service.recordCached params.tenant params.project params.name entry store)
        path digest =
      if indexOf params = path ∧ entry.digest = digest then some entry.cachedAt
      else entryTime service store path digest := by
  by_cases here : indexOf params = path
  · subst here
    have loaded : service.loadIndex
        (service.recordCached params.tenant params.project params.name entry store)
        (indexOf params) = (service.loadIndex store (indexOf params)).filter
            (fun old => old.digest ≠ entry.digest) ++ [entry] := by
      simp only [loadIndex, recordCached, indexOf, AList.lookup_insert,
        Option.bind_some, lawful, Option.getD_some]
    rw [entryTime, loaded, List.find?_append]
    by_cases same : entry.digest = digest
    · have none : ((service.loadIndex store (indexOf params)).filter
          (fun old => old.digest ≠ entry.digest)).find? (fun old => old.digest = digest) = Option.none := by
        rw [List.find?_eq_none]
        intro old member
        have kept := of_decide_eq_true (List.mem_filter.mp member).2
        simpa [same] using kept
      rw [none]
      simp [same]
    · have others : ((service.loadIndex store (indexOf params)).filter
          (fun old => old.digest ≠ entry.digest)).find? (fun old => old.digest = digest) =
            (service.loadIndex store (indexOf params)).find? (fun old => old.digest = digest) := by
        rw [List.find?_filter]
        congr 1
        funext old
        by_cases mine : old.digest = digest
        · simp [mine, Ne.symm same]
        · simp [mine]
      rw [others]
      simp [same, entryTime]
  · have apart : path ≠ indexOf params := fun same => here same.symm
    rw [if_neg fun both => here both.1]
    exact entryTime_congr (loadIndex_insert_ne apart _)

theorem index_ne_of_parts (plain : PlainRepo params.tenant params.project params.name)
    (parts : other.parts = tenant :: project :: repo :: kind :: rest) (apart : kind ≠ ".mirror") :
    indexOf params ≠ other := by
  intro same
  have layout := congrArg StorePath.parts same
  rw [indexOf, parts_cacheIndexPath plain, parts] at layout
  simp only [List.cons.injEq] at layout
  exact apart layout.2.2.2.1.symm

theorem loadIndex_storeManifest (plain : PlainRepo params.tenant params.project params.name)
    (repo : PlainRepo stored.tenant stored.project stored.name) (hash : String) (body : Bytes) :
    service.loadIndex (storeManifest stored hash body store) (indexOf params) =
      service.loadIndex store (indexOf params) := by
  have object : indexOf params ≠ stored.object hash :=
    index_ne_of_parts plain (parts_manifestPath repo hash) (by decide)
  have link : indexOf params ≠ stored.tagLink stored.reference :=
    index_ne_of_parts plain (parts_tagLinkPath repo stored.reference) (by decide)
  unfold storeManifest
  simp only
  split
  · exact loadIndex_insert_ne object body
  · rw [loadIndex_insert_ne link, loadIndex_insert_ne object]

variable (lawful : ∀ entries, service.codec.decode (service.codec.encode entries) = some entries)
include lawful

theorem entryTime_mirrorStep (plain : PlainRepo params.tenant params.project params.name)
    (repo : PlainRepo call.params.tenant call.params.project call.params.name) :
    entryTime service (mirrorStep service sha store call) (indexOf params) digest =
      call.noted service sha (indexOf params) digest store
        (entryTime service store (indexOf params) digest) := by
  cases call with
  | manifest fetched now answers =>
    have owner : PlainRepo fetched.tenant fetched.project fetched.name := repo
    simp only [mirrorStep, MirrorCall.noted, MirrorCall.answer]
    rcases fetchManifest_cases service sha now fetched answers store with
      ⟨error, failed⟩ | ⟨_, response, entry, _, _, _, timed, cached⟩
    · rw [failed]
    rw [cached]
    simp only
    rw [entryTime_recordCached lawful, timed,
      entryTime_congr (loadIndex_storeManifest plain owner entry.digest response.data)]
    rfl
  | blob fetched now answers =>
    have owner : PlainRepo fetched.tenant fetched.project fetched.name := repo
    simp only [mirrorStep, MirrorCall.noted, MirrorCall.answer]
    rcases fetchBlob_cases service now fetched answers store with
      ⟨error, failed⟩ | ⟨_, response, entry, _, _, named, timed, cached⟩
    · rw [failed]
    rw [cached]
    simp only
    have apart : indexOf params ≠
        .ofString (blobPath fetched.tenant fetched.project fetched.name fetched.reference) :=
      index_ne_of_parts plain (parts_blobPath owner fetched.reference) (by decide)
    rw [entryTime_recordCached lawful, named, timed,
      entryTime_congr (loadIndex_insert_ne apart response.data)]
    rfl

/-- After any fetches, the index has the time that is on record for the digest. -/
theorem entryTime_after (plain : PlainRepo params.tenant params.project params.name)
    (repos : ∀ call ∈ calls, PlainRepo call.params.tenant call.params.project call.params.name) :
    entryTime service (Run.after (mirrorStep service sha) store calls) (indexOf params) digest =
      recordedAt service sha (indexOf params) digest store calls
        (entryTime service store (indexOf params) digest) := by
  induction calls generalizing store with
  | nil => rfl
  | cons call rest ih =>
    have first := repos call List.mem_cons_self
    rw [recordedAt, ← entryTime_mirrorStep lawful plain first]
    exact ih fun later member => repos later (List.mem_cons_of_mem call member)

end Index

section Scope

variable {service : MirrorService} {store : ObjectStore}

theorem firstAnswer_ne_notInScope : firstAnswer answers indices allNotFound last ≠ .error .notInScope := by
  induction indices generalizing allNotFound last with
  | nil =>
    cases allNotFound with
    | true => nofun
    | false => cases last <;> nofun
  | cons index rest ih =>
    rw [firstAnswer]
    split
    · nofun
    · exact ih

theorem ask_ne_notInScope : service.ask tenant answers ≠ .error .notInScope := by
  simp only [ask]
  split
  · nofun
  · exact firstAnswer_ne_notInScope

/-- In the scope `ManifestLinked` a blob is refused exactly when the index does not have its
digest, or has it from the future. -/
theorem fetchBlob_in_scope_iff (linked : service.scope = .manifestLinked) (now : Time)
    (params : ManifestRef) (answers : Answers) :
    (service.fetchBlob now params answers store).1 ≠ .error .notInScope ↔
      ∃ time ∈ entryTime service store (indexOf params) params.reference,
        0 ≤ (now - time).tdiv 1000000000 := by
  have index : service.isBlobManifestLinked now params.tenant params.project params.name
      params.reference store = true ↔ ∃ time ∈ entryTime service store (indexOf params) params.reference,
          0 ≤ (now - time).tdiv 1000000000 := by
    unfold isBlobManifestLinked entryTime indexOf
    cases (service.loadIndex store (.ofString (cacheIndexPath params.tenant params.project
      params.name))).find? fun entry => entry.digest = params.reference with
    | none => simp
    | some entry => simp
  rw [← index]
  simp only [fetchBlob, linked, MirrorScope.tenantProjectEligible, Bool.not_true,
    Bool.false_eq_true, if_false, true_and]
  by_cases present : service.isBlobManifestLinked now params.tenant params.project params.name
      params.reference store = true
  · rw [if_neg (not_not.mpr present)]
    refine iff_of_true ?_ present
    cases asked : service.ask params.tenant answers with
    | error error =>
      intro refused
      have same : error = .notInScope := Except.error.inj refused
      exact ask_ne_notInScope (same ▸ asked)
    | ok answered => simp
  · rw [if_pos present]
    exact iff_of_false (fun kept => kept rfl) present

end Scope

/-- The digests of the configuration and of the layers that a fetched manifest names. -/
def namedBlobs (parse : Bytes → Except String Json) : Except MirrorError MirrorFetchResult → List String
  | .error _ => []
  | .ok result =>
    match parse result.data with
    | .error _ => []
    | .ok document =>
      (documentParts document).filterMap fun part =>
        match part with
        | .blob digest => some digest
        | .manifest _ => none

theorem cached_image_in_scope_iff (service : MirrorService) (linked : service.scope = .manifestLinked)
    (lawful : ∀ entries, service.codec.decode (service.codec.encode entries) = some entries)
    (sha : Sha256) (parse : Bytes → Except String Json) (start : ObjectStore)
    (front back : List MirrorCall) (params : ManifestRef) (fetched : Time) (answers : Answers)
    (repos : ∀ call ∈ front ++ .manifest params fetched answers :: back,
      PlainRepo call.params.tenant call.params.project call.params.name)
    (now : Time) (later : Answers) :
    (∀ digest ∈ namedBlobs parse (service.fetchManifest sha fetched params answers
        (Run.after (mirrorStep service sha) start front)).1,
      (service.fetchBlob now { params with reference := digest } later
        (Run.after (mirrorStep service sha) start
          (front ++ .manifest params fetched answers :: back))).1 ≠ .error .notInScope) ↔
    ∀ digest ∈ namedBlobs parse (service.fetchManifest sha fetched params answers
        (Run.after (mirrorStep service sha) start front)).1,
      ∃ time ∈ recordedAt service sha (indexOf params) digest start
          (front ++ .manifest params fetched answers :: back)
          (entryTime service start (indexOf params) digest),
        0 ≤ (now - time).tdiv 1000000000 := by
  have plain : PlainRepo params.tenant params.project params.name :=
    repos (.manifest params fetched answers) (by simp)
  refine forall₂_congr fun digest _ => ?_
  rw [fetchBlob_in_scope_iff linked, ← entryTime_after lawful plain repos]
  exact Iff.rfl

/-- The numbers of an entry, for a codec whose law is easy to see. -/
def CacheEntry.code (entry : CacheEntry) : List ℕ × List ℕ × List ℕ × List ℕ × ℤ × ℕ :=
  (entry.digest.toList.map Char.toNat, entry.upstreamName.toList.map Char.toNat,
    entry.upstreamRepo.toList.map Char.toNat, entry.contentType.toList.map Char.toNat,
    entry.cachedAt, entry.size)

def CacheEntry.ofCode (code : List ℕ × List ℕ × List ℕ × List ℕ × ℤ × ℕ) : CacheEntry :=
  let text (numbers : List ℕ) := String.ofList (numbers.map Char.ofNat)
  ⟨text code.1, text code.2.1, text code.2.2.1, code.2.2.2.2.1, code.2.2.2.2.2, text code.2.2.2.1⟩

theorem CacheEntry.ofCode_code (entry : CacheEntry) : ofCode entry.code = entry := by
  simp [ofCode, code, Function.comp_def]

/-- An index as that many bytes. -/
def countingCodec : CacheCodec where
  encode entries := ⟨Array.replicate (Encodable.encode (entries.map CacheEntry.code)) 0⟩
  decode data := (Encodable.decode data.size).map (List.map CacheEntry.ofCode)

theorem countingCodec_lawful (entries : List CacheEntry) :
    countingCodec.decode (countingCodec.encode entries) = some entries := by
  have size : (countingCodec.encode entries).size =
      Encodable.encode (entries.map CacheEntry.code) := Array.size_replicate
  have decoded : countingCodec.decode (countingCodec.encode entries) =
      some ((entries.map CacheEntry.code).map CacheEntry.ofCode) := by
    change (Encodable.decode (countingCodec.encode entries).size).map _ = _
    rw [size, Encodable.encodek, Option.map_some]
  rw [decoded, List.map_map]
  simp [Function.comp_def, CacheEntry.ofCode_code]

/-- One upstream, in the scope `ManifestLinked`. -/
def linkedMirror : MirrorService where
  upstreams := ["hub"]
  tenantRouting := ∅
  scope := .manifestLinked
  codec := countingCodec

/-- What the upstream answers with the image, under the digest. -/
def imageAnswers (digest : String) : Answers := fun _ =>
  .ok ⟨"image".toUTF8, "application/vnd.oci.image.manifest.v1+json", some digest⟩

/-- The image is fetched by its tag. -/
def tagFetch : MirrorCall := .manifest (sampleImage "latest") 0 (imageAnswers "sha256:m")

/-- The digest of the layer is fetched as that of a manifest. -/
def layerFetch : MirrorCall := .manifest (sampleImage "sha256:l") 0 (imageAnswers "sha256:l")

/-- A layer that was fetched as a manifest before is in scope. -/
theorem fetched_layer_in_scope : namedBlobs twoDocuments.parse (linkedMirror.fetchManifest twoDocuments.sha 0
        (sampleImage "latest") (imageAnswers "sha256:m")
        (Run.after (mirrorStep linkedMirror twoDocuments.sha) ∅ [layerFetch])).1 = ["sha256:l"] ∧
      (linkedMirror.fetchBlob 0 (sampleImage "sha256:l") (imageAnswers "sha256:l")
        (Run.after (mirrorStep linkedMirror twoDocuments.sha) ∅ [layerFetch, tagFetch])).1 ≠
        .error .notInScope := by
  have named : namedBlobs twoDocuments.parse (linkedMirror.fetchManifest twoDocuments.sha 0
      (sampleImage "latest") (imageAnswers "sha256:m")
      (Run.after (mirrorStep linkedMirror twoDocuments.sha) ∅ [layerFetch])).1 = ["sha256:l"] := by
    decide +kernel
  refine ⟨named, ?_⟩
  refine (cached_image_in_scope_iff linkedMirror rfl countingCodec_lawful twoDocuments.sha
    twoDocuments.parse ∅ [layerFetch] [] (sampleImage "latest") 0 (imageAnswers "sha256:m")
    (by decide) 0 (imageAnswers "sha256:l")).mpr ?_ "sha256:l" ?_
  · intro digest member
    rw [named, List.mem_singleton] at member
    subst member
    decide +kernel
  · rw [named]
    exact List.mem_cons_self

/-- The layer of an image that was fetched by its tag is not in scope. -/
theorem layer_of_fetched_image_refused :
    namedBlobs twoDocuments.parse (linkedMirror.fetchManifest twoDocuments.sha 0
        (sampleImage "latest") (imageAnswers "sha256:m") ∅).1 = ["sha256:l"] ∧
      (linkedMirror.fetchBlob 0 (sampleImage "sha256:l") (imageAnswers "sha256:l")
        (Run.after (mirrorStep linkedMirror twoDocuments.sha) ∅ [tagFetch])).1 =
        .error .notInScope := by
  have index : entryTime linkedMirror (Run.after (mirrorStep linkedMirror twoDocuments.sha) ∅ [tagFetch])
      (indexOf (sampleImage "sha256:l")) (sampleImage "sha256:l").reference = none :=
    (entryTime_after countingCodec_lawful (by decide) (by decide)).trans (by decide +kernel)
  refine ⟨(by decide +kernel), ?_⟩
  by_contra kept
  obtain ⟨time, listed, _⟩ := (fetchBlob_in_scope_iff rfl 0 _ _).mp kept
  rw [index] at listed
  cases listed

end SpectonCr.Mirror
