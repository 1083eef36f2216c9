import SpectonCr.Registry.PromoteEffects
import SpectonCr.Registry.ReadBack

namespace SpectonCr.Registry

open Storage Gc
open Audit (AuditError AuditEvent)

/-- A request that changes an object has appended a row of its operation, and one that
is answered with `AuditUnavailable` changes none. -/
structure FailClosed (unchanged unavailable : Prop) (row : AuditEvent → Prop)
    (before after : RegistryAuditLog) : Prop where
  recorded : ¬ unchanged → ∃ event, row event ∧ after.rows = before.rows ++ [event]
  refused : unavailable → unchanged

section Log

variable {unchanged unavailable : Prop} {row : AuditEvent → Prop} {log : RegistryAuditLog}
  {call : AuditCall} {event : RegistryAuditEvent}

theorem failClosed_of_unchanged {after : RegistryAuditLog} (same : unchanged) :
    FailClosed unchanged unavailable row log after :=
  ⟨fun changed => absurd same changed, fun _ => same⟩

theorem failClosed_unrecorded : FailClosed unchanged unavailable row log log ↔ unchanged := by
  refine ⟨?_, failClosed_of_unchanged⟩
  intro closed
  by_contra changed
  obtain ⟨event, _, rows⟩ := closed.recorded changed
  simp at rows

theorem failClosed_recorded (recorded : log.record call event = (answer, after))
    (write : event.isWrite = true) (named : row event.toChained) (answered : unavailable → answer ≠ .ok ()) :
    FailClosed unchanged unavailable row log after ↔ call.sink = .ok () ∨ unchanged := by
  have rows : (log.record call event).2.rows = _ := record_rows_of_write write
  rw [recorded] at rows
  cases taken : call.sink with
  | ok done =>
    have success : (log.record call event).1 = .ok () := record_of_taken taken
    rw [recorded] at success
    rw [taken] at rows
    refine ⟨fun _ => .inl rfl, fun _ => ⟨fun _ => ⟨_, named, rows⟩, ?_⟩⟩
    exact fun refusal => absurd success (answered refusal)
  | error failure =>
    rw [taken] at rows
    constructor
    · intro closed
      refine .inr ?_
      by_contra changed
      obtain ⟨_, _, appended⟩ := closed.recorded changed
      rw [rows] at appended
      simp at appended
    · rintro (impossible | same)
      · cases impossible
      · exact failClosed_of_unchanged same

end Log

section Push

variable (env : Env) (call : AuditCall) (log : RegistryAuditLog) (request : ManifestRequest)
  (body : Bytes) (backend : Backend)

def PushAudited : Prop :=
  let result := putManifestLogged env call request body backend log
  FailClosed (∀ path, result.2.1.store.lookup path = backend.store.lookup path)
    (∃ reason, result.1 = .error (.refused (.auditUnavailable reason)))
    (· = (pushEvent request (env.sha.digest body) body call.durationMs).toChained) log result.2.2

/-- The manifest, and the link of a pushed tag, are stored as they are pushed. -/
def PushStored : Prop :=
  backend.store.lookup (request.params.object (env.sha.digest body)) = some body ∧
    (Text.startsWith request.params.reference "sha256:" = false →
      backend.store.lookup (request.params.tagLink request.params.reference) =
        some (env.sha.digest body).toUTF8)

/-- An accepted push is recorded, or finds everything stored. -/
def PushCovered : Prop :=
  request.params.authorize request.claims .push = .ok () → ∀ document, env.parse body = .ok document →
      (call.sink = .ok () ∧ isHeaderValue (location request.params (env.sha.digest body)) = true ∧
          env.ttlPanics request = false) ∨ PushStored env request body backend

variable {env request body backend}

theorem storeManifest_same_iff :
    (∀ path, (storeManifest params digest body store).lookup path = store.lookup path) ↔
      store.lookup (params.object digest) = some body ∧ (Text.startsWith params.reference "sha256:" = false →
          store.lookup (params.tagLink params.reference) = some digest.toUTF8) := by
  constructor
  · intro same
    refine ⟨?_, ?_⟩
    · rw [← same, lookup_storeManifest_object]
    · intro tag
      rw [← same, storeManifest, if_neg (by simp [tag])]
      exact AList.lookup_insert _
  · rintro ⟨manifest, link⟩ path
    by_cases object : path = params.object digest
    · rw [object, lookup_storeManifest_object, manifest]
    by_cases tagged : path = params.tagLink params.reference
    · subst tagged
      unfold storeManifest
      split
      · exact AList.lookup_insert_ne object
      · rename_i tag
        rw [AList.lookup_insert, link (by simpa using tag)]
    · exact lookup_storeManifest_ne object tagged

theorem pushAudited_iff :
    PushAudited env call log request body backend ↔ PushCovered env call request body backend := by
  unfold PushAudited PushCovered putManifestLogged
  cases allowed : request.params.authorize request.claims .push with
  | error refusal => simp [failClosed_unrecorded]
  | ok done =>
    cases parsed : env.parse body with
    | error reason => simp [failClosed_unrecorded]
    | ok document =>
      simp only [forall_const, Except.ok.injEq, forall_eq']
      by_cases panics : (env.ttlPanics request ||
          !isHeaderValue (location request.params (env.sha.digest body))) = true
      · rw [if_pos panics]
        have unanswered : ¬ (isHeaderValue (location request.params (env.sha.digest body)) = true ∧
            env.ttlPanics request = false) := by
          simpa [imp_iff_not_or, or_comm] using panics
        simp only [failClosed_unrecorded, unanswered, and_false, false_or]
        exact storeManifest_same_iff
      · rw [if_neg panics]
        simp only [Bool.or_eq_true, Bool.not_eq_true', not_or, Bool.not_eq_true, Bool.not_eq_false] at panics
        simp only [panics, and_true]
        cases recorded : log.record call (pushEvent request (env.sha.digest body) body call.durationMs) with
        | mk answer after =>
          rw [PushStored, ← storeManifest_same_iff]
          cases answer with
          | error reason | ok done => exact failClosed_recorded recorded rfl rfl (by simp)

end Push

section Delete

variable (call : AuditCall) (log : RegistryAuditLog) (request : ManifestRequest)
  (backend : Backend)

def DeleteAudited : Prop :=
  let result := deleteManifestLogged call request backend log
  FailClosed (∀ path, result.2.1.store.lookup path = backend.store.lookup path)
    (∃ reason, result.1 = .error (.auditUnavailable reason))
    (· = (deleteEvent request call.durationMs).toChained) log result.2.2

/-- No tag that the repository lists links to the digest. -/
def Untagged (store : ObjectStore) (params : ManifestRef) (digest : String) : Prop :=
  ∀ link ∈ list store (.ofString (tagsPrefix params.tenant params.project params.name)),
    ∀ tag, listedTag params link = some tag → readTagLink store params tag ≠ some digest

/-- An authorised delete of something is recorded. -/
def DeleteCovered : Prop :=
  request.params.authorize request.claims .delete = .ok () →
    ∀ digest byTag, deleteTarget backend.store request.params = .ok (digest, byTag) → call.sink = .ok () ∨
        (byTag = false ∧ request.params.object digest ∉ backend.store ∧
          Untagged backend.store request.params digest)

variable {call log request backend}

theorem readTagLink_erase_object (store : ObjectStore) (params : ManifestRef) (digest tag : String) :
    readTagLink (store.erase (params.object digest)) params tag = readTagLink store params tag := by
  rw [readTagLink, AList.lookup_erase_ne (params.object_ne_tagLink digest tag).symm]
  rfl

theorem mem_list_erase_object {store : ObjectStore} {params : ManifestRef} {digest : String}
    {link : StorePath} :
    link ∈ list (store.erase (params.object digest))
        (.ofString (tagsPrefix params.tenant params.project params.name)) ↔
      link ∈ list store (.ofString (tagsPrefix params.tenant params.project params.name)) := by
  simp only [list, Table.mem_keysWhere, AList.mem_erase, Bool.and_eq_true]
  constructor
  · rintro ⟨⟨_, present⟩, below⟩
    exact ⟨present, below⟩
  · rintro ⟨present, below⟩
    refine ⟨⟨?_, present⟩, below⟩
    rintro rfl
    obtain ⟨rest, parts⟩ := List.isPrefixOf_iff_prefix.mp below.1
    simp only [ManifestRef.object, StorePath.ofString, segments_tagsPrefix, segments_manifestPath,
      List.append_assoc, List.singleton_append] at parts
    have heads := List.append_cancel_left parts
    simp at heads

/-- Whether a link of the list names the digest. -/
def Named (store : ObjectStore) (params : ManifestRef) (digest : String) (links : List StorePath) : Prop :=
  ∃ link ∈ links, ∃ tag, listedTag params link = some tag ∧ readTagLink store params tag = some digest

variable (params : ManifestRef) (digest : String)

theorem deleteTag_kept (gone : StorePath) (links : List StorePath)
    (progress : ObjectStore × List String) (erased : gone ∉ progress.1) (removed : progress.2 ≠ []) :
    gone ∉ (links.foldl (deleteTag params digest) progress).1 ∧
      (links.foldl (deleteTag params digest) progress).2 ≠ [] := by
  induction links generalizing progress with
  | nil => exact ⟨erased, removed⟩
  | cons link rest ih =>
    rw [List.foldl_cons]
    unfold deleteTag
    split
    · exact ih progress erased removed
    split
    · refine ih _ ?_ (by simp)
      intro present
      exact erased (AList.mem_erase.mp present).2
    · exact ih progress erased removed

/-- The loop over the listed tags: nothing happens, or a link that was there is gone. -/
theorem foldl_deleteTag {store : ObjectStore} (links : List StorePath)
    (present : ∀ link ∈ links, link ∈ store) :
    (links.foldl (deleteTag params digest) (store, []) = (store, []) ∧ ¬ Named store params digest links) ∨
    ((∃ link ∈ store, link ∉ (links.foldl (deleteTag params digest) (store, [])).1) ∧
      (links.foldl (deleteTag params digest) (store, [])).2 ≠ [] ∧
      Named store params digest links) := by
  induction links with
  | nil => exact .inl ⟨rfl, by simp [Named]⟩
  | cons link rest ih =>
    obtain ⟨here, later⟩ := List.forall_mem_cons.mp present
    rw [List.foldl_cons]
    by_cases names : ∃ tag, listedTag params link = some tag ∧ readTagLink store params tag = some digest
    · obtain ⟨tag, listed, read⟩ := names
      have step : deleteTag params digest (store, []) link = (store.erase link, [tag]) := by
        simp [deleteTag, listed, read, here]
      rw [step]
      obtain ⟨erased, removed⟩ :=
        deleteTag_kept params digest link rest (store.erase link, [tag]) (by simp) (by simp)
      exact .inr ⟨⟨link, here, erased⟩, removed, link, List.mem_cons_self, tag, listed, read⟩
    · have step : deleteTag params digest (store, []) link = (store, []) := by
        unfold deleteTag
        split
        · rfl
        rename_i tag listed
        rw [if_neg]
        rintro ⟨read, _⟩
        exact names ⟨tag, listed, read⟩
      have same : Named store params digest (link :: rest) ↔ Named store params digest rest := by
        simp only [Named, List.mem_cons, exists_eq_or_imp, names, false_or]
      rw [step, same]
      exact ih later

theorem deleteTagsForDigest_cases (store : ObjectStore) :
    (deleteTagsForDigest params digest (store.erase (params.object digest)) =
        (store.erase (params.object digest), []) ∧ Untagged store params digest) ∨
    ((∃ link ∈ store, link ∉ (deleteTagsForDigest params digest (store.erase (params.object digest))).1) ∧
      (deleteTagsForDigest params digest (store.erase (params.object digest))).2 ≠ [] ∧
      ¬ Untagged store params digest) := by
  have named : Named (store.erase (params.object digest)) params digest
      (list (store.erase (params.object digest))
        (.ofString (tagsPrefix params.tenant params.project params.name))) ↔
      ¬ Untagged store params digest := by
    simp only [Named, Untagged, mem_list_erase_object, readTagLink_erase_object, not_forall,
      exists_prop, ne_eq, not_not]
  have cases := foldl_deleteTag params digest (list (store.erase (params.object digest))
      (.ofString (tagsPrefix params.tenant params.project params.name)))
    (fun link listed => (Table.mem_keysWhere.mp listed).1)
  rw [named, not_not] at cases
  rcases cases with ⟨idle, untagged⟩ | ⟨⟨link, present, gone⟩, removed, tagged⟩
  · exact .inl ⟨idle, untagged⟩
  · exact .inr ⟨⟨link, (AList.mem_erase.mp present).2, gone⟩, removed, tagged⟩

theorem deleteTarget_tag {store : ObjectStore} {params : ManifestRef} {digest : String}
    (target : deleteTarget store params = .ok (digest, true)) : params.tagLink params.reference ∈ store := by
  unfold deleteTarget at target
  split at target
  · cases target
  split at target
  · cases target
  split at target
  · rename_i read
    obtain ⟨bytes, found, _⟩ := Option.map_eq_some_iff.mp read
    rw [← AList.lookup_isSome, found]
    rfl
  · cases target

theorem changed_of_gone {before after : ObjectStore} {path : StorePath} (present : path ∈ before)
    (gone : path ∉ after) : ¬ ∀ path, after.lookup path = before.lookup path := by
  intro same
  rw [← AList.lookup_isSome] at present gone
  rw [same path] at gone
  exact gone present

theorem failClosed_deleted {after : Backend}
    (changed : ¬ ∀ path, after.store.lookup path = backend.store.lookup path) :
    let result : Except RegistryError Unit × Backend × RegistryAuditLog :=
      match log.record call (deleteEvent request call.durationMs) with
      | (.error reason, log) => (.error (.auditUnavailable reason), after, log)
      | (.ok (), log) => (.ok (), after, log)
    FailClosed (∀ path, result.2.1.store.lookup path = backend.store.lookup path)
      (∃ reason, result.1 = .error (.auditUnavailable reason))
      (· = (deleteEvent request call.durationMs).toChained) log result.2.2 ↔
    call.sink = .ok () := by
  cases recorded : log.record call (deleteEvent request call.durationMs) with
  | mk answer logged =>
    rw [← or_iff_left (a := call.sink = .ok ()) changed]
    cases answer with
    | error reason | ok done => exact failClosed_recorded recorded rfl rfl (by simp)

theorem deleteAudited_iff : DeleteAudited call log request backend ↔ DeleteCovered call request backend := by
  unfold DeleteAudited DeleteCovered
  simp only [deleteManifestLogged]
  cases allowed : request.params.authorize request.claims .delete with
  | error refusal => simp [failClosed_unrecorded]
  | ok done =>
    cases target : deleteTarget backend.store request.params with
    | error refusal => simp [failClosed_unrecorded]
    | ok found =>
      obtain ⟨digest, byTag⟩ := found
      simp only [forall_const, Except.ok.injEq, Prod.mk.injEq, and_imp, forall_eq', forall_apply_eq_imp_iff]
      cases byTag with
      | true =>
        dsimp only
        have gone : request.params.tagLink request.params.reference ∉
            backend.store.erase (request.params.tagLink request.params.reference) := by
          simp
        refine (failClosed_deleted (changed_of_gone (deleteTarget_tag target) gone)).trans ?_
        simp
      | false =>
        dsimp only
        rcases deleteTagsForDigest_cases request.params digest backend.store with
          ⟨idle, untagged⟩ | ⟨⟨link, present, gone⟩, removed, tagged⟩
        · rw [idle]
          by_cases stored : request.params.object digest ∈ backend.store
          · have gone : request.params.object digest ∉
                backend.store.erase (request.params.object digest) := by
              simp
            simp only [stored, not_true_eq_false, false_and, and_false, or_false, if_false]
            exact failClosed_deleted (changed_of_gone stored gone)
          · have kept : ∀ path, (backend.store.erase (request.params.object digest)).lookup path =
                backend.store.lookup path := by
              intro path
              by_cases same : path = request.params.object digest
              · rw [same, AList.lookup_erase, AList.lookup_eq_none.mpr stored]
              · exact AList.lookup_erase_ne same
            simp only [stored, not_false_eq_true, untagged, and_self, or_true, iff_true, and_true]
            -- A store that does not say that the object was absent lets the handler record the deletion.
            split
            · exact failClosed_of_unchanged kept
            · split <;> exact failClosed_of_unchanged kept
        · simp only [removed, tagged, and_false, or_false, if_false]
          exact failClosed_deleted (changed_of_gone present gone)

end Delete

section Upload

variable (sha : Sha256) (call : AuditCall) (log : RegistryAuditLog) (now : Time)
  (claims : TokenClaims) (params : UploadRef) (digest : Option String) (body : Bytes)
  (store : ObjectStore)

/-- The property for every object but the upload's own session. -/
def UploadAudited : Prop :=
  let result := completeBlobUploadLogged sha call now claims params digest body store log
  FailClosed (∀ path, path ≠ params.object → result.2.1.lookup path = store.lookup path)
    (∃ reason, result.1 = .error (.refused (.auditUnavailable reason)))
    (fun row => ∃ expected existing, digest = some expected ∧ store.lookup params.object = some existing ∧
      row = (blobEvent claims params now expected (existing ++ body) call.durationMs).toChained)
    log result.2.2

/-- A verified upload is recorded, or finds its blob stored. -/
def UploadCovered : Prop :=
  params.authorize claims = .ok () →
    ∀ expected, digest = some expected → ∀ existing, store.lookup params.object = some existing →
      sha.digest (existing ++ body) = expected → (call.sink = .ok () ∧
          (isHeaderValue (params.blobLocation expected) && isHeaderValue expected) = true) ∨
        store.lookup (params.blob expected) = some (existing ++ body)

variable {sha call log now claims params digest body store}

theorem UploadRef.blob_ne_object (params : UploadRef) (digest : String) :
    params.blob digest ≠ params.object := by
  intro same
  rw [blob, object, ofString_eq_iff, segments_blobPath, segments_uploadPath] at same
  have heads := List.append_cancel_left same
  simp at heads

theorem completed_same_iff : (∀ path, path ≠ params.object →
      ((store.insert (params.blob expected) data).erase params.object).lookup path = store.lookup path) ↔
    store.lookup (params.blob expected) = some data := by
  constructor
  · intro same
    rw [← same _ (params.blob_ne_object expected),
      AList.lookup_erase_ne (params.blob_ne_object expected), AList.lookup_insert]
  · intro stored path apart
    rw [AList.lookup_erase_ne apart]
    by_cases blob : path = params.blob expected
    · rw [blob, AList.lookup_insert, stored]
    · exact AList.lookup_insert_ne blob

theorem uploadAudited_iff : UploadAudited sha call log now claims params digest body store ↔
      UploadCovered sha call claims params digest body store := by
  unfold UploadAudited UploadCovered completeBlobUploadLogged
  cases allowed : params.authorize claims with
  | error refusal => simp [failClosed_unrecorded]
  | ok done =>
    cases digest with
    | none => simp [failClosed_unrecorded]
    | some expected =>
      cases session : store.lookup params.object with
      | none => simp [failClosed_unrecorded]
      | some existing =>
        simp only [forall_const, Option.some.injEq, forall_eq']
        by_cases verified : sha.digest (existing ++ body) = expected
        · simp only [verified, ne_eq, not_true_eq_false, if_false, forall_const]
          cases isHeaderValue (params.blobLocation expected) && isHeaderValue expected with
          | false =>
            simp only [Bool.not_false, if_true, failClosed_unrecorded, Bool.false_eq_true,
              and_false, false_or]
            exact completed_same_iff
          | true =>
            simp only [Bool.not_true, Bool.false_eq_true, if_false, and_true]
            rw [← completed_same_iff]
            cases recorded : log.record call
                (blobEvent claims params now expected (existing ++ body) call.durationMs) with
            | mk answer after =>
              cases answer with
              | error reason | ok done =>
                exact failClosed_recorded recorded rfl ⟨expected, existing, rfl, rfl, rfl⟩ (by simp)
        · simp [verified, failClosed_unrecorded]

end Upload

section Promotion

variable (lib : PromoteLib) (config : PromoteConfig) (call : AuditCall) (log : RegistryAuditLog)
  (id : Uuid) (claims : TokenClaims) (now : Time) (body : PromoteBody) (stores : PromoteStores)
  (cache : Admission.DecisionCache)

def PromoteAudited : Prop :=
  let result := promoteHandler lib config call id claims now body ⟨stores, cache, log⟩
  FailClosed (stores.Same result.2.stores) (∃ reason, result.1 = .error (.auditUnavailable reason))
    (fun row => ∃ dest outcome, ImageRef.parse body.dest = .ok dest ∧ result.1 = .ok outcome ∧
      row = (promoteEvent claims now dest outcome).toChained)
    log result.2.log

/-- A promotion is recorded and finds every object in its source, or has nothing to
write. -/
def RequestCovered (request : PromoteRequest) : Prop :=
  request.mode ≠ .dryRun →
    ∀ srcDigest bytes, resolveDigest stores.store request.source = .ok (srcDigest, bytes) →
      ∀ manifest, lib.parse bytes = .ok manifest → (call.sink = .ok () ∧
          SourceComplete stores request.source (collectReferencedDigests manifest)) ∨
        AlreadyPromoted lib request srcDigest (collectReferencedDigests manifest) stores

def PromoteCovered : Prop :=
  ∀ request after, promoteChecks config claims now body stores.store cache = (.ok request, after) →
      RequestCovered lib call stores request

variable {lib config call log id claims now body stores cache}

theorem promoteChecks_ok
    (passed : promoteChecks config claims now body stores.store cache = (.ok request, after)) :
    ImageRef.parse body.source = .ok request.source ∧ ImageRef.parse body.dest = .ok request.dest := by
  unfold promoteChecks at passed
  dsimp only at passed
  split at passed
  · cases passed
  rename_i source dest parsed
  have refs : ImageRef.parse body.source = .ok source ∧ ImageRef.parse body.dest = .ok dest := by
    split at parsed
    · cases parsed
    obtain ⟨one, first, parsed⟩ := bind_ok parsed
    obtain ⟨two, second, parsed⟩ := bind_ok parsed
    obtain ⟨_, _, parsed⟩ := bind_ok parsed
    obtain ⟨_, _, parsed⟩ := bind_ok parsed
    cases parsed
    exact ⟨first, second⟩
  split at passed
  · rename_i policy _
    cases gate : policyGate config now source dest policy stores.store cache with
    | mk answer later =>
      rw [gate] at passed
      cases answer with
      | error refusal => cases passed
      | ok done =>
        obtain ⟨made, _⟩ := Prod.mk.inj passed
        cases made
        exact refs
  · obtain ⟨made, _⟩ := Prod.mk.inj passed
    cases made
    exact refs

theorem PromoteStores.Same.refl (stores : PromoteStores) : stores.Same stores := ⟨fun _ => rfl, fun _ => rfl⟩

theorem promote_idle
    (idle : request.mode ≠ .dryRun → ∀ srcDigest bytes, resolveDigest stores.store request.source
      = .ok (srcDigest, bytes) → ∀ manifest, lib.parse bytes ≠ .ok manifest) :
    (promote lib id request stores).2 = stores := by
  unfold promote
  dsimp only
  split
  · rfl
  rename_i srcDigest bytes resolved
  split
  · rfl
  rename_i manifest parsed
  split
  · rfl
  · rename_i writes
    exact absurd parsed (idle writes srcDigest bytes resolved manifest)

theorem requestCovered_iff (id : Uuid) (plain : request.source.Plain) (destPlain : request.dest.Plain) :
    RequestCovered lib call stores request ↔
      match promote lib id request stores with
      | (.error _, after) => stores.Same after
      | (.ok _, after) => call.sink = .ok () ∨ stores.Same after := by
  by_cases starts : request.mode ≠ .dryRun ∧ ∃ srcDigest bytes manifest,
      resolveDigest stores.store request.source = .ok (srcDigest, bytes) ∧ lib.parse bytes = .ok manifest
  · obtain ⟨writes, srcDigest, bytes, manifest, resolved, parsed⟩ := starts
    have same := promote_same_iff plain destPlain resolved parsed writes id
    have covered : RequestCovered lib call stores request ↔ (call.sink = .ok () ∧
          SourceComplete stores request.source (collectReferencedDigests manifest)) ∨
        AlreadyPromoted lib request srcDigest (collectReferencedDigests manifest) stores := by
      simp [RequestCovered, writes, resolved, parsed]
    rw [covered, ← same]
    by_cases complete : SourceComplete stores request.source (collectReferencedDigests manifest)
    · obtain ⟨outcome, copied, run, _⟩ :=
        promote_complete plain destPlain resolved parsed writes id complete
      rw [run]
      simp only [complete, and_true]
    · obtain ⟨digest, after, run, _⟩ :=
        promote_incomplete plain destPlain resolved parsed writes id complete
      rw [run]
      simp only [complete, and_false, false_or]
  · have idle : (promote lib id request stores).2 = stores := by
      refine promote_idle ?_
      intro writes srcDigest bytes resolved manifest parsed
      exact starts ⟨writes, srcDigest, bytes, manifest, resolved, parsed⟩
    have covered : RequestCovered lib call stores request := by
      intro writes srcDigest bytes resolved manifest parsed
      exact absurd ⟨writes, srcDigest, bytes, manifest, resolved, parsed⟩ starts
    cases run : promote lib id request stores with
    | mk answer after =>
      rw [run] at idle
      subst idle
      cases answer with
      | error refusal => exact iff_of_true covered (.refl _)
      | ok outcome => exact iff_of_true covered (.inr (.refl _))

theorem promoteAudited_iff : PromoteAudited lib config call log id claims now body stores cache ↔
      PromoteCovered lib config call claims now body stores cache := by
  unfold PromoteAudited promoteHandler
  cases checks : promoteChecks config claims now body stores.store cache with
  | mk answer after =>
    cases answer with
    | error refusal =>
      have covered : PromoteCovered lib config call claims now body stores cache := by
        simp [PromoteCovered, checks]
      exact iff_of_true (failClosed_of_unchanged (.refl stores)) covered
    | ok request =>
      obtain ⟨source, dest⟩ := promoteChecks_ok checks
      have covered : PromoteCovered lib config call claims now body stores cache ↔
          RequestCovered lib call stores request := by
        simp [PromoteCovered, checks]
      rw [covered, requestCovered_iff id (ImageRef.parse_plain source) (ImageRef.parse_plain dest)]
      dsimp only
      cases run : promote lib id request stores with
      | mk answer left =>
        cases answer with
        | error refusal => exact failClosed_unrecorded
        | ok outcome =>
          dsimp only
          cases recorded : log.record call (promoteEvent claims now request.dest outcome) with
          | mk taken logged =>
            exact failClosed_recorded recorded rfl ⟨request.dest, outcome, dest, rfl, rfl⟩ (by simp)

end Promotion

/-- When the writes of the registry fail closed, handler by handler. -/
theorem writes_fail_closed_iff (env : Env) (lib : PromoteLib) (config : PromoteConfig) (call : AuditCall)
    (log : RegistryAuditLog) :
    (∀ request body backend, PushAudited env call log request body backend ↔
        PushCovered env call request body backend) ∧
    (∀ request backend, DeleteAudited call log request backend ↔ DeleteCovered call request backend) ∧
    (∀ now claims params digest body store,
      UploadAudited env.sha call log now claims params digest body store ↔
        UploadCovered env.sha call claims params digest body store) ∧
    (∀ id claims now body stores cache, PromoteAudited lib config call log id claims now body stores cache ↔
        PromoteCovered lib config call claims now body stores cache) := by
  refine ⟨?_, ?_, ?_, ?_⟩
  · intro request body backend
    exact pushAudited_iff call log
  · intro request backend
    exact deleteAudited_iff
  · intro now claims params digest body store
    exact uploadAudited_iff
  · intro id claims now body stores cache
    exact promoteAudited_iff

/-- A sink that cannot be reached. -/
def downSink : AuditCall := ⟨.error (.unavailable "down"), false, 0⟩

def closedLog : RegistryAuditLog := ⟨[], [], true⟩

/-- A push that is refused because the sink is down has stored its manifest and tag. -/
theorem refused_push_stored :
    (putManifestLogged emptyObjectEnv downSink (pushOf "latest") emptyObject ⟨∅, .empty⟩ closedLog).1 =
      .error (.refused (.auditUnavailable "backend unavailable: down")) ∧
    ((putManifestLogged emptyObjectEnv downSink (pushOf "latest") emptyObject ⟨∅, .empty⟩
        closedLog).2.1.store.lookup ((pushOf "latest").params.tagLink "latest")).isSome = true ∧
    ¬ PushAudited emptyObjectEnv downSink closedLog (pushOf "latest") emptyObject ⟨∅, .empty⟩ := by
  have answered : (putManifestLogged emptyObjectEnv downSink (pushOf "latest") emptyObject
      ⟨∅, .empty⟩ closedLog).1 = .error (.refused (.auditUnavailable "backend unavailable: down")) := by
    decide +kernel
  have linked : ((putManifestLogged emptyObjectEnv downSink (pushOf "latest") emptyObject
      ⟨∅, .empty⟩ closedLog).2.1.store.lookup ((pushOf "latest").params.tagLink "latest")).isSome = true := by
    decide +kernel
  refine ⟨answered, linked, ?_⟩
  intro audited
  have same := audited.refused ⟨_, answered⟩ ((pushOf "latest").params.tagLink "latest")
  rw [same] at linked
  cases linked

end SpectonCr.Registry
