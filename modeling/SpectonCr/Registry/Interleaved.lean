import SpectonCr.Base.Interleaving
import SpectonCr.Registry.ContentAddressing

namespace SpectonCr.Registry

open Storage Gc Interleaving

/-- The fields of a replication event that the receiver of a delete reads. -/
structure ReplicationEvent where
  (tenant project repo reference digest : String)

def ReplicationEvent.params (event : ReplicationEvent) : ManifestRef :=
  ⟨event.tenant, event.project, event.repo, event.reference⟩

structure StoreEnv extends Env where
  /-- `serde_json::from_slice::<ReplicationEvent>`, with the text of its error. -/
  parseEvent : Bytes → Except String ReplicationEvent
  /-- The text of the store's error for an object that is not there. -/
  notFound : StorePath → String

def internalReplicateDelete (env : StoreEnv) (body : Bytes) (store : ObjectStore) :
    Except RegistryError Unit × ObjectStore :=
  match env.parseEvent body with
  | .error reason => (.error (.internal ("invalid replication event: " ++ reason)), store)
  | .ok event =>
    if Text.startsWith event.reference "sha256:" then
      (.ok (), (deleteTagsForDigest event.params event.digest
        (store.erase (event.params.object event.digest))).1)
    else (.ok (), store.erase (event.params.tagLink event.reference))

inductive StoreRequest where
  | put (request : ManifestRequest) (body : Bytes)
  | delete (request : ManifestRequest)
  | replicateManifest (headers : Headers) (body : Bytes) (audit : Except String Unit)
  | replicateDelete (body : Bytes)

inductive StoreAnswer where
  | created (answer : Except Failure Created)
  /-- A push ended after its last store operation, over its TTL. -/
  | panicked
  | done (answer : Except RegistryError Unit)

/-- A delete by digest, with its answers when it found nothing and when it did. -/
structure Deletion where
  params : ManifestRef
  digest : String
  (unknown answer : StoreAnswer)

/-- What a scan over the listed links has in hand. -/
structure Scan where
  deletion : Deletion
  existed : Bool
  removed : List String
  tag : String
  link : StorePath
  rest : List StorePath

/-- A handler that is about to do the store operation its name says. -/
inductive Flight where
  | storing (params : ManifestRef) (digest : String) (body : Bytes) (answer : StoreAnswer)
  | linking (params : ManifestRef) (digest : String) (answer : StoreAnswer)
  | resolving (params : ManifestRef) (gone answer : StoreAnswer)
  | unlinking (params : ManifestRef) (gone answer : StoreAnswer)
  | removing (deletion : Deletion)
  | listing (deletion : Deletion) (existed : Bool)
  | reading (scan : Scan)
  | erasing (scan : Scan)

/-- The loop of `delete_tags_for_digest` up to its next store operation. -/
def scanLinks (deletion : Deletion) (existed : Bool) (removed : List String) :
    List StorePath → Flight ⊕ StoreAnswer
  | [] => .inr (if !existed && removed.isEmpty then deletion.unknown else deletion.answer)
  | link :: rest =>
    match listedTag deletion.params link with
    | none => scanLinks deletion existed removed rest
    | some tag => .inl (.reading ⟨deletion, existed, removed, tag, link, rest⟩)

/-- The next store operation of a flight. -/
def Flight.operate : Flight → ObjectStore → ObjectStore × (Flight ⊕ StoreAnswer)
  | .storing params digest body answer, store =>
    (store.insert (params.object digest) body,
      if Text.startsWith params.reference "sha256:" then .inr answer
      else .inl (.linking params digest answer))
  | .linking params digest answer, store =>
    (store.insert (params.tagLink params.reference) digest.toUTF8, .inr answer)
  | .resolving params gone answer, store =>
    (store, match readTagLink store params params.reference with
      | none => .inr (.done (.error (.manifestUnknown params.reference)))
      | some _ => .inl (.unlinking params gone answer))
  | .unlinking params gone answer, store =>
    (store.erase (params.tagLink params.reference),
      .inr (if params.tagLink params.reference ∈ store then answer else gone))
  | .removing deletion, store =>
    (store.erase (deletion.params.object deletion.digest),
      .inl (.listing deletion (deletion.params.object deletion.digest ∈ store)))
  | .listing deletion existed, store =>
    (store, scanLinks deletion existed []
      (list store (.ofString (tagsPrefix deletion.params.tenant deletion.params.project
        deletion.params.name))))
  | .reading scan, store =>
    (store,
      if readTagLink store scan.deletion.params scan.tag = some scan.deletion.digest then
        .inl (.erasing scan)
      else scanLinks scan.deletion scan.existed scan.removed scan.rest)
  | .erasing scan, store =>
    if scan.link ∈ store then
      (store.erase scan.link, scanLinks scan.deletion scan.existed (scan.removed ++ [scan.tag]) scan.rest)
    else (store, scanLinks scan.deletion scan.existed scan.removed scan.rest)

def launchPut (env : Env) (request : ManifestRequest) (body : Bytes) : Flight ⊕ StoreAnswer :=
  match request.params.authorize request.claims .push with
  | .error error => .inr (.created (.error (.refused error)))
  | .ok () =>
    match env.parse body with
    | .error reason => .inr (.created (.error (.refused (.manifestInvalid reason))))
    | .ok _ =>
      let digest := env.sha.digest body
      .inl (.storing request.params digest body
        (if env.ttlPanics request then .panicked else .created (pushAnswer request digest)))

/-- The digest a delete reference spells out, when it is not a tag. -/
def spelledDigest (reference : String) : Option String :=
  match Text.stripPrefix reference "sha256-" with
  | some hex => some ("sha256:" ++ hex)
  | none => if Text.startsWith reference "sha256:" then some reference else none

def launchDelete (env : StoreEnv) (request : ManifestRequest) : Flight ⊕ StoreAnswer :=
  let params := request.params
  let audited := StoreAnswer.done (request.audit.mapError RegistryError.auditUnavailable)
  let absent (error : RegistryError) := if request.reportsAbsent then .done (.error error) else audited
  match params.authorize request.claims .delete with
  | .error error => .inr (.done (.error error))
  | .ok () =>
    match spelledDigest params.reference with
    | some digest => .inl (.removing
        ⟨params, digest, absent (.manifestUnknown params.reference), audited⟩)
    | none => .inl (.resolving params
        (absent (.storage (env.notFound (params.tagLink params.reference)))) audited)

def launchReplicateManifest (headers : Headers) (body : Bytes) (audit : Except String Unit) :
    Flight ⊕ StoreAnswer :=
  match replicatedManifest headers with
  | .error error => .inr (.done (.error error))
  | .ok (params, digest) =>
    .inl (.storing params digest body (.done (audit.mapError RegistryError.auditUnavailable)))

/-- The receiver of a delete answers the same whether the objects were there or not. -/
def launchReplicateDelete (env : StoreEnv) (body : Bytes) : Flight ⊕ StoreAnswer :=
  match env.parseEvent body with
  | .error reason => .inr (.done (.error (.internal ("invalid replication event: " ++ reason))))
  | .ok event =>
    if Text.startsWith event.reference "sha256:" then
      .inl (.removing ⟨event.params, event.digest, .done (.ok ()), .done (.ok ())⟩)
    else .inl (.unlinking event.params (.done (.ok ())) (.done (.ok ())))

/-- The manifest handlers as processes over the object store. -/
def handlers (env : StoreEnv) : Process StoreRequest ObjectStore Flight StoreAnswer where
  launch
    | .put request body => launchPut env.toEnv request body
    | .delete request => launchDelete env request
    | .replicateManifest headers body audit => launchReplicateManifest headers body audit
    | .replicateDelete body => launchReplicateDelete env body
  operate := Flight.operate

end SpectonCr.Registry
