import SpectonCr.Audit.Chain
import SpectonCr.Registry.Blobs

namespace SpectonCr.Registry

open Storage Gc
open Audit (AuditError AuditEvent Category)

structure RegistryAuditEvent where
  timestamp : Time
  (eventType subject tenant project repository reference digest : String)
  (sizeBytes statusCode durationMs : Nat)

namespace RegistryAuditEvent

def category (event : RegistryAuditEvent) : Category :=
  if event.eventType ∈ ["manifest.push", "blob.push", "manifest.replicated"] then .push
  else if event.eventType ∈ ["manifest.pull", "blob.pull", "tag.list", "catalog.list"] then .pull
  else if event.eventType = "manifest.delete" then .delete
  else if event.eventType = "manifest.promote" then .promote
  else .admin

def isWrite (event : RegistryAuditEvent) : Bool :=
  event.eventType ∈
    ["manifest.push", "blob.push", "manifest.delete", "manifest.replicated", "manifest.promote"]

def isPull (event : RegistryAuditEvent) : Bool :=
  event.eventType ∈ ["manifest.pull", "blob.pull", "tag.list", "catalog.list"]

def toChained (event : RegistryAuditEvent) : AuditEvent where
  time := event.timestamp
  category := event.category
  action := event.eventType
  actor := ⟨event.subject, none, none, none⟩
  subject := some ⟨some event.tenant, some event.project, some event.repository,
    some event.reference, some event.digest⟩
  outcome :=
    if event.statusCode < 400 then .success else .failure (toString event.statusCode)
  attributes := [("duration_ms", .int event.durationMs), ("size_bytes", .int event.sizeBytes),
    ("status_code", .int event.statusCode)]

end RegistryAuditEvent

/-- The ring, the rows appended so far, and the setting. -/
structure RegistryAuditLog where
  events : List RegistryAuditEvent
  rows : List AuditEvent
  failClosedWrites : Bool

def maxEvents : Nat := 10000

/-- What a call of `record` meets: the sink's answer to `append`, whether a pull is
sampled, and the measured duration. -/
structure AuditCall where
  sink : Except AuditError Unit
  sampled : Bool
  durationMs : Nat

def RegistryAuditLog.record (log : RegistryAuditLog) (call : AuditCall)
    (event : RegistryAuditEvent) : Except String Unit × RegistryAuditLog :=
  let ring := if maxEvents ≤ log.events.length then log.events.drop 1 else log.events
  let seen := { log with events := ring ++ [event] }
  let persist := if event.isWrite then true else if event.isPull then call.sampled else true
  if !persist then (.ok (), seen)
  else match call.sink with
    | .ok () => (.ok (), { seen with rows := seen.rows ++ [event.toChained] })
    | .error failure =>
      if event.isWrite && log.failClosedWrites then (.error failure.display, seen)
      else (.ok (), seen)

theorem record_rows_of_write {log : RegistryAuditLog} {call : AuditCall}
    {event : RegistryAuditEvent} (write : event.isWrite = true) :
    (log.record call event).2.rows =
      match call.sink with
      | .ok () => log.rows ++ [event.toChained]
      | .error _ => log.rows := by
  unfold RegistryAuditLog.record
  simp only [write]
  cases call.sink with
  | ok done => rfl
  | error failure =>
    simp only [Bool.not_true, Bool.false_eq_true, ↓reduceIte, Bool.true_and]
    split <;> rfl

theorem record_of_taken {log : RegistryAuditLog} {call : AuditCall} {event : RegistryAuditEvent}
    (taken : call.sink = .ok ()) : (log.record call event).1 = .ok () := by
  simp only [RegistryAuditLog.record, taken]
  generalize (if event.isWrite = true then true
    else if event.isPull = true then call.sampled else true) = persist
  cases persist <;> rfl

def pushEvent (request : ManifestRequest) (digest : String) (body : Bytes) (durationMs : Nat) :
    RegistryAuditEvent where
  timestamp := request.now
  eventType := "manifest.push"
  subject := request.claims.sub
  tenant := request.params.tenant
  project := request.params.project
  repository := request.params.name
  reference := request.params.reference
  digest
  sizeBytes := body.size
  statusCode := 201
  durationMs

def deleteEvent (request : ManifestRequest) (durationMs : Nat) : RegistryAuditEvent where
  timestamp := request.now
  eventType := "manifest.delete"
  subject := request.claims.sub
  tenant := request.params.tenant
  project := request.params.project
  repository := request.params.name
  reference := request.params.reference
  digest := request.params.reference
  sizeBytes := 0
  statusCode := 202
  durationMs

def blobEvent (claims : TokenClaims) (params : UploadRef) (now : Time) (digest : String)
    (data : Bytes) (durationMs : Nat) : RegistryAuditEvent where
  timestamp := now
  eventType := "blob.push"
  subject := claims.sub
  tenant := params.tenant
  project := params.project
  repository := params.name
  reference := ""
  digest
  sizeBytes := data.size
  statusCode := 201
  durationMs

def UploadRef.blobLocation (params : UploadRef) (digest : String) : String :=
  "/v2/" ++ params.tenant ++ "/" ++ params.project ++ "/" ++ params.name ++ "/blobs/" ++ digest

/-- `put_manifest` with its call of `record`. -/
def putManifestLogged (env : Env) (call : AuditCall) (request : ManifestRequest) (body : Bytes)
    (backend : Backend) (log : RegistryAuditLog) :
    Except Failure Created × Backend × RegistryAuditLog :=
  match request.params.authorize request.claims .push with
  | .error error => (.error (.refused error), backend, log)
  | .ok () =>
    match env.parse body with
    | .error reason => (.error (.refused (.manifestInvalid reason)), backend, log)
    | .ok document =>
      let digest := env.sha.digest body
      let written : Backend :=
        { store := storeManifest request.params digest body backend.store
          tables := recordRefs env request digest document backend.tables }
      if env.ttlPanics request || !isHeaderValue (location request.params digest) then
        (.error .panicked, written, log)
      else match log.record call (pushEvent request digest body call.durationMs) with
        | (.error reason, log) => (.error (.refused (.auditUnavailable reason)), written, log)
        | (.ok (), log) => (.ok ⟨digest, location request.params digest⟩, written, log)

/-- `delete_manifest` with its call of `record`. -/
def deleteManifestLogged (call : AuditCall) (request : ManifestRequest) (backend : Backend)
    (log : RegistryAuditLog) : Except RegistryError Unit × Backend × RegistryAuditLog :=
  let params := request.params
  let finish (backend : Backend) : Except RegistryError Unit × Backend × RegistryAuditLog :=
    match log.record call (deleteEvent request call.durationMs) with
    | (.error reason, log) => (.error (.auditUnavailable reason), backend, log)
    | (.ok (), log) => (.ok (), backend, log)
  match params.authorize request.claims .delete with
  | .error error => (.error error, backend, log)
  | .ok () =>
    match deleteTarget backend.store params with
    | .error error => (.error error, backend, log)
    | .ok (_, true) =>
      finish { backend with store := backend.store.erase (params.tagLink params.reference) }
    | .ok (digest, false) =>
      let (store, removedTags) :=
        deleteTagsForDigest params digest (backend.store.erase (params.object digest))
      if request.reportsAbsent ∧ params.object digest ∉ backend.store ∧ removedTags = [] then
        (.error (.manifestUnknown params.reference), { backend with store }, log)
      else finish ⟨store, removeRefs request.now params.tenant digest backend.tables⟩

/-- `complete_blob_upload` with its call of `record`. -/
def completeBlobUploadLogged (sha : Sha256) (call : AuditCall) (now : Time) (claims : TokenClaims)
    (params : UploadRef) (digest : Option String) (body : Bytes) (store : ObjectStore)
    (log : RegistryAuditLog) : Except Failure Created × ObjectStore × RegistryAuditLog :=
  match params.authorize claims with
  | .error error => (.error (.refused error), store, log)
  | .ok () =>
    match digest with
    | none => (.error (.refused (.digestInvalid "sha256:..." "<missing>")), store, log)
    | some expected =>
      match store.lookup params.object with
      | none => (.error (.refused .blobUploadInvalid), store, log)
      | some existing =>
        let data := existing ++ body
        let actual := sha.digest data
        if actual ≠ expected then (.error (.refused (.digestInvalid expected actual)), store, log)
        else
          let written := (store.insert (params.blob expected) data).erase params.object
          if !(isHeaderValue (params.blobLocation expected) && isHeaderValue expected) then
            (.error .panicked, written, log)
          else match log.record call
              (blobEvent claims params now expected data call.durationMs) with
            | (.error reason, log) => (.error (.refused (.auditUnavailable reason)), written, log)
            | (.ok (), log) => (.ok ⟨expected, params.blobLocation expected⟩, written, log)

end SpectonCr.Registry
