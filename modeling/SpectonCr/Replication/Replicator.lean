import SpectonCr.Registry.Interleaved
import SpectonCr.Resilience.Retry

namespace SpectonCr.Replication

open Storage Registry Interleaving Resilience

inductive ReplicationEventType where
  | manifestPush
  | blobPush
  | manifestDelete
  deriving DecidableEq

/-- The identifier an event draws, and the time it is created at. -/
structure Stamp where
  id : Uuid
  timestamp : Time
  deriving DecidableEq

/-- A replication event as it is queued. -/
structure QueuedEvent extends ReplicationEvent where
  eventType : ReplicationEventType
  stamp : Stamp

namespace QueuedEvent

def manifestPush (params : ManifestRef) (digest : String) (stamp : Stamp) : QueuedEvent where
  tenant := params.tenant
  project := params.project
  repo := params.name
  reference := params.reference
  digest := digest
  eventType := .manifestPush
  stamp := stamp

def blobPush (params : UploadRef) (digest : String) (stamp : Stamp) : QueuedEvent where
  tenant := params.tenant
  project := params.project
  repo := params.name
  reference := digest
  digest := digest
  eventType := .blobPush
  stamp := stamp

def manifestDelete (params : ManifestRef) (reference digest : String) (stamp : Stamp) : QueuedEvent where
  tenant := params.tenant
  project := params.project
  repo := params.name
  reference := reference
  digest := digest
  eventType := .manifestDelete
  stamp := stamp

/-- The object the event announces. -/
def object (event : QueuedEvent) : StorePath :=
  match event.eventType with
  | .blobPush => .ofString (blobPath event.tenant event.project event.repo event.digest)
  | _ => .ofString (manifestPath event.tenant event.project event.repo event.digest)

end QueuedEvent

/-- The third-party functions of replication, with what is relied on of them. -/
structure ReplicaEnv extends StoreEnv where
  /-- `serde_json::to_vec` of an event. -/
  writeEvent : QueuedEvent → Bytes
  parse_write : ∀ event, parseEvent (writeEvent event) = .ok event.toReplicationEvent
  /-- The text `extract_header` reads for a header sent with this text: none when the client or the
  receiver refuses it; HTTP drops blanks around it. -/
  carried : String → Option String
  carried_digest : ∀ data, carried (sha.digest data) = some (sha.digest data)
  /-- `timestamp.format("%Y%m%d%H%M%S%3f")`. -/
  formatTime : Time → String
  formatTime_plain : ∀ time, '/' ∉ (formatTime time).toList

def storagePath (env : ReplicaEnv) (event : QueuedEvent) : String :=
  "_replication/events/" ++ env.formatTime event.stamp.timestamp ++ "-" ++
    event.stamp.id.hyphenated ++ ".json"

/-- What the handlers of the primary share: the store, and the channel of the replicator. -/
structure Primary where
  store : ObjectStore
  queue : List QueuedEvent

/-- `mpsc::channel(1000)`. -/
def capacity : Nat := 1000

/-- `ReplicationHandle::enqueue`. A sender waits while the channel is full. -/
def enqueue (event : QueuedEvent) (primary : Primary) : Option Primary :=
  if primary.queue.length < capacity then
    some { primary with queue := primary.queue ++ [event] }
  else none

inductive Request where
  | put (request : ManifestRequest) (body : Bytes) (stamp : Stamp)
  | delete (request : ManifestRequest) (stamp : Stamp)
  | upload (claims : TokenClaims) (params : UploadRef) (digest : Option String) (body : Bytes)
      (audit : Except String Unit) (stamp : Stamp)

/-- An upload that is being completed under the digest the client gave. -/
structure Completion where
  params : UploadRef
  expected : String
  audit : Except String Unit
  stamp : Stamp

/-- `complete_blob_upload` at the store operation its name says. -/
inductive UploadFlight where
  | fetching (completion : Completion) (body : Bytes)
  | storing (completion : Completion) (data : Bytes)
  | cleaning (completion : Completion)

def UploadFlight.completion : UploadFlight → Completion
  | .fetching completion _ => completion
  | .storing completion _ => completion
  | .cleaning completion => completion

/-- A request at its store operations with the event it will enqueue, at the enqueue, or past it:
webhooks and the audit log come before the answer. -/
inductive Stage where
  | writing (flight : Flight) (event : QueuedEvent)
  | uploading (flight : UploadFlight)
  | enqueuing (event : QueuedEvent) (answer : StoreAnswer)
  | answering (event : QueuedEvent) (answer : StoreAnswer)

/-- Whether a manifest handler with this answer comes to its enqueue. A delete that found nothing
returns before it; the audit log is asked after it. -/
def reachesEnqueue : StoreAnswer → Bool
  | .created _ => true
  | .panicked => false
  | .done (.ok ()) => true
  | .done (.error (.auditUnavailable _)) => true
  | .done (.error _) => false

/-- A delete by tag puts the digest its link named into its event. -/
def noteDigest (flight : Flight) (store : ObjectStore) (event : QueuedEvent) : QueuedEvent :=
  match flight with
  | .resolving params _ _ =>
    { event with digest := (readTagLink store params params.reference).getD event.digest }
  | _ => event

/-- The rest of a request after a store operation. -/
def goOn (event : QueuedEvent) : Flight ⊕ StoreAnswer → Stage ⊕ StoreAnswer
  | .inl rest => .inl (.writing rest event)
  | .inr answer => if reachesEnqueue answer then .inl (.enqueuing event answer) else .inr answer

def UploadFlight.operate (sha : Sha256) : UploadFlight → ObjectStore → ObjectStore × (Stage ⊕ StoreAnswer)
  | .fetching completion body, store =>
    (store, match store.lookup completion.params.object with
      | none => .inr (.created (.error (.refused .blobUploadInvalid)))
      | some existing =>
        let data := existing ++ body
        let actual := sha.digest data
        if actual ≠ completion.expected then
          .inr (.created (.error (.refused (.digestInvalid completion.expected actual))))
        else .inl (.uploading (.storing completion data)))
  | .storing completion data, store =>
    (store.insert (completion.params.blob completion.expected) data, .inl (.uploading (.cleaning completion)))
  | .cleaning completion, store =>
    (store.erase completion.params.object,
      .inl (.enqueuing (.blobPush completion.params completion.expected completion.stamp)
        (.created (completeAnswer completion.params completion.expected completion.audit))))

def Stage.operate (sha : Sha256) : Stage → Primary → Primary × (Stage ⊕ StoreAnswer)
  | .writing flight event, primary =>
    ({ primary with store := (flight.operate primary.store).1 },
      goOn (noteDigest flight primary.store event) (flight.operate primary.store).2)
  | .uploading flight, primary =>
    ({ primary with store := (flight.operate sha primary.store).1 },
      (flight.operate sha primary.store).2)
  | .enqueuing event answer, primary =>
    match enqueue event primary with
    | some queued => (queued, .inl (.answering event answer))
    | none => (primary, .inl (.enqueuing event answer))
  | .answering _ answer, primary => (primary, .inr answer)

/-- A refused request has no event. A delete by digest is announced in the colon spelling. -/
def launchRequest (env : ReplicaEnv) : Request → Stage ⊕ StoreAnswer
  | .put request body stamp =>
    (launchPut env.toEnv request body).map
      (.writing · (.manifestPush request.params (env.sha.digest body) stamp)) id
  | .delete request stamp =>
    let target := spelledDigest request.params.reference
    (launchDelete env.toStoreEnv request).map
      (.writing · (.manifestDelete request.params (target.getD request.params.reference)
        (target.getD "") stamp)) id
  | .upload claims params digest body audit stamp =>
    match params.authorize claims with
    | .error error => .inr (.created (.error (.refused error)))
    | .ok () =>
      match digest with
      | none => .inr (.created (.error (.refused (.digestInvalid "sha256:..." "<missing>"))))
      | some expected => .inl (.uploading (.fetching ⟨params, expected, audit, stamp⟩ body))

/-- The handlers of the primary that replicate, as processes over its store and queue. -/
def primaryHandlers (env : ReplicaEnv) : Process Request Primary Stage StoreAnswer where
  launch := launchRequest env
  operate := Stage.operate env.sha

section Delivery

structure RegionConfig where
  name : String

structure MultiRegionConfig where
  localRegion : String
  regions : List RegionConfig

/-- The regions `Replicator::new` delivers to. -/
def MultiRegionConfig.remoteRegions (config : MultiRegionConfig) : List RegionConfig :=
  config.regions.filter (·.name ≠ config.localRegion)

inductive ReplicationError where
  | storage (reason : String)
  | network (reason : String)
  /-- The status and the body of the answer are those of the receiver's error. -/
  | remoteRejected (error : RegistryError)
  | circuitBreakerOpen (region : String)

/-- What becomes of one request to a region: its answer arrives, the region serves it and the
answer is lost, or it is not served. The region's audit log answers as given. -/
inductive Attempt where
  | answered (audit : Except String Unit)
  | unanswered (audit : Except String Unit) (reason : String)
  | lost (reason : String)

/-- What becomes of one delivery: the region's circuit breaker refuses it, or it is attempted. -/
inductive Exchange where
  | refused
  | admitted (attempt : Nat → Attempt)

variable (env : ReplicaEnv) (event : QueuedEvent)

/-- The headers of an event as the receiver reads them. -/
def sentHeaders : Headers
  | "x-replication-tenant" => env.carried event.tenant
  | "x-replication-project" => env.carried event.project
  | "x-replication-repo" => env.carried event.repo
  | "x-replication-reference" =>
    if event.eventType = .blobPush then none else env.carried event.reference
  | "x-replication-digest" => env.carried event.digest
  | _ => none

/-- The region's handler for the event. -/
def serve (payload : Bytes) (audit : Except String Unit) (store : ObjectStore) :
    Except RegistryError Unit × ObjectStore :=
  match event.eventType with
  | .manifestPush => internalReplicateManifest (sentHeaders env event) payload audit store
  | .blobPush => internalReplicateBlob (sentHeaders env event) payload store
  | .manifestDelete => internalReplicateDelete env.toStoreEnv payload store

/-- One request to the region, and what it leaves in the region's store. -/
def post (payload : Bytes) (attempt : Attempt) (store : ObjectStore) :
    Except ReplicationError Unit × ObjectStore :=
  match attempt with
  | .answered audit =>
    ((serve env event payload audit store).1.mapError .remoteRejected,
      (serve env event payload audit store).2)
  | .unanswered audit reason => (.error (.network reason), (serve env event payload audit store).2)
  | .lost reason => (.error (.network reason), store)

/-- The retry policy of every remote region. -/
def deliveryRetries : RetryPolicy := ⟨3⟩

/-- A delivery through the region's circuit breaker. -/
def deliver (region : RegionConfig) (payload : Bytes) (exchange : Exchange)
    (store : ObjectStore) : Except ReplicationError Unit × ObjectStore :=
  match exchange with
  | .refused => (.error (.circuitBreakerOpen region.name), store)
  | .admitted attempt =>
    deliveryRetries.execute (fun number => post env event payload (attempt number)) store

/-- What a delivery sends: the announced object as the local store has it, or the event. -/
def payload (store : ObjectStore) : Except ReplicationError Bytes :=
  match event.eventType with
  | .manifestDelete => .ok (env.writeEvent event)
  | _ =>
    match store.lookup event.object with
    | some data => .ok data
    | none => .error (.storage (env.notFound event.object))

end Delivery

/-- A remote region with the objects of its registry. -/
structure Remote where
  config : RegionConfig
  store : ObjectStore

/-- Where the loop of `Replicator::run` is: waiting, before the region with the number, or with
what it will send to that region. -/
inductive Work where
  | idle
  | visiting (event : QueuedEvent) (region : Nat)
  | sending (event : QueuedEvent) (region : Nat) (payload : Bytes)

structure System where
  pool : Pool Primary Stage
  work : Work
  remotes : List Remote

def System.store (system : System) : ObjectStore := system.pool.shared.store

def System.queue (system : System) : List QueuedEvent := system.pool.shared.queue

/-- A move of a request, or the next step of the replicator. -/
inductive SystemMove where
  | request (move : Move Request)
  | replicator (exchange : Exchange)

/-- `persist_event`. -/
def persistEvent (env : ReplicaEnv) (event : QueuedEvent) (store : ObjectStore) : ObjectStore :=
  store.insert (.ofString (storagePath env event)) (env.writeEvent event)

/-- The region with the number after a delivery to it. -/
def deliverTo (env : ReplicaEnv) (event : QueuedEvent) (payload : Bytes) (exchange : Exchange)
    (remote : Remote) : Remote :=
  { remote with store := (deliver env event remote.config payload exchange remote.store).2 }

/-- One step of `Replicator::run`. A delivery that fails is logged, and the loop goes on. -/
def System.replicate (env : ReplicaEnv) (system : System) (exchange : Exchange) : System :=
  match system.work with
  | .idle =>
    match system.queue with
    | [] => system
    | event :: rest =>
      { system with
        pool := { system.pool with shared := ⟨persistEvent env event system.store, rest⟩ }
        work := .visiting event 0 }
  | .visiting event region =>
    if region < system.remotes.length then
      match payload env event system.store with
      | .ok data => { system with work := .sending event region data }
      | .error _ => { system with work := .visiting event (region + 1) }
    else { system with work := .idle }
  | .sending event region data =>
    { system with
      remotes := system.remotes.modify region (deliverTo env event data exchange)
      work := .visiting event (region + 1) }

def System.step (env : ReplicaEnv) (system : System) : SystemMove → System
  | .request move => { system with pool := (primaryHandlers env).step system.pool move }
  | .replicator exchange => system.replicate env exchange

/-- A system with empty stores. -/
def System.fresh (config : MultiRegionConfig) : System where
  pool := ⟨⟨∅, []⟩, ∅⟩
  work := .idle
  remotes := config.remoteRegions.map (⟨·, ∅⟩)

end SpectonCr.Replication
