import SpectonCr.Audit.Postgres
import SpectonCr.Base.RowLocks
import SpectonCr.Registry.Interleaved

namespace SpectonCr.Ephemeral

open Storage Registry Interleaving
open Audit (timestamptz)

structure TtlEnv extends Env where
  batchSize : Nat

/-- A row of `tags`, whose key is a repository with a tag as its reference. -/
structure TagRow where
  digest : String
  pushedBy : Option String
  pushedAt : Time
  expiresAt : Option Time
  ephemeral : Bool

/-- The row after the upsert of a push. The one who pushed first stays its pusher. -/
def recordExpiry (digest sub : String) (now expiresAt : Time) : Option TagRow → TagRow
  | none => ⟨digest, some sub, now, some (timestamptz expiresAt), false⟩
  | some row => { row with digest, pushedAt := now, expiresAt := some (timestamptz expiresAt) }

/-- A row of `ttl_reaps`. -/
structure TtlReap where
  key : ManifestRef
  reapedAt : Time
  reason : String

/-- A push whose link is written, with its expiry once the handler has read one. -/
structure Pushed where
  params : ManifestRef
  expiresAt : Option Time

/-- The clock, the control switch of the reaper, what is stored, and the pushes so far. -/
structure TagWorld where
  clock : Time
  halted : Bool
  store : ObjectStore
  tags : LockedTable ManifestRef TagRow
  reaps : List TtlReap
  history : List Pushed

def tagLinkOf (key : ManifestRef) : StorePath := key.tagLink key.reference

structure TtlPush where
  request : ManifestRequest
  body : Bytes

/-- The candidates that a cycle still has, and how many it has reaped. -/
structure Batch where
  reaped : Nat
  rest : List ManifestRef

/-- A push or a reaper cycle that is about to do what its name says. -/
inductive TagFlight where
  | storing (push : TtlPush) (digest : String)
  | linking (push : TtlPush) (digest : String)
  | parsing (push : TtlPush) (digest header : String) (index : Nat)
  | recording (push : TtlPush) (digest : String) (expiresAt : Time)
  | selecting
  | choosing (batch : Batch)
  | locking (key : ManifestRef) (batch : Batch)
  | unlinking (key : ManifestRef) (batch : Batch)
  | removing (key : ManifestRef) (batch : Batch)
  | noting (key : ManifestRef) (batch : Batch)
  | committing (key : ManifestRef) (batch : Batch)

inductive TagAnswer where
  /-- The answer to a push, with the expiry that its extra header shows. -/
  | pushed (answer : Except Failure Created) (expiresAt : Option Time)
  | cycled (reaped : Except String Nat)

def TtlPush.answer (push : TtlPush) (digest : String) (expiresAt : Option Time) : TagAnswer :=
  .pushed (pushAnswer push.request digest) expiresAt

def TtlPush.launch (env : TtlEnv) (push : TtlPush) : TagFlight ⊕ TagAnswer :=
  match push.request.params.authorize push.request.claims .push with
  | .error error => .inr (.pushed (.error (.refused error)) none)
  | .ok () =>
    match env.parse push.body with
    | .error reason => .inr (.pushed (.error (.refused (.manifestInvalid reason))) none)
    | .ok _ => .inl (.storing push (env.sha.digest push.body))

/-- The row has expired. -/
def TagRow.expired (row : TagRow) (now : Time) : Bool := row.expiresAt.any (· < now)

/-- The candidates of a cycle: expired rows that no transaction holds, the oldest first. -/
def TagWorld.eligible (env : TtlEnv) (world : TagWorld) : List ManifestRef :=
  let expired := world.tags.committed.entries.filter fun row =>
    row.2.expired world.clock && (world.tags.locks.lookup row.1).isNone
  ((expired.insertionSort fun first second =>
    first.2.expiresAt.getD 0 ≤ second.2.expiresAt.getD 0).map Sigma.fst).take env.batchSize

/-- A transaction of `reap_tag` that fails is rolled back, and the cycle goes on. -/
def TagWorld.abandon (world : TagWorld) (number : Nat) : TagWorld :=
  { world with tags := world.tags.rollback number }

/-- The next operation of a flight, and whether it fails. A statement that has to wait for a row
leaves everything as it is. -/
def TagFlight.operate (env : TtlEnv) (number : Nat) (outcome : Except String Unit)
    (world : TagWorld) : TagFlight → TagWorld × (TagFlight ⊕ TagAnswer)
  | .storing push digest =>
    match outcome with
    | .error reason => (world, .inr (.pushed (.error (.refused (.storage reason))) none))
    | .ok () =>
      ({ world with store := world.store.insert (push.request.params.object digest) push.body },
        if Text.startsWith push.request.params.reference "sha256:" then
          .inr (push.answer digest none)
        else .inl (.linking push digest))
  | .linking push digest =>
    match outcome with
    | .error reason => (world, .inr (.pushed (.error (.refused (.storage reason))) none))
    | .ok () =>
      ({ world with
          store := world.store.insert (tagLinkOf push.request.params) digest.toUTF8
          history := world.history ++ [⟨push.request.params, none⟩] },
        match push.request.ttl, env.gcPool with
        | some header, true => .inl (.parsing push digest header world.history.length)
        | _, _ => .inr (push.answer digest none))
  | .parsing push digest header index =>
    match parseTtlHeader env.toTtlLib world.clock header with
    | none => (world, .inr (.pushed (.error .panicked) none))
    | some (.error _) => (world, .inr (push.answer digest none))
    | some (.ok spec) =>
      ({ world with
          history := world.history.modify index fun pushed =>
            { pushed with expiresAt := some spec.expiresAt } },
        .inl (.recording push digest spec.expiresAt))
  | .recording push digest expiresAt =>
    match outcome with
    | .error _ => (world, .inr (push.answer digest none))
    | .ok () =>
      match world.tags.upsert number push.request.params
          (recordExpiry digest push.request.claims.sub world.clock expiresAt) with
      | none => (world, .inl (.recording push digest expiresAt))
      | some tags =>
        ({ world with tags := tags.commit number }, .inr (push.answer digest (some expiresAt)))
  | .selecting =>
    match outcome with
    | .error reason => (world, .inr (.cycled (.error reason)))
    | .ok () => (world, .inl (.choosing ⟨0, world.eligible env⟩))
  | .choosing batch =>
    match batch.rest with
    | [] => (world, .inr (.cycled (.ok batch.reaped)))
    | key :: rest =>
      if world.halted then (world, .inr (.cycled (.ok batch.reaped)))
      else (world, .inl (.locking key { batch with rest }))
  | .locking key batch =>
    match outcome with
    | .error _ => (world.abandon number, .inl (.choosing batch))
    | .ok () =>
      match world.tags.selectForUpdate number key with
      | none => (world, .inl (.locking key batch))
      | some (row, tags) =>
        if row.any (TagRow.expired · world.clock) then
          ({ world with tags }, .inl (.unlinking key batch))
        else ({ world with tags := tags.rollback number }, .inl (.choosing batch))
  | .unlinking key batch =>
    match outcome with
    | .error _ => (world.abandon number, .inl (.choosing batch))
    | .ok () =>
      ({ world with store := world.store.erase (tagLinkOf key) }, .inl (.removing key batch))
  | .removing key batch =>
    match outcome with
    | .error _ => (world.abandon number, .inl (.choosing batch))
    | .ok () =>
      match world.tags.deleteSeen number (· = key) with
      | none => (world, .inl (.removing key batch))
      | some tags => ({ world with tags }, .inl (.noting key batch))
  | .noting key batch =>
    match outcome with
    | .error _ => (world.abandon number, .inl (.choosing batch))
    | .ok () => (world, .inl (.committing key batch))
  | .committing key batch =>
    match outcome with
    | .error _ => (world.abandon number, .inl (.choosing batch))
    | .ok () =>
      ({ world with
          tags := world.tags.commit number
          reaps := world.reaps ++ [⟨key, world.clock, "ttl"⟩] },
        .inl (.choosing { batch with reaped := batch.reaped + 1 }))

abbrev TagPool := Pool TagWorld TagFlight

inductive TagEvent where
  | tick (elapsed : Nat)
  | control (halted : Bool)
  | push (number : Nat) (push : TtlPush)
  | cycle (number : Nat)
  | advance (number : Nat) (outcome : Except String Unit)
  /-- The request or the cycle is dropped; the database rolls its transaction back. -/
  | drop (number : Nat)

def launchFlight (pool : TagPool) (number : Nat) (launched : TagFlight ⊕ TagAnswer) : TagPool :=
  if number ∈ pool.flights then pool
  else { pool with flights := settle pool.flights number launched }

/-- One event. A reaper runs only where there is a pool. -/
def TagPool.step (env : TtlEnv) (pool : TagPool) : TagEvent → TagPool
  | .tick elapsed => { pool with shared.clock := pool.shared.clock + elapsed }
  | .control halted => { pool with shared.halted := halted }
  | .push number push => launchFlight pool number (push.launch env)
  | .cycle number => if env.gcPool then launchFlight pool number (.inl .selecting) else pool
  | .advance number outcome =>
    match pool.flights.lookup number with
    | none => pool
    | some flight =>
      let result := flight.operate env number outcome pool.shared
      ⟨result.1, settle pool.flights number result.2⟩
  | .drop number => ⟨pool.shared.abandon number, pool.flights.erase number⟩

/-- The expiry of the most recent push that wrote the link. -/
def lastExpiry (history : List Pushed) (link : StorePath) : Option Time :=
  (history.findRev? fun pushed => tagLinkOf pushed.params = link).bind Pushed.expiresAt

/-- The tag whose link an event takes away from the store. -/
def unlinkedTag (pool : TagPool) : TagEvent → Option ManifestRef
  | .advance number (.ok ()) =>
    match pool.flights.lookup number with
    | some (.unlinking key _) => if tagLinkOf key ∈ pool.shared.store then some key else none
    | _ => none
  | _ => none

/-- The most recent push of the tag carried a TTL, and its expiry has passed. -/
def LastPushExpired (world : TagWorld) (key : ManifestRef) : Prop :=
  ∃ expiry ∈ lastExpiry world.history (tagLinkOf key), expiry < world.clock

/-- The reaper takes away links of expired tags only. -/
def UnlinksExpired (pool : TagPool) (event : TagEvent) : Prop :=
  ∀ key ∈ unlinkedTag pool event, LastPushExpired pool.shared key

/-- The row of the tag records an expiry, no earlier than the one its most recent push asked for. -/
def RowRecordsLastPush (world : TagWorld) (key : ManifestRef) : Prop :=
  ∃ expiry ∈ lastExpiry world.history (tagLinkOf key),
    ∃ recorded ∈ (world.tags.committed.lookup key).bind TagRow.expiresAt, expiry ≤ recorded

/-- The link that is taken away is that of a tag whose row records its most recent push. -/
def UnlinksRecorded (pool : TagPool) (event : TagEvent) : Prop :=
  ∀ key ∈ unlinkedTag pool event, RowRecordsLastPush pool.shared key

instance (world : TagWorld) (key : ManifestRef) : Decidable (LastPushExpired world key) :=
  inferInstanceAs (Decidable (∃ expiry ∈ lastExpiry world.history (tagLinkOf key), _))

instance (world : TagWorld) (key : ManifestRef) : Decidable (RowRecordsLastPush world key) :=
  inferInstanceAs (Decidable (∃ expiry ∈ lastExpiry world.history (tagLinkOf key), _))

instance (pool : TagPool) (event : TagEvent) : Decidable (UnlinksExpired pool event) :=
  inferInstanceAs (Decidable (∀ key ∈ unlinkedTag pool event, _))

instance (pool : TagPool) (event : TagEvent) : Decidable (UnlinksRecorded pool event) :=
  inferInstanceAs (Decidable (∀ key ∈ unlinkedTag pool event, _))

end SpectonCr.Ephemeral
