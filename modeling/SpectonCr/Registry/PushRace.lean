import SpectonCr.Gc.CountLocks
import SpectonCr.Gc.Findable
import SpectonCr.Gc.Grace
import SpectonCr.Registry.Interleaved

/-! Pushes that skip an upload, against the reaper. -/

namespace SpectonCr.Registry

open Storage Gc Interleaving Run

structure BlobRef where
  (tenant project name digest : String)

def BlobRef.object (params : BlobRef) : StorePath :=
  .ofString (blobPath params.tenant params.project params.name params.digest)

/-- The existence check, with the `Content-Length` of its answer. -/
def headBlob (claims : TokenClaims) (params : BlobRef) (store : ObjectStore) : Except Failure Nat :=
  match authorize claims params.tenant params.project params.name .pull with
  | .error error => .error (.refused error)
  | .ok () =>
    match store.lookup params.object with
    | none => .error (.refused (.blobUnknown params.digest))
    | some data => if isHeaderValue params.digest then .ok data.size else .error .panicked

/-- What a client does: it looks for some blobs, and sends the manifest when all are there. -/
structure Push where
  request : ManifestRequest
  body : Bytes
  checked : List String

def Push.blob (push : Push) (digest : String) : BlobRef :=
  ⟨push.request.params.tenant, push.request.params.project, push.request.params.name, digest⟩

def Push.row (push : Push) (digest : String) : BlobPath :=
  ⟨push.request.params.tenant, push.request.params.project, push.request.params.name, digest⟩

/-- The blobs that `put_manifest` hands to `add_refs`, if it gets there. -/
def Push.blobs (env : Env) (push : Push) : Option (List BlobDescriptor) :=
  if env.ttlPanics push.request then none
  else match env.parse push.body with
    | .ok document => extractBlobDigests document
    | .error _ => none

def Push.call (env : Env) (push : Push) : RefCall :=
  ⟨push.request.now, push.request.params.tenant, push.request.params.project,
    push.request.params.name, env.sha.digest push.body⟩

/-- What a push or a reaper is about to do. -/
inductive Work where
  | checking (push : Push) (found : List String) (digest : String) (rest : List String)
  | writing (push : Push) (flight : Flight)
  | counting (push : Push) (answer : StoreAnswer) (stage : Stage)
  | cycling (batch : List Candidate)
  | reaping (batch : List Candidate) (stage : Stage)

/-- The statement of a work that is in a transaction. -/
def Work.stage : Work → Option Stage
  | .counting _ _ stage => some stage
  | .reaping _ stage => some stage
  | _ => none

/-- `acknowledged` are the pushes that were answered with `201` after their `add_refs` had
committed. -/
structure RaceState where
  database : Database
  works : Table Nat Work
  acknowledged : List Push

inductive RaceEvent where
  | push (number : Nat) (push : Push)
  | select (number : Nat) (config : ReaperConfig) (now : Time)
  | advance (number : Nat)
  | abort (number : Nat)

/-- The client's next request. -/
def nextCheck (env : Env) (push : Push) (found : List String) : List String → Option Work
  | [] =>
    match launchPut env push.request push.body with
    | .inl flight => some (.writing push flight)
    | .inr _ => none
  | digest :: rest => some (.checking push found digest rest)

def acknowledge (push : Push) : StoreAnswer → List Push
  | .created (.ok _) => [push]
  | _ => []

/-- `put_manifest` after its object writes. -/
def beginCount (env : Env) (number : Nat) (push : Push) (answer : StoreAnswer) : Option Work × List Push :=
  match push.blobs env with
  | none => (none, [])
  | some blobs =>
    match (transaction number).launch (.addRefs (push.call env) blobs) with
    | .inl stage => (some (.counting push answer stage), [])
    | .inr _ => (none, acknowledge push answer)

/-- The next operation of a work: what is left of it, and the push it acknowledges. -/
def Work.operate (env : Env) (number : Nat) (database : Database) : Work → Database × Option Work × List Push
  | .checking push found digest rest =>
    match headBlob push.request.claims (push.blob digest) database.store with
    | .ok _ => (database, nextCheck env push (found ++ [digest]) rest, [])
    | .error _ => (database, none, [])
  | .writing push flight =>
    let result := flight.operate database.store
    ({ database with store := result.1 },
      match result.2 with
      | .inl flight => (some (.writing push flight), [])
      | .inr answer => beginCount env number push answer)
  | .counting push answer stage =>
    let result := stage.operate number database
    (result.1, match result.2 with
      | .inl stage => (some (.counting push answer stage), [])
      | .inr _ => (none, acknowledge push answer))
  | .cycling [] => (database, none, [])
  | .cycling (candidate :: batch) =>
    (database, some (.reaping batch (.lockCount candidate.key candidate.bytes)), [])
  | .reaping batch stage =>
    let result := stage.operate number database
    (result.1, match result.2 with
      | .inl stage => (some (.reaping batch stage), [])
      | .inr _ => (some (.cycling batch), []))

/-- What an error leaves of a work. A failed deletion does not end the reaper's batch; a pause or a
stop between two does. -/
def Work.failed : Work → Option Work
  | .reaping batch _ => some (.cycling batch)
  | _ => none

def replaceWork (works : Table Nat Work) (number : Nat) : Option Work → Table Nat Work
  | some work => works.insert number work
  | none => works.erase number

def RaceState.step (env : Env) (state : RaceState) : RaceEvent → RaceState
  | .push number push =>
    if number ∈ state.works then state
    else { state with
      works := replaceWork state.works number (nextCheck env push [] push.checked) }
  | .select number config now =>
    if number ∈ state.works then state
    else
      let free := state.database.tables.skipLocked state.database.blobRefcounts.locks.keys
      { state with works := state.works.insert number (.cycling (candidates config now free)) }
  | .advance number =>
    match state.works.lookup number with
    | none => state
    | some work =>
      let result := work.operate env number state.database
      ⟨result.1, replaceWork state.works number result.2.1, result.2.2 ++ state.acknowledged⟩
  | .abort number =>
    match state.works.lookup number with
    | none => state
    | some work =>
      { state with
        database := state.database.rollback number
        works := replaceWork state.works number work.failed }

/-- Every blob that an acknowledged push has found and that its manifest names is stored. -/
def RaceState.BlobsStored (env : Env) (state : RaceState) : Prop :=
  ∀ push ∈ state.acknowledged, ∀ document, env.parse push.body = .ok document →
    ∀ digest ∈ push.checked, digest ∈ collectReferencedDigests document → digest ≠ "" →
      (push.blob digest).object ∈ state.database.store

/-- The rows of the push are such that no other row has their objects. -/
def Push.Named (env : Env) (push : Push) : Prop :=
  ∀ blob ∈ (push.blobs env).getD [], (push.row blob.digest).Named

/-- The objects that a push under way has found. -/
def Work.found : Work → List StorePath
  | .checking push found _ _ => found.map fun digest => (push.blob digest).object
  | .writing push _ => push.checked.map fun digest => (push.blob digest).object
  | .counting push _ _ => push.checked.map fun digest => (push.blob digest).object
  | _ => []

/-- A reaper deletes no object that a push under way has found. -/
def RaceState.Careful (env : Env) (state : RaceState) : RaceEvent → Prop
  | .push _ push => push.Named env
  | .advance number =>
    match state.works.lookup number with
    | some (.reaping _ (.deleteObject _ _ path _)) =>
      ∀ entry ∈ state.works.entries, path.object ∉ entry.2.found
    | _ => True
  | _ => True

instance (env : Env) (state : RaceState) (event : RaceEvent) : Decidable (state.Careful env event) := by
  unfold RaceState.Careful
  split
  · exact inferInstanceAs (Decidable (∀ blob ∈ _, _))
  · split <;> infer_instance
  · infer_instance

/-- A start with nothing under way, whose edges are counted and whose path rows are named. -/
structure RaceState.Quiet (state : RaceState) : Prop where
  idle : state.works = ∅
  unlocked : state.database.Unlocked
  counted : ∀ edge ∈ state.database.manifestBlobRefs.committed, 0 < state.database.tables.refcount edge.key
  named : ∀ path ∈ state.database.blobPaths.committed, path.Named
  fresh : state.acknowledged = []

/-- A push flight makes object writes only. -/
def Flight.Writes : Flight → Prop
  | .storing .. => True
  | .linking .. => True
  | _ => False

/-- A transaction of `add_refs` with this call over these blobs. -/
def AddsFor (call : RefCall) (blobs : List BlobDescriptor) : Stage → Prop
  | .insertPath other past blob rest => other = call ∧ past ++ blob :: rest = blobs
  | .insertEdge other past blob rest => other = call ∧ past ++ blob :: rest = blobs
  | .bumpCount other past blob rest => other = call ∧ past ++ blob :: rest = blobs
  | .commitRefs other past => other = call ∧ past = blobs
  | _ => False

/-- A transaction of `reap_blob` of this key. The objects it still has to delete are those of
named rows of the key. -/
def Aims (key : BlobKey) : Stage → Prop
  | .lockCount other _ => other = key
  | .selectPaths other _ => other = key
  | .deleteObject other _ path rest => other = key ∧ ∀ row ∈ path :: rest, row.Named ∧ row.key = key
  | .deletePaths other _ => other = key
  | .deleteCount other _ => other = key
  | .insertReap other _ => other = key
  | .commitReap other _ => other = key
  | _ => False

def Work.Shaped (env : Env) : Work → Prop
  | .checking push found digest rest => push.Named env ∧ push.checked = found ++ digest :: rest
  | .writing push flight => push.Named env ∧ flight.Writes
  | .counting push _ stage =>
    push.Named env ∧ (push.blobs env).isSome = true ∧ AddsFor (push.call env) ((push.blobs env).getD []) stage
  | .cycling _ => True
  | .reaping _ stage => ∃ key, Aims key stage

/-- What makes a blob of an acknowledged push safe from the reaper. -/
structure Push.Safe (env : Env) (database : Database) (push : Push) : Prop where
  named : push.Named env
  accepted : (push.blobs env).isSome = true
  stored : ∀ digest ∈ push.checked, digest ∈ ((push.blobs env).getD []).map BlobDescriptor.digest →
      (push.blob digest).object ∈ database.store ∧
        ∃ edge ∈ database.manifestBlobRefs.committed, edge.key = (push.row digest).key

def RaceState.stages (state : RaceState) (number : Nat) : Option Stage :=
  (state.works.lookup number).bind Work.stage

structure RaceState.Kept (env : Env) (state : RaceState) : Prop where
  counts : CountsKept state.database.manifestBlobRefs state.database.blobRefcounts state.stages
  rows : ∀ path ∈ state.database.blobPaths.committed, path.Named
  pending : ∀ path number, state.database.blobPaths.locks.lookup path = some (number, some ()) → path.Named
  shaped : ∀ number work, state.works.lookup number = some work → work.Shaped env
  found : ∀ number work, state.works.lookup number = some work →
    ∀ object ∈ work.found, object ∈ state.database.store
  acknowledged : ∀ push ∈ state.acknowledged, push.Safe env state.database

section Operations

variable {env : Env} {number : Nat} {database : Database}

theorem addsFor_nextBlob (split : past ++ rest = blobs) :
    AddsFor call blobs (Stage.nextBlob call past rest) := by
  cases rest with
  | nil => exact ⟨rfl, by simpa using split⟩
  | cons blob rest => exact ⟨rfl, split⟩

variable {stage : Stage}

/-- A transaction of `add_refs` goes through its blobs in order, and ends when all are done. -/
theorem AddsFor.operate {call : RefCall} {blobs : List BlobDescriptor} (adds : AddsFor call blobs stage) :
    (∃ next, (stage.operate number database).2 = .inl next ∧ AddsFor call blobs next) ∨
      stage = .commitRefs call blobs := by
  have wait : AddsFor call blobs stage := adds
  cases stage with
  | insertPath other past blob rest =>
    refine .inl ?_
    simp only [Stage.operate]
    split
    · exact ⟨_, rfl, wait⟩
    · exact ⟨_, rfl, adds⟩
  | insertEdge other past blob rest =>
    obtain ⟨rfl, split⟩ := adds
    refine .inl ?_
    simp only [Stage.operate]
    split
    · exact ⟨_, rfl, wait⟩
    refine ⟨_, rfl, ?_⟩
    split
    · exact wait
    · exact addsFor_nextBlob (by simpa using split)
  | bumpCount other past blob rest =>
    obtain ⟨rfl, split⟩ := adds
    refine .inl ?_
    simp only [Stage.operate]
    split
    · exact ⟨_, rfl, wait⟩
    · exact ⟨_, rfl, addsFor_nextBlob (by simpa using split)⟩
  | commitRefs other past =>
    obtain ⟨rfl, rfl⟩ := adds
    exact .inr rfl
  | _ => exact adds.elim

theorem aims_nextObject (named : ∀ row ∈ paths, row.Named ∧ row.key = key) :
    Aims key (Stage.nextObject key bytes paths) := by
  cases paths with
  | nil => exact rfl
  | cons path rest => exact ⟨rfl, named⟩

theorem Aims.operate {key : BlobKey} {next : Stage} (aims : Aims key stage)
    (named : ∀ path ∈ database.blobPaths.snapshot number, path.Named)
    (moved : (stage.operate number database).2 = .inl next) : Aims key next := by
  have wait : Aims key stage := aims
  cases stage with
  | lockCount other bytes =>
    simp only [Stage.operate] at moved
    split at moved
    · exact Sum.inl.inj moved ▸ wait
    · split at moved
      · exact Sum.inl.inj moved ▸ aims
      · cases moved
  | selectPaths other bytes =>
    obtain rfl : other = key := aims
    obtain rfl := Sum.inl.inj moved
    apply aims_nextObject
    intro row member
    obtain ⟨present, chosen⟩ := Table.mem_keysWhere.mp member
    exact ⟨named row present, BlobPath.isOf_iff.mp chosen⟩
  | deleteObject other bytes path rest =>
    obtain ⟨rfl, targets⟩ := aims
    obtain rfl := Sum.inl.inj moved
    exact aims_nextObject fun row member => targets row (List.mem_cons_of_mem path member)
  | deletePaths other bytes | deleteCount other bytes =>
    simp only [Stage.operate] at moved
    split at moved
    · exact Sum.inl.inj moved ▸ wait
    · exact Sum.inl.inj moved ▸ aims
  | insertReap other bytes => exact Sum.inl.inj moved ▸ aims
  | commitReap other bytes => cases moved
  | _ => exact aims.elim

theorem operate_store (number : Nat) (stage : Stage) (database : Database) :
    (stage.operate number database).1.store = database.store ∨
      ∃ key bytes path rest, stage = .deleteObject key bytes path rest ∧
        (stage.operate number database).1.store = database.store.erase path.object := by
  cases stage with
  | deleteObject key bytes path rest => exact .inr ⟨key, bytes, path, rest, rfl, rfl⟩
  | lockCount key bytes =>
    refine .inl ?_
    simp only [Stage.operate]
    split
    · rfl
    · split <;> rfl
  | commitRefs _ _ | selectPaths _ _ | insertReap _ _ | commitReap _ _ => exact .inl rfl
  | _ =>
    refine .inl ?_
    simp only [Stage.operate]
    split <;> rfl

theorem mem_refs_operate {stages : Nat → Option Stage} {edge : Edge}
    (kept : CountsKept database.manifestBlobRefs database.blobRefcounts stages)
    (committed : edge ∈ database.manifestBlobRefs.committed) :
    edge ∈ (stage.operate number database).1.manifestBlobRefs.committed := by
  have effect := operate_counts number stage database
  revert effect
  generalize (stage.operate number database).1.manifestBlobRefs = refs
  generalize (stage.operate number database).1.blobRefcounts = counts
  generalize (stage.operate number database).2 = rest
  have commits : edge ∈ (database.manifestBlobRefs.commit number).committed := by
    apply LockedTable.mem_commit_of_mem committed
    intro held
    have written := (kept.edges edge number none held).1
    cases written
  intro effect
  cases effect with
  | known inserted =>
    obtain ⟨_, ⟨_, same⟩ | ⟨_, same⟩⟩ := LockedTable.insertIgnore_cases inserted
    · obtain rfl := congrArg Prod.snd same
      exact committed
    · cases congrArg Prod.fst same
  | insert inserted =>
    obtain ⟨_, ⟨_, same⟩ | ⟨_, same⟩⟩ := LockedTable.insertIgnore_cases inserted
    · cases congrArg Prod.fst same
    · obtain rfl := congrArg Prod.snd same
      exact committed
  | added | reaped => exact commits
  | _ => exact committed

variable {paths : LockedTable BlobPath Unit}

theorem named_snapshot (rows : ∀ path ∈ paths.committed, path.Named)
    (pending : ∀ path holder, paths.locks.lookup path = some (holder, some ()) → path.Named) (path : BlobPath)
    (seen : path ∈ paths.snapshot number) : path.Named := by
  by_cases held : ∃ left, paths.locks.lookup path = some (number, left)
  · obtain ⟨left, locked⟩ := held
    rw [← AList.lookup_isSome, LockedTable.lookup_snapshot_of_held locked, Option.isSome_iff_exists] at seen
    obtain ⟨_, rfl⟩ := seen
    exact pending path number locked
  · rw [← AList.lookup_isSome, LockedTable.lookup_snapshot_of_not_held (not_exists.mp held),
      AList.lookup_isSome] at seen
    exact rows path seen

theorem named_operate {after : LockedTable BlobPath Unit} {rest : Stage ⊕ Outcome}
    (rows : ∀ path ∈ paths.committed, path.Named)
    (pending : ∀ path holder, paths.locks.lookup path = some (holder, some ()) → path.Named)
    (new : ∀ call past blob left, stage = .insertPath call past blob left → (call.path blob).Named)
    (effect : PathEffect number paths stage after rest) :
    (∀ path ∈ after.committed, path.Named) ∧
      ∀ path holder, after.locks.lookup path = some (holder, some ()) → path.Named := by
  have released : ∀ path holder, (paths.release number).lookup path = some (holder, some ()) →
      path.Named := by
    intro path holder held
    rw [LockedTable.lookup_release, Option.filter_eq_some_iff] at held
    exact pending path holder held.1
  cases effect with
  | none => exact ⟨rows, pending⟩
  | @insert call past left blob result inserted =>
    obtain ⟨_, ⟨_, rfl⟩ | ⟨_, rfl⟩⟩ := LockedTable.insertIgnore_cases inserted
    · exact ⟨rows, pending⟩
    · refine ⟨rows, ?_⟩
      intro path holder held
      rcases Table.lookup_insert_cases held with ⟨rfl, _⟩ | ⟨_, held⟩
      · exact new call past blob left rfl
      · exact pending path holder held
  | @delete key bytes after deleted =>
    obtain ⟨same, _, locks⟩ := LockedTable.deleteSeen_cases deleted
    rw [same]
    refine ⟨rows, ?_⟩
    intro path holder held
    rw [locks path] at held
    split at held
    · cases congrArg Prod.snd (Option.some.inj held)
    · exact pending path holder held
  | added | reaped => exact ⟨named_snapshot rows pending, released⟩
  | spared => exact ⟨rows, released⟩

theorem Flight.Writes.operate {flight : Flight} (writes : flight.Writes) (store : ObjectStore) :
    (∀ object ∈ store, object ∈ (flight.operate store).1) ∧
      ∀ next, (flight.operate store).2 = .inl next → next.Writes := by
  cases flight with
  | storing params digest body answer =>
    refine ⟨fun object present => (AList.mem_insert _).mpr (.inr present), ?_⟩
    intro next moved
    simp only [Flight.operate] at moved
    split at moved
    · cases moved
    · exact Sum.inl.inj moved ▸ trivial
  | linking params digest answer =>
    refine ⟨fun object present => (AList.mem_insert _).mpr (.inr present), ?_⟩
    intro next moved
    cases moved
  | _ => exact writes.elim

theorem launchPut_writes (launched : launchPut env request body = .inl flight) : flight.Writes := by
  simp only [launchPut] at launched
  split at launched
  · cases launched
  · split at launched
    · cases launched
    · exact Sum.inl.inj launched ▸ trivial

theorem headBlob_ok (answered : headBlob claims params store = .ok size) : params.object ∈ store := by
  simp only [headBlob] at answered
  split at answered
  · cases answered
  split at answered
  · cases answered
  · rename_i data present
    exact Table.mem_of_lookup present

theorem lookup_replaceWork (works : Table Nat Work) (number other : Nat) (next : Option Work) :
    (replaceWork works number next).lookup other = if other = number then next else works.lookup other := by
  by_cases same : other = number
  · subst same
    cases next <;> simp [replaceWork]
  · cases next <;> simp [replaceWork, same, AList.lookup_insert_ne same, AList.lookup_erase_ne same]

end Operations

section Steps

variable {env : Env} {state : RaceState} {number : Nat} {database : Database}
  {next : Option Work} {acked : List Push}

/-- The state after a work has moved on. -/
private def moved (state : RaceState) (number : Nat) (database : Database) (next : Option Work)
    (acked : List Push) : RaceState :=
  ⟨database, replaceWork state.works number next, acked ++ state.acknowledged⟩

private theorem stages_moved (other : Nat) : (moved state number database next acked).stages other =
      if other = number then next.bind Work.stage else state.stages other := by
  simp only [RaceState.stages, moved, lookup_replaceWork]
  split <;> rfl

private theorem RaceState.Kept.moved (kept : state.Kept env)
    (counts : CountsKept database.manifestBlobRefs database.blobRefcounts
      (moved state number database next acked).stages)
    (rows : ∀ path ∈ database.blobPaths.committed, path.Named)
    (pending : ∀ path holder, database.blobPaths.locks.lookup path = some (holder, some ()) → path.Named)
    (shaped : ∀ work, next = some work → work.Shaped env)
    (found : ∀ work, next = some work → ∀ object ∈ work.found, object ∈ database.store)
    (others : ∀ other work, other ≠ number → state.works.lookup other = some work →
      ∀ object ∈ work.found, object ∈ database.store)
    (safe : ∀ push ∈ acked ++ state.acknowledged, push.Safe env database) :
    (Registry.moved state number database next acked).Kept env where
  counts := counts
  rows := rows
  pending := pending
  shaped := by
    intro other work held
    simp only [Registry.moved, lookup_replaceWork] at held
    split at held
    · exact shaped work held
    · exact kept.shaped other work held
  found := by
    intro other work held
    simp only [Registry.moved, lookup_replaceWork] at held
    split at held
    · exact found work held
    · rename_i apart
      exact others other work apart held
  acknowledged := safe

/-- A work that is in no transaction, and leaves the tables alone. It may begin one. -/
private theorem RaceState.Kept.outside (kept : state.Kept env) (before : state.stages number = none)
    (after : next.bind Work.stage = none ∨ ∃ call, next.bind Work.stage = ((transaction
      number).launch call).getLeft?) (grows : ∀ object ∈ state.database.store, object ∈ store)
    (shaped : ∀ work, next = some work → work.Shaped env)
    (found : ∀ work, next = some work → ∀ object ∈ work.found, object ∈ store)
    (safe : ∀ push ∈ acked, push.Safe env { state.database with store := store }) :
    (Registry.moved state number { state.database with store := store } next acked).Kept env := by
  refine kept.moved ?_ kept.rows kept.pending shaped found ?_ ?_
  · have others : ∀ other, other ≠ number → (Registry.moved state number
        { state.database with store := store } next acked).stages other = state.stages other :=
      fun other apart => (stages_moved other).trans (if_neg apart)
    have here : (Registry.moved state number { state.database with store := store } next
        acked).stages number = next.bind Work.stage := (stages_moved number).trans (if_pos rfl)
    rcases after with outside | ⟨call, launched⟩
    · have same : (Registry.moved state number { state.database with store := store } next
          acked).stages = state.stages := by
        funext other
        by_cases equal : other = number
        · rw [equal, here, outside, before]
        · exact others other equal
      rw [same]
      exact kept.counts
    · exact kept.counts.launched before others (here.trans launched)
  · exact fun other work _ held object member =>
      grows object (kept.found other work held object member)
  · intro push member
    rcases List.mem_append.mp member with new | old
    · exact safe push new
    obtain ⟨named, accepted, stored⟩ := kept.acknowledged push old
    refine ⟨named, accepted, ?_⟩
    intro digest checked counted
    obtain ⟨present, edge⟩ := stored digest checked counted
    exact ⟨grows _ present, edge⟩

private theorem mem_acknowledge (member : done ∈ acknowledge push answer) : done = push := by
  unfold acknowledge at member
  split at member
  · exact List.mem_singleton.mp member
  · cases member

private theorem nextCheck_stage (push : Push) (found rest : List String) :
    (nextCheck env push found rest).bind Work.stage = none := by
  cases rest with
  | nil =>
    simp only [nextCheck]
    split <;> rfl
  | cons digest rest => rfl

private theorem nextCheck_work {push : Push} {found rest : List String} {work : Work} (named : push.Named env)
    (split : push.checked = found ++ rest) (asked : nextCheck env push found rest = some work) :
    work.Shaped env ∧ work.found = found.map fun digest => (push.blob digest).object := by
  cases rest with
  | nil =>
    simp only [nextCheck] at asked
    split at asked
    · rename_i flight launched
      obtain rfl := Option.some.inj asked
      refine ⟨⟨named, launchPut_writes launched⟩, ?_⟩
      rw [Work.found, split, List.append_nil]
    · cases asked
  | cons digest rest =>
    obtain rfl := Option.some.inj asked
    exact ⟨⟨named, split⟩, rfl⟩

section

variable (kept : state.Kept env)

include kept

variable {push : Push}

private theorem RaceState.Kept.checking {found rest : List String} {digest : String}
    (here : state.works.lookup number = some (.checking push found digest rest)) :
    (state.step env (.advance number)).Kept env := by
  have before : state.stages number = none := by simp [RaceState.stages, here, Work.stage]
  obtain ⟨named, split⟩ := kept.shaped number _ here
  have stored := kept.found number _ here
  simp only [RaceState.step, here, Work.operate]
  cases answered : headBlob push.request.claims (push.blob digest) state.database.store with
  | error error =>
    exact kept.outside before (.inl rfl) (fun _ present => present)
      (fun _ ended => nomatch ended) (fun _ ended => nomatch ended) (fun _ ended => nomatch ended)
  | ok size =>
    have advanced := fun work => @nextCheck_work env push (found ++ [digest]) rest work named
      (by simpa using split)
    refine kept.outside before (.inl (nextCheck_stage push (found ++ [digest]) rest))
      (fun _ present => present) (fun work asked => (advanced work asked).1) ?_ (fun _ ended => nomatch ended)
    intro work asked object member
    rw [(advanced work asked).2, List.map_append, List.mem_append] at member
    rcases member with earlier | last
    · exact stored object earlier
    · rw [List.mem_singleton.mp last]
      exact headBlob_ok answered

private theorem RaceState.Kept.writing (here : state.works.lookup number = some (.writing push flight)) :
    (state.step env (.advance number)).Kept env := by
  have before : state.stages number = none := by simp [RaceState.stages, here, Work.stage]
  obtain ⟨named, writes⟩ := kept.shaped number _ here
  obtain ⟨grows, writesOn⟩ := writes.operate state.database.store
  have stored : ∀ object ∈ push.checked.map fun digest => (push.blob digest).object,
      object ∈ (flight.operate state.database.store).1 :=
    fun object member => grows object (kept.found number _ here object member)
  simp only [RaceState.step, here, Work.operate]
  cases result : (flight.operate state.database.store).2 with
  | inl rest =>
    refine kept.outside before (.inl rfl) grows ?_ ?_ (fun _ ended => nomatch ended)
    · rintro work ⟨⟩
      exact ⟨named, writesOn rest result⟩
    · rintro work ⟨⟩
      exact stored
  | inr answer =>
    simp only [beginCount]
    cases blobs : push.blobs env with
    | none =>
      exact kept.outside before (.inl rfl) grows (fun _ ended => nomatch ended)
        (fun _ ended => nomatch ended) (fun _ ended => nomatch ended)
    | some list =>
      cases list with
      | nil =>
        refine kept.outside before (.inl rfl) grows (fun _ ended => nomatch ended)
          (fun _ ended => nomatch ended) ?_
        intro done member
        obtain rfl : done = push := mem_acknowledge member
        refine ⟨named, by rw [blobs]; rfl, ?_⟩
        intro digest _ counted
        simp [blobs] at counted
      | cons blob rest =>
        refine kept.outside before (.inr ⟨.addRefs (push.call env) (blob :: rest), rfl⟩) grows
          ?_ ?_ (fun _ ended => nomatch ended)
        · rintro work ⟨⟩
          refine ⟨named, by rw [blobs]; rfl, addsFor_nextBlob ?_⟩
          rw [blobs]
          rfl
        · rintro work ⟨⟩
          exact stored

variable {stage : Stage}

/-- A work in a transaction: the tables keep their invariants; the store and the acknowledged push
are left to show. -/
private theorem RaceState.Kept.inside {work : Work} (here : state.works.lookup number = some work)
    (running : work.stage = some stage)
    (next' : next.bind Work.stage = (stage.operate number state.database).2.getLeft?)
    (new : ∀ call past blob left, stage = .insertPath call past blob left → (call.path blob).Named)
    (shaped : ∀ work, next = some work → work.Shaped env)
    (found : ∀ work, next = some work →
      ∀ object ∈ work.found, object ∈ (stage.operate number state.database).1.store)
    (others : ∀ other work, other ≠ number → state.works.lookup other = some work →
      ∀ object ∈ work.found, object ∈ (stage.operate number state.database).1.store)
    (safe : ∀ push ∈ acked ++ state.acknowledged, push.Safe env (stage.operate number state.database).1) :
    (Registry.moved state number (stage.operate number state.database).1 next acked).Kept env := by
  have at' : state.stages number = some stage := by simp [RaceState.stages, here, running]
  obtain ⟨rows, pending⟩ := named_operate kept.rows kept.pending new
    (operate_paths number stage state.database)
  refine kept.moved ?_ rows pending shaped found others safe
  exact kept.counts.advance at' (fun other apart => (stages_moved other).trans (if_neg apart))
    (((stages_moved number).trans (if_pos rfl)).trans next')
    (operate_counts number stage state.database)

/-- A safe push stays safe when the operation leaves its objects in the store. -/
private theorem Push.Safe.operate (safe : push.Safe env state.database)
    (stored : ∀ digest ∈ push.checked, digest ∈ ((push.blobs env).getD []).map BlobDescriptor.digest →
      (push.blob digest).object ∈ (stage.operate number state.database).1.store) :
    push.Safe env (stage.operate number state.database).1 := by
  refine ⟨safe.named, safe.accepted, ?_⟩
  intro digest checked counted
  obtain ⟨edge, committed, same⟩ := (safe.stored digest checked counted).2
  exact ⟨stored digest checked counted, edge, mem_refs_operate kept.counts committed, same⟩

private theorem RaceState.Kept.counting
    (here : state.works.lookup number = some (.counting push answer stage)) :
    (state.step env (.advance number)).Kept env := by
  obtain ⟨named, accepted, adds⟩ := kept.shaped number _ here
  have same : (stage.operate number state.database).1.store = state.database.store := by
    rcases operate_store number stage state.database with same | ⟨key, bytes, path, rest, rfl, _⟩
    · exact same
    · exact adds.elim
  have stored : ∀ object ∈ push.checked.map fun digest => (push.blob digest).object,
      object ∈ (stage.operate number state.database).1.store := by
    rw [same]
    exact kept.found number _ here
  have others : ∀ other work, other ≠ number → state.works.lookup other = some work →
      ∀ object ∈ work.found, object ∈ (stage.operate number state.database).1.store := by
    rw [same]
    exact fun other work _ held => kept.found other work held
  have earlier : ∀ done ∈ state.acknowledged, done.Safe env (stage.operate number state.database).1 := by
    intro done member
    have safe := kept.acknowledged done member
    refine safe.operate kept fun digest checked counted => ?_
    rw [same]
    exact (safe.stored digest checked counted).1
  have new : ∀ call past blob left, stage = .insertPath call past blob left → (call.path blob).Named := by
    rintro call past blob left rfl
    obtain ⟨rfl, split⟩ := adds
    exact named blob (by simp [← split])
  simp only [RaceState.step, here, Work.operate]
  rcases @AddsFor.operate number state.database _ _ _ adds with ⟨rest, moved, addsOn⟩ | rfl
  · rw [moved]
    refine kept.inside here rfl (by rw [moved]; rfl) new ?_ ?_ others ?_
    · rintro work ⟨⟩
      exact ⟨named, accepted, addsOn⟩
    · rintro work ⟨⟩
      exact stored
    · exact fun done member => earlier done member
  · refine kept.inside here rfl rfl new (fun _ ended => nomatch ended)
      (fun _ ended => nomatch ended) others ?_
    intro done member
    rcases List.mem_append.mp member with last | old
    · obtain rfl : done = push := mem_acknowledge last
      refine ⟨named, accepted, ?_⟩
      intro digest checked counted
      obtain ⟨blob, listed, rfl⟩ := List.mem_map.mp counted
      have at' : state.stages number = some (.commitRefs (done.call env)
          ((done.blobs env).getD [])) := by simp [RaceState.stages, here, Work.stage]
      have keeps := kept.counts.passed number _ at' ((done.call env).edge blob)
        (List.mem_map.mpr ⟨blob, listed, rfl⟩)
      exact ⟨stored _ (List.mem_map.mpr ⟨blob.digest, checked, rfl⟩), _, keeps.mem_snapshot, rfl⟩
    · exact earlier done old

private theorem RaceState.Kept.cycling (here : state.works.lookup number = some (.cycling batch)) :
    (state.step env (.advance number)).Kept env := by
  have before : state.stages number = none := by simp [RaceState.stages, here, Work.stage]
  simp only [RaceState.step, here]
  cases batch with
  | nil =>
    exact kept.outside before (.inl rfl) (fun _ present => present)
      (fun _ ended => nomatch ended) (fun _ ended => nomatch ended) (fun _ ended => nomatch ended)
  | cons candidate rest =>
    refine kept.outside before (.inr ⟨.reapBlob candidate.key candidate.bytes, rfl⟩)
      (fun _ present => present) ?_ ?_ (fun _ ended => nomatch ended)
    · rintro work ⟨⟩
      exact ⟨candidate.key, rfl⟩
    · rintro work ⟨⟩ object impossible
      cases impossible

/-- A reaper past its check deletes no object of an acknowledged push: the count of such a blob
is positive. -/
private theorem RaceState.Kept.spares {key : BlobKey} {bytes : Int} {path : BlobPath}
    {rest : List BlobPath} (at' : state.stages number = some (.deleteObject key bytes path rest))
    (target : path.Named ∧ path.key = key) (safe : push.Safe env state.database) {digest : String}
    (checked : digest ∈ push.checked)
    (counted : digest ∈ ((push.blobs env).getD []).map BlobDescriptor.digest) :
    (push.blob digest).object ≠ path.object := by
  intro same
  obtain ⟨blob, listed, rfl⟩ := List.mem_map.mp counted
  have row : push.row blob.digest = path := (safe.named blob listed).eq_of_object target.1 same
  obtain ⟨edge, committed, ofRow⟩ := (safe.stored _ checked counted).2
  obtain ⟨found, present, positive⟩ := kept.counts.backed edge committed
  obtain ⟨_, zeroed, zero, none⟩ := kept.counts.reapers number _ key at' rfl
  rw [ofRow, row, target.2, zero] at present
  cases present
  omega

private theorem RaceState.Kept.reaping {batch : List Candidate}
    (careful : state.Careful env (.advance number))
    (here : state.works.lookup number = some (.reaping batch stage)) :
    (state.step env (.advance number)).Kept env := by
  have at' : state.stages number = some stage := by simp [RaceState.stages, here, Work.stage]
  obtain ⟨key, aims⟩ := kept.shaped number _ here
  have others : ∀ other work, other ≠ number → state.works.lookup other = some work →
      ∀ object ∈ work.found, object ∈ (stage.operate number state.database).1.store := by
    intro other work _ held object member
    have present := kept.found other work held object member
    rcases operate_store number stage state.database with
      same | ⟨key, bytes, path, rest, rfl, erased⟩
    · rwa [same]
    simp only [RaceState.Careful, here] at careful
    rw [erased, AList.mem_erase]
    refine ⟨?_, present⟩
    rintro rfl
    exact careful ⟨other, work⟩ (AList.mem_lookup_iff.mp held) member
  have earlier : ∀ done ∈ state.acknowledged, done.Safe env (stage.operate number state.database).1 := by
    intro done member
    have safe := kept.acknowledged done member
    refine safe.operate kept fun digest checked counted => ?_
    have present := (safe.stored digest checked counted).1
    rcases operate_store number stage state.database with
      same | ⟨other, bytes, path, rest, rfl, erased⟩
    · rwa [same]
    · obtain ⟨rfl, targets⟩ := aims
      rw [erased, AList.mem_erase]
      exact ⟨kept.spares at' (targets path List.mem_cons_self) safe checked counted, present⟩
  have new : ∀ call past blob left, stage = .insertPath call past blob left → (call.path blob).Named := by
    rintro call past blob left rfl
    exact aims.elim
  simp only [RaceState.step, here, Work.operate]
  cases moved : (stage.operate number state.database).2 with
  | inl rest =>
    refine kept.inside here rfl (by rw [moved]; rfl) new ?_ ?_ others earlier
    · rintro work ⟨⟩
      exact ⟨key, aims.operate (named_snapshot kept.rows kept.pending) moved⟩
    · rintro work ⟨⟩ object impossible
      cases impossible
  | inr outcome =>
    refine kept.inside here rfl (by rw [moved]; rfl) new ?_ ?_ others earlier
    · rintro work ⟨⟩
      trivial
    · rintro work ⟨⟩ object impossible
      cases impossible

private theorem RaceState.Kept.abort (here : state.works.lookup number = some work) :
    (Registry.moved state number (state.database.rollback number) work.failed []).Kept env := by
  have ended : work.failed.bind Work.stage = none := by
    cases work <;> rfl
  have reaper : ∀ next, work.failed = some next → next.Shaped env ∧ next.found = [] := by
    intro next failed
    cases work with
    | reaping batch stage =>
      obtain rfl := Option.some.inj failed
      exact ⟨trivial, rfl⟩
    | _ => cases failed
  refine kept.moved ?_ kept.rows ?_ (fun next failed => (reaper next failed).1) ?_
    (fun other work _ held => kept.found other work held)
    fun push member => ?_
  · exact kept.counts.rollback (fun other apart => (stages_moved other).trans (if_neg apart))
      (((stages_moved number).trans (if_pos rfl)).trans ended)
  · intro path holder held
    simp only [Database.rollback, LockedTable.rollback, LockedTable.lookup_release,
      Option.filter_eq_some_iff] at held
    exact kept.pending path holder held.1
  · intro next failed object member
    rw [(reaper next failed).2] at member
    cases member
  · obtain ⟨named, accepted, stored⟩ := kept.acknowledged push member
    exact ⟨named, accepted, stored⟩

theorem RaceState.Kept.step {event : RaceEvent} (careful : state.Careful env event) :
    (state.step env event).Kept env := by
  cases event with
  | push number push =>
    simp only [RaceState.step]
    split
    · exact kept
    rename_i unused
    have before : state.stages number = none := by
      simp [RaceState.stages, AList.lookup_eq_none.mpr unused]
    have asked := fun work => @nextCheck_work env push [] push.checked work careful rfl
    have begun : (Registry.moved state number state.database
        (nextCheck env push [] push.checked) []).Kept env := by
      refine kept.outside before (.inl (nextCheck_stage push [] push.checked))
        (fun _ present => present) (fun work begun => (asked work begun).1) ?_ (fun _ ended => nomatch ended)
      intro work begun object member
      rw [(asked work begun).2] at member
      cases member
    exact begun
  | select number config now =>
    simp only [RaceState.step]
    split
    · exact kept
    rename_i unused
    have before : state.stages number = none := by
      simp [RaceState.stages, AList.lookup_eq_none.mpr unused]
    have begun : (Registry.moved state number state.database (some (.cycling (candidates config now
          (state.database.tables.skipLocked state.database.blobRefcounts.locks.keys))))
        []).Kept env := by
      refine kept.outside before (.inl rfl) (fun _ present => present) ?_ ?_ (fun _ ended => nomatch ended)
      · rintro work ⟨⟩
        trivial
      · rintro work ⟨⟩ object impossible
        cases impossible
    exact begun
  | advance number =>
    cases here : state.works.lookup number with
    | none => simpa only [RaceState.step, here] using kept
    | some work =>
      cases work with
      | checking push found digest rest => exact kept.checking here
      | writing push flight => exact kept.writing here
      | counting push answer stage => exact kept.counting here
      | cycling batch => exact kept.cycling here
      | reaping batch stage => exact kept.reaping careful here
  | abort number =>
    cases here : state.works.lookup number with
    | none => simpa only [RaceState.step, here] using kept
    | some work =>
      simp only [RaceState.step, here]
      exact kept.abort here

end

end Steps

theorem RaceState.Quiet.kept {state : RaceState} (quiet : state.Quiet) (env : Env) : state.Kept env where
  counts := by
    have idle : ∀ number, state.stages number = none := by
      intro number
      simp [RaceState.stages, quiet.idle]
    refine ⟨?_, ?_, ?_, ?_, ?_⟩
    · intro edge committed
      have positive := quiet.counted edge committed
      simp only [Tables.refcount, Database.tables] at positive
      cases found : state.database.blobRefcounts.committed.lookup edge.key with
      | none => simp [found] at positive
      | some row =>
        refine ⟨row, rfl, ?_⟩
        simpa [found] using positive
    · intro number stage key running
      rw [idle number] at running
      cases running
    · intro key number left held
      rw [quiet.unlocked.counts key] at held
      cases held
    · intro edge number left held
      rw [quiet.unlocked.refs edge] at held
      cases held
    · intro number stage running
      rw [idle number] at running
      cases running
  rows := quiet.named
  pending := by
    intro path number held
    rw [quiet.unlocked.paths path] at held
    cases held
  shaped := by
    intro number work held
    rw [quiet.idle] at held
    cases held
  found := by
    intro number work held
    rw [quiet.idle] at held
    cases held
  acknowledged := by
    intro push member
    rw [quiet.fresh] at member
    cases member

/-- In a run in which the reaper deletes no object that a push under way has found, no
acknowledged push loses a blob. -/
theorem careful_runs_store_pushed_blobs (env : Env) (start : RaceState) (events : List RaceEvent)
    (quiet : start.Quiet) (careful : Along (RaceState.step env) (RaceState.Careful env) start events) :
    (after (RaceState.step env) start events).BlobsStored env := by
  have kept := after_invariant (RaceState.Kept env) (fun _ _ kept guard => kept.step guard)
    (quiet.kept env) careful
  intro push acknowledged document parsed digest checked referenced present
  have safe := kept.acknowledged push acknowledged
  refine (safe.stored digest checked ?_).1
  obtain ⟨blobs, accepted⟩ := Option.isSome_iff_exists.mp safe.accepted
  have extracted : extractBlobDigests document = some blobs := by
    simp only [Push.blobs, parsed] at accepted
    split at accepted
    · cases accepted
    · exact accepted
  rw [accepted]
  exact extractBlobDigests_complete extracted referenced present

/-- A repository with the layer, counted down to zero long ago. -/
def releasedLayer : RaceState where
  database := .ofBackend
    { store := (∅ : ObjectStore).insert (.ofString (blobPath "acme" "web" "one" layerDigest)) layer
      tables :=
        { Tables.empty with
          blobPaths := (∅ : Table BlobPath Unit).insert ⟨"acme", "web", "one", layerDigest⟩ ()
          blobRefcounts :=
            (∅ : Table BlobKey RefcountRow).insert ⟨"acme", layerDigest⟩ ⟨0, some 0, 0, 3⟩ } }
  works := ∅
  acknowledged := []

theorem releasedLayer_quiet : releasedLayer.Quiet where
  idle := rfl
  unlocked := ⟨fun _ => rfl, fun _ => rfl, fun _ => rfl⟩
  counted := fun edge committed => absurd committed (AList.notMem_empty edge)
  named := by
    intro path present
    rcases (AList.mem_insert _).mp present with rfl | impossible
    · decide +kernel
    · exact absurd impossible (AList.notMem_empty path)
  fresh := rfl

/-- The push of the manifest that names the layer, by a client that looks for the layer. -/
def layerPush : Push := ⟨requestTo "one" "latest", layerManifest, [layerDigest]⟩

def layerCycle (number : Nat) : RaceEvent := .select number ⟨1, 100⟩ 3600000000000

/-- The reaper runs after the push, and finds the count above zero. -/
def reapedAfterRun : List RaceEvent :=
  .push 1 layerPush :: List.replicate 7 (.advance 1) ++ layerCycle 2 :: List.replicate 3 (.advance 2)

theorem reaper_after_push_spares_layer :
    (after (RaceState.step layerEnv) releasedLayer reapedAfterRun).BlobsStored layerEnv :=
  careful_runs_store_pushed_blobs layerEnv releasedLayer reapedAfterRun releasedLayer_quiet
    (by decide +kernel)

/-- The client finds the layer; the reaper deletes it; the client pushes. -/
def reapedBetweenRun : List RaceEvent :=
  [.push 1 layerPush, .advance 1, layerCycle 2] ++ List.replicate 9 (.advance 2) ++
    List.replicate 6 (.advance 1)

theorem pushed_layer_lost :
    releasedLayer.Quiet ∧ (after (RaceState.step layerEnv) releasedLayer reapedBetweenRun).works = ∅ ∧
      ¬(after (RaceState.step layerEnv) releasedLayer reapedBetweenRun).BlobsStored layerEnv := by
  obtain ⟨idle, acknowledged, lost⟩ :
      (after (RaceState.step layerEnv) releasedLayer reapedBetweenRun).works.keys = [] ∧
      (after (RaceState.step layerEnv) releasedLayer reapedBetweenRun).acknowledged.map
        (fun push => (push.request.params, push.body, push.checked)) =
          [(layerPush.request.params, layerManifest, [layerDigest])] ∧
      (layerPush.blob layerDigest).object ∉
        (after (RaceState.step layerEnv) releasedLayer reapedBetweenRun).database.store := by
    decide +kernel
  refine ⟨releasedLayer_quiet, Table.eq_empty_of_keys idle, ?_⟩
  intro stored
  obtain ⟨push, only, same⟩ := List.map_eq_singleton_iff.mp acknowledged
  obtain ⟨params, body, checked⟩ : push.request.params = layerPush.request.params ∧
      push.body = layerManifest ∧ push.checked = [layerDigest] := by
    simpa only [Prod.mk.injEq] using same
  have present := stored push (by rw [only]; exact List.mem_singleton_self push) layerDocument
    (by rw [body]; rfl) layerDigest (by rw [checked]; exact List.mem_singleton_self _)
    (by decide +kernel) (by decide +kernel)
  rw [Push.blob, params] at present
  exact lost present

end SpectonCr.Registry
