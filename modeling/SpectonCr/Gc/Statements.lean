import SpectonCr.Base.Interleaving
import SpectonCr.Base.RowLocks
import SpectonCr.Gc.Reaper

namespace SpectonCr.Gc

open Storage Interleaving

/-- The arguments of `add_refs` other than the blobs, with the time of its transaction. -/
structure RefCall where
  now : Time
  (tenant project repository manifestDigest : String)

def RefCall.path (call : RefCall) (blob : BlobDescriptor) : BlobPath :=
  ⟨call.tenant, call.project, call.repository, blob.digest⟩

def RefCall.edge (call : RefCall) (blob : BlobDescriptor) : Edge :=
  ⟨call.tenant, call.manifestDigest, blob.digest⟩

def RefCall.key (call : RefCall) (blob : BlobDescriptor) : BlobKey := ⟨call.tenant, blob.digest⟩

def BlobPath.key (path : BlobPath) : BlobKey := ⟨path.tenant, path.blobDigest⟩

theorem BlobPath.isOf_iff {key : BlobKey} {path : BlobPath} : path.isOf key = true ↔ path.key = key := by
  cases key
  simp [BlobPath.isOf, BlobPath.key]

/-- A path row whose object is that of no other such row: its names are single segments, and its
digest has its algorithm. -/
def BlobPath.Named (path : BlobPath) : Prop :=
  PlainRepo path.tenant path.project path.repository ∧ Plain (blobHex path.blobDigest) ∧
    path.blobDigest = "sha256:" ++ blobHex path.blobDigest

instance (path : BlobPath) : Decidable path.Named := inferInstanceAs (Decidable (_ ∧ _))

theorem BlobPath.Named.eq_of_object {first second : BlobPath} (one : first.Named)
    (two : second.Named) (same : first.object = second.object) : first = second := by
  have parts := congrArg StorePath.parts same
  rw [BlobPath.object, BlobPath.object, parts_blobPath one.1, parts_blobPath two.1,
    one.2.1.segments, two.2.1.segments] at parts
  simp only [List.cons.injEq, and_true] at parts
  obtain ⟨tenant, project, repository, _, _, hex⟩ := parts
  have digest : first.blobDigest = second.blobDigest := by
    rw [one.2.2, two.2.2, hex]
  cases first
  cases second
  simp_all only

/-- The tables with the rows their transactions hold, and the object store. -/
structure Database where
  blobPaths : LockedTable BlobPath Unit
  manifestBlobRefs : LockedTable Edge Unit
  blobRefcounts : LockedTable BlobKey RefcountRow
  gcReaps : List GcReap
  store : ObjectStore

def Database.ofBackend (backend : Backend) : Database where
  blobPaths := ⟨backend.tables.blobPaths, ∅⟩
  manifestBlobRefs := ⟨backend.tables.manifestBlobRefs, ∅⟩
  blobRefcounts := ⟨backend.tables.blobRefcounts, ∅⟩
  gcReaps := backend.tables.gcReaps
  store := backend.store

def Database.tables (database : Database) : Tables where
  blobPaths := database.blobPaths.committed
  manifestBlobRefs := database.manifestBlobRefs.committed
  blobRefcounts := database.blobRefcounts.committed
  gcReaps := database.gcReaps

def Database.commit (database : Database) (number : Nat) : Database :=
  { database with
    blobPaths := database.blobPaths.commit number
    manifestBlobRefs := database.manifestBlobRefs.commit number
    blobRefcounts := database.blobRefcounts.commit number }

def Database.rollback (database : Database) (number : Nat) : Database :=
  { database with
    blobPaths := database.blobPaths.rollback number
    manifestBlobRefs := database.manifestBlobRefs.rollback number
    blobRefcounts := database.blobRefcounts.rollback number }

inductive Call where
  | addRefs (call : RefCall) (blobs : List BlobDescriptor)
  | reapBlob (key : BlobKey) (bytes : Int)

/-- The statement a transaction has come to. `add_refs` has been through the blobs in `past`. -/
inductive Stage where
  | insertPath (call : RefCall) (past : List BlobDescriptor) (blob : BlobDescriptor)
      (rest : List BlobDescriptor)
  | insertEdge (call : RefCall) (past : List BlobDescriptor) (blob : BlobDescriptor)
      (rest : List BlobDescriptor)
  | bumpCount (call : RefCall) (past : List BlobDescriptor) (blob : BlobDescriptor)
      (rest : List BlobDescriptor)
  | commitRefs (call : RefCall) (past : List BlobDescriptor)
  | lockCount (key : BlobKey) (bytes : Int)
  | selectPaths (key : BlobKey) (bytes : Int)
  | deleteObject (key : BlobKey) (bytes : Int) (path : BlobPath) (rest : List BlobPath)
  | deletePaths (key : BlobKey) (bytes : Int)
  | deleteCount (key : BlobKey) (bytes : Int)
  | insertReap (key : BlobKey) (bytes : Int)
  | commitReap (key : BlobKey) (bytes : Int)

inductive Outcome where
  | added (call : RefCall) (blobs : List BlobDescriptor)
  | reaped (key : BlobKey)
  | spared (key : BlobKey)

/-- The head of the loop of `add_refs`. -/
def Stage.nextBlob (call : RefCall) (past : List BlobDescriptor) : List BlobDescriptor → Stage
  | [] => .commitRefs call past
  | blob :: rest => .insertPath call past blob rest

/-- The head of the loop over the storage objects. -/
def Stage.nextObject (key : BlobKey) (bytes : Int) : List BlobPath → Stage
  | [] => .deletePaths key bytes
  | path :: rest => .deleteObject key bytes path rest

/-- One statement or one storage delete of a transaction. A statement that has to wait for a
row leaves everything as it is, and is issued again. -/
def Stage.operate (number : Nat) (stage : Stage) (database : Database) : Database × (Stage ⊕ Outcome) :=
  match stage with
  | .insertPath call past blob rest =>
    match database.blobPaths.insertIgnore number (call.path blob) () with
    | none => (database, .inl stage)
    | some (_, blobPaths) => ({ database with blobPaths }, .inl (.insertEdge call past blob rest))
  | .insertEdge call past blob rest =>
    match database.manifestBlobRefs.insertIgnore number (call.edge blob) () with
    | none => (database, .inl stage)
    | some (inserted, manifestBlobRefs) =>
      ({ database with manifestBlobRefs },
        .inl (if inserted then .bumpCount call past blob rest
          else .nextBlob call (past ++ [blob]) rest))
  | .bumpCount call past blob rest =>
    match database.blobRefcounts.upsert number (call.key blob) (bumpRow call.now blob.size) with
    | none => (database, .inl stage)
    | some blobRefcounts =>
      ({ database with blobRefcounts }, .inl (.nextBlob call (past ++ [blob]) rest))
  | .commitRefs call past => (database.commit number, .inr (.added call past))
  | .lockCount key bytes =>
    match database.blobRefcounts.selectForUpdate number key with
    | none => (database, .inl stage)
    | some (row, blobRefcounts) =>
      if row.map RefcountRow.refcount = some 0 then
        ({ database with blobRefcounts }, .inl (.selectPaths key bytes))
      else (({ database with blobRefcounts } : Database).rollback number, .inr (.spared key))
  | .selectPaths key bytes =>
    (database, .inl (.nextObject key bytes
      ((database.blobPaths.snapshot number).keysWhere (BlobPath.isOf key))))
  | .deleteObject key bytes path rest =>
    ({ database with store := database.store.erase path.object },
      .inl (.nextObject key bytes rest))
  | .deletePaths key bytes =>
    match database.blobPaths.deleteSeen number (BlobPath.isOf key) with
    | none => (database, .inl stage)
    | some blobPaths => ({ database with blobPaths }, .inl (.deleteCount key bytes))
  | .deleteCount key bytes =>
    match database.blobRefcounts.deleteSeen number (· = key) with
    | none => (database, .inl stage)
    | some blobRefcounts => ({ database with blobRefcounts }, .inl (.insertReap key bytes))
  | .insertReap key bytes => (database, .inl (.commitReap key bytes))
  | .commitReap key bytes =>
    ({ database.commit number with
        gcReaps := database.gcReaps ++ [⟨key.tenant, key.blobDigest, bytes, false⟩] },
      .inr (.reaped key))

/-- The transactions of the counter and of the reaper under one number. `add_refs` opens none
when there are no blobs. -/
def transaction (number : Nat) : Process Call Database Stage Outcome where
  launch
    | .addRefs call [] => .inr (.added call [])
    | .addRefs call (blob :: rest) => .inl (.nextBlob call [] (blob :: rest))
    | .reapBlob key bytes => .inl (.lockCount key bytes)
  operate := Stage.operate number

/-- No transaction holds a row. -/
structure Database.Unlocked (database : Database) : Prop where
  paths : ∀ path, database.blobPaths.locks.lookup path = none
  refs : ∀ edge, database.manifestBlobRefs.locks.lookup edge = none
  counts : ∀ key, database.blobRefcounts.locks.lookup key = none

end SpectonCr.Gc
