import Mathlib
import SpectonCr.Gc.RefCount
import SpectonCr.Storage.Store

namespace SpectonCr.Gc

open Storage

/-- What the registry and the reaper share: the object store and the tables. -/
structure Backend where
  store : ObjectStore
  tables : Tables

/-- The object a `blob_paths` row stands for. -/
def BlobPath.object (path : BlobPath) : StorePath :=
  .ofString (blobPath path.tenant path.project path.repository path.blobDigest)

def BlobPath.isOf (key : BlobKey) (path : BlobPath) : Bool :=
  path.tenant = key.tenant && path.blobDigest = key.blobDigest

/-- The committed transaction of `reap_blob`. A missing object is not an error. -/
def reapRow (backend : Backend) (key : BlobKey) (bytes : Int) : Backend :=
  let paths := backend.tables.blobPaths.keysWhere (BlobPath.isOf key)
  { store := paths.foldl (fun store path => store.erase path.object) backend.store
    tables :=
      { backend.tables with
        blobPaths := backend.tables.blobPaths.deleteWhere (BlobPath.isOf key)
        blobRefcounts := backend.tables.blobRefcounts.erase key
        gcReaps := backend.tables.gcReaps ++ [⟨key.tenant, key.blobDigest, bytes, false⟩] } }

def reapBlob (backend : Backend) (key : BlobKey) (bytes : Int) : Bool × Backend :=
  if (backend.tables.blobRefcounts.lookup key).map RefcountRow.refcount = some 0 then
    (true, reapRow backend key bytes)
  else (false, backend)

structure ReaperConfig where
  (graceSecs batchSize : Nat)

structure Candidate where
  key : BlobKey
  zeroedAt : Time
  bytes : Int
  deriving DecidableEq

def eligible (config : ReaperConfig) (now : Time) (key : BlobKey) (row : RefcountRow) : Option Candidate :=
  match row.zeroedAt with
  | some zeroedAt =>
    if row.refcount = 0 ∧ zeroedAt < now - config.graceSecs * 1000000000 then
      some ⟨key, zeroedAt, row.bytes⟩
    else none
  | none => none

/-- The batch query: oldest first, at most `batchSize` rows. -/
def candidates (config : ReaperConfig) (now : Time) (tables : Tables) : List Candidate :=
  ((tables.blobRefcounts.entries.filterMap fun row => eligible config now row.1 row.2).insertionSort
    fun first second => first.zeroedAt ≤ second.zeroedAt).take config.batchSize

structure CycleResult where
  blobs : Nat
  bytes : Int
  errors : Nat

/-- The batch loop. `halted` says whether a pause or a stop is seen before each
of the candidates. -/
def reapLoop : List Candidate → (halted : List Bool) → CycleResult → Backend → CycleResult × Backend
  | [], _, result, backend => (result, backend)
  | candidate :: rest, halted, result, backend =>
    if halted.headD false then (result, backend)
    else match reapBlob backend candidate.key candidate.bytes with
      | (true, reaped) =>
        reapLoop rest halted.tail
          { result with blobs := result.blobs + 1, bytes := result.bytes + candidate.bytes } reaped
      | (false, same) => reapLoop rest halted.tail result same

def reapOneCycle (config : ReaperConfig) (now : Time) (halted : List Bool) (backend : Backend) :
    CycleResult × Backend :=
  reapLoop (candidates config now backend.tables) halted ⟨0, 0, 0⟩ backend

variable {backend : Backend} {key : BlobKey} {bytes : Int}

/-- A blob is reaped only when its count is zero. -/
theorem reapBlob_cases (backend : Backend) (key : BlobKey) (bytes : Int) :
    (reapBlob backend key bytes).2 = backend ∨ (backend.tables.refcount key = 0 ∧
        (reapBlob backend key bytes).2 = reapRow backend key bytes) := by
  unfold reapBlob
  split
  · rename_i zero
    exact .inr ⟨by simp [Tables.refcount, zero], rfl⟩
  · exact .inl rfl

private theorem lookup_foldl_erase {Row : Type} (objects : List Row) (object : Row → StorePath)
    (store : ObjectStore) (path : StorePath) :
    (objects.foldl (fun store row => store.erase (object row)) store).lookup path =
      if path ∈ objects.map object then none else store.lookup path := by
  induction objects generalizing store with
  | nil => simp
  | cons row rest ih =>
    rw [List.foldl_cons, ih]
    by_cases same : path = object row
    · subst same
      simp
    · simp [same, AList.lookup_erase_ne same]

theorem lookup_reapRow (path : StorePath) : (reapRow backend key bytes).store.lookup path =
      if path ∈ (backend.tables.blobPaths.keysWhere (BlobPath.isOf key)).map BlobPath.object
      then none else backend.store.lookup path :=
  lookup_foldl_erase _ BlobPath.object backend.store path

theorem reapRow_counted (counted : backend.tables.Counted)
    (zero : backend.tables.refcount key = 0) : (reapRow backend key bytes).tables.Counted := by
  intro other
  rw [show (reapRow backend key bytes).tables.manifestBlobRefs =
    backend.tables.manifestBlobRefs from rfl, ← counted other]
  by_cases same : other = key
  · subst same
    rw [zero]
    simp [reapRow, Tables.refcount]
  · simp [reapRow, Tables.refcount, AList.lookup_erase_ne same]

/-- What each deletion keeps, a whole batch keeps. -/
theorem reapOneCycle_induction (Inv : Backend → Prop)
    (preserves : ∀ backend key bytes, Inv backend → Inv (reapBlob backend key bytes).2)
    (initial : Inv backend) (config : ReaperConfig) (now : Time) (halted : List Bool) :
    Inv (reapOneCycle config now halted backend).2 := by
  unfold reapOneCycle
  generalize (⟨0, 0, 0⟩ : CycleResult) = result
  generalize candidates config now backend.tables = batch
  induction batch generalizing halted result backend with
  | nil => exact initial
  | cons candidate rest ih =>
    unfold reapLoop
    split
    · exact initial
    have next := preserves backend candidate.key candidate.bytes initial
    split
    · rename_i reaped
      rw [reaped] at next
      exact ih next _ _
    · rename_i kept
      rw [kept] at next
      exact ih next _ _

end SpectonCr.Gc
