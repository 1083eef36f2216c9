import SpectonCr.Base.Run
import SpectonCr.Base.Table
import SpectonCr.Common.Model
import SpectonCr.Gc.Manifest

namespace SpectonCr.Gc

/-- Primary key of `blob_paths`. -/
structure BlobPath where
  (tenant project repository blobDigest : String)
  deriving DecidableEq

/-- Primary key of `manifest_blob_refs`. The repository is not part of it. -/
structure Edge where
  (tenant manifestDigest blobDigest : String)
  deriving DecidableEq

/-- Primary key of `blob_refcounts`. -/
structure BlobKey where
  (tenant blobDigest : String)
  deriving DecidableEq

structure RefcountRow where
  refcount : Nat
  zeroedAt : Option Time
  lastSeenAt : Time
  bytes : Int
  deriving DecidableEq

structure GcReap where
  (tenant blobDigest : String)
  bytesFreed : Int
  reconciler : Bool

structure Tables where
  blobPaths : Table BlobPath Unit
  manifestBlobRefs : Table Edge Unit
  blobRefcounts : Table BlobKey RefcountRow
  gcReaps : List GcReap

def Tables.empty : Tables := ⟨∅, ∅, ∅, []⟩

/-- The row a new edge leaves in `blob_refcounts`. -/
def bumpRow (now : Time) (size : Int) : Option RefcountRow → RefcountRow
  | none => ⟨1, none, now, size⟩
  | some row => ⟨row.refcount + 1, none, now, max row.bytes size⟩

/-- The loop body of `add_refs`. -/
def addRef (now : Time) (tenant project repository manifestDigest : String) (tables : Tables)
    (blob : BlobDescriptor) : Tables :=
  let blobPaths := tables.blobPaths.insertNew ⟨tenant, project, repository, blob.digest⟩ ()
  let edge : Edge := ⟨tenant, manifestDigest, blob.digest⟩
  if edge ∈ tables.manifestBlobRefs then { tables with blobPaths }
  else
    let key : BlobKey := ⟨tenant, blob.digest⟩
    { tables with
      blobPaths
      manifestBlobRefs := tables.manifestBlobRefs.insertNew edge ()
      blobRefcounts := tables.blobRefcounts.insert key
        (bumpRow now blob.size (tables.blobRefcounts.lookup key)) }

def addRefs (now : Time) (tenant project repository manifestDigest : String)
    (blobs : List BlobDescriptor) (tables : Tables) : Tables :=
  blobs.foldl (addRef now tenant project repository manifestDigest) tables

/-- The loop body of `remove_refs`. -/
def dropRef (now : Time) (tables : Tables) (edge : Edge) : Tables :=
  let key : BlobKey := ⟨edge.tenant, edge.blobDigest⟩
  match tables.blobRefcounts.lookup key with
  | some row =>
    if 0 < row.refcount then
      let left : RefcountRow := { row with
        refcount := row.refcount - 1
        zeroedAt := if row.refcount - 1 = 0 then some now else row.zeroedAt
        lastSeenAt := now }
      { tables with blobRefcounts := tables.blobRefcounts.insert key left }
    else tables
  | none => tables

def ofManifest (tenant manifestDigest : String) (edge : Edge) : Bool :=
  edge.tenant = tenant && edge.manifestDigest = manifestDigest

def removeRefs (now : Time) (tenant manifestDigest : String) (tables : Tables) : Tables :=
  let rows := tables.manifestBlobRefs.keysWhere (ofManifest tenant manifestDigest)
  rows.foldl (dropRef now)
    { tables with
      manifestBlobRefs :=
        tables.manifestBlobRefs.deleteWhere (ofManifest tenant manifestDigest) }

def Tables.refcount (tables : Tables) (key : BlobKey) : Nat :=
  ((tables.blobRefcounts.lookup key).map RefcountRow.refcount).getD 0

def Edge.counts (key : BlobKey) (edge : Edge) : Bool :=
  edge.tenant = key.tenant && edge.blobDigest = key.blobDigest

/-- Every count is the number of edges it stands for. -/
def Tables.Counted (tables : Tables) : Prop :=
  ∀ key, tables.refcount key = tables.manifestBlobRefs.countKeys (Edge.counts key)

theorem Tables.Counted.empty : Tables.empty.Counted := fun _ => rfl

section addRefs

variable {now : Time} {tenant project repository manifestDigest : String} {tables : Tables}

private theorem addRef_balance (blob : BlobDescriptor) (key : BlobKey) :
    (addRef now tenant project repository manifestDigest tables blob).refcount key +
        tables.manifestBlobRefs.countKeys (Edge.counts key) =
      tables.refcount key + (addRef now tenant project repository manifestDigest tables
          blob).manifestBlobRefs.countKeys (Edge.counts key) := by
  by_cases known : (⟨tenant, manifestDigest, blob.digest⟩ : Edge) ∈ tables.manifestBlobRefs
  · simp only [addRef, known, ↓reduceIte]
    rfl
  simp only [addRef, known, ↓reduceIte, Tables.refcount, Table.countKeys_insertNew]
  by_cases same : key = ⟨tenant, blob.digest⟩
  · subst same
    rw [AList.lookup_insert]
    cases found : tables.blobRefcounts.lookup ⟨tenant, blob.digest⟩ <;> simp [bumpRow, Edge.counts] <;> omega
  have other : Edge.counts key ⟨tenant, manifestDigest, blob.digest⟩ = false := by
    cases key
    simp only [BlobKey.mk.injEq, not_and] at same
    simpa [Edge.counts] using fun first second => same first.symm second.symm
  simp [AList.lookup_insert_ne same, other]

theorem addRefs_balance (blobs : List BlobDescriptor) (key : BlobKey) :
    (addRefs now tenant project repository manifestDigest blobs tables).refcount key +
        tables.manifestBlobRefs.countKeys (Edge.counts key) =
      tables.refcount key + (addRefs now tenant project repository manifestDigest blobs
          tables).manifestBlobRefs.countKeys (Edge.counts key) := by
  induction blobs generalizing tables with
  | nil => rfl
  | cons blob rest ih =>
    have first := @addRef_balance now tenant project repository manifestDigest tables blob key
    have others := @ih (addRef now tenant project repository manifestDigest tables blob)
    simp only [addRefs, List.foldl_cons] at others ⊢
    omega

theorem addRefs_counted (counted : tables.Counted) (blobs : List BlobDescriptor) :
    (addRefs now tenant project repository manifestDigest blobs tables).Counted := by
  intro key
  have balance := @addRefs_balance now tenant project repository manifestDigest tables blobs key
  have before := counted key
  omega

private theorem mem_addRef (blob : BlobDescriptor) (edge : Edge) (path : BlobPath) :
    (edge ∈ (addRef now tenant project repository manifestDigest tables blob).manifestBlobRefs ↔
      edge = ⟨tenant, manifestDigest, blob.digest⟩ ∨ edge ∈ tables.manifestBlobRefs) ∧
    (path ∈ (addRef now tenant project repository manifestDigest tables blob).blobPaths ↔
      path = ⟨tenant, project, repository, blob.digest⟩ ∨ path ∈ tables.blobPaths) := by
  by_cases present : (⟨tenant, manifestDigest, blob.digest⟩ : Edge) ∈ tables.manifestBlobRefs
  · simp only [addRef, present, ↓reduceIte]
    refine ⟨⟨.inr, ?_⟩, Table.mem_insertNew⟩
    rintro (rfl | member)
    · exact present
    · exact member
  · simp only [addRef, present, ↓reduceIte]
    exact ⟨Table.mem_insertNew, Table.mem_insertNew⟩

theorem mem_refs_addRefs :
    edge ∈ (addRefs now tenant project repository manifestDigest blobs tables).manifestBlobRefs ↔
      (∃ blob ∈ blobs, edge = ⟨tenant, manifestDigest, blob.digest⟩) ∨ edge ∈ tables.manifestBlobRefs :=
  Run.foldl_iff (edge ∈ Tables.manifestBlobRefs ·) fun _ blob =>
    (mem_addRef blob edge ⟨tenant, project, repository, blob.digest⟩).1

theorem mem_paths_addRefs :
    path ∈ (addRefs now tenant project repository manifestDigest blobs tables).blobPaths ↔
      (∃ blob ∈ blobs, path = ⟨tenant, project, repository, blob.digest⟩) ∨ path ∈ tables.blobPaths :=
  Run.foldl_iff (path ∈ Tables.blobPaths ·) fun _ blob =>
    (mem_addRef blob ⟨tenant, manifestDigest, blob.digest⟩ path).2

end addRefs

section removeRefs

variable {now : Time} {tenant manifestDigest : String} {tables : Tables}

private theorem dropRef_tables (edge : Edge) :
    (dropRef now tables edge).manifestBlobRefs = tables.manifestBlobRefs ∧
      (dropRef now tables edge).blobPaths = tables.blobPaths := by
  simp only [dropRef]
  split
  · split <;> exact ⟨rfl, rfl⟩
  · exact ⟨rfl, rfl⟩

theorem refcount_dropRef (edge : Edge) (key : BlobKey) :
    (dropRef now tables edge).refcount key = tables.refcount key - if edge.counts key then 1 else 0 := by
  simp only [dropRef]
  by_cases same : key = ⟨edge.tenant, edge.blobDigest⟩
  · subst same
    cases found : tables.blobRefcounts.lookup ⟨edge.tenant, edge.blobDigest⟩ with
    | none => simp [Tables.refcount, found]
    | some row =>
      by_cases positive : 0 < row.refcount
      · simp [Tables.refcount, found, positive, Edge.counts]
      · simp [Tables.refcount, found, Nat.eq_zero_of_not_pos positive]
  · have other : edge.counts key = false := by
      cases key
      simp only [BlobKey.mk.injEq, not_and] at same
      simpa [Edge.counts] using fun first second => same first.symm second.symm
    simp only [other]
    split
    · split
      · simp [Tables.refcount, AList.lookup_insert_ne same]
      · rfl
    · rfl

theorem foldl_dropRef (edges : List Edge) :
    (edges.foldl (dropRef now) tables).manifestBlobRefs = tables.manifestBlobRefs ∧
      (edges.foldl (dropRef now) tables).blobPaths = tables.blobPaths ∧
      ∀ key, (edges.foldl (dropRef now) tables).refcount key =
        tables.refcount key - edges.countP (Edge.counts key) := by
  induction edges generalizing tables with
  | nil => simp
  | cons edge rest ih =>
    obtain ⟨refs, paths, counts⟩ := @ih (dropRef now tables edge)
    refine ⟨refs.trans (dropRef_tables edge).1, paths.trans (dropRef_tables edge).2, ?_⟩
    intro key
    rw [List.foldl_cons, counts key, refcount_dropRef, List.countP_cons]
    split <;> omega

@[simp] theorem paths_removeRefs :
    (removeRefs now tenant manifestDigest tables).blobPaths = tables.blobPaths :=
  (foldl_dropRef _).2.1

theorem mem_refs_removeRefs : edge ∈ (removeRefs now tenant manifestDigest tables).manifestBlobRefs ↔
      ofManifest tenant manifestDigest edge = false ∧ edge ∈ tables.manifestBlobRefs := by
  rw [removeRefs, (foldl_dropRef _).1, Table.mem_deleteWhere]

theorem removeRefs_counted (counted : tables.Counted) :
    (removeRefs now tenant manifestDigest tables).Counted := by
  intro key
  have split := Table.countKeys_deleteWhere tables.manifestBlobRefs (Edge.counts key)
    (ofManifest tenant manifestDigest)
  rw [removeRefs, (foldl_dropRef _).2.2 key, (foldl_dropRef _).1]
  have before := counted key
  simp only [Tables.refcount] at before ⊢
  omega

end removeRefs

end SpectonCr.Gc
