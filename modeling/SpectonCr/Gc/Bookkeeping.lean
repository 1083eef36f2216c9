import SpectonCr.Gc.Reaper

namespace SpectonCr.Gc

open Storage

/-- A committed transaction of the counter or of the reaper. -/
inductive Transaction where
  | addRefs (now : Time) (tenant project repository manifestDigest : String)
      (blobs : List BlobDescriptor)
  | removeRefs (now : Time) (tenant manifestDigest : String)
  | reapBlob (key : BlobKey) (bytes : Int)

def Transaction.run (backend : Backend) : Transaction → Backend
  | .addRefs now tenant project repository manifestDigest blobs =>
    { backend with
      tables := Gc.addRefs now tenant project repository manifestDigest blobs backend.tables }
  | .removeRefs now tenant manifestDigest =>
    { backend with tables := Gc.removeRefs now tenant manifestDigest backend.tables }
  | .reapBlob key bytes => (Gc.reapBlob backend key bytes).2

/-- The tables after a sequence of transactions on new ones. -/
def tablesAfter (store : ObjectStore) (transactions : List Transaction) : Tables :=
  (Run.after Transaction.run ⟨store, .empty⟩ transactions).tables

/-- What the rows of `blob_refcounts` say about the edges. -/
structure Bookkept (tables : Tables) : Prop where
  counted : ∀ key row, tables.blobRefcounts.lookup key = some row →
    row.refcount = tables.manifestBlobRefs.countKeys (Edge.counts key)
  missing : ∀ key, key ∉ tables.blobRefcounts → ∀ edge ∈ tables.manifestBlobRefs, edge.counts key = false
  zeroed : ∀ key row, tables.blobRefcounts.lookup key = some row →
    (row.zeroedAt.isSome = true ↔ row.refcount = 0)

/-- The key of the count an edge is part of. -/
def Edge.key (edge : Edge) : BlobKey := ⟨edge.tenant, edge.blobDigest⟩

/-- Every decrement of a removal meets a positive count, so that no count passes zero. -/
def DropsPositive (tables : Tables) : Prop :=
  ∀ now tenant manifestDigest front edge back,
    tables.manifestBlobRefs.keysWhere (ofManifest tenant manifestDigest) = front ++ edge :: back →
    0 < (front.foldl (dropRef now)
      { tables with
        manifestBlobRefs := tables.manifestBlobRefs.deleteWhere
          (ofManifest tenant manifestDigest) }).refcount edge.key

/-- The transaction takes the edges of the manifest away. -/
def Transaction.Removes (tenant manifestDigest : String) : Transaction → Prop
  | .removeRefs _ otherTenant otherManifest => otherTenant = tenant ∧ otherManifest = manifestDigest
  | _ => False

/-- The invariant of `zeroed_at`. -/
def Tables.Zeroed (tables : Tables) : Prop :=
  ∀ key row, tables.blobRefcounts.lookup key = some row → (row.zeroedAt.isSome = true ↔ row.refcount = 0)

section Zeroed

variable {tables : Tables}

section

variable (zeroed : tables.Zeroed)

include zeroed

theorem Tables.Zeroed.insert {key : BlobKey} {row : RefcountRow}
    (right : row.zeroedAt.isSome = true ↔ row.refcount = 0) {other : Tables}
    (written : other.blobRefcounts = tables.blobRefcounts.insert key row) : other.Zeroed := by
  intro found foundRow lookup
  rw [written] at lookup
  rcases Table.lookup_insert_cases lookup with ⟨rfl, rfl⟩ | ⟨_, lookup⟩
  · exact right
  · exact zeroed found foundRow lookup

variable (now : Time)

theorem addRef_zeroed (tenant project repository manifestDigest : String) (blob : BlobDescriptor) :
    (addRef now tenant project repository manifestDigest tables blob).Zeroed := by
  have bumped : ∀ old, (bumpRow now blob.size old).zeroedAt.isSome = true ↔
      (bumpRow now blob.size old).refcount = 0 := by
    intro old
    cases old with
    | none | some row => simp [bumpRow]
  simp only [addRef]
  split
  · exact zeroed
  · exact zeroed.insert (bumped _) rfl

theorem addRefs_zeroed (tenant project repository manifestDigest : String) (blobs : List BlobDescriptor) :
    (addRefs now tenant project repository manifestDigest blobs tables).Zeroed := by
  induction blobs generalizing tables with
  | nil => exact zeroed
  | cons blob rest ih =>
    exact ih (addRef_zeroed zeroed now tenant project repository manifestDigest blob)

theorem dropRef_zeroed (edge : Edge) : (dropRef now tables edge).Zeroed := by
  cases found : tables.blobRefcounts.lookup ⟨edge.tenant, edge.blobDigest⟩ with
  | none =>
    simp only [dropRef, found]
    exact zeroed
  | some row =>
    simp only [dropRef, found]
    split
    · rename_i positive
      refine zeroed.insert ?_ rfl
      have before := zeroed _ row found
      by_cases last : row.refcount - 1 = 0
      · simp [last]
      · have more : row.refcount ≠ 0 := by omega
        simp only [last, if_false, iff_false]
        exact fun set => more (before.mp set)
    · exact zeroed

theorem foldl_dropRef_zeroed (edges : List Edge) : (edges.foldl (dropRef now) tables).Zeroed := by
  induction edges generalizing tables with
  | nil => exact zeroed
  | cons edge rest ih => exact ih (dropRef_zeroed zeroed now edge)

theorem removeRefs_zeroed (tenant manifestDigest : String) :
    (removeRefs now tenant manifestDigest tables).Zeroed := by
  have stripped : ({ tables with
      manifestBlobRefs := tables.manifestBlobRefs.deleteWhere
        (ofManifest tenant manifestDigest) } : Tables).Zeroed := zeroed
  exact foldl_dropRef_zeroed stripped now _

end

end Zeroed

open Transaction

section Steps

variable {backend : Backend}

theorem run_zeroed (zeroed : backend.tables.Zeroed) (transaction : Transaction) :
    (transaction.run backend).tables.Zeroed := by
  cases transaction with
  | addRefs now tenant project repository manifestDigest blobs =>
    exact addRefs_zeroed zeroed now tenant project repository manifestDigest blobs
  | removeRefs now tenant manifestDigest => exact removeRefs_zeroed zeroed now tenant manifestDigest
  | reapBlob key bytes =>
    rcases reapBlob_cases backend key bytes with same | ⟨_, reaped⟩
    · simp only [run, same]
      exact zeroed
    simp only [run, reaped]
    intro other row found
    exact zeroed other row (Table.lookup_erase_cases found).2

theorem run_counted (counted : backend.tables.Counted) (transaction : Transaction) :
    (transaction.run backend).tables.Counted := by
  cases transaction with
  | addRefs now tenant project repository manifestDigest blobs =>
    exact addRefs_counted counted blobs
  | removeRefs now tenant manifestDigest => exact removeRefs_counted counted
  | reapBlob key bytes =>
    rcases reapBlob_cases backend key bytes with same | ⟨zero, reaped⟩
    · simp only [run, same]
      exact counted
    · simp only [run, reaped]
      exact reapRow_counted counted zero

theorem mem_run {transaction : Transaction} {edge : Edge} (present : edge ∈ backend.tables.manifestBlobRefs)
    (kept : ¬ transaction.Removes edge.tenant edge.manifestDigest) :
    edge ∈ (transaction.run backend).tables.manifestBlobRefs := by
  cases transaction with
  | addRefs now tenant project repository manifestDigest blobs =>
    exact mem_refs_addRefs.mpr (.inr present)
  | removeRefs now tenant manifestDigest =>
    refine mem_refs_removeRefs.mpr ⟨?_, present⟩
    simp only [ofManifest, Bool.and_eq_false_iff, decide_eq_false_iff_not]
    by_cases same : edge.tenant = tenant
    · exact .inr fun manifest => kept ⟨same.symm, manifest.symm⟩
    · exact .inl same
  | reapBlob key bytes =>
    rcases reapBlob_cases backend key bytes with same | ⟨_, reaped⟩
    · simp only [run, same]
      exact present
    · simp only [run, reaped]
      exact present

theorem mem_after {transactions : List Transaction} {edge : Edge}
    (present : edge ∈ backend.tables.manifestBlobRefs)
    (kept : ∀ transaction ∈ transactions, ¬ transaction.Removes edge.tenant edge.manifestDigest) :
    edge ∈ (Run.after run backend transactions).tables.manifestBlobRefs := by
  induction transactions generalizing backend with
  | nil => exact present
  | cons transaction rest ih =>
    obtain ⟨here, later⟩ := List.forall_mem_cons.mp kept
    exact ih (mem_run present here) later

end Steps

theorem addRefs_refcounts (now : Time) (tenant project repository manifestDigest : String)
    (present : ∀ blob ∈ blobs, (⟨tenant, manifestDigest, blob.digest⟩ : Edge) ∈ tables.manifestBlobRefs) :
    (addRefs now tenant project repository manifestDigest blobs tables).blobRefcounts =
      tables.blobRefcounts := by
  induction blobs generalizing tables with
  | nil => rfl
  | cons blob rest ih =>
    obtain ⟨here, later⟩ := List.forall_mem_cons.mp present
    have step : addRef now tenant project repository manifestDigest tables blob =
        { tables with
          blobPaths := tables.blobPaths.insertNew ⟨tenant, project, repository, blob.digest⟩ () } := by
      simp only [addRef, here, if_true]
    have others : (addRefs now tenant project repository manifestDigest rest
        (addRef now tenant project repository manifestDigest tables blob)).blobRefcounts =
          (addRef now tenant project repository manifestDigest tables blob).blobRefcounts := by
      apply ih
      rw [step]
      exact later
    exact others.trans (by rw [step])

/-- Counting a manifest again, with blobs that were counted with it. -/
def RepeatedAddsKeep (store : ObjectStore) (transactions : List Transaction) : Prop :=
  ∀ now tenant project repository manifestDigest blobs later,
    (∀ transaction ∈ later, ¬ Transaction.Removes tenant manifestDigest transaction) →
    ∀ again otherProject otherRepository repeated,
      (∀ blob ∈ repeated, blob.digest ∈ blobs.map BlobDescriptor.digest) →
      (tablesAfter store (transactions ++
        .addRefs now tenant project repository manifestDigest blobs :: later ++
        [.addRefs again tenant otherProject otherRepository manifestDigest repeated])).blobRefcounts =
      (tablesAfter store (transactions ++
        .addRefs now tenant project repository manifestDigest blobs :: later)).blobRefcounts

theorem repeatedAddsKeep (store : ObjectStore) (transactions : List Transaction) :
    RepeatedAddsKeep store transactions := by
  intro now tenant project repository manifestDigest blobs later kept again otherProject
    otherRepository repeated known
  have appended : ∀ front back, Run.after run (⟨store, .empty⟩ : Backend) (front ++ back) = Run.after run
        (Run.after run ⟨store, .empty⟩ front) back := by
    intro front back
    exact List.foldl_append
  rw [tablesAfter, tablesAfter, appended _ [_]]
  apply addRefs_refcounts
  intro blob member
  rw [appended]
  obtain ⟨counted, listed, same⟩ := List.mem_map.mp (known blob member)
  have first : (⟨tenant, manifestDigest, blob.digest⟩ : Edge) ∈
      (run (Run.after run ⟨store, .empty⟩ transactions)
        (.addRefs now tenant project repository manifestDigest blobs)).tables.manifestBlobRefs := by
    rw [← same]
    exact mem_refs_addRefs.mpr (.inl ⟨counted, listed, rfl⟩)
  have last := mem_after first kept
  exact last

theorem Tables.Counted.dropsPositive (counted : tables.Counted) : DropsPositive tables := by
  intro now tenant manifestDigest front edge back rows
  have total := Table.countKeys_deleteWhere tables.manifestBlobRefs (Edge.counts edge.key)
    (ofManifest tenant manifestDigest)
  have whole := counted edge.key
  have own : Edge.counts edge.key edge = true := by simp [Edge.counts, Edge.key]
  rw [rows, List.countP_append, List.countP_cons_of_pos own] at total
  rw [(foldl_dropRef front).2.2 edge.key]
  have same : ({ tables with
      manifestBlobRefs := tables.manifestBlobRefs.deleteWhere
        (ofManifest tenant manifestDigest) } : Tables).refcount edge.key =
      tables.refcount edge.key := rfl
  omega

theorem Bookkept.of_counted (counted : tables.Counted) (zeroed : tables.Zeroed) : Bookkept tables where
  counted := by
    intro key row found
    rw [← counted key, Tables.refcount, found]
    rfl
  missing := by
    intro key absent
    have none := counted key
    rw [Tables.refcount, AList.lookup_eq_none.mpr absent] at none
    exact Table.countKeys_eq_zero.mp none.symm
  zeroed := zeroed

/-- The counters are right after every sequence of transactions, no decrement passes zero, and
counting a manifest again changes no row. -/
theorem refcounts_bookkept (store : ObjectStore) (transactions : List Transaction) :
    Bookkept (tablesAfter store transactions) ∧ DropsPositive (tablesAfter store transactions) ∧
      RepeatedAddsKeep store transactions := by
  have counted : (tablesAfter store transactions).Counted :=
    Run.after_invariant (fun backend : Backend => backend.tables.Counted)
      (fun _ transaction held _ => run_counted held transaction) Tables.Counted.empty
      (Run.along_true _ transactions)
  have zeroed : (tablesAfter store transactions).Zeroed :=
    Run.after_invariant (fun backend : Backend => backend.tables.Zeroed)
      (fun _ transaction held _ => run_zeroed held transaction)
      (fun key row found => by cases found) (Run.along_true _ transactions)
  exact ⟨.of_counted counted zeroed, counted.dropsPositive, repeatedAddsKeep store transactions⟩

end SpectonCr.Gc
