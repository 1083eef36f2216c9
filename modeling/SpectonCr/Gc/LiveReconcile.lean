import SpectonCr.Gc.Reconciler

namespace SpectonCr.Gc

/-- What `remove_refs` commits. Its `DELETE` takes the edges of the manifest that it `seen`, which
need not be all; from then on it holds their rows. -/
def removeSeen (now : Time) (tenant manifestDigest : String) (seen : List Edge) (tables : Tables) :
    Tables :=
  let selected := fun edge => ofManifest tenant manifestDigest edge && decide (edge ∈ seen)
  (tables.manifestBlobRefs.keysWhere selected).foldl (dropRef now)
    { tables with manifestBlobRefs := tables.manifestBlobRefs.deleteWhere selected }

/-- A run of the reconciler on its way: `rows` is what its query returned, once it has run. -/
structure Live where
  progress : Ledger × ReconcileStats
  rows : Option (List Comparison)

def Live.tables (live : Live) : Tables := live.progress.1.tables

def Live.withTables (live : Live) (tables : Tables) : Live :=
  { live with progress := ({ live.progress.1 with tables }, live.progress.2) }

/-- What commits next: a transaction of the counter, the query of the reconciler, or the statements
for its next row. A statement that meets a locked row waits. -/
inductive LiveEvent where
  | addRefs (now : Time) (tenant project repository manifestDigest : String)
      (blobs : List BlobDescriptor)
  | removeRefs (now : Time) (tenant manifestDigest : String) (seen : List Edge)
  | query
  | next (now : Time)

def Live.step (collate : BlobKey → BlobKey → Bool) (maxBlobs : Option Nat) (live : Live) : LiveEvent → Live
  | .addRefs now tenant project repository manifestDigest blobs =>
    live.withTables (Gc.addRefs now tenant project repository manifestDigest blobs live.tables)
  | .removeRefs now tenant manifestDigest seen =>
    live.withTables (removeSeen now tenant manifestDigest seen live.tables)
  | .query =>
    match live.rows with
    | none => { live with rows := some (comparisons collate maxBlobs live.tables) }
    | some _ => live
  | .next now =>
    match live.rows with
    | some (comparison :: rest) => ⟨examine true (fun _ => now) live.progress comparison, some rest⟩
    | _ => live

/-- Before the query. -/
def Live.begin (ledger : Ledger) : Live := ⟨(ledger, ⟨0, 0, 0, 0, 0⟩), none⟩

/-- No count is below the number of its edges. -/
def Tables.Covered (tables : Tables) : Prop :=
  ∀ key, tables.manifestBlobRefs.countKeys (Edge.counts key) ≤ tables.refcount key

/-- The row that is repaired next has no more edges than the query counted. -/
def Live.UpToDate (live : Live) : LiveEvent → Prop
  | .next _ => ∀ comparison ∈ live.rows.bind List.head?, comparison.drift.isSome = true →
      live.tables.manifestBlobRefs.countKeys (Edge.counts comparison.key) ≤ comparison.expected
  | _ => True

section Covered

variable {tables : Tables}

theorem addRefs_covered (covered : tables.Covered) (now : Time)
    (tenant project repository manifestDigest : String) (blobs : List BlobDescriptor) :
    (addRefs now tenant project repository manifestDigest blobs tables).Covered := by
  intro key
  have balance := @addRefs_balance now tenant project repository manifestDigest tables blobs key
  have before := covered key
  omega

theorem removeSeen_covered (covered : tables.Covered) (now : Time) (tenant manifestDigest : String)
    (seen : List Edge) : (removeSeen now tenant manifestDigest seen tables).Covered := by
  intro key
  have split := Table.countKeys_deleteWhere tables.manifestBlobRefs (Edge.counts key)
    (fun edge => ofManifest tenant manifestDigest edge && decide (edge ∈ seen))
  have before := covered key
  simp only [removeSeen]
  rw [(foldl_dropRef _).2.2 key, (foldl_dropRef _).1]
  simp only [Tables.refcount] at before ⊢
  omega

theorem refcount_updateCount (key : BlobKey) (change : RefcountRow → RefcountRow) (expected : Nat)
    (counts : ∀ row, (change row).refcount = expected) :
    (tables.updateCount key change).refcount key = expected ∨
      tables.refcount key = 0 ∧ (tables.updateCount key change).refcount key = 0 := by
  rw [Tables.refcount, Tables.refcount, lookup_updateCount]
  cases tables.blobRefcounts.lookup key with
  | none => exact .inr ⟨rfl, rfl⟩
  | some row => exact .inl (counts row)

theorem expected_of_orphan {comparison : Comparison} (drifts : comparison.drift = some .orphan) :
    comparison.expected = 0 := by
  unfold Comparison.drift at drifts
  split at drifts
  · split at drifts <;> cases drifts
  split at drifts
  · rename_i orphaned
    exact orphaned.1
  · split at drifts <;> cases drifts

theorem refcount_fix {comparison : Comparison} {kind : DriftKind} (drifts : comparison.drift = some kind)
    (now : Time) :
    (comparison.fix now kind tables).refcount comparison.key = comparison.expected ∨
      tables.refcount comparison.key = 0 ∧ (comparison.fix now kind tables).refcount comparison.key = 0 := by
  cases kind with
  | missing =>
    refine .inl ?_
    simp only [Comparison.fix, fixMissing, Tables.refcount, AList.lookup_insert]
    split <;> rfl
  | orphan => exact refcount_updateCount _ _ _ fun _ => (expected_of_orphan drifts).symm
  | underflow => exact refcount_updateCount _ _ _ fun _ => rfl

/-- A repair of covered tables keeps them covered exactly if the count it writes is enough. -/
theorem fix_covered_iff (covered : tables.Covered) {comparison : Comparison} {kind : DriftKind}
    (drifts : comparison.drift = some kind) (now : Time) :
    (comparison.fix now kind tables).Covered ↔
      tables.manifestBlobRefs.countKeys (Edge.counts comparison.key) ≤ comparison.expected := by
  have written := @refcount_fix tables comparison kind drifts now
  constructor
  · intro kept
    have here := kept comparison.key
    rw [refs_fix] at here
    omega
  · intro enough key
    rw [refs_fix]
    have before := covered key
    by_cases same : key = comparison.key
    · subst same
      omega
    · rw [Tables.refcount, lookup_fix_ne same]
      exact before

end Covered

section Runs

variable {collate : BlobKey → BlobKey → Bool} {maxBlobs : Option Nat}

/-- One step keeps the counts covered exactly if it does not repair with an outdated number. -/
theorem step_covered_iff {live : Live} (covered : live.tables.Covered) (event : LiveEvent) :
    (live.step collate maxBlobs event).tables.Covered ↔ live.UpToDate event := by
  cases event with
  | addRefs now tenant project repository manifestDigest blobs =>
    exact iff_of_true (addRefs_covered covered now tenant project repository manifestDigest blobs) trivial
  | removeRefs now tenant manifestDigest seen =>
    exact iff_of_true (removeSeen_covered covered now tenant manifestDigest seen) trivial
  | query =>
    refine iff_of_true ?_ trivial
    simp only [Live.step]
    split <;> exact covered
  | next now =>
    simp only [Live.step, Live.UpToDate]
    split
    · rename_i comparison rest rows
      simp only [rows, Option.bind_some, List.head?_cons, Option.mem_def, Option.some.injEq, forall_eq']
      cases drifts : comparison.drift with
      | none =>
        rw [Live.tables, examine_of_clean drifts]
        exact iff_of_true covered (by simp)
      | some kind =>
        rw [Live.tables, examine_of_drift drifts]
        exact (fix_covered_iff covered drifts now).trans (by simp)
    · rename_i none
      refine iff_of_true covered ?_
      intro comparison head
      cases rows : live.rows with
      | none => simp [rows] at head
      | some list =>
        cases list with
        | nil => simp [rows] at head
        | cons first rest => exact (none first rest rows).elim

/-- From counts that cover their edges, every committed state of the reconciler among the counter's
transactions has such counts, exactly if every repair comes while its row has no more edges than
were counted. -/
theorem live_counts_covered_iff (collate : BlobKey → BlobKey → Bool) (maxBlobs : Option Nat)
    (ledger : Ledger) (covered : ledger.tables.Covered) (events : List LiveEvent) :
    Run.Along (Live.step collate maxBlobs)
        (fun live event => (live.step collate maxBlobs event).tables.Covered)
        (.begin ledger) events ↔
      Run.Along (Live.step collate maxBlobs) Live.UpToDate (.begin ledger) events := by
  have initial : (Live.begin ledger).tables.Covered := covered
  exact Run.along_invariant_iff (fun live : Live => live.tables.Covered)
    (fun _ event held => step_covered_iff held event) initial

end Runs

instance Live.decideUpToDate (live : Live) : (event : LiveEvent) → Decidable (live.UpToDate event)
  | .addRefs .. => .isTrue trivial
  | .removeRefs .. => .isTrue trivial
  | .query => .isTrue trivial
  | .next _ => inferInstanceAs (Decidable (∀ comparison ∈ live.rows.bind List.head?,
      comparison.drift.isSome = true → _ ≤ _))

/-- A blob of one manifest that is counted twice. -/
def countedTwice : Ledger where
  tables := {
    blobPaths := ∅
    manifestBlobRefs := (∅ : Table Edge Unit).insert ⟨"acme", "sha256:m", "sha256:a"⟩ ()
    blobRefcounts := (∅ : Table BlobKey RefcountRow).insert ⟨"acme", "sha256:a"⟩ ⟨2, none, 0, 10⟩
    gcReaps := [] }
  gcDrift := []

theorem countedTwice_covered : countedTwice.tables.Covered := by
  intro key
  by_cases same : key = ⟨"acme", "sha256:a"⟩
  · subst same
    decide +kernel
  have other : Edge.counts key ⟨"acme", "sha256:m", "sha256:a"⟩ = false := by
    cases key
    simp only [BlobKey.mk.injEq, not_and] at same
    simpa [Edge.counts] using fun first second => same first.symm second.symm
  have none : countedTwice.tables.manifestBlobRefs.countKeys (Edge.counts key) = 0 := by
    refine Table.countKeys_eq_zero.mpr ?_
    intro edge present
    simp only [countedTwice, AList.mem_insert] at present
    rcases present with rfl | absent
    · exact other
    · exact (AList.notMem_empty _ absent).elim
  omega

/-- A deletion between the query and the repair does no harm. -/
theorem repair_after_removal : Run.Along (Live.step (fun _ _ => true) none)
      (fun live event => (live.step (fun _ _ => true) none event).tables.Covered)
      (.begin countedTwice)
      [.query, .removeRefs 1 "acme" "sha256:m" [⟨"acme", "sha256:m", "sha256:a"⟩], .next 2] :=
  (live_counts_covered_iff (fun _ _ => true) none countedTwice countedTwice_covered _).mpr (by decide +kernel)

/-- A push between the query and the repair is counted by its edge alone. -/
theorem repair_overwrites_push : countedTwice.tables.Covered ∧
    (Run.after (Live.step (fun _ _ => true) none) (.begin countedTwice)
      [.query, .addRefs 1 "acme" "shop" "web" "sha256:n" [⟨"sha256:a", 10⟩],
        .next 2]).tables.refcount ⟨"acme", "sha256:a"⟩ = 1 ∧
    (Run.after (Live.step (fun _ _ => true) none) (.begin countedTwice)
      [.query, .addRefs 1 "acme" "shop" "web" "sha256:n" [⟨"sha256:a", 10⟩],
        .next 2]).tables.manifestBlobRefs.countKeys (Edge.counts ⟨"acme", "sha256:a"⟩) = 2 :=
  ⟨countedTwice_covered, by decide +kernel, by decide +kernel⟩

end SpectonCr.Gc
