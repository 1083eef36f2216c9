import SpectonCr.Gc.Bookkeeping

namespace SpectonCr.Gc

inductive DriftKind where
  | missing
  | orphan
  | underflow

/-- A row of `gc_drift`. -/
structure Drift where
  key : BlobKey
  kind : DriftKind
  (expected observed : Nat)

structure ReconcileStats where
  (blobsExamined orphanCount missingCount underflowCount corrected : Nat)

structure ReconcileConfig where
  maxBlobs : Option Nat
  applyFix : Bool

/-- A row of the query: a count, if there is one, and the number of edges. -/
structure Comparison where
  key : BlobKey
  observed : Option Nat
  expected : Nat

/-- Every digest of either table once, in the order of the collation. -/
def digests (collate : BlobKey → BlobKey → Bool) (tables : Tables) : List BlobKey :=
  (tables.blobRefcounts.keys ++ tables.manifestBlobRefs.keys.map Edge.key).dedup.insertionSort
    fun first second => collate first second = true

def Tables.compare (tables : Tables) (key : BlobKey) : Comparison :=
  ⟨key, (tables.blobRefcounts.lookup key).map RefcountRow.refcount,
    tables.manifestBlobRefs.countKeys (Edge.counts key)⟩

/-- The query of `reconcile`. Without `max_blobs` its limit is the largest `BIGINT`, which no
table reaches. -/
def comparisons (collate : BlobKey → BlobKey → Bool) (maxBlobs : Option Nat) (tables : Tables) :
    List Comparison :=
  let keys := digests collate tables
  (match maxBlobs with
    | none => keys
    | some limit => keys.take limit).map tables.compare

/-- The match of `reconcile` on the observed and the expected count. -/
def Comparison.drift (comparison : Comparison) : Option DriftKind :=
  match comparison.observed, comparison.expected with
  | none, expected => if 0 < expected then some .missing else none
  | some observed, expected =>
    if expected = 0 ∧ 0 < observed then some .orphan
    else if expected < observed then some .underflow
    else none

/-- `UPDATE blob_refcounts … WHERE` for one key. -/
def Tables.updateCount (tables : Tables) (key : BlobKey) (change : RefcountRow → RefcountRow) :
    Tables :=
  match tables.blobRefcounts.lookup key with
  | some row => { tables with blobRefcounts := tables.blobRefcounts.insert key (change row) }
  | none => tables

def fixMissing (now : Time) (key : BlobKey) (expected : Nat) (tables : Tables) : Tables :=
  let row : RefcountRow := match tables.blobRefcounts.lookup key with
    | none => ⟨expected, none, now, 0⟩
    | some row => { row with refcount := expected, zeroedAt := none, lastSeenAt := now }
  { tables with blobRefcounts := tables.blobRefcounts.insert key row }

def fixOrphan (now : Time) (key : BlobKey) (tables : Tables) : Tables :=
  tables.updateCount key fun row =>
    { row with refcount := 0, zeroedAt := row.zeroedAt.or (some now) }

def fixUnderflow (now : Time) (key : BlobKey) (expected : Nat) (tables : Tables) : Tables :=
  tables.updateCount key fun row =>
    { row with refcount := expected, zeroedAt := if expected = 0 then some now else none }

/-- The repair of a comparison. -/
def Comparison.fix (now : Time) (comparison : Comparison) (kind : DriftKind) (tables : Tables) :
    Tables :=
  match kind with
  | .missing => fixMissing now comparison.key comparison.expected tables
  | .orphan => fixOrphan now comparison.key tables
  | .underflow => fixUnderflow now comparison.key comparison.expected tables

def ReconcileStats.found (stats : ReconcileStats) : DriftKind → ReconcileStats
  | .missing => { stats with missingCount := stats.missingCount + 1 }
  | .orphan => { stats with orphanCount := stats.orphanCount + 1 }
  | .underflow => { stats with underflowCount := stats.underflowCount + 1 }

/-- The tables with the findings of the reconciler. -/
structure Ledger where
  tables : Tables
  gcDrift : List Drift

/-- The loop body of `reconcile`; the clock gives the time of the statements for each row. -/
def examine (applyFix : Bool) (clock : Nat → Time) (progress : Ledger × ReconcileStats)
    (comparison : Comparison) : Ledger × ReconcileStats :=
  let ledger := progress.1
  let now := clock progress.2.blobsExamined
  let stats := { progress.2 with blobsExamined := progress.2.blobsExamined + 1 }
  match comparison.drift with
  | none => (ledger, stats)
  | some kind =>
    let recorded := { ledger with gcDrift := ledger.gcDrift ++
      [⟨comparison.key, kind, comparison.expected, comparison.observed.getD 0⟩] }
    let counted := stats.found kind
    if applyFix then
      ({ recorded with tables := comparison.fix now kind ledger.tables },
        { counted with corrected := counted.corrected + 1 })
    else (recorded, counted)

def reconcile (collate : BlobKey → BlobKey → Bool) (clock : Nat → Time) (config : ReconcileConfig)
    (ledger : Ledger) : Ledger × ReconcileStats :=
  (comparisons collate config.maxBlobs ledger.tables).foldl (examine config.applyFix clock)
    (ledger, ⟨0, 0, 0, 0, 0⟩)

/-- The configuration that repairs everything. -/
def repairAll : ReconcileConfig := ⟨none, true⟩

/-- A run found nothing to record. -/
def ReconcileStats.Clean (stats : ReconcileStats) : Prop :=
  stats.orphanCount = 0 ∧ stats.missingCount = 0 ∧ stats.underflowCount = 0

/-- No count is below its edges, and a count that is right has its time stamp right. -/
def Tables.Overcounted (tables : Tables) : Prop :=
  ∀ key row, tables.blobRefcounts.lookup key = some row →
    tables.manifestBlobRefs.countKeys (Edge.counts key) ≤ row.refcount ∧
    (row.refcount = tables.manifestBlobRefs.countKeys (Edge.counts key) →
      (row.zeroedAt.isSome = true ↔ row.refcount = 0))

section Repairs

variable {tables : Tables} {comparison : Comparison} {kind : DriftKind} {now : Time}

theorem refs_updateCount (key : BlobKey) (change : RefcountRow → RefcountRow) :
    (tables.updateCount key change).manifestBlobRefs = tables.manifestBlobRefs := by
  unfold Tables.updateCount
  split <;> rfl

theorem lookup_updateCount (key : BlobKey) (change : RefcountRow → RefcountRow) :
    (tables.updateCount key change).blobRefcounts.lookup key =
      (tables.blobRefcounts.lookup key).map change := by
  unfold Tables.updateCount
  cases found : tables.blobRefcounts.lookup key with
  | none => exact found
  | some row => exact AList.lookup_insert _

theorem lookup_updateCount_ne (apart : other ≠ key) (change : RefcountRow → RefcountRow) :
    (tables.updateCount key change).blobRefcounts.lookup other = tables.blobRefcounts.lookup other := by
  unfold Tables.updateCount
  split
  · exact AList.lookup_insert_ne apart
  · rfl

theorem refs_fix : (comparison.fix now kind tables).manifestBlobRefs = tables.manifestBlobRefs := by
  cases kind with
  | missing => rfl
  | orphan | underflow => exact refs_updateCount _ _

theorem lookup_fix_ne (apart : key ≠ comparison.key) :
    (comparison.fix now kind tables).blobRefcounts.lookup key = tables.blobRefcounts.lookup key := by
  cases kind with
  | missing => exact AList.lookup_insert_ne apart
  | orphan | underflow => exact lookup_updateCount_ne apart _

/-- What a row must be for its edges. -/
def Right (edges : Nat) : Option RefcountRow → Prop
  | none => edges = 0
  | some row => row.refcount = edges ∧ (row.zeroedAt.isSome = true ↔ row.refcount = 0)

theorem right_fix (same : later.blobRefcounts.lookup key = tables.blobRefcounts.lookup key)
    (drifts : (tables.compare key).drift = some kind) :
    Right (tables.manifestBlobRefs.countKeys (Edge.counts key))
      (((tables.compare key).fix now kind later).blobRefcounts.lookup key) := by
  simp only [Comparison.drift, Tables.compare] at drifts
  cases found : tables.blobRefcounts.lookup key with
  | none =>
    simp only [found, Option.map_none] at drifts
    split at drifts
    · rename_i referenced
      obtain rfl := Option.some.inj drifts
      simp only [Comparison.fix, fixMissing, Tables.compare, same, found, AList.lookup_insert, Right]
      refine ⟨trivial, ?_⟩
      constructor
      · intro set
        cases set
      · intro zero
        omega
    · cases drifts
  | some row =>
    simp only [found, Option.map_some] at drifts
    split at drifts
    · rename_i orphaned
      obtain rfl := Option.some.inj drifts
      simp only [Comparison.fix, fixOrphan, Tables.compare]
      rw [lookup_updateCount, same, found, Option.map_some, orphaned.1]
      refine ⟨rfl, ?_⟩
      cases row.zeroedAt <;> simp
    · rename_i counted
      split at drifts
      · rename_i above
        obtain rfl := Option.some.inj drifts
        simp only [Comparison.fix, fixUnderflow, Tables.compare]
        rw [lookup_updateCount, same, found, Option.map_some]
        have edges : tables.manifestBlobRefs.countKeys (Edge.counts key) ≠ 0 := by omega
        refine ⟨rfl, ?_⟩
        simp [edges]
      · cases drifts

/-- A comparison without drift is of a row that is missing for good reason or not too high. -/
theorem drift_none_iff (key : BlobKey) : (tables.compare key).drift = none ↔
      match tables.blobRefcounts.lookup key with
      | none => tables.manifestBlobRefs.countKeys (Edge.counts key) = 0
      | some row => row.refcount ≤ tables.manifestBlobRefs.countKeys (Edge.counts key) := by
  simp only [Comparison.drift, Tables.compare]
  cases tables.blobRefcounts.lookup key with
  | none => simp
  | some row =>
    simp only [Option.map_some]
    split
    · rename_i orphaned
      simp only [reduceCtorEq, false_iff]
      omega
    rename_i counted
    split
    · simp only [reduceCtorEq, false_iff]
      omega
    · simp only [true_iff]
      omega

end Repairs

section Loop

variable {clock : Nat → Time} {tables : Tables}

theorem examine_of_clean (clean : comparison.drift = none) (progress : Ledger × ReconcileStats) :
    examine applyFix clock progress comparison =
      (progress.1, { progress.2 with blobsExamined := progress.2.blobsExamined + 1 }) := by
  simp only [examine, clean]

theorem examine_of_drift (drifts : comparison.drift = some kind) (progress : Ledger × ReconcileStats) :
    (examine true clock progress comparison).1.tables =
      comparison.fix (clock progress.2.blobsExamined) kind progress.1.tables := by
  simp only [examine, drifts, if_true]

theorem refs_examine (progress : Ledger × ReconcileStats) (comparison : Comparison) :
    (examine true clock progress comparison).1.tables.manifestBlobRefs =
      progress.1.tables.manifestBlobRefs := by
  cases drifts : comparison.drift with
  | none => rw [examine_of_clean drifts]
  | some kind => rw [examine_of_drift drifts, refs_fix]

theorem lookup_examine_ne (apart : key ≠ comparison.key) (progress : Ledger × ReconcileStats) :
    (examine true clock progress comparison).1.tables.blobRefcounts.lookup key =
      progress.1.tables.blobRefcounts.lookup key := by
  cases drifts : comparison.drift with
  | none => rw [examine_of_clean drifts]
  | some kind => rw [examine_of_drift drifts, lookup_fix_ne apart]

/-- The progress of the loop over comparisons that were all made of `tables`. -/
abbrev progressAfter (clock : Nat → Time) (tables : Tables) (progress : Ledger × ReconcileStats)
    (keys : List BlobKey) : Ledger × ReconcileStats :=
  (keys.map tables.compare).foldl (examine true clock) progress

theorem refs_progressAfter (keys : List BlobKey) (progress : Ledger × ReconcileStats) :
    (progressAfter clock tables progress keys).1.tables.manifestBlobRefs =
      progress.1.tables.manifestBlobRefs := by
  induction keys generalizing progress with
  | nil => rfl
  | cons key rest ih => exact (ih _).trans (refs_examine progress _)

theorem lookup_progressAfter_of_not_mem (absent : key ∉ keys) (progress : Ledger × ReconcileStats) :
    (progressAfter clock tables progress keys).1.tables.blobRefcounts.lookup key =
      progress.1.tables.blobRefcounts.lookup key := by
  induction keys generalizing progress with
  | nil => rfl
  | cons first rest ih =>
    obtain ⟨apart, later⟩ := List.ne_and_not_mem_of_not_mem_cons absent
    exact (ih later _).trans (lookup_examine_ne apart progress)

theorem lookup_progressAfter_of_mem (distinct : keys.Nodup) (listed : key ∈ keys)
    (progress : Ledger × ReconcileStats)
    (same : progress.1.tables.blobRefcounts.lookup key = tables.blobRefcounts.lookup key) :
    if (tables.compare key).drift = none then
      (progressAfter clock tables progress keys).1.tables.blobRefcounts.lookup key =
        tables.blobRefcounts.lookup key
    else Right (tables.manifestBlobRefs.countKeys (Edge.counts key))
        ((progressAfter clock tables progress keys).1.tables.blobRefcounts.lookup key) := by
  induction keys generalizing progress with
  | nil => cases listed
  | cons first rest ih =>
    obtain ⟨fresh, others⟩ := List.nodup_cons.mp distinct
    rcases List.mem_cons.mp listed with rfl | later
    · have kept : (progressAfter clock tables (examine true clock progress (tables.compare key))
          rest).1.tables.blobRefcounts.lookup key = _ := lookup_progressAfter_of_not_mem fresh _
      simp only [progressAfter, List.map_cons, List.foldl_cons] at kept ⊢
      rw [kept]
      cases drifts : (tables.compare key).drift with
      | none =>
        rw [if_pos rfl, examine_of_clean drifts]
        exact same
      | some kind =>
        rw [if_neg (by simp), examine_of_drift drifts]
        exact right_fix same drifts
    · refine ih others later _ ?_
      rw [lookup_examine_ne _ progress]
      · exact same
      · intro equal
        subst equal
        exact fresh later

/-- Without drift the loop writes nothing and counts nothing but the rows it examines. -/
theorem foldl_examine_clean {applyFix : Bool} {rows : List Comparison}
    (clean : ∀ comparison ∈ rows, comparison.drift = none) (progress : Ledger × ReconcileStats) :
    rows.foldl (examine applyFix clock) progress =
      (progress.1, { progress.2 with blobsExamined := progress.2.blobsExamined + rows.length }) := by
  induction rows generalizing progress with
  | nil => rfl
  | cons first rest ih =>
    obtain ⟨here, later⟩ := List.forall_mem_cons.mp clean
    rw [List.foldl_cons, ih later, examine_of_clean here, List.length_cons, Nat.add_right_comm]
    rfl

end Loop

theorem mem_digests : key ∈ digests collate tables ↔
      key ∈ tables.blobRefcounts ∨ ∃ edge ∈ tables.manifestBlobRefs, edge.key = key := by
  simp [digests, AList.mem_keys]

theorem nodup_digests (collate : BlobKey → BlobKey → Bool) (tables : Tables) :
    (digests collate tables).Nodup :=
  (List.perm_insertionSort _ _).nodup_iff.mpr (List.nodup_dedup _)

theorem countKeys_of_unknown (unknown : key ∉ digests collate tables) :
    tables.manifestBlobRefs.countKeys (Edge.counts key) = 0 := by
  refine Table.countKeys_eq_zero.mpr fun edge present => ?_
  refine Bool.eq_false_iff.mpr fun counts => unknown (mem_digests.mpr (.inr ⟨edge, present, ?_⟩))
  simp only [Edge.counts, Bool.and_eq_true, decide_eq_true_eq] at counts
  cases key
  simp only [Edge.key, counts.1, counts.2]

theorem counted_and_zeroed_iff {tables : Tables} :
    tables.Counted ∧ tables.Zeroed ↔ ∀ key, Right (tables.manifestBlobRefs.countKeys (Edge.counts key))
        (tables.blobRefcounts.lookup key) := by
  constructor
  · rintro ⟨counted, zeroed⟩ key
    have count := counted key
    cases found : tables.blobRefcounts.lookup key with
    | none =>
      rw [Tables.refcount, found] at count
      exact count.symm
    | some row =>
      rw [Tables.refcount, found] at count
      exact ⟨count, zeroed key row found⟩
  · intro right
    constructor
    · intro key
      have here := right key
      cases found : tables.blobRefcounts.lookup key with
      | none =>
        rw [found] at here
        rw [Tables.refcount, found]
        exact here.symm
      | some row =>
        rw [found] at here
        rw [Tables.refcount, found]
        exact here.1
    · intro key row found
      have here := right key
      rw [found] at here
      exact here.2

section Reconcile

variable {collate : BlobKey → BlobKey → Bool} {clock : Nat → Time} {ledger : Ledger}

theorem refs_reconcile :
    (reconcile collate clock repairAll ledger).1.tables.manifestBlobRefs = ledger.tables.manifestBlobRefs :=
  refs_progressAfter (digests collate ledger.tables) _

/-- Where the comparison shows no drift the repair keeps the row, and elsewhere it is right. -/
theorem lookup_reconcile (key : BlobKey) :
    if (ledger.tables.compare key).drift = none then
      (reconcile collate clock repairAll ledger).1.tables.blobRefcounts.lookup key =
        ledger.tables.blobRefcounts.lookup key
    else Right (ledger.tables.manifestBlobRefs.countKeys (Edge.counts key))
        ((reconcile collate clock repairAll ledger).1.tables.blobRefcounts.lookup key) := by
  by_cases known : key ∈ digests collate ledger.tables
  · exact lookup_progressAfter_of_mem (nodup_digests collate ledger.tables) known _ rfl
  have absent : ledger.tables.blobRefcounts.lookup key = none :=
    AList.lookup_eq_none.mpr fun member => known (mem_digests.mpr (.inl member))
  have clean : (ledger.tables.compare key).drift = none := by
    rw [drift_none_iff, absent]
    exact countKeys_of_unknown known
  rw [if_pos clean]
  exact lookup_progressAfter_of_not_mem known _

theorem reconcile_clean {config : ReconcileConfig} (counted : ledger.tables.Counted) :
    (reconcile collate clock config ledger).2.Clean := by
  have clean : ∀ comparison ∈ comparisons collate config.maxBlobs ledger.tables, comparison.drift = none := by
    intro comparison listed
    obtain ⟨key, _, rfl⟩ := List.mem_map.mp listed
    rw [drift_none_iff]
    have count := counted key
    cases found : ledger.tables.blobRefcounts.lookup key with
    | none =>
      rw [Tables.refcount, found] at count
      exact count.symm
    | some row =>
      rw [Tables.refcount, found] at count
      exact count.le
  rw [reconcile, foldl_examine_clean clean]
  exact ⟨rfl, rfl, rfl⟩

/-- The repair of one key succeeds unless its count is low or only its time stamp is wrong. -/
theorem right_reconcile_iff (key : BlobKey) :
    Right (ledger.tables.manifestBlobRefs.countKeys (Edge.counts key))
        ((reconcile collate clock repairAll ledger).1.tables.blobRefcounts.lookup key) ↔
      ∀ row, ledger.tables.blobRefcounts.lookup key = some row →
        ledger.tables.manifestBlobRefs.countKeys (Edge.counts key) ≤ row.refcount ∧
        (row.refcount = ledger.tables.manifestBlobRefs.countKeys (Edge.counts key) →
          (row.zeroedAt.isSome = true ↔ row.refcount = 0)) := by
  have outcome := @lookup_reconcile collate clock ledger key
  cases drifts : (ledger.tables.compare key).drift with
  | none =>
    have shown := (drift_none_iff key).mp drifts
    rw [if_pos drifts] at outcome
    rw [outcome]
    cases found : ledger.tables.blobRefcounts.lookup key with
    | none =>
      rw [found] at shown
      refine ⟨fun _ row equal => ?_, fun _ => shown⟩
      cases equal
    | some row =>
      rw [found] at shown
      constructor
      · intro right other equal
        cases equal
        exact ⟨right.1.ge, fun _ => right.2⟩
      · intro condition
        obtain ⟨enough, zeroed⟩ := condition row rfl
        have count := Nat.le_antisymm shown enough
        exact ⟨count, zeroed count⟩
  | some kind =>
    rw [if_neg (by simp [drifts])] at outcome
    refine ⟨fun _ row found => ?_, fun _ => outcome⟩
    have above : ¬ row.refcount ≤ ledger.tables.manifestBlobRefs.countKeys (Edge.counts key) := by
      intro low
      have clean : (ledger.tables.compare key).drift = none := by
        rw [drift_none_iff, found]
        exact low
      rw [drifts] at clean
      cases clean
    constructor <;> omega

end Reconcile

/-- A repairing run leaves every count and time stamp right, and the next run without findings,
exactly if no count was below its edges and no right count had a wrong time stamp. -/
theorem reconcile_repairs_iff (collate : BlobKey → BlobKey → Bool) (clock again : Nat → Time)
    (ledger : Ledger) :
    ((reconcile collate clock repairAll ledger).1.tables.Counted ∧
      (reconcile collate clock repairAll ledger).1.tables.Zeroed ∧
      (reconcile collate again repairAll (reconcile collate clock repairAll ledger).1).2.Clean) ↔
    ledger.tables.Overcounted := by
  have repaired : (reconcile collate clock repairAll ledger).1.tables.Counted ∧
      (reconcile collate clock repairAll ledger).1.tables.Zeroed ↔ ledger.tables.Overcounted := by
    rw [counted_and_zeroed_iff, refs_reconcile]
    exact forall_congr' right_reconcile_iff
  constructor
  · rintro ⟨counted, zeroed, _⟩
    exact repaired.mp ⟨counted, zeroed⟩
  · intro condition
    obtain ⟨counted, zeroed⟩ := repaired.mpr condition
    exact ⟨counted, zeroed, reconcile_clean counted⟩

/-- A blob of two manifests that is counted once, and one without manifests whose count has no
time stamp. -/
def undercounted : Ledger where
  tables := {
    blobPaths := ∅
    manifestBlobRefs := ((∅ : Table Edge Unit).insert ⟨"acme", "sha256:m", "sha256:a"⟩ ()).insert
      ⟨"acme", "sha256:n", "sha256:a"⟩ ()
    blobRefcounts := ((∅ : Table BlobKey RefcountRow).insert ⟨"acme", "sha256:a"⟩
      ⟨1, none, 0, 10⟩).insert ⟨"acme", "sha256:b"⟩ ⟨0, none, 0, 10⟩
    gcReaps := [] }
  gcDrift := []

/-- The repair leaves both as they are. -/
theorem low_count_survives :
    (reconcile (fun _ _ => true) (fun _ => 1) repairAll undercounted).1.tables.refcount
        ⟨"acme", "sha256:a"⟩ = 1 ∧
      (reconcile (fun _ _ => true) (fun _ => 1) repairAll
        undercounted).1.tables.manifestBlobRefs.countKeys (Edge.counts ⟨"acme", "sha256:a"⟩) = 2 ∧
      (reconcile (fun _ _ => true) (fun _ => 1) repairAll
        undercounted).1.tables.blobRefcounts.lookup ⟨"acme", "sha256:b"⟩ = some ⟨0, none, 0, 10⟩ := by
  decide +kernel

end SpectonCr.Gc
