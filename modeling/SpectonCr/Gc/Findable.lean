import SpectonCr.Gc.Statements

/-! Whether the reaper can find every copy of a counted blob. -/

namespace SpectonCr.Gc

open Storage Interleaving Run

/-- The database and its transactions. `recorded` are the copies that a committed `add_refs`
has named since their blob was last reaped. -/
structure TxSystem where
  database : Database
  transactions : Table Nat Stage
  recorded : List BlobPath

inductive TxEvent where
  | start (number : Nat) (call : Call)
  | advance (number : Nat)
  | abort (number : Nat)

def recordedAfter (recorded : List BlobPath) : Stage ⊕ Outcome → List BlobPath
  | .inl _ => recorded
  | .inr (.added call blobs) => blobs.map call.path ++ recorded
  | .inr (.reaped key) => recorded.filter fun path => !path.isOf key
  | .inr (.spared _) => recorded

/-- A transaction begins, issues its next statement, or is rolled back by an error. -/
def TxSystem.step (system : TxSystem) : TxEvent → TxSystem
  | .start number call =>
    if number ∈ system.transactions then system
    else { system with
      transactions := settle system.transactions number ((transaction number).launch call) }
  | .advance number =>
    match system.transactions.lookup number with
    | none => system
    | some stage =>
      let result := (transaction number).operate stage system.database
      ⟨result.1, settle system.transactions number result.2, recordedAfter system.recorded result.2⟩
  | .abort number =>
    if number ∈ system.transactions then
      { system with
        database := system.database.rollback number
        transactions := system.transactions.erase number }
    else system

/-- Every recorded copy of a blob that has a count has a path row. -/
def TxSystem.Findable (system : TxSystem) : Prop :=
  ∀ path ∈ system.recorded, path.key ∈ system.database.blobRefcounts.committed →
    path ∈ system.database.blobPaths.committed

instance (system : TxSystem) : Decidable system.Findable :=
  inferInstanceAs (Decidable (∀ path ∈ system.recorded, _ → _))

/-- The path rows that a transaction of `add_refs` has inserted, or has found. -/
def Stage.passed : Stage → List BlobPath
  | .insertPath call past _ _ => past.map call.path
  | .insertEdge call past blob _ => (past ++ [blob]).map call.path
  | .bumpCount call past blob _ => (past ++ [blob]).map call.path
  | .commitRefs call past => past.map call.path
  | _ => []

/-- When a reaper issues its `DELETE FROM blob_paths`, no `add_refs` in flight has found one of
the committed rows that it deletes. -/
def TxSystem.Careful (system : TxSystem) : TxEvent → Prop
  | .advance number =>
    match system.transactions.lookup number with
    | some (.deletePaths key _) =>
      ∀ entry ∈ system.transactions.entries, ∀ path ∈ entry.2.passed,
        path.isOf key = true → path ∉ system.database.blobPaths.committed
    | _ => True
  | _ => True

instance (system : TxSystem) (event : TxEvent) : Decidable (system.Careful event) := by
  unfold TxSystem.Careful
  split
  · split <;> infer_instance
  · infer_instance

/-- A start between transactions: no row is held, and the recorded copies have their rows. -/
structure TxSystem.Quiet (system : TxSystem) : Prop where
  idle : system.transactions = ∅
  unlocked : system.database.Unlocked
  present : ∀ path ∈ system.recorded, path ∈ system.database.blobPaths.committed

/-- The path rows that the transaction takes away when it commits. -/
def Stage.Drops (path : BlobPath) : Stage → Prop
  | .deleteCount key _ => path.isOf key = true
  | .insertReap key _ => path.isOf key = true
  | .commitReap key _ => path.isOf key = true
  | _ => False

/-- What the transactions in flight rely on: they keep the rows they passed, only a reaper past its
deletion deletes, and recorded copies have their rows. -/
structure Kept (paths : LockedTable BlobPath Unit) (transactions : Table Nat Stage)
    (recorded : List BlobPath) : Prop where
  keeps : ∀ number stage, transactions.lookup number = some stage →
    ∀ path ∈ stage.passed, paths.Keeps number path
  drops : ∀ number path, paths.locks.lookup path = some (number, none) →
    ∃ stage, transactions.lookup number = some stage ∧ stage.Drops path
  present : ∀ path ∈ recorded, path ∈ paths.committed

section Paths

variable {number : Nat} {database : Database}

@[simp] theorem passed_nextBlob (call : RefCall) (past rest : List BlobDescriptor) :
    (Stage.nextBlob call past rest).passed = past.map call.path := by
  cases rest <;> rfl

@[simp] theorem passed_nextObject (key : BlobKey) (bytes : Int) (paths : List BlobPath) :
    (Stage.nextObject key bytes paths).passed = [] := by
  cases paths <;> rfl

/-- Everything an operation does to the path rows, with the stage that follows. -/
inductive PathEffect (number : Nat) (table : LockedTable BlobPath Unit) :
    Stage → LockedTable BlobPath Unit → Stage ⊕ Outcome → Prop
  | none {stage rest : Stage} (passed : rest.passed = stage.passed)
      (drops : ∀ path, stage.Drops path → rest.Drops path) :
      PathEffect number table stage table (.inl rest)
  | insert {call : RefCall} {past rest : List BlobDescriptor} {blob : BlobDescriptor}
      {result : Bool × LockedTable BlobPath Unit}
      (inserted : table.insertIgnore number (call.path blob) () = some result) :
      PathEffect number table (.insertPath call past blob rest) result.2
        (.inl (.insertEdge call past blob rest))
  | delete {key : BlobKey} {bytes : Int} {after : LockedTable BlobPath Unit}
      (deleted : table.deleteSeen number (BlobPath.isOf key) = some after) :
      PathEffect number table (.deletePaths key bytes) after (.inl (.deleteCount key bytes))
  | added {call : RefCall} {past : List BlobDescriptor} :
      PathEffect number table (.commitRefs call past) (table.commit number) (.inr (.added call past))
  | reaped {key : BlobKey} {bytes : Int} :
      PathEffect number table (.commitReap key bytes) (table.commit number) (.inr (.reaped key))
  | spared {key : BlobKey} {bytes : Int} :
      PathEffect number table (.lockCount key bytes) (table.rollback number) (.inr (.spared key))

theorem operate_paths (number : Nat) (stage : Stage) (database : Database) :
    PathEffect number database.blobPaths stage (stage.operate number database).1.blobPaths
      (stage.operate number database).2 := by
  cases stage with
  | insertPath call past blob rest =>
    simp only [Stage.operate]
    split
    · exact .none rfl fun _ => id
    · rename_i inserted
      exact .insert inserted
  | insertEdge call past blob rest =>
    simp only [Stage.operate]
    split
    · exact .none rfl fun _ => id
    refine .none ?_ fun _ => False.elim
    split
    · rfl
    · exact passed_nextBlob _ _ _
  | bumpCount call past blob rest =>
    simp only [Stage.operate]
    split
    · exact .none rfl fun _ => id
    · exact .none (passed_nextBlob _ _ _) fun _ => False.elim
  | commitRefs call past => exact .added
  | lockCount key bytes =>
    simp only [Stage.operate]
    split
    · exact .none rfl fun _ => id
    · split
      · exact .none rfl fun _ => id
      · exact .spared
  | selectPaths key bytes => exact .none (passed_nextObject _ _ _) fun _ => False.elim
  | deleteObject key bytes path rest => exact .none (passed_nextObject _ _ _) fun _ => False.elim
  | deletePaths key bytes =>
    simp only [Stage.operate]
    split
    · exact .none rfl fun _ => id
    · rename_i deleted
      exact .delete deleted
  | deleteCount key bytes =>
    simp only [Stage.operate]
    split <;> exact .none rfl fun _ => id
  | insertReap key bytes => exact .none rfl fun _ => id
  | commitReap key bytes => exact .reaped

end Paths

open LockedTable

section Kept

variable {paths after : LockedTable BlobPath Unit} {transactions : Table Nat Stage}
  {recorded later : List BlobPath} {number : Nat} {stage : Stage} {rest : Stage ⊕ Outcome}

private theorem Kept.settle (kept : Kept paths transactions recorded)
    (others : ∀ other flight, other ≠ number → transactions.lookup other = some flight →
      ∀ path ∈ flight.passed, after.Keeps other path)
    (own : ∀ flight, rest = .inl flight → ∀ path ∈ flight.passed, after.Keeps number path)
    (locks : ∀ holder path, after.locks.lookup path = some (holder, none) →
      (holder ≠ number ∧ paths.locks.lookup path = some (holder, none)) ∨
        (holder = number ∧ ∃ flight, rest = .inl flight ∧ flight.Drops path))
    (present : ∀ path ∈ later, path ∈ after.committed) :
    Kept after (settle transactions number rest) later where
  keeps := by
    intro other flight found
    rcases lookup_settle found with ⟨rfl, same⟩ | ⟨apart, before⟩
    · exact own flight same
    · exact others other flight apart before
  drops := by
    intro holder path held
    rcases locks holder path held with ⟨apart, before⟩ | ⟨rfl, flight, rfl, dropped⟩
    · obtain ⟨flight, found, dropped⟩ := kept.drops holder path before
      exact ⟨flight, (lookup_settle_ne apart rest).trans found, dropped⟩
    · exact ⟨flight, AList.lookup_insert _, dropped⟩
  present := present

private theorem lookup_release_none (held : (paths.release number).lookup path = some (holder, none)) :
    holder ≠ number ∧ paths.locks.lookup path = some (holder, none) := by
  rw [lookup_release, Option.filter_eq_some_iff] at held
  exact ⟨by simpa using held.2, held.1⟩

section

variable (kept : Kept paths transactions recorded)

include kept

private theorem Kept.own_drops (found : transactions.lookup number = some stage)
    (held : paths.locks.lookup path = some (number, none)) : stage.Drops path := by
  obtain ⟨flight, flying, dropped⟩ := kept.drops number path held
  cases found.symm.trans flying
  exact dropped

private theorem Kept.mem_commit (found : transactions.lookup number = some stage)
    (present : path ∈ paths.committed) (spared : ¬stage.Drops path) :
    path ∈ (paths.commit number).committed :=
  mem_commit_of_mem present fun held => spared (kept.own_drops found held)

theorem Kept.rollback (number : Nat) : Kept (paths.rollback number) (transactions.erase number) recorded where
  keeps := by
    intro other flight found
    obtain ⟨apart, found⟩ := Table.lookup_erase_cases found
    exact fun path member => (kept.keeps other flight found path member).rollback apart
  drops := by
    intro holder path held
    obtain ⟨apart, before⟩ := lookup_release_none held
    rw [AList.lookup_erase_ne apart]
    exact kept.drops holder path before
  present := kept.present

theorem Kept.advance (found : transactions.lookup number = some stage)
    (careful : ∀ key bytes, stage = .deletePaths key bytes →
      ∀ other flight, transactions.lookup other = some flight →
      ∀ path ∈ flight.passed, path.isOf key = true → path ∉ paths.committed)
    (effect : PathEffect number paths stage after rest) :
    Kept after (Interleaving.settle transactions number rest) (recordedAfter recorded rest) := by
  have others := fun other flight (_ : other ≠ number) => kept.keeps other flight
  cases effect with
  | none passed drops =>
    refine kept.settle others ?_ ?_ kept.present
    · rintro flight same path member
      cases same
      rw [passed] at member
      exact kept.keeps number stage found path member
    · intro holder path held
      by_cases own : holder = number
      · subst own
        exact .inr ⟨rfl, _, rfl, drops path (kept.own_drops found held)⟩
      · exact .inl ⟨own, held⟩
  | @insert call past rest blob result inserted =>
    have holds : ∀ other path, paths.Keeps other path → result.2.Keeps other path :=
      fun other path keeps => keeps.insertIgnore inserted
    refine kept.settle ?_ ?_ ?_ ?_
    · exact fun other flight apart flying path member =>
        holds other path (others other flight apart flying path member)
    · rintro flight same path member
      cases same
      simp only [Stage.passed, List.map_append, List.map_cons, List.map_nil, List.mem_append,
        List.mem_singleton] at member
      rcases member with earlier | rfl
      · exact holds number path (kept.keeps number _ found path earlier)
      · exact keeps_of_insertIgnore inserted
    · intro holder path held
      have before : paths.locks.lookup path = some (holder, none) := by
        obtain ⟨_, ⟨_, rfl⟩ | ⟨_, rfl⟩⟩ := insertIgnore_cases inserted
        · exact held
        · rcases Table.lookup_insert_cases held with ⟨_, own⟩ | ⟨_, before⟩
          · cases own
          · exact before
      refine .inl ⟨?_, before⟩
      rintro rfl
      exact kept.own_drops found before
    · intro path member
      obtain ⟨_, ⟨_, rfl⟩ | ⟨_, rfl⟩⟩ := insertIgnore_cases inserted
      · exact kept.present path member
      · exact kept.present path member
  | @delete key bytes after deleted =>
    obtain ⟨same, _, locks⟩ := deleteSeen_cases deleted
    refine kept.settle ?_ ?_ ?_ ?_
    · intro other flight apart flying path member
      exact (others other flight apart flying path member).deleteSeen apart deleted
        (careful key bytes rfl other flight flying path member)
    · rintro flight equal path member
      cases equal
      cases member
    · intro holder path held
      rw [locks path] at held
      split at held
      · rename_i chosen
        obtain rfl : number = holder := congrArg Prod.fst (Option.some.inj held)
        exact .inr ⟨rfl, _, rfl, chosen.2⟩
      · refine .inl ⟨?_, held⟩
        rintro rfl
        exact kept.own_drops found held
    · rw [same]
      exact kept.present
  | @added call past =>
    refine kept.settle ?_ nofun ?_ ?_
    · exact fun other flight apart flying path member =>
        (others other flight apart flying path member).commit apart
    · exact fun holder path held => .inl (lookup_release_none held)
    · intro path member
      rcases List.mem_append.mp member with new | old
      · exact (kept.keeps number _ found path new).mem_snapshot
      · exact kept.mem_commit found (kept.present path old) id
  | @reaped key bytes =>
    refine kept.settle ?_ nofun ?_ ?_
    · exact fun other flight apart flying path member =>
        (others other flight apart flying path member).commit apart
    · exact fun holder path held => .inl (lookup_release_none held)
    · intro path member
      obtain ⟨old, spared⟩ := List.mem_filter.mp member
      refine kept.mem_commit found (kept.present path old) ?_
      intro dropped
      rw [show path.isOf key = true from dropped] at spared
      cases spared
  | spared => exact kept.rollback number

end

end Kept

variable {system : TxSystem}

/-- What the path rows of a system and its transactions satisfy in careful runs. -/
def TxSystem.Sound (system : TxSystem) : Prop :=
  Kept system.database.blobPaths system.transactions system.recorded

theorem TxSystem.Quiet.sound (quiet : system.Quiet) : system.Sound where
  keeps := by
    intro number stage found
    rw [quiet.idle] at found
    cases found
  drops := by
    intro number path held
    rw [quiet.unlocked.paths path] at held
    cases held
  present := quiet.present

theorem TxSystem.Sound.step (sound : system.Sound) (careful : system.Careful event) :
    (system.step event).Sound := by
  cases event with
  | start number call =>
    simp only [TxSystem.step]
    split
    · exact sound
    rename_i unused
    refine Kept.settle sound ?_ ?_ ?_ sound.present
    · exact fun other flight _ => sound.keeps other flight
    · intro flight launched path member
      have nothing : flight.passed = [] := by
        cases call with
        | addRefs call blobs =>
          cases blobs with
          | nil => cases launched
          | cons blob rest => rw [← Sum.inl.inj launched]; rfl
        | reapBlob key bytes => rw [← Sum.inl.inj launched]; rfl
      rw [nothing] at member
      cases member
    · intro holder path held
      refine .inl ⟨?_, held⟩
      rintro rfl
      obtain ⟨stage, found, _⟩ := sound.drops holder path held
      exact unused (Table.mem_of_lookup found)
  | advance number =>
    simp only [TxSystem.step]
    split
    · exact sound
    rename_i stage found
    refine Kept.advance sound found ?_ (operate_paths number stage system.database)
    rintro key bytes rfl other flight flying path member
    simp only [TxSystem.Careful, found] at careful
    exact careful ⟨other, flight⟩ (AList.mem_lookup_iff.mp flying) path member
  | abort number =>
    simp only [TxSystem.step]
    split
    · exact Kept.rollback sound number
    · exact sound

/-- In a run in which no reaper deletes a path row that an `add_refs` in flight has found, every
recorded copy of a counted blob has its path row. -/
theorem careful_runs_keep_blobs_findable (start : TxSystem) (events : List TxEvent)
    (quiet : start.Quiet) (careful : Along TxSystem.step TxSystem.Careful start events) :
    (after TxSystem.step start events).Findable := by
  have sound := after_invariant TxSystem.Sound (fun _ _ sound guard => sound.step guard) quiet.sound careful
  exact fun path member _ => sound.present path member

def copyBlob : BlobDescriptor := ⟨"sha256:ab", 3⟩

def copyKey : BlobKey := ⟨"acme", "sha256:ab"⟩

def copyCall : RefCall := ⟨0, "acme", "web", "one", "sha256:cd"⟩

/-- A blob whose last reference is gone, with one copy. -/
def releasedCopy : TxSystem where
  database := .ofBackend
    { store := (∅ : ObjectStore).insert (copyCall.path copyBlob).object "abc".toUTF8
      tables :=
        { Tables.empty with
          blobPaths := (∅ : Table BlobPath Unit).insert (copyCall.path copyBlob) ()
          blobRefcounts := (∅ : Table BlobKey RefcountRow).insert copyKey ⟨0, some 0, 0, 3⟩ } }
  transactions := ∅
  recorded := []

theorem releasedCopy_quiet : releasedCopy.Quiet where
  idle := rfl
  unlocked := ⟨fun _ => rfl, fun _ => rfl, fun _ => rfl⟩
  present := nofun

/-- A reaper up to the storage delete, and its rest. -/
def reapFront : List TxEvent := .start 1 (.reapBlob copyKey 3) :: List.replicate 3 (.advance 1)

def reapBack : List TxEvent := List.replicate 4 (.advance 1)

/-- A push that comes to its first statement when the reaper has deleted the path row. -/
def waitingRun : List TxEvent :=
  reapFront ++ [.advance 1, .start 2 (.addRefs copyCall [copyBlob]), .advance 2] ++
    List.replicate 3 (.advance 1) ++ List.replicate 4 (.advance 2)

theorem waiting_push_findable : (after TxSystem.step releasedCopy waitingRun).Findable :=
  careful_runs_keep_blobs_findable releasedCopy waitingRun releasedCopy_quiet (by decide +kernel)

/-- A push finds the path row, and then the reaper deletes it. -/
def overtakenRun : List TxEvent :=
  reapFront ++ [.start 2 (.addRefs copyCall [copyBlob]), .advance 2] ++ reapBack ++
    List.replicate 3 (.advance 2)

theorem counted_blob_without_path :
    releasedCopy.Quiet ∧ (after TxSystem.step releasedCopy overtakenRun).transactions = ∅ ∧
      ¬(after TxSystem.step releasedCopy overtakenRun).Findable :=
  ⟨releasedCopy_quiet, Table.eq_empty_of_keys (by decide +kernel), by decide +kernel⟩

end SpectonCr.Gc
