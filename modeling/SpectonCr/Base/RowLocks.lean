import SpectonCr.Base.Table

/-! Tables under row locks, as `READ COMMITTED` has them. -/

namespace SpectonCr

/-- The committed rows, and for every locked key the transaction that holds it with the row
its commit leaves there. -/
structure LockedTable (Key Row : Type) where
  committed : Table Key Row
  locks : Table Key (Nat × Option Row)

namespace LockedTable

variable {Key Row : Type}

/-- The locks that are left when a transaction ends. -/
def release (table : LockedTable Key Row) (number : Nat) : Table Key (Nat × Option Row) :=
  ⟨table.locks.entries.filter fun lock => lock.2.1 ≠ number,
    List.NodupKeys.sublist List.filter_sublist table.locks.nodupKeys⟩

def rollback (table : LockedTable Key Row) (number : Nat) : LockedTable Key Row :=
  { table with locks := table.release number }

variable [DecidableEq Key]

/-- A lock as its holder sees it. -/
def applyLock (number : Nat) (lock : Sigma fun _ : Key => Nat × Option Row)
    (rows : Table Key Row) : Table Key Row :=
  if lock.2.1 = number then
    match lock.2.2 with
    | some row => rows.insert lock.1 row
    | none => rows.erase lock.1
  else rows

/-- The rows a statement of the transaction sees. -/
def snapshot (table : LockedTable Key Row) (number : Nat) : Table Key Row :=
  table.locks.entries.foldr (applyLock number) table.committed

def commit (table : LockedTable Key Row) (number : Nat) : LockedTable Key Row :=
  ⟨table.snapshot number, table.release number⟩

/-- Another transaction holds the row. -/
def blocked (table : LockedTable Key Row) (number : Nat) (key : Key) : Bool :=
  (table.locks.lookup key).any fun lock => lock.1 ≠ number

def write (table : LockedTable Key Row) (number : Nat) (key : Key) (row : Option Row) : LockedTable Key Row :=
  { table with locks := table.locks.insert key (number, row) }

/-- `INSERT … ON CONFLICT DO NOTHING`, with whether it inserted the row. -/
def insertIgnore (table : LockedTable Key Row) (number : Nat) (key : Key) (row : Row) :
    Option (Bool × LockedTable Key Row) :=
  if table.blocked number key then none
  else if key ∈ table.snapshot number then some (false, table)
  else some (true, table.write number key (some row))

/-- `INSERT … ON CONFLICT DO UPDATE`. -/
def upsert (table : LockedTable Key Row) (number : Nat) (key : Key) (change : Option Row → Row) :
    Option (LockedTable Key Row) :=
  if table.blocked number key then none
  else some (table.write number key (some (change ((table.snapshot number).lookup key))))

/-- `SELECT … FOR UPDATE` of one key. A row it does not see, it does not wait for. -/
def selectForUpdate (table : LockedTable Key Row) (number : Nat) (key : Key) :
    Option (Option Row × LockedTable Key Row) :=
  match (table.snapshot number).lookup key with
  | none => some (none, table)
  | some row =>
    if table.blocked number key then none
    else some (some row, table.write number key (some row))

/-- `DELETE … WHERE` over the rows the statement sees. -/
def deleteSeen (table : LockedTable Key Row) (number : Nat) (selected : Key → Bool) :
    Option (LockedTable Key Row) :=
  let keys := (table.snapshot number).keysWhere selected
  if keys.any (table.blocked number) then none
  else some (keys.foldl (fun changed key => changed.write number key none) table)

variable {table : LockedTable Key Row} {number : Nat} {key other : Key} {row : Row}

theorem lookup_release (table : LockedTable Key Row) (number : Nat) (key : Key) :
    (table.release number).lookup key = (table.locks.lookup key).filter fun lock => lock.1 ≠ number := by
  apply Option.ext
  intro lock
  rw [← Option.mem_def, AList.mem_lookup_iff, Option.filter_eq_some_iff, ← Option.mem_def,
    AList.mem_lookup_iff]
  simp only [release, List.mem_filter]

private theorem lookup_foldr_applyLock (locks : List (Sigma fun _ : Key => Nat × Option Row))
    (distinct : locks.NodupKeys) (key : Key) :
    (locks.foldr (applyLock number) rows).lookup key =
      ((locks.dlookup key).filter fun lock => lock.1 = number).elim (rows.lookup key) Prod.snd := by
  induction locks with
  | nil => rfl
  | cons lock rest ih =>
    obtain ⟨locked, holder, left⟩ := lock
    rw [List.nodupKeys_cons] at distinct
    have earlier := ih distinct.2
    rw [List.foldr_cons]
    by_cases same : key = locked
    · subst same
      have absent : rest.dlookup key = none := List.dlookup_eq_none.mpr distinct.1
      rw [absent] at earlier
      rw [List.dlookup_cons_eq]
      by_cases own : holder = number
      · cases left <;> simp [applyLock, Option.filter, own]
      · simpa [applyLock, Option.filter, own] using earlier
    · rw [List.dlookup_cons_ne _ _ same, ← earlier]
      by_cases own : holder = number
      · cases left <;> simp [applyLock, own, AList.lookup_insert_ne same, AList.lookup_erase_ne same]
      · simp [applyLock, own]

/-- A transaction sees its own write, and otherwise what is committed. -/
theorem lookup_snapshot (table : LockedTable Key Row) (number : Nat) (key : Key) :
    (table.snapshot number).lookup key = ((table.locks.lookup key).filter fun lock => lock.1 = number).elim
        (table.committed.lookup key) Prod.snd :=
  lookup_foldr_applyLock table.locks.entries table.locks.nodupKeys key

theorem lookup_snapshot_of_held (held : table.locks.lookup key = some (number, left)) :
    (table.snapshot number).lookup key = left := by
  simp [lookup_snapshot, Option.filter, held]

theorem lookup_snapshot_of_not_held (free : ∀ left, table.locks.lookup key ≠ some (number, left)) :
    (table.snapshot number).lookup key = table.committed.lookup key := by
  rw [lookup_snapshot]
  cases found : table.locks.lookup key with
  | none => rfl
  | some lock =>
    have apart : lock.1 ≠ number := fun same => free lock.2 (found.trans (by rw [← same]))
    simp [Option.filter, apart]

theorem blocked_of_held (held : table.locks.lookup key = some (holder, left)) (apart : holder ≠ number) :
    table.blocked number key = true := by
  simp [blocked, held, apart]

theorem eq_of_not_blocked (free : table.blocked number key = false)
    (held : table.locks.lookup key = some (holder, left)) : holder = number := by
  by_contra apart
  rw [blocked_of_held held apart] at free
  cases free

@[simp] theorem committed_write :
    (table.write number key left).committed = table.committed := rfl

theorem lookup_write : (table.write number key left).locks.lookup key = some (number, left) :=
  AList.lookup_insert _

theorem lookup_write_ne (apart : other ≠ key) :
    (table.write number key left).locks.lookup other = table.locks.lookup other :=
  AList.lookup_insert_ne apart

/-- Everything an insertion can do. -/
theorem insertIgnore_cases (inserted : table.insertIgnore number key row = some result) :
    table.blocked number key = false ∧ ((key ∈ table.snapshot number ∧ result = (false, table)) ∨
        (key ∉ table.snapshot number ∧ result = (true, table.write number key (some row)))) := by
  unfold insertIgnore at inserted
  split at inserted
  · cases inserted
  rename_i free
  refine ⟨Bool.eq_false_iff.mpr free, ?_⟩
  split at inserted
  · rename_i present
    exact .inl ⟨present, (Option.some.inj inserted).symm⟩
  · rename_i absent
    exact .inr ⟨absent, (Option.some.inj inserted).symm⟩

theorem upsert_cases (updated : table.upsert number key change = some result) :
    table.blocked number key = false ∧
      result = table.write number key (some (change ((table.snapshot number).lookup key))) := by
  unfold upsert at updated
  split at updated
  · cases updated
  · rename_i free
    exact ⟨Bool.eq_false_iff.mpr free, (Option.some.inj updated).symm⟩

theorem selectForUpdate_cases (selected : table.selectForUpdate number key = some result) :
    ((table.snapshot number).lookup key = none ∧ result = (none, table)) ∨
      ∃ row, (table.snapshot number).lookup key = some row ∧ table.blocked number key = false ∧
        result = (some row, table.write number key (some row)) := by
  unfold selectForUpdate at selected
  split at selected
  · rename_i absent
    exact .inl ⟨absent, (Option.some.inj selected).symm⟩
  rename_i row found
  split at selected
  · cases selected
  · rename_i free
    exact .inr ⟨row, found, Bool.eq_false_iff.mpr free, (Option.some.inj selected).symm⟩

private theorem foldl_write (keys : List Key) (table : LockedTable Key Row) :
    (keys.foldl (fun changed key => changed.write number key none) table).committed = table.committed ∧
      ∀ key, (keys.foldl (fun changed key => changed.write number key none) table).locks.lookup
          key = if key ∈ keys then some (number, none) else table.locks.lookup key := by
  induction keys generalizing table with
  | nil => simp
  | cons first rest ih =>
    obtain ⟨rows, locks⟩ := ih (table.write number first none)
    refine ⟨rows, ?_⟩
    intro key
    rw [List.foldl_cons, locks key]
    by_cases same : key = first
    · subst same
      simp [lookup_write]
    · simp [same, lookup_write_ne same]

/-- A deletion writes the rows it sees, and waits when another transaction holds one. -/
theorem deleteSeen_cases (deleted : table.deleteSeen number selected = some result) :
    result.committed = table.committed ∧
      (∀ key ∈ table.snapshot number, selected key = true → table.blocked number key = false) ∧
      ∀ key, result.locks.lookup key =
        if key ∈ table.snapshot number ∧ selected key = true then some (number, none)
        else table.locks.lookup key := by
  simp only [deleteSeen] at deleted
  split at deleted
  · cases deleted
  rename_i free
  cases deleted
  obtain ⟨rows, locks⟩ := foldl_write ((table.snapshot number).keysWhere selected) table
  refine ⟨rows, ?_, ?_⟩
  · intro key present chosen
    rw [Bool.not_eq_true, List.any_eq_false] at free
    exact Bool.eq_false_iff.mpr (free key (Table.mem_keysWhere.mpr ⟨present, chosen⟩))
  · intro key
    simpa only [Table.mem_keysWhere] using locks key

/-- What the transaction `number` can do to the locks and rows of the others: nothing. -/
structure LeavesOthers (number : Nat) (before after : LockedTable Key Row) : Prop where
  locks : ∀ key holder left, holder ≠ number →
    (after.locks.lookup key = some (holder, left) ↔ before.locks.lookup key = some (holder, left))
  rows : ∀ key holder left, holder ≠ number → before.locks.lookup key = some (holder, left) →
    after.committed.lookup key = before.committed.lookup key

theorem LeavesOthers.refl (number : Nat) (table : LockedTable Key Row) : LeavesOthers number table table where
  locks := fun _ _ _ _ => Iff.rfl
  rows := fun _ _ _ _ _ => rfl

theorem LeavesOthers.trans {first second third : LockedTable Key Row}
    (early : LeavesOthers number first second) (late : LeavesOthers number second third) :
    LeavesOthers number first third where
  locks := fun key holder left apart =>
    (late.locks key holder left apart).trans (early.locks key holder left apart)
  rows := fun key holder left apart held =>
    (late.rows key holder left apart ((early.locks key holder left apart).mpr held)).trans
      (early.rows key holder left apart held)

theorem lookup_release_ne (apart : holder ≠ number) :
    (table.release number).lookup key = some (holder, left) ↔
      table.locks.lookup key = some (holder, left) := by
  rw [lookup_release, Option.filter_eq_some_iff]
  constructor
  · exact fun found => found.1
  · intro found
    exact ⟨found, by simpa using apart⟩

theorem lookup_release_self : (table.release number).lookup key ≠ some (number, left) := by
  rw [lookup_release, ne_eq, Option.filter_eq_some_iff]
  simp

theorem leavesOthers_rollback (number : Nat) (table : LockedTable Key Row) :
    LeavesOthers number table (table.rollback number) where
  locks := fun _ _ _ apart => lookup_release_ne apart
  rows := fun _ _ _ _ _ => rfl

theorem leavesOthers_commit (number : Nat) (table : LockedTable Key Row) :
    LeavesOthers number table (table.commit number) where
  locks := fun _ _ _ apart => lookup_release_ne apart
  rows := by
    intro key holder left apart held
    exact lookup_snapshot_of_not_held (by simp [held, apart])

theorem leavesOthers_write (free : table.blocked number key = false) :
    LeavesOthers number table (table.write number key left) where
  locks := by
    intro other holder kept apart
    by_cases same : other = key
    · subst same
      rw [lookup_write]
      constructor
      · intro held
        cases held
        exact absurd rfl apart
      · intro held
        exact absurd (eq_of_not_blocked free held) apart
    · rw [lookup_write_ne same]
  rows := fun _ _ _ _ _ => rfl

theorem leavesOthers_deleteSeen (deleted : table.deleteSeen number selected = some result) :
    LeavesOthers number table result := by
  obtain ⟨rows, free, locks⟩ := deleteSeen_cases deleted
  refine ⟨?_, fun key holder left apart held => by rw [rows]⟩
  intro key holder left apart
  rw [locks key]
  split
  · rename_i chosen
    constructor
    · intro held
      cases held
      exact absurd rfl apart
    · intro held
      exact absurd (eq_of_not_blocked (free key chosen.1 chosen.2) held) apart
  · exact Iff.rfl

/-- The row is there for good for the transaction: it wrote the row, or the row is committed and no
one is deleting it. -/
def Keeps (table : LockedTable Key Row) (number : Nat) (key : Key) : Prop :=
  (∃ row, table.locks.lookup key = some (number, some row)) ∨
    (key ∈ table.committed ∧ ∀ holder, table.locks.lookup key ≠ some (holder, none))

theorem Keeps.mem_snapshot (keeps : table.Keeps number key) : key ∈ table.snapshot number := by
  rcases keeps with ⟨row, held⟩ | ⟨present, kept⟩
  · exact Table.mem_of_lookup (lookup_snapshot_of_held held)
  rw [← AList.lookup_isSome] at present ⊢
  cases held : table.locks.lookup key with
  | none => rwa [lookup_snapshot_of_not_held (by simp [held])]
  | some lock =>
    obtain ⟨holder, left⟩ := lock
    cases left with
    | none => exact absurd held (kept holder)
    | some row =>
      by_cases own : holder = number
      · subst own
        simp [lookup_snapshot_of_held held]
      · rwa [lookup_snapshot_of_not_held (by simp [held, own])]

theorem keeps_of_insertIgnore (inserted : table.insertIgnore number key row = some result) :
    result.2.Keeps number key := by
  obtain ⟨free, ⟨present, rfl⟩ | ⟨_, rfl⟩⟩ := insertIgnore_cases inserted
  · cases held : table.locks.lookup key with
    | none =>
      rw [← AList.lookup_isSome, lookup_snapshot_of_not_held (by simp [held]), AList.lookup_isSome] at present
      exact .inr ⟨present, by simp [held]⟩
    | some lock =>
      obtain ⟨holder, left⟩ := lock
      obtain rfl := eq_of_not_blocked free held
      rw [← AList.lookup_isSome, lookup_snapshot_of_held held, Option.isSome_iff_exists] at present
      obtain ⟨row, rfl⟩ := present
      exact .inl ⟨row, held⟩
  · exact .inl ⟨row, lookup_write⟩

variable {writer : Nat}

theorem Keeps.insertIgnore (keeps : table.Keeps number key)
    (inserted : table.insertIgnore writer other row = some result) : result.2.Keeps number key := by
  obtain ⟨free, ⟨_, rfl⟩ | ⟨absent, rfl⟩⟩ := insertIgnore_cases inserted
  · exact keeps
  · by_cases same : key = other
    · subst same
      rcases keeps with ⟨old, held⟩ | ⟨present, kept⟩
      · obtain rfl := eq_of_not_blocked free held
        exact .inl ⟨row, lookup_write⟩
      · refine .inr ⟨present, ?_⟩
        intro holder
        simp [lookup_write]
    · simpa only [Keeps, committed_write, lookup_write_ne same] using keeps

theorem Keeps.rollback (keeps : table.Keeps number key) (apart : number ≠ writer) :
    (table.rollback writer).Keeps number key := by
  rcases keeps with ⟨row, held⟩ | ⟨present, kept⟩
  · exact .inl ⟨row, by simp [LockedTable.rollback, lookup_release, held, Option.filter, apart]⟩
  refine .inr ⟨present, ?_⟩
  intro holder left
  simp only [LockedTable.rollback, lookup_release, Option.filter_eq_some_iff] at left
  exact kept holder left.1

theorem Keeps.commit (keeps : table.Keeps number key) (apart : number ≠ writer) :
    (table.commit writer).Keeps number key := by
  rcases keeps with ⟨row, held⟩ | ⟨present, kept⟩
  · exact .inl ⟨row, by simp [LockedTable.commit, lookup_release, held, Option.filter, apart]⟩
  refine .inr ⟨Keeps.mem_snapshot (.inr ⟨present, kept⟩), ?_⟩
  intro holder left
  simp only [LockedTable.commit, lookup_release, Option.filter_eq_some_iff] at left
  exact kept holder left.1

theorem Keeps.deleteSeen (keeps : table.Keeps number key) (apart : number ≠ writer)
    (deleted : table.deleteSeen writer selected = some result)
    (spared : selected key = true → key ∉ table.committed) : result.Keeps number key := by
  obtain ⟨same, free, locks⟩ := deleteSeen_cases deleted
  have untouched : ¬(key ∈ table.snapshot writer ∧ selected key = true) := by
    rintro ⟨seen, chosen⟩
    rcases keeps with ⟨row, held⟩ | ⟨present, _⟩
    · exact apart (eq_of_not_blocked (free key seen chosen) held)
    · exact spared chosen present
  simpa only [Keeps, same, locks key, if_neg untouched] using keeps

/-- A commit takes away the rows its transaction has deleted, and no other. -/
theorem mem_commit_of_mem (present : key ∈ table.committed)
    (kept : table.locks.lookup key ≠ some (number, none)) : key ∈ (table.commit number).committed := by
  rw [← AList.lookup_isSome] at present ⊢
  simp only [LockedTable.commit, lookup_snapshot]
  cases held : table.locks.lookup key with
  | none => simpa using present
  | some lock =>
    obtain ⟨holder, left⟩ := lock
    by_cases own : holder = number
    · subst own
      cases left with
      | none => exact absurd held kept
      | some row => simp [Option.filter]
    · simpa [Option.filter, own] using present

end LockedTable

end SpectonCr
