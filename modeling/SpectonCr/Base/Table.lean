import Mathlib

/-! Keyed tables: rows under a primary key, objects under paths. -/

namespace SpectonCr

/-- A finite map whose keys are distinct. -/
abbrev Table (Key Row : Type) := AList (fun _ : Key => Row)

namespace Table

variable {Key Row : Type}

/-- `DELETE … WHERE`. -/
def deleteWhere (table : Table Key Row) (selected : Key → Bool) : Table Key Row :=
  ⟨table.entries.filter fun row => !selected row.1,
    List.NodupKeys.sublist List.filter_sublist table.nodupKeys⟩

/-- Changes every row under its key. -/
def mapRows (table : Table Key Row) (change : Row → Row) : Table Key Row :=
  ⟨table.entries.map fun row => ⟨row.1, change row.2⟩, by
    have keys : (table.entries.map fun row => (⟨row.1, change row.2⟩ : Sigma fun _ => Row)).keys =
        table.entries.keys := by
      simp [List.keys, Function.comp_def]
    rw [List.NodupKeys, keys]
    exact table.nodupKeys⟩

/-- The keys `RETURNING` lists for the same condition. -/
def keysWhere (table : Table Key Row) (selected : Key → Bool) : List Key := table.keys.filter selected

/-- The number of rows whose key satisfies a condition. -/
def countKeys (table : Table Key Row) (counted : Key → Bool) : Nat := table.keys.countP counted

theorem mem_of_lookup [DecidableEq Key] {table : Table Key Row} {key : Key} {row : Row}
    (found : table.lookup key = some row) : key ∈ table :=
  AList.lookup_isSome.mp (Option.isSome_iff_exists.mpr ⟨row, found⟩)

theorem eq_empty_of_keys {table : Table Key Row} (none : table.keys = []) : table = ∅ := by
  apply AList.ext
  exact List.map_eq_nil_iff.mp none

theorem keys_deleteWhere (table : Table Key Row) (selected : Key → Bool) :
    (table.deleteWhere selected).keys = table.keys.filter fun key => !selected key := by
  simp only [deleteWhere, AList.keys, List.keys, List.filter_map]
  rfl

@[simp] theorem mem_keysWhere {table : Table Key Row} {selected : Key → Bool} {key : Key} :
    key ∈ table.keysWhere selected ↔ key ∈ table ∧ selected key = true := by
  simp [keysWhere, AList.mem_keys]

theorem countKeys_eq_zero {table : Table Key Row} {counted : Key → Bool} :
    table.countKeys counted = 0 ↔ ∀ key ∈ table, counted key = false := by
  simp [countKeys, AList.mem_keys, List.countP_eq_zero]

theorem countKeys_deleteWhere (table : Table Key Row) (counted selected : Key → Bool) :
    (table.deleteWhere selected).countKeys counted + (table.keysWhere selected).countP counted =
      table.countKeys counted := by
  rw [countKeys, keys_deleteWhere, keysWhere, countKeys]
  induction table.keys with
  | nil => rfl
  | cons key rest ih =>
    cases chosen : selected key <;> simp [chosen, List.countP_cons] <;> omega

variable [DecidableEq Key]

theorem lookup_insert_cases {table : Table Key Row} (found : (table.insert key row).lookup other = some value) :
    (other = key ∧ row = value) ∨ (other ≠ key ∧ table.lookup other = some value) := by
  by_cases same : other = key
  · subst same
    rw [AList.lookup_insert] at found
    exact .inl ⟨rfl, Option.some.inj found⟩
  · rw [AList.lookup_insert_ne same] at found
    exact .inr ⟨same, found⟩

theorem lookup_erase_cases {table : Table Key Row} (found : (table.erase key).lookup other = some value) :
    other ≠ key ∧ table.lookup other = some value := by
  by_cases same : other = key
  · subst same
    rw [AList.lookup_erase] at found
    cases found
  · rw [AList.lookup_erase_ne same] at found
    exact ⟨same, found⟩

/-- `INSERT … ON CONFLICT DO NOTHING`. -/
def insertNew (table : Table Key Row) (key : Key) (row : Row) : Table Key Row :=
  if key ∈ table then table else table.insert key row

@[simp] theorem mem_insertNew {table : Table Key Row} {key other : Key} {row : Row} :
    other ∈ table.insertNew key row ↔ other = key ∨ other ∈ table := by
  unfold insertNew
  split
  · rename_i present
    constructor
    · exact Or.inr
    · rintro (rfl | member)
      · exact present
      · exact member
  · simp

theorem countKeys_insertNew (table : Table Key Row) (counted : Key → Bool) (key : Key) (row : Row) :
    (table.insertNew key row).countKeys counted =
      table.countKeys counted + if key ∉ table ∧ counted key = true then 1 else 0 := by
  unfold insertNew
  split
  · rename_i present
    simp [present]
  · rename_i absent
    have fresh : key ∉ table.keys := by simpa [AList.mem_keys] using absent
    simp [countKeys, absent, List.erase_of_not_mem fresh, List.countP_cons]

theorem lookup_deleteWhere (table : Table Key Row) (selected : Key → Bool) (key : Key) :
    (table.deleteWhere selected).lookup key = if selected key then none else table.lookup key := by
  apply Option.ext
  intro row
  rw [← Option.mem_def, AList.mem_lookup_iff]
  simp only [deleteWhere, List.mem_filter]
  cases kept : selected key with
  | true => simp
  | false => simp [← AList.mem_lookup_iff]

@[simp] theorem mem_deleteWhere {table : Table Key Row} {selected : Key → Bool} {key : Key} :
    key ∈ table.deleteWhere selected ↔ selected key = false ∧ key ∈ table := by
  rw [← AList.lookup_isSome, lookup_deleteWhere, ← AList.lookup_isSome]
  cases selected key <;> simp

theorem lookup_mapRows (table : Table Key Row) (change : Row → Row) (key : Key) :
    (table.mapRows change).lookup key = (table.lookup key).map change := by
  apply Option.ext
  intro row
  rw [← Option.mem_def, AList.mem_lookup_iff]
  simp only [mapRows, List.mem_map, Sigma.mk.injEq, Option.map_eq_some_iff]
  constructor
  · rintro ⟨⟨found, old⟩, member, rfl, same⟩
    exact ⟨old, AList.mem_lookup_iff.mpr member, eq_of_heq same⟩
  · rintro ⟨old, found, rfl⟩
    exact ⟨⟨key, old⟩, AList.mem_lookup_iff.mp found, rfl, HEq.rfl⟩

end Table

end SpectonCr
