import SpectonCr.Base.Table

namespace SpectonCr.GroupBy

variable {Item Key Total : Type} [DecidableEq Key]

section Groups

variable (keyOf : Item → Key) (total : List Item → Total)

/-- The items of one group. -/
def members (items : List Item) (key : Key) : List Item := items.filter fun item => keyOf item = key

/-- One row for each group. -/
def groups (items : List Item) : List (Key × Total) :=
  (items.map keyOf).dedup.map fun key => (key, total (members keyOf items key))

end Groups

/-- Inserts the rows, or replaces those of the same key. -/
def upsert (rows : List (Key × Total)) (table : Table Key Total) : Table Key Total :=
  rows.foldl (fun table row => table.insert row.1 row.2) table

variable {keyOf : Item → Key} {total : List Item → Total}

theorem mem_members : item ∈ members keyOf items key ↔ item ∈ items ∧ keyOf item = key := by
  simp [members]

theorem members_append (front back : List Item) (key : Key) :
    members keyOf (front ++ back) key = members keyOf front key ++ members keyOf back key :=
  List.filter_append front back

theorem members_filter (selected : Item → Bool) (items : List Item) (key : Key) :
    members keyOf (items.filter selected) key = (members keyOf items key).filter selected := by
  simp only [members, List.filter_filter, Bool.and_comm]

theorem members_eq_nil : members keyOf items key = [] ↔ ∀ item ∈ items, keyOf item ≠ key := by
  simp [members, List.filter_eq_nil_iff]

theorem lookup_upsert_map (value : Key → Total) (keys : List Key) (table : Table Key Total) (key : Key) :
    (upsert (keys.map fun key => (key, value key)) table).lookup key =
      if key ∈ keys then some (value key) else table.lookup key := by
  induction keys generalizing table with
  | nil => rfl
  | cons first rest ih =>
    rw [List.map_cons, upsert, List.foldl_cons]
    refine (ih (table.insert first (value first))).trans ?_
    by_cases later : key ∈ rest
    · rw [if_pos later, if_pos (List.mem_cons_of_mem first later)]
    rw [if_neg later]
    by_cases same : key = first
    · subst same
      rw [AList.lookup_insert, if_pos List.mem_cons_self]
    have absent : key ∉ first :: rest := by
      intro member
      rcases List.mem_cons.mp member with here | there
      · exact same here
      · exact later there
    rw [AList.lookup_insert_ne same, if_neg absent]

/-- A group replaces the row of its key, and every other row stays. -/
theorem lookup_upsert_groups (items : List Item) (table : Table Key Total) (key : Key) :
    (upsert (groups keyOf total items) table).lookup key =
      if members keyOf items key = [] then table.lookup key
      else some (total (members keyOf items key)) := by
  rw [groups, lookup_upsert_map fun key => total (members keyOf items key)]
  have present : key ∈ (items.map keyOf).dedup ↔ members keyOf items key ≠ [] := by
    rw [List.mem_dedup, List.mem_map, Ne, members_eq_nil]
    simp
  by_cases empty : members keyOf items key = []
  · rw [if_pos empty, if_neg fun member => present.mp member empty]
  · rw [if_neg empty, if_pos (present.mpr empty)]

end SpectonCr.GroupBy
