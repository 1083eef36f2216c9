import SpectonCr.Audit.Export

namespace SpectonCr.Audit

/-- Exactly one checkpoint has the row in its export. -/
def ExportedOnce (checkpoints : List Exported) (id : Int) : Prop :=
  (checkpoints.filter fun checkpoint => id ∈ checkpoint.ids).length = 1

/-- The identifier a transaction has drawn for its row. -/
def Transaction.insertedId : Transaction → Option Int
  | .inserted _ row => some row.id
  | _ => none

/-- A row that is inserted and not yet committed. -/
def ExportShared.Pending (shared : ExportShared) (id : Int) : Prop :=
  ∃ number tip row, shared.database.transactions.lookup number = some (.inserted tip row) ∧ row.id = id

theorem ExportShared.pending_iff {shared : ExportShared} {id : Int} :
    shared.Pending id ↔ ∃ entry ∈ shared.database.transactions.entries, entry.2.insertedId = some id := by
  constructor
  · rintro ⟨number, tip, row, held, rfl⟩
    exact ⟨⟨number, .inserted tip row⟩, AList.mem_lookup_iff.mp held, rfl⟩
  · rintro ⟨⟨number, transaction⟩, listed, drawn⟩
    cases transaction with
    | inserted tip row =>
      exact ⟨number, tip, row, AList.mem_lookup_iff.mpr listed, Option.some.inj drawn⟩
    | _ => cases drawn

instance ExportShared.Pending.decide (shared : ExportShared) (id : Int) : Decidable (shared.Pending id) :=
  decidable_of_iff' _ ExportShared.pending_iff

/-- The condition on an operation: the export reads no identifier that an append in flight has
drawn, and records its checkpoint while it follows the last one. -/
def Exporting.Careful (shared : ExportShared) : Exporting → Prop
  | .fetching _ _ _ next _ _ => ¬shared.Pending next
  | .recording _ _ first _ _ _ _ => nextFrom shared.checkpoints = first
  | _ => True

instance Exporting.Careful.decide (shared : ExportShared) :
    ∀ exporting : Exporting, Decidable (exporting.Careful shared)
  | .opened _ => .isTrue trivial
  | .ranged _ _ _ => .isTrue trivial
  | .fetching _ _ _ _ _ _ => inferInstanceAs (Decidable (¬_))
  | .publishing _ _ _ _ _ => .isTrue trivial
  | .recording _ _ _ _ _ _ _ => inferInstanceAs (Decidable (_ = _))

/-- What the export of the rows from `first` up to `next` has read: every row that is committed
there, and none can follow. -/
structure Collected (shared : ExportShared) (first next : Int) (rows : List AuditRow) : Prop where
  ordered : rows.Pairwise fun one two => one.id < two.id
  within : ∀ id ∈ rows.map AuditRow.id, first ≤ id ∧ id < next
  all : ∀ id ∈ shared.ids, first ≤ id → id < next → id ∈ rows.map AuditRow.id
  settled : ∀ id, shared.Pending id → id < first ∨ next ≤ id

/-- The range of an export under way. -/
structure Ranged (shared : ExportShared) (seen : List Int) (first last : Int) : Prop where
  follows : first ≤ nextFrom shared.checkpoints
  committed : last ∈ shared.ids
  seen : ∀ id ∈ seen, id ∈ shared.ids ∧ id ≤ last
  forward : first ≤ last

def Exporting.Fits (shared : ExportShared) : Exporting → Prop
  | .opened _ => True
  | .ranged _ seen first => (∀ id ∈ seen, id ∈ shared.ids) ∧ first ≤ nextFrom shared.checkpoints
  | .fetching _ seen first next last rows =>
    Ranged shared seen first last ∧ first ≤ next ∧ next ≤ last ∧ Collected shared first next rows
  | .publishing _ seen first last rows =>
    Ranged shared seen first last ∧ Collected shared first (last + 1) rows
  | .recording _ seen first last result _ rows =>
    Ranged shared seen first last ∧ Collected shared first (last + 1) rows ∧
      result.rangeTo = last ∧ first ≤ result.rangeFrom ∧
      ∀ id ∈ rows.map AuditRow.id, result.rangeFrom ≤ id

/-- The rows below the next range are exported once, and none of them is still to come. -/
structure LogKept (shared : ExportShared) : Prop where
  numbered : ∀ id ∈ shared.ids, 1 ≤ id ∧ id < shared.database.audit.sequence
  pending : ∀ id, shared.Pending id → nextFrom shared.checkpoints ≤ id ∧ id < shared.database.audit.sequence
  positive : 1 ≤ nextFrom shared.checkpoints
  drawn : nextFrom shared.checkpoints ≤ shared.database.audit.sequence
  ascending : shared.checkpoints.Pairwise fun one two => one.rangeTo < two.rangeFrom
  within : ∀ checkpoint ∈ shared.checkpoints, checkpoint.rangeTo < nextFrom shared.checkpoints ∧
    ∀ id ∈ checkpoint.ids, id ≤ checkpoint.rangeTo
  once : ∀ id ∈ shared.ids, id < nextFrom shared.checkpoints → ExportedOnce shared.checkpoints id

section Appends

variable {lib : HashLib} {pg : PgLib}

/-- What an append can do to the log: commit what was inserted, and insert under the next
identifier. -/
structure Grows (before after : ExportShared) : Prop where
  checkpoints : after.checkpoints = before.checkpoints
  sequence : before.database.audit.sequence ≤ after.database.audit.sequence
  kept : ∀ id ∈ before.ids, id ∈ after.ids
  added : ∀ id ∈ after.ids, id ∈ before.ids ∨ before.Pending id
  pending : ∀ id, after.Pending id → before.Pending id ∨
    id = before.database.audit.sequence ∧ id < after.database.audit.sequence

variable {before after : ExportShared}

theorem Grows.collected (grows : Grows before after) {first next : Int} {rows : List AuditRow}
    (collected : Collected before first next rows)
    (drawn : next ≤ before.database.audit.sequence) : Collected after first next rows := by
  refine ⟨collected.ordered, collected.within, ?_, ?_⟩
  · intro id member above below
    rcases grows.added id member with old | inserted
    · exact collected.all id old above below
    · rcases collected.settled id inserted with less | more <;> omega
  · intro id inserted
    rcases grows.pending id inserted with old | ⟨rfl, _⟩
    · exact collected.settled id old
    · exact .inr drawn

theorem Grows.ranged (grows : Grows before after) {seen : List Int} {first last : Int}
    (ranged : Ranged before seen first last) : Ranged after seen first last := by
  refine ⟨?_, grows.kept last ranged.committed, ?_, ranged.forward⟩
  · rw [grows.checkpoints]
    exact ranged.follows
  · intro id member
    exact ⟨grows.kept id (ranged.seen id member).1, (ranged.seen id member).2⟩

theorem Grows.fits (grows : Grows before after) (log : LogKept before) {exporting : Exporting}
    (fits : exporting.Fits before) : exporting.Fits after := by
  cases exporting with
  | opened call => trivial
  | ranged call seen first =>
    refine ⟨fun id member => grows.kept id (fits.1 id member), ?_⟩
    rw [grows.checkpoints]
    exact fits.2
  | fetching call seen first next last rows =>
    obtain ⟨ranged, above, below, collected⟩ := fits
    have drawn := (log.numbered last ranged.committed).2
    exact ⟨grows.ranged ranged, above, below, grows.collected collected (by omega)⟩
  | publishing call seen first last rows =>
    obtain ⟨ranged, collected⟩ := fits
    have drawn := (log.numbered last ranged.committed).2
    exact ⟨grows.ranged ranged, grows.collected collected (by omega)⟩
  | recording call seen first last result root rows =>
    obtain ⟨ranged, collected, rest⟩ := fits
    have drawn := (log.numbered last ranged.committed).2
    exact ⟨grows.ranged ranged, grows.collected collected (by omega), rest⟩

theorem Grows.log (grows : Grows before after) (log : LogKept before) : LogKept after := by
  have sequence := grows.sequence
  have drawn := log.drawn
  have positive := log.positive
  refine ⟨?_, ?_, ?_, ?_, ?_, ?_, ?_⟩
  · intro id member
    rcases grows.added id member with old | inserted
    · have bounds := log.numbered id old
      omega
    · have bounds := log.pending id inserted
      omega
  · intro id inserted
    rw [grows.checkpoints]
    rcases grows.pending id inserted with old | ⟨rfl, less⟩
    · have bounds := log.pending id old
      omega
    · omega
  · rw [grows.checkpoints]
    exact positive
  · rw [grows.checkpoints]
    omega
  · rw [grows.checkpoints]
    exact log.ascending
  · rw [grows.checkpoints]
    exact log.within
  · intro id member below
    rw [grows.checkpoints] at below ⊢
    rcases grows.added id member with old | inserted
    · exact log.once id old below
    · have bounds := log.pending id inserted
      omega

variable {transactions : Table Nat Transaction}

private theorem grows_of_same {audit : PgChainedAudit} (sameAudit : audit = before.database.audit)
    (inserted : ∀ number tip row, transactions.lookup number = some (.inserted tip row) →
      before.database.transactions.lookup number = some (.inserted tip row)) :
    Grows before { before with database := ⟨audit, transactions⟩ } := by
  subst sameAudit
  refine ⟨rfl, le_rfl, fun id member => member, fun id member => .inl member, ?_⟩
  rintro id ⟨number, tip, row, present, rfl⟩
  exact .inl ⟨number, tip, row, inserted number tip row present, rfl⟩

variable {tip : Option PgRow}

private theorem inserted_of_put {number : Nat} {transaction : Transaction}
    (other : ∀ tip row, transaction ≠ .inserted tip row) {found : Nat} {row : PgRow}
    (present : (transactions.insert number transaction).lookup found = some (.inserted tip row)) :
    transactions.lookup found = some (.inserted tip row) := by
  rcases Table.lookup_insert_cases present with ⟨_, same⟩ | ⟨_, old⟩
  · exact absurd same (other tip row)
  · exact old

private theorem inserted_of_close {number found : Nat} {row : PgRow}
    (present : (transactions.erase number).lookup found = some (.inserted tip row)) :
    transactions.lookup found = some (.inserted tip row) :=
  (Table.lookup_erase_cases present).2

theorem append_grows (shared : ExportShared) (step : AppendStep) :
    Grows shared { shared with database := shared.database.step lib pg step } := by
  have same : Grows shared shared :=
    ⟨rfl, le_rfl, fun _ member => member, fun _ member => .inl member, fun _ held => .inl held⟩
  cases step with
  | start number event | select number =>
    simp only [PgDatabase.step]
    split
    · exact grows_of_same rfl fun _ _ _ => inserted_of_put (by simp)
    · exact same
  | lock number =>
    simp only [PgDatabase.step]
    split
    · split
      · exact same
      · exact grows_of_same rfl fun _ _ _ => inserted_of_put (by simp)
    · exact same
  | insert number =>
    simp only [PgDatabase.step]
    split
    · split
      · exact grows_of_same rfl fun _ _ _ => inserted_of_close
      refine ⟨rfl, by simp, fun _ member => member, fun _ member => .inl member, ?_⟩
      rintro id ⟨found, tip, row, present, rfl⟩
      rcases Table.lookup_insert_cases present with ⟨_, own⟩ | ⟨_, before⟩
      · cases own
        exact .inr ⟨rfl, by simp [insertedRow]⟩
      · exact .inl ⟨found, tip, row, before, rfl⟩
    · exact same
  | commit number =>
    simp only [PgDatabase.step]
    split
    · rename_i tip row held
      refine ⟨rfl, le_rfl, ?_, ?_, ?_⟩
      · intro id member
        simp only [ExportShared.ids, List.map_append, List.mem_append]
        exact .inl member
      · intro id member
        simp only [ExportShared.ids, List.map_append, List.mem_append, List.map_cons,
          List.map_nil, List.mem_singleton] at member
        rcases member with old | rfl
        · exact .inl old
        · exact .inr ⟨number, tip, row, held, rfl⟩
      · rintro id ⟨found, otherTip, other, present, rfl⟩
        exact .inl ⟨found, otherTip, other, inserted_of_close present, rfl⟩
    · exact same
  | rollback number => exact grows_of_same rfl fun _ _ _ => inserted_of_close

end Appends

section Exports

variable {exporter : ExportLib} {pg : PgLib} {shared : ExportShared} {first next : Int}
  {rows : List AuditRow}

theorem Collected.empty (first : Int) : Collected shared first first [] := by
  refine ⟨.nil, by simp, ?_, ?_⟩
  · intro id _ above below
    omega
  · intro id _
    exact lt_or_ge id first

section

variable (collected : Collected shared first next rows) (above : first ≤ next)
  (free : ¬shared.Pending next)

include collected above free

private theorem Collected.settled_next (id : Int) (pending : shared.Pending id) :
    id < first ∨ next + 1 ≤ id := by
  rcases collected.settled id pending with less | more
  · exact .inl less
  have apart : id ≠ next := by
    rintro rfl
    exact free pending
  omega

theorem Collected.found {row : AuditRow} (here : row.id = next) :
    Collected shared first (next + 1) (rows ++ [row]) := by
  refine ⟨?_, ?_, ?_, collected.settled_next above free⟩
  · rw [List.pairwise_append]
    refine ⟨collected.ordered, List.pairwise_singleton _ _, ?_⟩
    intro old member new last
    obtain rfl := List.mem_singleton.mp last
    have less := (collected.within old.id (List.mem_map_of_mem member)).2
    omega
  · intro id member
    simp only [List.map_append, List.map_cons, List.map_nil, List.mem_append, List.mem_singleton] at member
    rcases member with old | rfl
    · have bounds := collected.within id old
      omega
    · omega
  · intro id member larger below
    simp only [List.map_append, List.map_cons, List.map_nil, List.mem_append, List.mem_singleton]
    by_cases same : id = next
    · exact .inr (same.trans here.symm)
    · exact .inl (collected.all id member larger (by omega))

theorem Collected.skipped (absent : next ∉ shared.ids) : Collected shared first (next + 1) rows := by
  refine ⟨collected.ordered, ?_, ?_, collected.settled_next above free⟩
  · intro id member
    have bounds := collected.within id member
    omega
  · intro id member larger below
    have apart : id ≠ next := by
      rintro rfl
      exact absent member
    exact collected.all id member larger (by omega)

end

theorem Collected.published (collected : Collected shared first (last + 1) rows)
    (ranged : Ranged shared seen first last)
    (published : publish exporter call rows = .ok (result, root, sorted)) :
    sorted = rows ∧ result.rangeTo = last ∧ first ≤ result.rangeFrom ∧
      ∀ id ∈ rows.map AuditRow.id, result.rangeFrom ≤ id := by
  obtain ⟨same, head, final, begins, ends, rangeFrom, rangeTo⟩ := publish_ok collected.ordered published
  have present : last ∈ rows.map AuditRow.id := collected.all last ranged.committed ranged.forward (by omega)
  obtain ⟨front, split⟩ := List.getLast?_eq_some_iff.mp ends
  obtain ⟨rest, starts⟩ := List.head?_eq_some_iff.mp begins
  have ordered := collected.ordered
  refine ⟨same, ?_, ?_, ?_⟩
  · have bounds := collected.within final.id (List.mem_map_of_mem (List.mem_of_getLast? ends))
    obtain ⟨row, member, here⟩ := List.mem_map.mp present
    rw [split] at member ordered
    rcases List.mem_append.mp member with earlier | last
    · have less := (List.pairwise_append.mp ordered).2.2 row earlier final (List.mem_singleton_self final)
      omega
    · obtain rfl := List.mem_singleton.mp last
      omega
  · have bounds := collected.within head.id (List.mem_map_of_mem (List.mem_of_head? begins))
    omega
  · intro id member
    obtain ⟨row, listed, rfl⟩ := List.mem_map.mp member
    rw [starts] at listed ordered
    rcases List.mem_cons.mp listed with rfl | later
    · omega
    · have less := (List.pairwise_cons.mp ordered).1 row later
      omega

@[simp] theorem nextFrom_recordCheckpoint (call : ExportCall) (result : ExportResult)
    (root : Bytes) (rows : List AuditRow) (checkpoints : List Exported) :
    nextFrom (recordCheckpoint call result root rows checkpoints) = result.rangeTo + 1 := by
  simp [nextFrom, recordCheckpoint]

/-- A row of the new export only, or of an earlier one only. -/
theorem exportedOnce_concat {checkpoints : List Exported} {new : Exported} {id : Int} :
    ExportedOnce (checkpoints ++ [new]) id ↔ (ExportedOnce checkpoints id ∧ id ∉ new.ids) ∨
        ((∀ checkpoint ∈ checkpoints, id ∉ checkpoint.ids) ∧ id ∈ new.ids) := by
  unfold ExportedOnce
  rw [List.filter_append, List.length_append]
  by_cases here : id ∈ new.ids
  · rw [List.filter_cons_of_pos (by simpa using here)]
    simp only [List.filter_nil, List.length_singleton, here, not_true_eq_false, and_false,
      and_true, false_or, Nat.add_eq_right, List.length_eq_zero_iff, List.filter_eq_nil_iff,
      decide_eq_true_eq]
  · rw [List.filter_cons_of_neg (by simpa using here)]
    simp only [List.filter_nil, List.length_nil, Nat.add_zero, here, not_false_eq_true, and_true,
      and_false, or_false]

section Record

variable {call : ExportCall} {seen : List Int} {last : Int} {result : ExportResult} {root : Bytes}

/-- The shared state with the new checkpoint. -/
private def recorded (shared : ExportShared) (call : ExportCall) (result : ExportResult)
    (root : Bytes) (rows : List AuditRow) : ExportShared :=
  { shared with checkpoints := recordCheckpoint call result root rows shared.checkpoints }

private theorem LogKept.record (log : LogKept shared)
    (fits : (Exporting.recording call seen first last result root rows).Fits shared)
    (follows : nextFrom shared.checkpoints = first) : LogKept (recorded shared call result root rows) := by
  obtain ⟨ranged, collected, ends, begins, within⟩ := fits
  have numbered := log.numbered last ranged.committed
  have next : nextFrom (recorded shared call result root rows).checkpoints = last + 1 := by
    rw [recorded, nextFrom_recordCheckpoint, ends]
  refine ⟨log.numbered, ?_, ?_, ?_, ?_, ?_, ?_⟩
  · intro id pending
    have bounds := log.pending id pending
    rcases collected.settled id pending with less | more
    · omega
    · rw [next]
      exact ⟨more, bounds.2⟩
  · rw [next]
    omega
  · rw [next]
    exact numbered.2
  · refine List.pairwise_append.mpr ⟨log.ascending, List.pairwise_singleton _ _, ?_⟩
    intro old member new added
    obtain rfl := List.mem_singleton.mp added
    have before := (log.within old member).1
    dsimp only
    omega
  · rw [next]
    intro checkpoint member
    rcases List.mem_append.mp member with old | new
    · have before := log.within checkpoint old
      have forward := ranged.forward
      exact ⟨by omega, before.2⟩
    obtain rfl := List.mem_singleton.mp new
    refine ⟨by dsimp only; omega, ?_⟩
    intro id listed
    have bounds := collected.within id listed
    dsimp only
    omega
  · rw [next]
    intro id member below
    refine exportedOnce_concat.mpr ?_
    by_cases earlier : id < first
    · refine .inl ⟨log.once id member (by omega), ?_⟩
      intro listed
      have bounds := collected.within id listed
      omega
    · refine .inr ⟨?_, collected.all id member (by omega) (by omega)⟩
      intro checkpoint old listed
      have before := log.within checkpoint old
      have bound := before.2 id listed
      omega

private theorem Exporting.Fits.record {other : Exporting} (fits : other.Fits shared)
    (grown : nextFrom shared.checkpoints ≤ result.rangeTo + 1) :
    other.Fits (recorded shared call result root rows) := by
  have next : nextFrom (recorded shared call result root rows).checkpoints =
      result.rangeTo + 1 := nextFrom_recordCheckpoint _ _ _ _ _
  have follows : ∀ {seen : List Int} {first last : Int}, Ranged shared seen first last →
      Ranged (recorded shared call result root rows) seen first last := by
    intro seen first last ranged
    refine ⟨?_, ranged.committed, ranged.seen, ranged.forward⟩
    have before := ranged.follows
    rw [next]
    omega
  have same : ∀ {first next : Int} {rows' : List AuditRow}, Collected shared first next rows' →
      Collected (recorded shared call result root rows) first next rows' :=
    fun collected => ⟨collected.ordered, collected.within, collected.all, collected.settled⟩
  cases other with
  | opened call => trivial
  | ranged call seen first =>
    have before := fits.2
    refine ⟨fits.1, ?_⟩
    rw [next]
    omega
  | fetching call seen first next last rows =>
    exact ⟨follows fits.1, fits.2.1, fits.2.2.1, same fits.2.2.2⟩
  | publishing call seen first last rows => exact ⟨follows fits.1, same fits.2⟩
  | recording call seen first last result root rows =>
    exact ⟨follows fits.1, same fits.2.1, fits.2.2⟩

/-- What an operation of an export keeps, and what its end shows. -/
structure OperationKept (exporter : ExportLib) (pg : PgLib) (shared : ExportShared)
    (exporting : Exporting) : Prop where
  log : LogKept (exporting.operate exporter pg shared).1
  rest : ∀ rest, (exporting.operate exporter pg shared).2 = .inl rest →
    rest.Fits (exporting.operate exporter pg shared).1
  others : ∀ other : Exporting, other.Fits shared → other.Fits (exporting.operate exporter pg shared).1
  covers : ∀ answer, (exporting.operate exporter pg shared).2 = .inr answer →
    (answer.isOk = true ∨ answer = .error .empty) →
    ∀ id ∈ exporting.seen, ExportedOnce (exporting.operate exporter pg shared).1.checkpoints id

variable {exporting : Exporting}

private theorem OperationKept.goes {rest : Exporting} (log : LogKept shared)
    (result : exporting.operate exporter pg shared = (shared, .inl rest))
    (fits : rest.Fits shared) : OperationKept exporter pg shared exporting := by
  refine ⟨?_, ?_, ?_, ?_⟩ <;> rw [result]
  · exact log
  · intro other same
    cases same
    exact fits
  · exact fun _ fits => fits
  · intro answer same
    cases same

private theorem OperationKept.stops (log : LogKept shared)
    (result : exporting.operate exporter pg shared = (shared, .inr answer))
    (covers : (answer.isOk = true ∨ answer = .error .empty) → ∀ id ∈ exporting.seen, ExportedOnce
      shared.checkpoints id) : OperationKept exporter pg shared exporting := by
  refine ⟨?_, ?_, ?_, ?_⟩ <;> rw [result]
  · exact log
  · intro other same
    cases same
  · exact fun _ fits => fits
  · intro given same ended
    cases same
    exact covers ended

private theorem not_ended {error : ExportError} (other : error ≠ .empty) {goal : Prop}
    (ended : (Except.error error : ExportAnswer).isOk = true ∨
      (Except.error error : ExportAnswer) = .error .empty) : goal := by
  rcases ended with impossible | same
  · cases impossible
  · exact absurd (Except.error.inj same) other

private theorem fetchNext_fits (ranged : Ranged shared seen first last) (above : first ≤ next)
    (below : next ≤ last) (collected : Collected shared first (next + 1) rows) :
    (fetchNext call seen first next last rows).Fits shared := by
  unfold fetchNext
  split
  · exact ⟨ranged, by omega, by omega, collected⟩
  · obtain rfl : next = last := by omega
    exact ⟨ranged, collected⟩

theorem operation_kept (log : LogKept shared) (fits : exporting.Fits shared)
    (careful : exporting.Careful shared) : OperationKept exporter pg shared exporting := by
  cases exporting with
  | opened call => exact .goes log rfl ⟨fun id member => member, le_rfl⟩
  | ranged call seen first =>
    obtain ⟨present, after⟩ := fits
    cases tip : tipId pg shared.database.audit with
    | error error =>
      refine .stops log (by simp only [Exporting.operate, tip]; rfl) ?_
      intro ended
      refine not_ended ?_ ended
      rintro rfl
      unfold tipId at tip
      split at tip
      · cases tip
      · cases reading : rowFromDb pg _ <;> rw [reading] at tip <;> cases tip
    | ok found =>
      cases found with
      | none =>
        refine .stops log (by simp only [Exporting.operate, tip]; rfl) ?_
        intro _ id member
        have listed := present id member
        rw [ExportShared.ids, tipId_none tip] at listed
        cases listed
      | some last =>
        obtain ⟨committed, largest⟩ := tipId_some tip
        by_cases before : last < first
        · refine .stops log (by simp only [Exporting.operate, tip, before, ↓reduceIte]; rfl) ?_
          intro _ id member
          have bound := largest id (present id member)
          exact log.once id (present id member) (by omega)
        · refine .goes log (by simp only [Exporting.operate, tip, before, ↓reduceIte]; rfl) ?_
          refine ⟨⟨after, committed, ?_, by omega⟩, le_rfl, by omega, .empty first⟩
          intro id member
          exact ⟨present id member, largest id (present id member)⟩
  | fetching call seen first next last rows =>
    obtain ⟨ranged, above, below, collected⟩ := fits
    cases got : shared.database.audit.get pg next with
    | ok row =>
      refine .goes log (by simp only [Exporting.operate, got]; rfl) ?_
      exact fetchNext_fits ranged above below (collected.found above careful (get_ok got).1)
    | error error =>
      cases error with
      | notFound id =>
        refine .goes log (by simp only [Exporting.operate, got]; rfl) ?_
        exact fetchNext_fits ranged above below (collected.skipped above careful (get_notFound got))
      | _ =>
        refine .stops log (by simp only [Exporting.operate, got]; rfl) ?_
        intro ended
        exact not_ended (by simp) ended
  | publishing call seen first last rows =>
    obtain ⟨ranged, collected⟩ := fits
    cases published : publish exporter call rows with
    | error error =>
      refine .stops log (by simp only [Exporting.operate, published]; rfl) ?_
      intro ended
      refine not_ended ?_ ended
      rintro rfl
      refine publish_ne_empty ?_ published
      rintro rfl
      cases collected.all last ranged.committed ranged.forward (by omega)
    | ok value =>
      obtain ⟨result, root, sorted⟩ := value
      obtain ⟨rfl, ends, begins, within⟩ := collected.published ranged published
      refine .goes log (by simp only [Exporting.operate, published]; rfl) ?_
      exact ⟨ranged, collected, ends, begins, within⟩
  | recording call seen first last result root rows =>
    have next : nextFrom shared.checkpoints = first := careful
    have kept := log.record fits next
    obtain ⟨ranged, collected, ends, begins, within⟩ := fits
    have forward := ranged.forward
    refine ⟨kept, ?_, ?_, ?_⟩
    · intro rest same
      cases same
    · intro other fits
      exact fits.record (by omega)
    · intro answer same ended id member
      have present := ranged.seen id member
      refine kept.once id present.1 ?_
      have after : nextFrom (recorded shared call result root rows).checkpoints =
          result.rangeTo + 1 := nextFrom_recordCheckpoint _ _ _ _ _
      rw [after, ends]
      omega

end Record

end Exports

end SpectonCr.Audit
