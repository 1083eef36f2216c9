import SpectonCr.Audit.ExportKept

namespace SpectonCr.Audit

open Interleaving

inductive ExportEvent where
  | append (step : AppendStep)
  | exporting (move : Move ExportCall)

abbrev ExportSystem := Pool ExportShared Exporting

section System

variable (lib : HashLib) (exporter : ExportLib) (pg : PgLib)

def exportStep (system : ExportSystem) : ExportEvent → ExportSystem
  | .append step =>
    { system with
      shared := { system.shared with database := system.shared.database.step lib pg step } }
  | .exporting move => (exportProcess exporter pg).step system move

def RangesApart (checkpoints : List Exported) : Prop :=
  checkpoints.Pairwise fun one two => one.rangeTo < two.rangeFrom ∨ two.rangeTo < one.rangeFrom

/-- When an export ends, recorded or with nothing to export, every row committed when it began is in
exactly one checkpoint. -/
def Covers (system : ExportSystem) : ExportEvent → Prop
  | .exporting (.advance number) => ∀ exporting answer, system.flights.lookup number = some exporting →
      (exporting.operate exporter pg system.shared).2 = .inr answer →
      (answer.isOk = true ∨ answer = .error .empty) →
      ∀ id ∈ exporting.seen, ExportedOnce (exporting.operate exporter pg system.shared).1.checkpoints id
  | _ => True

def ExportsSound (system : ExportSystem) (event : ExportEvent) : Prop :=
  RangesApart (exportStep lib exporter pg system event).shared.checkpoints ∧ Covers exporter pg system event

end System

def Careful (system : ExportSystem) : ExportEvent → Prop
  | .exporting (.advance number) =>
    ∀ exporting ∈ system.flights.lookup number, exporting.Careful system.shared
  | _ => True

instance Careful.decide (system : ExportSystem) : ∀ event, Decidable (Careful system event)
  | .append _ => .isTrue trivial
  | .exporting (.start _ _) => .isTrue trivial
  | .exporting (.advance _) => inferInstanceAs (Decidable (∀ _ ∈ _, _))

/-- A log between appends, without checkpoints. -/
structure FreshLog (system : ExportSystem) : Prop where
  numbered : ∀ id ∈ system.shared.ids, 1 ≤ id ∧ id < system.shared.database.audit.sequence
  next : 1 ≤ system.shared.database.audit.sequence
  idle : system.shared.database.transactions = ∅
  unexported : system.shared.checkpoints = []
  calm : system.flights = ∅

structure Kept (system : ExportSystem) : Prop where
  log : LogKept system.shared
  fits : ∀ number exporting, system.flights.lookup number = some exporting → exporting.Fits system.shared

section Runs

variable {lib : HashLib} {exporter : ExportLib} {pg : PgLib}

theorem FreshLog.kept (fresh : FreshLog system) : Kept system := by
  obtain ⟨numbered, next, idle, unexported, calm⟩ := fresh
  have start : nextFrom system.shared.checkpoints = 1 := by rw [unexported]; rfl
  refine ⟨⟨numbered, ?_, ?_, ?_, ?_, ?_, ?_⟩, ?_⟩
  · rintro id ⟨number, tip, row, held, _⟩
    rw [idle] at held
    cases held
  · omega
  · omega
  · rw [unexported]
    exact .nil
  · rw [unexported]
    intro checkpoint member
    cases member
  · intro id member below
    have bounds := numbered id member
    omega
  · intro number exporting held
    rw [calm] at held
    cases held

theorem kept_step (kept : Kept system) (careful : Careful system event) :
    Kept (exportStep lib exporter pg system event) := by
  cases event with
  | append step =>
    have grows := @append_grows lib pg system.shared step
    refine ⟨grows.log kept.log, ?_⟩
    intro number exporting held
    exact grows.fits kept.log (kept.fits number exporting held)
  | exporting move =>
    simp only [exportStep]
    rcases (exportProcess exporter pg).step_cases system move with
      same | ⟨number, call, rfl, _, after⟩ | ⟨number, exporting, rfl, held, after⟩
    · rw [same]
      exact kept
    · rw [after]
      refine ⟨kept.log, ?_⟩
      intro other exporting found
      rcases lookup_settle found with ⟨_, launched⟩ | ⟨_, earlier⟩
      · cases launched
        trivial
      · exact kept.fits other exporting earlier
    · have operation : OperationKept exporter pg system.shared exporting :=
        operation_kept kept.log (kept.fits number exporting held) (careful exporting held)
      rw [after]
      refine ⟨operation.log, ?_⟩
      intro other found present
      rcases lookup_settle present with ⟨_, rest⟩ | ⟨_, earlier⟩
      · exact operation.rest found rest
      · exact operation.others found (kept.fits other found earlier)

end Runs

/-- In every run whose exports are careful, ranges do not overlap, and an export that ends leaves
each row committed when it began in exactly one checkpoint. -/
theorem careful_exports_cover (lib : HashLib) (exporter : ExportLib) (pg : PgLib)
    (system : ExportSystem) (events : List ExportEvent) (fresh : FreshLog system)
    (careful : Run.Along (exportStep lib exporter pg) Careful system events) :
    Run.Along (exportStep lib exporter pg) (ExportsSound lib exporter pg) system events := by
  refine Run.along_of_invariant (fun _ _ => kept_step) ?_ fresh.kept careful
  intro system event kept careful
  refine ⟨(kept_step kept careful).log.ascending.imp fun less => .inl less, ?_⟩
  cases event with
  | append step => trivial
  | exporting move =>
    cases move with
    | start number call => trivial
    | advance number =>
      intro exporting answer held ended
      exact (operation_kept kept.log (kept.fits number exporting held)
        (careful exporting held)).covers answer ended

def demoExporter : ExportLib := ⟨fun left _ => left, fun _ => .ok [], .ok, fun _ => "2026/01/01/00"⟩

def demoCall : ExportCall := ⟨0, false, fun key _ => .ok ("memory://" ++ key)⟩

def emptyLog : ExportSystem := ⟨⟨⟨⟨[], 1, ⟨"v1", AList.singleton "v1" [0x6b]⟩⟩, ∅⟩, []⟩, ∅⟩

theorem emptyLog_fresh : FreshLog emptyLog := by
  refine ⟨?_, by decide, rfl, rfl, rfl⟩
  intro id member
  cases member

/-- An append that nothing interrupts. -/
def wholeAppend (number : Nat) : List ExportEvent := (appendSteps number demoEvent).map .append

def startExport (number : Nat) : ExportEvent := .exporting (.start number demoCall)

def advanceExport (number : Nat) : ExportEvent := .exporting (.advance number)

def wholeExport (number reads : Nat) : List ExportEvent :=
  startExport number :: List.replicate (reads + 4) (advanceExport number)

def logAfter (events : List ExportEvent) : ExportSystem :=
  Run.after (exportStep demoLib demoExporter demoPg) emptyLog events

/-- The ranges of the checkpoints, each with the rows of its export. -/
def exportedRanges (checkpoints : List Exported) : List (Int × Int × List Int) :=
  checkpoints.map fun checkpoint => (checkpoint.rangeFrom, checkpoint.rangeTo, checkpoint.ids)

theorem exportedOnce_iff_ranges {checkpoints : List Exported} {id : Int} : ExportedOnce checkpoints id ↔
      ((exportedRanges checkpoints).filter fun range => id ∈ range.2.2).length = 1 := by
  unfold ExportedOnce exportedRanges
  rw [List.filter_map, List.length_map]
  rfl

theorem rangesApart_iff_ranges {checkpoints : List Exported} :
    RangesApart checkpoints ↔ (exportedRanges checkpoints).Pairwise fun one two =>
      one.2.1 < two.1 ∨ two.2.1 < one.1 := by
  unfold RangesApart exportedRanges
  rw [List.pairwise_map]

/-- The export ends with nothing to do. -/
def endsEmpty : Exporting ⊕ ExportAnswer → Bool
  | .inr (.error .empty) => true
  | _ => false

theorem endsEmpty_iff {result : Exporting ⊕ ExportAnswer} :
    endsEmpty result = true ↔ result = .inr (.error .empty) := by
  unfold endsEmpty
  split
  · simp
  · rename_i other
    simp only [Bool.false_eq_true, false_iff]
    exact other

/-- The second append commits first, and an export passes the first one's identifier; then the first
commits, and a later export finds nothing to do. -/
def passedEvents : List ExportEvent :=
  [.append (.start 1 demoEvent), .append (.start 2 demoEvent), .append (.select 1),
    .append (.select 2), .append (.lock 1), .append (.lock 2), .append (.insert 1),
    .append (.insert 2), .append (.commit 2)] ++ wholeExport 1 2 ++
    [.append (.commit 1), startExport 2, advanceExport 2]

/-- Two exports that both read the last checkpoint before either records its own. -/
def overlappingEvents : List ExportEvent :=
  wholeAppend 1 ++ [startExport 1, startExport 2, advanceExport 1, advanceExport 2] ++
    List.replicate 4 (advanceExport 1) ++ List.replicate 4 (advanceExport 2)

/-- Exports after whole appends take one row each. -/
theorem whole_appends_exported :
    exportedRanges (logAfter (wholeAppend 1 ++ wholeExport 1 1 ++ wholeAppend 2 ++
        wholeExport 2 1)).shared.checkpoints = [(1, 1, [1]), (2, 2, [2])] ∧
      Run.Along (exportStep demoLib demoExporter demoPg) (ExportsSound demoLib demoExporter demoPg) emptyLog
        (wholeAppend 1 ++ wholeExport 1 1 ++ wholeAppend 2 ++ wholeExport 2 1) :=
  ⟨by decide +kernel, careful_exports_cover demoLib demoExporter demoPg emptyLog _ emptyLog_fresh
    (by decide +kernel)⟩

/-- A committed row is in no export although an export has run with no append in flight, and two
exports record the same range. -/
theorem passed_row_not_exported : (logAfter passedEvents).shared.ids = [2, 1] ∧
      (logAfter passedEvents).shared.database.transactions.keys = [] ∧
      exportedRanges (logAfter passedEvents).shared.checkpoints = [(2, 2, [2])] ∧
      ¬ExportsSound demoLib demoExporter demoPg (logAfter passedEvents) (advanceExport 2) ∧
      exportedRanges (logAfter overlappingEvents).shared.checkpoints = [(1, 1, [1]), (1, 1, [1])] ∧
      ¬RangesApart (logAfter overlappingEvents).shared.checkpoints := by
  have ending : ((logAfter passedEvents).flights.lookup 2).map (fun exporting =>
      (exporting.seen, endsEmpty (exporting.operate demoExporter demoPg (logAfter passedEvents).shared).2,
        exportedRanges (exporting.operate demoExporter demoPg
          (logAfter passedEvents).shared).1.checkpoints)) =
      some ([2, 1], true, [(2, 2, [2])]) := by
    decide +kernel
  have overlapping : exportedRanges (logAfter overlappingEvents).shared.checkpoints =
      [(1, 1, [1]), (1, 1, [1])] := by
    decide +kernel
  refine ⟨by decide +kernel, by decide +kernel, by decide +kernel, ?_, overlapping, ?_⟩
  · rintro ⟨_, covers⟩
    obtain ⟨exporting, held, shown⟩ := Option.map_eq_some_iff.mp ending
    simp only [Prod.mk.injEq] at shown
    obtain ⟨began, ended, ranges⟩ := shown
    have empty := endsEmpty_iff.mp ended
    have once := covers exporting _ held empty (.inr rfl) 1 (by rw [began]; decide)
    rw [exportedOnce_iff_ranges, ranges] at once
    exact absurd once (by decide)
  · intro apart
    have ranges := rangesApart_iff_ranges.mp apart
    rw [overlapping] at ranges
    exact absurd ranges (by decide)

end SpectonCr.Audit
