import SpectonCr.Base.Run
import SpectonCr.VulnDb.Normalise

namespace SpectonCr.VulnDb

inductive Source where
  | osv
  | ghsa
  | nvd
  deriving DecidableEq

/-- A record that an ingester hands to its writer. -/
inductive IngestWrite (Score : Type) where
  | osv (record : OsvRecord)
  | ghsa (node : GhsaNode Score)
  | nvd (cve : NvdCve Score)

def IngestWrite.source {Score : Type} : IngestWrite Score → Source
  | .osv _ => .osv
  | .ghsa _ => .ghsa
  | .nvd _ => .nvd

/-- What identifies a row of `affected_ranges`: the package and the bounds. -/
def AffectedRangeRow.bounds (row : AffectedRangeRow) :
    String × String × Option String × Option String × Option String :=
  (row.ecosystem, row.package, row.introduced, row.fixed, row.lastAffected)

/-- What a write of a source supplied for an id. -/
structure Supply where
  source : Source
  id : String
  ranges : List AffectedRangeRow
  aliases : List String

/-- The database, and the writes so far with the newest first. -/
structure FeedHistory (Score : Type) where
  store : VulnStore Score
  supplies : List Supply

section Writes

variable {Score : Type} (scores : ScoreLib Score)

/-- The row of a record; only OSV and GHSA bring ranges. -/
def IngestWrite.row : IngestWrite Score → Option (VulnerabilityRow Score × Option (List AffectedRangeRow))
  | .osv record => (normalise scores record).map fun (vuln, ranges) => (vuln, some ranges)
  | .ghsa node => (normaliseGhsa node).map fun (vuln, ranges) => (vuln, some ranges)
  | .nvd cve => match normaliseNvd scores cve with
    | .ok (some vuln) => some (vuln, none)
    | _ => none

def VulnStore.ingest (store : VulnStore Score) (vuln : VulnerabilityRow Score) :
    Option (List AffectedRangeRow) → VulnStore Score
  | some ranges => store.writeAdvisory vuln ranges
  | none => store.writeAdvisoryMetadataOnly vuln

namespace FeedHistory

def step (history : FeedHistory Score) (write : IngestWrite Score) : FeedHistory Score :=
  match write.row scores with
  | none => history
  | some (vuln, ranges) =>
    { store := history.store.ingest vuln ranges
      supplies := ⟨write.source, vuln.id, ranges.getD [], vuln.aliases⟩ :: history.supplies }

/-- The ranges of the latest write of a source for an id. -/
def latestRanges (history : FeedHistory Score) (source : Source) (id : String) : List AffectedRangeRow :=
  ((history.supplies.find? fun supply => supply.source = source && supply.id = id).map Supply.ranges).getD []

/-- A stored row that the latest write of another source supplied. -/
def RangeOfOther (history : FeedHistory Score) (source : Source) (id : String)
    (row : AffectedRangeRow) : Prop :=
  row ∈ history.store.rangesOf id ∧ ∃ other ≠ source,
    row.bounds ∈ (history.latestRanges other id).map AffectedRangeRow.bounds

/-- A stored alias that some write of another source supplied. -/
def AliasOfOther (history : FeedHistory Score) (source : Source) (id : String) (name : String) :
    Prop :=
  name ∈ history.store.aliasesOf id ∧
    ∃ supply ∈ history.supplies, supply.source ≠ source ∧ supply.id = id ∧ name ∈ supply.aliases

/-- A write removes nothing that another source supplied. -/
def Enriches (history : FeedHistory Score) (write : IngestWrite Score) : Prop :=
  ∀ id, (∀ row, history.RangeOfOther write.source id row →
      row.bounds ∈ ((history.step scores write).store.rangesOf id).map AffectedRangeRow.bounds) ∧
    ∀ name, history.AliasOfOther write.source id name → name ∈ (history.step scores write).store.aliasesOf id

/-- A record that itself has everything another source supplied for its id. -/
def Repeats (history : FeedHistory Score) (write : IngestWrite Score) : Prop :=
  ∀ vuln ranges, write.row scores = some (vuln, ranges) →
    (∀ brought, ranges = some brought → ∀ row, history.RangeOfOther write.source vuln.id row →
      row.bounds ∈ brought.map AffectedRangeRow.bounds) ∧
    ∀ name, history.AliasOfOther write.source vuln.id name → name ∈ vuln.aliases

end FeedHistory

variable (store : VulnStore Score) (vuln : VulnerabilityRow Score)
  (ranges : Option (List AffectedRangeRow))

theorem VulnStore.rangesOf_ingest (id : String) : (store.ingest vuln ranges).rangesOf id =
      if vuln.id = id then ranges.getD (store.rangesOf id) else store.rangesOf id := by
  cases ranges with
  | some brought => exact store.rangesOf_writeAdvisory vuln brought id
  | none =>
    rw [Option.getD_none, ite_self]
    rfl

theorem VulnStore.aliasesOf_ingest (id : String) :
    (store.ingest vuln ranges).aliasesOf id = if vuln.id = id then vuln.aliases else store.aliasesOf id := by
  cases ranges with
  | some brought => exact store.aliasesOf_writeAdvisory vuln brought id
  | none => exact store.aliasesOf_writeAdvisoryMetadataOnly vuln id

variable {scores}

theorem FeedHistory.enriches_iff (history : FeedHistory Score) (write : IngestWrite Score) :
    history.Enriches scores write ↔ history.Repeats scores write := by
  unfold FeedHistory.Enriches FeedHistory.Repeats FeedHistory.step
  cases written : write.row scores with
  | none =>
    refine iff_of_true ?_ nofun
    intro id
    exact ⟨fun range stored => List.mem_map_of_mem stored.1, fun name stored => stored.1⟩
  | some entry =>
    obtain ⟨vuln, ranges⟩ := entry
    simp only [VulnStore.rangesOf_ingest, VulnStore.aliasesOf_ingest]
    constructor
    · rintro enriches _ _ ⟨⟩
      obtain ⟨rows, names⟩ := enriches vuln.id
      simp only [if_true] at rows names
      refine ⟨?_, names⟩
      rintro brought rfl range stored
      exact rows range stored
    · intro repeats id
      obtain ⟨rows, names⟩ := repeats vuln ranges rfl
      by_cases same : vuln.id = id
      · subst same
        simp only [if_true]
        refine ⟨?_, names⟩
        intro range stored
        cases ranges with
        | none => exact List.mem_map_of_mem stored.1
        | some brought => exact rows brought rfl range stored
      · simp only [if_neg same]
        exact ⟨fun range stored => List.mem_map_of_mem stored.1, fun name stored => stored.1⟩

end Writes

/-- In every order of writes, nothing of another source is removed exactly when every record has
again all that the other sources supplied for its id. -/
theorem sources_enrich_iff {Score : Type} (scores : ScoreLib Score) (store : VulnStore Score)
    (writes : List (IngestWrite Score)) :
    Run.Along (FeedHistory.step scores) (FeedHistory.Enriches scores) ⟨store, []⟩ writes ↔
      Run.Along (FeedHistory.step scores) (FeedHistory.Repeats scores) ⟨store, []⟩ writes :=
  Run.along_congr FeedHistory.enriches_iff

def blankScores : ScoreLib Nat where
  parse := fun _ => none
  cvss3Base := fun _ => none
  atLeast := fun score bound => bound ≤ score
  positive := fun score => 0 < score

def ghsaWrite : IngestWrite Nat :=
  .ghsa ⟨"GHSA-1", [⟨"CVE", "CVE-1"⟩], none, none, "HIGH", none, none, [], none,
    [⟨"x", "npm", some "< 2", none⟩]⟩

def osvWrite : IngestWrite Nat :=
  .osv ⟨"CVE-1", ["GHSA-1"], none, none, none, none, none, [],
    [⟨⟨"y", "npm", none⟩, [⟨"SEMVER", [⟨some "0", none, none, none⟩]⟩], []⟩], []⟩

def nvdWrite : IngestWrite Nat := .nvd ⟨"CVE-1", none, none, [], [], ⟨[], [], []⟩⟩

/-- OSV takes away the range of GHSA, and NVD the alias of OSV. -/
theorem source_erases_another :
    ¬ Run.Along (FeedHistory.step blankScores) (FeedHistory.Enriches blankScores) ⟨.empty, []⟩
        [ghsaWrite, osvWrite] ∧
      ¬ Run.Along (FeedHistory.step blankScores) (FeedHistory.Enriches blankScores) ⟨.empty, []⟩
        [osvWrite, nvdWrite] := by
  constructor
  · rintro ⟨_, enriches, _⟩
    have kept := (enriches "CVE-1").1 ⟨"npm", "x", none, some "2", none, none⟩
      ⟨by decide +kernel, .ghsa, by decide, by decide +kernel⟩
    revert kept
    decide +kernel
  · rintro ⟨_, enriches, _⟩
    have kept := (enriches "CVE-1").2 "GHSA-1"
      ⟨by decide +kernel, ⟨.osv, "CVE-1", [⟨"npm", "y", some "0", none, none, none⟩], ["GHSA-1"]⟩,
        List.mem_cons_self, by decide, rfl, List.mem_cons_self⟩
    revert kept
    decide +kernel

end SpectonCr.VulnDb
