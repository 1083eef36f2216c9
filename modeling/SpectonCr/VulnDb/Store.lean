import SpectonCr.Base.Table
import SpectonCr.Common.Model
import SpectonCr.Scanner.Policy

namespace SpectonCr.VulnDb

open Scanner (Severity)

inductive ScanError where
  | vulnDb (message : String)
  | db (message : String)
  | io (message : String)
  | http (message : String)
  | other (message : String)
  deriving DecidableEq

def ScanError.toString : ScanError → String
  | .vulnDb message => "vulndb: " ++ message
  | .db message => "db: " ++ message
  | .io message => "io: " ++ message
  | .http message => "http: " ++ message
  | .other message => message

structure IngestStats where
  (advisories skipped errors : Nat)

def IngestStats.default : IngestStats := ⟨0, 0, 0⟩

structure VulnerabilityRow (Score : Type) where
  (id source : String)
  (summary description : Option String)
  severity : Severity
  cvssScore : Option Score
  (publishedAt modifiedAt : Option Time)
  (aliases references : List String)
  deriving DecidableEq

structure AffectedRangeRow where
  (ecosystem package : String)
  (introduced fixed lastAffected purl : Option String)
  deriving DecidableEq

/-- A row of `vulnerabilities` under its id. -/
structure StoredVulnerability (Score : Type) where
  source : String
  (summary description : Option String)
  severity : String
  cvssScore : Option Score
  (publishedAt modifiedAt : Option Time)
  (aliases refs : List String)

/-- A row of `ingest_cursor` under its source. -/
structure IngestCursor where
  etag : Option String
  lastModified : Option Time
  lastRunAt : Time
  lastRunAdvisories : Nat
  lastRunError : Option String

/-- The tables; a row of `affected_ranges` stands with the id it refers to, in the order of
insertion. -/
structure VulnStore (Score : Type) where
  vulnerabilities : Table String (StoredVulnerability Score)
  affectedRanges : List (String × AffectedRangeRow)
  ingestCursor : Table String IngestCursor

/-- The name of a severity in upper case. -/
def severityStr : Severity → String
  | .critical => "CRITICAL"
  | .high => "HIGH"
  | .medium => "MEDIUM"
  | .low => "LOW"
  | .unknown => "UNKNOWN"

namespace VulnStore

variable {Score : Type}

def empty : VulnStore Score := ⟨∅, [], ∅⟩

def rangesOf (store : VulnStore Score) (id : String) : List AffectedRangeRow :=
  (store.affectedRanges.filter fun row => row.1 = id).map Prod.snd

def aliasesOf (store : VulnStore Score) (id : String) : List String :=
  ((store.vulnerabilities.lookup id).map StoredVulnerability.aliases).getD []

/-- `write_advisory`, once its transaction commits. -/
def writeAdvisory (store : VulnStore Score) (vuln : VulnerabilityRow Score)
    (ranges : List AffectedRangeRow) : VulnStore Score :=
  { store with
    vulnerabilities := store.vulnerabilities.insert vuln.id
      { source := vuln.source
        summary := vuln.summary
        description := vuln.description
        severity := severityStr vuln.severity
        cvssScore := vuln.cvssScore
        publishedAt := vuln.publishedAt
        modifiedAt := vuln.modifiedAt
        aliases := vuln.aliases
        refs := vuln.references }
    affectedRanges := (store.affectedRanges.filter fun row => row.1 ≠ vuln.id) ++
      ranges.map fun range => (vuln.id, range) }

/-- `write_advisory_metadata_only`: a field that is missing keeps what is stored, the aliases and
references are replaced. -/
def writeAdvisoryMetadataOnly (store : VulnStore Score) (vuln : VulnerabilityRow Score) : VulnStore Score :=
  let old := store.vulnerabilities.lookup vuln.id
  { store with
    vulnerabilities := store.vulnerabilities.insert vuln.id
      { source := vuln.source
        summary := vuln.summary.or (old.bind StoredVulnerability.summary)
        description := vuln.description.or (old.bind StoredVulnerability.description)
        severity :=
          if severityStr vuln.severity ≠ "UNKNOWN" then severityStr vuln.severity
          else (old.map StoredVulnerability.severity).getD (severityStr vuln.severity)
        cvssScore := vuln.cvssScore.or (old.bind StoredVulnerability.cvssScore)
        publishedAt := vuln.publishedAt.or (old.bind StoredVulnerability.publishedAt)
        modifiedAt := vuln.modifiedAt.or (old.bind StoredVulnerability.modifiedAt)
        aliases := vuln.aliases
        refs := vuln.references } }

def updateCursor (store : VulnStore Score) (source : String) (etag : Option String)
    (lastModified : Option Time) (stats : IngestStats) (error : Option String) (now : Time) :
    VulnStore Score :=
  { store with
    ingestCursor := store.ingestCursor.insert source
      { etag
        lastModified :=
          lastModified.or ((store.ingestCursor.lookup source).bind IngestCursor.lastModified)
        lastRunAt := now
        lastRunAdvisories := min stats.advisories (2 ^ 31 - 1)
        lastRunError := error } }

def storedEtag (store : VulnStore Score) (source : String) : Option String :=
  (store.ingestCursor.lookup source).bind IngestCursor.etag

def storedLastModified (store : VulnStore Score) (source : String) : Option Time :=
  (store.ingestCursor.lookup source).bind IngestCursor.lastModified

section Lemmas

variable (store : VulnStore Score) (vuln : VulnerabilityRow Score) (ranges : List AffectedRangeRow)

variable (source : String)

@[simp] theorem storedEtag_writeAdvisory :
    (store.writeAdvisory vuln ranges).storedEtag source = store.storedEtag source :=
  rfl

@[simp] theorem storedEtag_updateCursor (etag : Option String) (lastModified : Option Time)
    (stats : IngestStats) (error : Option String) (now : Time) :
    (store.updateCursor source etag lastModified stats error now).storedEtag source = etag := by
  simp [storedEtag, updateCursor]

@[simp] theorem storedLastModified_updateCursor (etag : Option String) (time : Time) (stats : IngestStats)
    (error : Option String) (now : Time) :
    (store.updateCursor source etag (some time) stats error now).storedLastModified source = some time := by
  simp [storedLastModified, updateCursor]

variable (id : String)

theorem rangesOf_writeAdvisory :
    (store.writeAdvisory vuln ranges).rangesOf id = if vuln.id = id then ranges else store.rangesOf id := by
  simp only [rangesOf, writeAdvisory, List.filter_append, List.filter_filter, List.map_append]
  by_cases same : vuln.id = id
  · subst same
    simp [Function.comp_def, List.filter_map]
  have other : ((ranges.map fun range => (vuln.id, range)).filter fun row => row.1 = id) = [] := by
    simp [List.filter_map, Function.comp_def, same]
  rw [if_neg same, other, List.map_nil, List.append_nil]
  congr 1
  refine List.filter_congr ?_
  intro row _
  by_cases here : row.1 = id
  · subst here
    simp [Ne.symm same]
  · simp [here]

theorem aliasesOf_writeAdvisory : (store.writeAdvisory vuln ranges).aliasesOf id =
      if vuln.id = id then vuln.aliases else store.aliasesOf id := by
  by_cases same : vuln.id = id
  · subst same
    simp [aliasesOf, writeAdvisory]
  · simp [aliasesOf, writeAdvisory, same, AList.lookup_insert_ne (Ne.symm same)]

theorem aliasesOf_writeAdvisoryMetadataOnly : (store.writeAdvisoryMetadataOnly vuln).aliasesOf id =
      if vuln.id = id then vuln.aliases else store.aliasesOf id := by
  by_cases same : vuln.id = id
  · subst same
    simp [aliasesOf, writeAdvisoryMetadataOnly]
  · simp [aliasesOf, writeAdvisoryMetadataOnly, same, AList.lookup_insert_ne (Ne.symm same)]

end Lemmas

end VulnStore

end SpectonCr.VulnDb
