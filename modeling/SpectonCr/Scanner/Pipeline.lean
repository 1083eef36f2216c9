import SpectonCr.Scanner.Image
import SpectonCr.Scanner.Worker

namespace SpectonCr.Scanner

open Storage

/-- A finding with the package it is about. -/
structure Finding extends Vulnerability where
  (package ecosystem installedVersion : String)
  deriving DecidableEq

/-- A row of `suppressions`. -/
structure Suppression where
  cveId : String
  (scopeTenant scopeProject scopeRepository scopePackage : Option String)
  (expiresAt revokedAt : Option Time)

/-- A row of `image_settings`. -/
structure ImageSettings where
  scanEnabled : Bool
  policyYaml : Option String

def ImageSettings.default : ImageSettings := ⟨true, none⟩

/-- A `ScanResult` with its packages. -/
structure ScanReport where
  id : Uuid
  (digest tenant project repository reference : String)
  status : ScanStatus
  error : Option String
  startedAt : Time
  completedAt : Option Time
  summary : ScanSummary
  vulnerabilities : List Finding
  policyEvaluation : Option PolicyEvaluation
  packages : List Package
  deriving DecidableEq

/-- A row of `scans`. -/
structure ScanRow where
  (digest tenant project repository reference : String)
  status : ScanStatus
  error : Option String
  counts : Option (Nat × Nat × Nat × Nat)

/-- What a worker is configured with and what the databases hold. -/
structure Worker where
  lib : ImageLib
  parsers : Parsers
  objects : ObjectStore
  /-- `VulnDb::query`, with the text of its error. -/
  query : List Package → Except String (List Finding)
  suppressions : List Suppression
  settings : Table (String × String × String) ImageSettings
  /-- `Policy::from_yaml`, with the text of its error. -/
  parsePolicy : String → Except String Policy
  defaultPolicy : Policy
  (dedupEnabled notifies : Bool)

/-- The two caches in Redis, and the rows of `scans`. -/
structure Stores where
  results : Table String ScanReport
  layerSboms : Table String (List Package)
  scans : Table Uuid ScanRow

/-- Which calls of `process` fail, with the text of an error that is kept; by number of the layer,
or of the finding for suppressions. -/
structure Faults where
  (settings lookup : Bool)
  (layerLookup layerPut : Nat → Bool)
  suppress : Option (Nat × String)
  recordStart : Option String
  (putStart recordFailed putFinal : Bool)
  (updateCounts recordCompleted : Option String)

def Faults.none : Faults :=
  ⟨false, false, fun _ => false, fun _ => false, .none, .none, false, false, false, .none, .none⟩

/-- A query of the vulnerability database, with its answer. -/
structure Query where
  packages : List Package
  answer : Except String (List Finding)

/-- What a call of `process` does: its answer, the stores it leaves, the results it stored and
announced in this order, and the query it made. -/
structure Processed where
  answer : Except ScanError Unit
  stores : Stores
  (stored announced : List ScanReport)
  query : Option Query

section Extraction

variable (worker : Worker)

/-- A cached layer, with its digest noted where it is missing. -/
def normalise (layer : LayerDescriptor) (cached : List Package) : List Package :=
  cached.map fun package =>
    { package with layerDigest := some (package.layerDigest.getD layer.digest) }

/-- The cached packages of a numbered layer, when there are some and the lookup succeeds. -/
def cachedLayer (faults : Faults) (layerSboms : Table String (List Package))
    (entry : LayerDescriptor × Nat) : Option (List Package) :=
  if faults.layerLookup entry.2 then none
  else (layerSboms.lookup entry.1.digest).map (normalise entry.1)

/-- The packages of the walked layers by layer: a digest that is listed twice gets them once. -/
def regroup : List LayerDescriptor → List Package → List (String × List Package)
  | [], _ => []
  | layer :: rest, packages =>
    (layer.digest, packages.filter fun package => package.layerDigest.getD "" = layer.digest) ::
      regroup rest (packages.filter fun package => ¬package.layerDigest.getD "" = layer.digest)

def putLayers (faults : Faults) (groups : List (String × List Package))
    (layerSboms : Table String (List Package)) : Table String (List Package) :=
  groups.zipIdx.foldl (fun cache group =>
    if faults.layerPut group.2 then cache else cache.insert group.1.1 group.1.2) layerSboms

/-- The SBOM extraction of `run_pipeline`, with the layer cache it leaves. -/
def extractPackages (faults : Faults) (loc : ImageLocator) (layerSboms : Table String (List Package)) :
    Except ScanError (List Package × Table String (List Package)) := do
  let layers ← resolveLayers worker.lib worker.objects loc
  let numbered := layers.zipIdx
  let cached := numbered.filterMap (cachedLayer faults layerSboms)
  let layersToWalk := (numbered.filter fun entry =>
    (cachedLayer faults layerSboms entry).isNone).map Prod.fst
  let walked ← walkSelectedLayers worker.lib worker.parsers worker.objects loc layersToWalk
  let groups := regroup layersToWalk walked
  return (cached.flatten ++ groups.flatMap Prod.snd, putLayers faults groups layerSboms)

end Extraction

/-- The condition of the query for one finding. -/
def Suppression.hits (now : Time) (tenant project repository : String) (finding : Finding)
    (row : Suppression) : Bool :=
  row.cveId = finding.id && row.revokedAt.isNone && (row.expiresAt.all fun expires => now < expires) &&
    (row.scopeTenant.all fun scope => scope = tenant) &&
    (row.scopeProject.all fun scope => scope = project) &&
    (row.scopeRepository.all fun scope => scope = repository) &&
    (row.scopePackage.all fun scope => scope = finding.package)

def suppress (rows : List Suppression) (now : Time) (tenant project repository : String)
    (finding : Finding) : Finding :=
  if rows.any (Suppression.hits now tenant project repository finding) then
    { finding with suppressed := true }
  else finding

/-- `Suppressions::apply`: one query for every finding. -/
def applySuppressions (worker : Worker) (faults : Faults) (now : Time) (loc : ImageLocator)
    (findings : List Finding) : Except ScanError (List Finding) :=
  let marked := findings.map
    (suppress worker.suppressions now loc.tenant loc.project loc.repository)
  match faults.suppress with
  | none => .ok marked
  | some (place, reason) => if place < findings.length then .error (.db reason) else .ok marked

/-- The policy of a repository: its own, when it parses. -/
def effectivePolicy (worker : Worker) (settings : ImageSettings) : Policy :=
  match settings.policyYaml with
  | none => worker.defaultPolicy
  | some yaml =>
    match worker.parsePolicy yaml with
    | .ok policy => policy
    | .error _ => worker.defaultPolicy

def plainFindings (findings : List Finding) : List Vulnerability := findings.map Finding.toVulnerability

def ScanJob.locator (job : ScanJob) : ImageLocator := ⟨job.tenant, job.project, job.repository, job.digest⟩

def ScanJob.startReport (job : ScanJob) (started : Time) : ScanReport where
  id := job.id
  digest := job.digest
  tenant := job.tenant
  project := job.project
  repository := job.repository
  reference := job.reference
  status := .inProgress
  error := none
  startedAt := started
  completedAt := none
  summary := .default
  vulnerabilities := []
  policyEvaluation := none
  packages := []

def ScanJob.failedReport (job : ScanJob) (started now : Time) (message : String) : ScanReport :=
  { job.startReport started with
    status := .failed
    error := some message
    completedAt := some now }

/-- The result of a pipeline that found these packages and these findings. -/
def ScanJob.foundReport (job : ScanJob) (started now : Time) (packages : List Package)
    (findings : List Finding) (policy : Policy) : ScanReport :=
  { job.startReport started with
    status := .completed
    completedAt := some now
    summary := summarize (plainFindings findings)
    vulnerabilities := findings
    policyEvaluation := some (policy.evaluate (plainFindings findings))
    packages }

/-- A stored result, re-emitted under the job's identity. -/
def ScanJob.dedupedReport (job : ScanJob) (cached : ScanReport) (now : Time) : ScanReport :=
  { job.startReport now with
    status := .completed
    completedAt := some now
    summary := cached.summary
    vulnerabilities := cached.vulnerabilities
    policyEvaluation := cached.policyEvaluation
    packages := cached.packages }

/-- What `run_pipeline` gives: its result, the layer cache, and the query it made. -/
structure Pipelined where
  result : Except ScanError ScanReport
  layerSboms : Table String (List Package)
  query : Option Query

/-- `run_pipeline`. A query that fails counts as one without findings. -/
def runPipeline (worker : Worker) (faults : Faults) (job : ScanJob) (started now : Time)
    (settings : ImageSettings) (layerSboms : Table String (List Package)) : Pipelined :=
  match extractPackages worker faults job.locator layerSboms with
  | .error error => ⟨.error error, layerSboms, none⟩
  | .ok (packages, cache) =>
    let answer := worker.query packages
    let vulns := match answer with
      | .ok findings => findings
      | .error _ => []
    let result := match applySuppressions worker faults now job.locator vulns with
      | .error error => .error (.other ("suppress: " ++ error.toString))
      | .ok findings =>
        .ok (job.foundReport started now packages findings (effectivePolicy worker settings))
    ⟨result, cache, some ⟨packages, answer⟩⟩

/-- `record_status`: an upsert that keeps an earlier error. -/
def recordStatus (job : ScanJob) (status : ScanStatus) (error : Option String)
    (scans : Table Uuid ScanRow) : Table Uuid ScanRow :=
  match scans.lookup job.id with
  | none => scans.insert job.id
      ⟨job.digest, job.tenant, job.project, job.repository, job.reference, status, error, none⟩
  | some row => scans.insert job.id { row with status, error := error <|> row.error }

def updateCounts (job : ScanJob) (summary : ScanSummary) (scans : Table Uuid ScanRow) : Table Uuid ScanRow :=
  match scans.lookup job.id with
  | none => scans
  | some row => scans.insert job.id
      { row with counts := some (summary.critical, summary.high, summary.medium, summary.low) }

/-- A write to Redis whose failure the worker ignores. -/
def putReport (fails : Bool) (report : ScanReport) (results : Table String ScanReport) :
    Table String ScanReport :=
  if fails then results else results.insert report.digest report

def putStored (fails : Bool) (report : ScanReport) : List ScanReport :=
  if fails then [] else [report]

/-- What follows a completed result in both paths: the counts, the status, the notifier. -/
def complete (worker : Worker) (faults : Faults) (job : ScanJob) (report : ScanReport)
    (processed : Processed) : Processed :=
  match faults.updateCounts with
  | some reason => { processed with answer := .error (.db reason) }
  | none =>
    let counted := updateCounts job report.summary processed.stores.scans
    match faults.recordCompleted with
    | some reason =>
      { processed with
        answer := .error (.db reason)
        stores := { processed.stores with scans := counted } }
    | none =>
      { processed with
        stores :=
          { processed.stores with scans := recordStatus job .completed none counted }
        announced := if worker.notifies then [report] else [] }

/-- `persist_deduped`. -/
def persistDeduped (worker : Worker) (faults : Faults) (job : ScanJob) (now : Time)
    (cached : ScanReport) (stores : Stores) : Processed :=
  let result := job.dedupedReport cached now
  let stored := { stores with results := putReport faults.putFinal result stores.results }
  let put := putStored faults.putFinal result
  match faults.recordStart with
  | some reason => ⟨.error (.db reason), stored, put, [], none⟩
  | none =>
    complete worker faults job result
      ⟨.ok (), { stored with scans := recordStatus job .inProgress none stores.scans }, put, [],
        none⟩

/-- `try_dedup_hit`, when deduplication is on. -/
def dedupHit (worker : Worker) (faults : Faults) (job : ScanJob)
    (results : Table String ScanReport) : Option ScanReport :=
  if worker.dedupEnabled && !faults.lookup then
    (results.lookup job.digest).filter fun report => report.status = .completed
  else none

def settingsOf (worker : Worker) (faults : Faults) (job : ScanJob) : ImageSettings :=
  if faults.settings then .default
  else (worker.settings.lookup (job.tenant, job.project, job.repository)).getD .default

/-- `process` from the start of the pipeline. -/
def scan (worker : Worker) (faults : Faults) (job : ScanJob) (started now : Time)
    (settings : ImageSettings) (stores : Stores) : Processed :=
  match faults.recordStart with
  | some reason => ⟨.error (.db reason), stores, [], [], none⟩
  | none =>
    let start := job.startReport started
    let begun : Stores :=
      { stores with
        results := putReport faults.putStart start stores.results
        scans := recordStatus job .inProgress none stores.scans }
    let first := putStored faults.putStart start
    let pipelined := runPipeline worker faults job started now settings stores.layerSboms
    match pipelined.result with
    | .error error =>
      let final := job.failedReport started now error.toString
      let recorded := if faults.recordFailed then begun.scans
        else recordStatus job .failed (some error.toString) begun.scans
      ⟨.ok (), ⟨putReport faults.putFinal final begun.results, pipelined.layerSboms, recorded⟩,
        first ++ putStored faults.putFinal final, [], pipelined.query⟩
    | .ok final =>
      complete worker faults job final
        ⟨.ok (), ⟨putReport faults.putFinal final begun.results, pipelined.layerSboms, begun.scans⟩,
          first ++ putStored faults.putFinal final, [], pipelined.query⟩

def process (worker : Worker) (faults : Faults) (job : ScanJob) (started now : Time)
    (stores : Stores) : Processed :=
  let settings := settingsOf worker faults job
  if !settings.scanEnabled then ⟨.ok (), stores, [], [], none⟩
  else match dedupHit worker faults job stores.results with
    | some cached => persistDeduped worker faults job started cached stores
    | none => scan worker faults job started now settings stores

/-- What changes the stores: a call of a worker, or the expiry of an entry in Redis. -/
inductive WorkerEvent where
  | call (faults : Faults) (job : ScanJob) (started now : Time)
  | expireResult (digest : String)
  | expireLayer (digest : String)

def workerStep (worker : Worker) (stores : Stores) : WorkerEvent → Stores
  | .call faults job started now => (process worker faults job started now stores).stores
  | .expireResult digest => { stores with results := stores.results.erase digest }
  | .expireLayer digest => { stores with layerSboms := stores.layerSboms.erase digest }

/-- The result without its packages, as the store of `SpectonCr.Scanner.Worker` keeps it. -/
def ScanReport.toResult (report : ScanReport) : ScanResult where
  id := report.id
  digest := report.digest
  tenant := report.tenant
  project := report.project
  repository := report.repository
  reference := report.reference
  status := report.status
  error := report.error
  startedAt := report.startedAt
  completedAt := report.completedAt
  summary := report.summary
  vulnerabilities := plainFindings report.vulnerabilities
  policyEvaluation := report.policyEvaluation

section Simulation

/-- The reports show as the results of the store. -/
def ShownAs (results : Table String ScanReport) (store : ScanStore) : Prop :=
  ∀ digest, (results.lookup digest).map ScanReport.toResult = store.lookup digest

variable {worker : Worker} {faults : Faults} {job : ScanJob} {started now : Time}
  {settings : ImageSettings} {stores : Stores} {results : Table String ScanReport}
  {store : ScanStore}

theorem ShownAs.put (shown : ShownAs results store) (fails : Bool) (report : ScanReport) :
    ShownAs (putReport fails report results) (Scanner.put (!fails) report.toResult store) := by
  cases fails with
  | true => exact shown
  | false =>
    have after : Scanner.put (!false) report.toResult store =
        store.insert report.digest report.toResult := rfl
    intro digest
    rw [after]
    simp only [putReport, Bool.false_eq_true, ↓reduceIte]
    by_cases same : digest = report.digest
    · subst same
      rw [AList.lookup_insert, AList.lookup_insert]
      rfl
    · rw [AList.lookup_insert_ne same, AList.lookup_insert_ne same, shown digest]

@[simp] theorem complete_results (report : ScanReport) (processed : Processed) :
    (complete worker faults job report processed).stores.results = processed.stores.results := by
  unfold complete
  split
  · rfl
  · split <;> rfl

/-- The calls of a job as the steps of `SpectonCr.Scanner.Worker` see them. -/
def intakeOf (worker : Worker) (faults : Faults) (job : ScanJob) (putSucceeds : Bool) : Intake where
  scanEnabled := (settingsOf worker faults job).scanEnabled
  dedupEnabled := worker.dedupEnabled
  lookupSucceeds := !faults.lookup
  recordSucceeds := faults.recordStart.isNone
  putSucceeds := putSucceeds

private theorem ShownAs.dedupHit (shown : ShownAs results store) (putSucceeds : Bool) :
    tryDedupHit (intakeOf worker faults job putSucceeds) job store =
      (Scanner.dedupHit worker faults job results).map ScanReport.toResult := by
  unfold Scanner.dedupHit tryDedupHit
  by_cases asked : (worker.dedupEnabled && !faults.lookup) = true
  · simp only [intakeOf, asked, ↓reduceIte, ← shown job.digest]
    cases results.lookup job.digest with
    | none => rfl
    | some report =>
      by_cases done : report.status = .completed <;> simp [Option.filter, ScanReport.toResult, done]
  · simp only [intakeOf, asked, Bool.false_eq_true, ↓reduceIte]
    rfl

theorem runPipeline_result (worker : Worker) (faults : Faults) (job : ScanJob) (started now : Time)
    (settings : ImageSettings) (layerSboms : Table String (List Package)) :
    (∃ error, (runPipeline worker faults job started now settings layerSboms).result = .error error) ∨
      ∃ packages findings, (runPipeline worker faults job started now settings layerSboms).result =
          .ok (job.foundReport started now packages findings (effectivePolicy worker settings)) := by
  unfold runPipeline
  split
  · exact .inl ⟨_, rfl⟩
  rename_i packages cache _
  dsimp only
  generalize applySuppressions worker faults now job.locator _ = marked
  cases marked with
  | error error => exact .inl ⟨_, rfl⟩
  | ok findings => exact .inr ⟨packages, findings, rfl⟩

private theorem persistDeduped_results (cached : ScanReport) :
    (persistDeduped worker faults job now cached stores).stores.results =
      putReport faults.putFinal (job.dedupedReport cached now) stores.results := by
  cases recorded : faults.recordStart with
  | some reason => simp only [persistDeduped, recorded]
  | none => simp only [persistDeduped, recorded, complete_results]

/-- The two writes of a scan: the unfinished result and what the pipeline ended with. -/
private theorem scan_simulates (worker : Worker) (job : ScanJob) (started now : Time)
    (settings : ImageSettings) (shown : ShownAs stores.results store) (recorded : faults.recordStart = none) :
    ∃ outcome, ShownAs (scan worker faults job started now settings stores).stores.results
      (Scanner.put (!faults.putFinal) (job.finalResult started now outcome)
        (Scanner.put (!faults.putStart) (job.inProgress started) store)) := by
  have first := shown.put faults.putStart (job.startReport started)
  simp only [scan, recorded]
  rcases runPipeline_result worker faults job started now settings stores.layerSboms with
    ⟨error, failed⟩ | ⟨packages, findings, found⟩
  · rw [failed]
    exact ⟨.error error.toString, first.put faults.putFinal _⟩
  rw [found]
  refine ⟨.found (plainFindings findings) (effectivePolicy worker settings), ?_⟩
  simp only [complete_results]
  exact first.put faults.putFinal _

theorem mem_putStored : report ∈ putStored fails final ↔ report = final ∧ fails = false := by
  cases fails <;> simp [putStored]

theorem lookup_putReport (present : (putReport fails report results).lookup digest = some found) :
    results.lookup digest = some found ∨
      found = report ∧ found ∈ putStored fails report ∧ digest = report.digest := by
  cases fails with
  | true => exact .inl present
  | false =>
    rcases Table.lookup_insert_cases present with ⟨same, rfl⟩ | ⟨_, old⟩
    · exact .inr ⟨rfl, mem_putStored.mpr ⟨rfl, rfl⟩, same⟩
    · exact .inl old

@[simp] theorem complete_stored (report : ScanReport) (processed : Processed) :
    (complete worker faults job report processed).stored = processed.stored := by
  unfold complete
  split
  · rfl
  · split <;> rfl

/-- The result is there under the digest it names, from before or stored by the call. -/
def KeptOrStored (results : Table String ScanReport) (job : ScanJob) (stored : List ScanReport)
    (digest : String) (found : ScanReport) : Prop :=
  results.lookup digest = some found ∨ found ∈ stored ∧ found.digest = digest ∧ digest = job.digest

private theorem lookup_scan
    (present : (scan worker faults job started now settings stores).stores.results.lookup digest = some found) :
    KeptOrStored stores.results job
      (scan worker faults job started now settings stores).stored digest found := by
  cases recorded : faults.recordStart with
  | some reason =>
    simp only [scan, recorded] at present
    exact .inl present
  | none =>
    have twice : ∀ {final : ScanReport}, final.digest = job.digest →
        (putReport faults.putFinal final (putReport faults.putStart (job.startReport started)
          stores.results)).lookup digest = some found →
        KeptOrStored stores.results job (putStored faults.putStart (job.startReport started) ++
          putStored faults.putFinal final) digest found := by
      intro final named present
      rcases lookup_putReport present with earlier | ⟨rfl, last, rfl⟩
      · rcases lookup_putReport earlier with earlier | ⟨rfl, first, rfl⟩
        · exact .inl earlier
        · exact .inr ⟨List.mem_append_left _ first, rfl, rfl⟩
      · exact .inr ⟨List.mem_append_right _ last, rfl, named⟩
    rcases runPipeline_result worker faults job started now settings stores.layerSboms with
      ⟨error, failed⟩ | ⟨packages, findings, completed⟩
    · simp only [scan, recorded, failed] at present ⊢
      exact twice rfl present
    · simp only [scan, recorded, completed, complete_results, complete_stored] at present ⊢
      exact twice rfl present

theorem lookup_process
    (present : (process worker faults job started now stores).stores.results.lookup digest = some found) :
    KeptOrStored stores.results job (process worker faults job started now stores).stored digest found := by
  by_cases enabled : (settingsOf worker faults job).scanEnabled = true
  · simp only [process, enabled, Bool.not_true, Bool.false_eq_true, ↓reduceIte] at present ⊢
    cases hit : dedupHit worker faults job stores.results with
    | none =>
      simp only [hit] at present
      exact lookup_scan present
    | some cached =>
      simp only [hit, persistDeduped_results] at present
      rcases lookup_putReport present with earlier | ⟨rfl, final, rfl⟩
      · exact .inl earlier
      refine .inr ⟨?_, rfl, rfl⟩
      cases recorded : faults.recordStart with
      | some reason => simpa only [persistDeduped, recorded] using final
      | none => simpa only [persistDeduped, recorded, complete_stored] using final
  · simp only [process, enabled, Bool.not_false, ↓reduceIte] at present
    exact .inl present

/-- A call of `process` makes at most two steps of the results store. -/
private theorem process_simulates {state : ScanState} (shown : ShownAs stores.results state.store)
    (worker : Worker) (faults : Faults) (job : ScanJob) (started now : Time) :
    ∃ events, ShownAs (process worker faults job started now stores).stores.results
      (Run.after scanStep state events).store := by
  simp only [process]
  split
  · exact ⟨[], shown⟩
  rename_i enabled
  have on : (settingsOf worker faults job).scanEnabled = true := by simpa using enabled
  split
  · rename_i cached hit
    refine ⟨[.begin (intakeOf worker faults job (!faults.putFinal)) job started], ?_⟩
    rw [persistDeduped_results]
    have step : ShownAs (putReport faults.putFinal (job.dedupedReport cached started)
        stores.results) (Scanner.put (!faults.putFinal) (job.deduped cached.toResult started)
          state.store) := shown.put faults.putFinal (job.dedupedReport cached started)
    simp only [Run.after, List.foldl_cons, List.foldl_nil, scanStep, beginProcess,
      shown.dedupHit, hit, Option.map_some]
    simpa only [intakeOf, on, Bool.not_true, Bool.false_eq_true, ↓reduceIte] using step
  · rename_i miss
    cases recorded : faults.recordStart with
    | some reason =>
      refine ⟨[], ?_⟩
      simp only [scan, recorded]
      exact shown
    | none =>
      obtain ⟨outcome, ended⟩ := scan_simulates worker job started now
        (settingsOf worker faults job) shown recorded
      refine ⟨[.begin (intakeOf worker faults job (!faults.putStart)) job started,
        .finish job started now outcome (!faults.putFinal)], ?_⟩
      simp only [Run.after, List.foldl_cons, List.foldl_nil, scanStep, beginProcess,
        shown.dedupHit, miss, Option.map_none]
      simpa [intakeOf, on, recorded, finishProcess] using ended

/-- The reports that calls and expiries leave show as a store the workers can leave behind. -/
theorem runs_reachable (worker : Worker) (events : List WorkerEvent) :
    ∃ store, Reachable store ∧ ShownAs (Run.after (workerStep worker) ⟨∅, ∅, ∅⟩ events).results store := by
  refine Run.after_invariant (fun stores : Stores => ∃ store, Reachable store ∧ ShownAs stores.results store)
    ?_ ⟨∅, ⟨[], rfl⟩, fun _ => rfl⟩ (Run.along_true _ _)
  rintro stores event ⟨_, ⟨past, rfl⟩, shown⟩ _
  obtain ⟨more, after⟩ : ∃ more, ShownAs (workerStep worker stores event).results
      (Run.after scanStep (Run.after scanStep ⟨∅, []⟩ past) more).store := by
    cases event with
    | call faults job started now => exact process_simulates shown worker faults job started now
    | expireLayer digest => exact ⟨[], shown⟩
    | expireResult digest =>
      refine ⟨[.expire digest], fun other => ?_⟩
      by_cases same : other = digest
      · subst same
        simp [workerStep, Run.after, scanStep]
      · simpa [workerStep, Run.after, scanStep, AList.lookup_erase_ne same] using shown other
  exact ⟨_, ⟨past ++ more, by rw [Run.after, List.foldl_append]; rfl⟩, after⟩

end Simulation

end SpectonCr.Scanner
