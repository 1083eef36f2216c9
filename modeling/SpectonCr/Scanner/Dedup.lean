import SpectonCr.Scanner.RealScan

namespace SpectonCr.Scanner

open Storage

/-- The parts of a result that depend on the repository as well as on the image. -/
def SameVerdict (first second : ScanReport) : Prop :=
  first.vulnerabilities = second.vulnerabilities ∧ first.summary = second.summary ∧
    first.policyEvaluation = second.policyEvaluation

/-- When the call finds a stored result, it stores and announces what the pipeline would give for
this job in the same state. -/
def Invisible (worker : Worker) (stores : Stores) : WorkerEvent → Prop
  | .call faults job started now =>
    (settingsOf worker faults job).scanEnabled = true →
    (dedupHit worker faults job stores.results).isSome = true →
      ∃ fresh, (runPipeline worker faults job started started (settingsOf worker faults job)
          stores.layerSboms).result = .ok fresh ∧
        ∀ report ∈ (process worker faults job started now stores).stored ++
            (process worker faults job started now stores).announced, SameVerdict report fresh
  | _ => True

/-- The settings of a repository when they can be read. -/
def repositorySettings (worker : Worker) (tenant project repository : String) : ImageSettings :=
  (worker.settings.lookup (tenant, project, repository)).getD .default

def repositoryPolicy (worker : Worker) (tenant project repository : String) : Policy :=
  effectivePolicy worker (repositorySettings worker tenant project repository)

/-- Whether a finding is suppressed in a repository. -/
def marked (worker : Worker) (time : Time) (tenant project repository : String) (finding : Finding) : Bool :=
  worker.suppressions.any (Suppression.hits time tenant project repository finding)

/-- The packages of the job's image are those of the stored result. -/
def SameImage (worker : Worker) (faults : Faults) (job : ScanJob)
    (layerSboms : Table String (List Package)) (cached : ScanReport) : Prop :=
  (extractPackages worker faults job.locator layerSboms).toOption.map Prod.fst = some cached.packages

/-- The findings that are suppressed for the job are those that were for the stored result. -/
def SameSuppressions (worker : Worker) (job : ScanJob) (started : Time) (cached : ScanReport) : Prop :=
  ∀ finding ∈ cached.vulnerabilities, cached.completedAt.map (fun time =>
        marked worker time cached.tenant cached.project cached.repository finding) =
      some (marked worker started job.tenant job.project job.repository finding)

def SamePolicy (worker : Worker) (job : ScanJob) (cached : ScanReport) : Prop :=
  repositoryPolicy worker job.tenant job.project job.repository =
    repositoryPolicy worker cached.tenant cached.project cached.repository

/-- The condition on a call and the stores before it. -/
def Alike (worker : Worker) (stores : Stores) : WorkerEvent → Prop
  | .call faults job started _ =>
    faults.settings = false ∧ ∀ cached ∈ dedupHit worker faults job stores.results,
        faults.suppress = none ∧ SameImage worker faults job stores.layerSboms cached ∧
          SameSuppressions worker job started cached ∧ SamePolicy worker job cached
  | _ => True

instance SameImage.decide (worker : Worker) (faults : Faults) (job : ScanJob)
    (layerSboms : Table String (List Package)) (cached : ScanReport) :
    Decidable (SameImage worker faults job layerSboms cached) :=
  inferInstanceAs (Decidable (_ = _))

instance SameSuppressions.decide (worker : Worker) (job : ScanJob) (started : Time)
    (cached : ScanReport) : Decidable (SameSuppressions worker job started cached) :=
  inferInstanceAs (Decidable (∀ _ ∈ _, _))

instance SamePolicy.decide (worker : Worker) (job : ScanJob) (cached : ScanReport) :
    Decidable (SamePolicy worker job cached) :=
  inferInstanceAs (Decidable (_ = _))

instance Alike.decide (worker : Worker) (stores : Stores) : ∀ event, Decidable (Alike worker stores event)
  | .call _ _ _ _ => inferInstanceAs (Decidable (_ ∧ ∀ _ ∈ _, _))
  | .expireResult _ => .isTrue trivial
  | .expireLayer _ => .isTrue trivial

/-- The findings of the pipeline before suppression. -/
def foundIn (worker : Worker) (packages : List Package) : List Finding :=
  match worker.query packages with
  | .ok findings => findings
  | .error _ => []

/-- A completed result is what the pipeline gives for the repository it names. -/
structure Faithful (worker : Worker) (report : ScanReport) : Prop where
  vulnerabilities : ∃ time, report.completedAt = some time ∧
    report.vulnerabilities = (foundIn worker report.packages).map
      (suppress worker.suppressions time report.tenant report.project report.repository)
  summary : report.summary = summarize (plainFindings report.vulnerabilities)
  policyEvaluation : report.policyEvaluation =
    some ((repositoryPolicy worker report.tenant report.project report.repository).evaluate
      (plainFindings report.vulnerabilities))

def AllFaithful (worker : Worker) (stores : Stores) : Prop :=
  ∀ digest report, stores.results.lookup digest = some report → report.status = .completed →
    Faithful worker report

section Calls

variable {worker : Worker} {faults : Faults} {job : ScanJob} {started now : Time}
  {settings : ImageSettings} {stores : Stores} {cached report : ScanReport}

theorem settingsOf_read (read : faults.settings = false) :
    settingsOf worker faults job = repositorySettings worker job.tenant job.project job.repository := by
  simp [settingsOf, repositorySettings, read]

@[simp] theorem marked_suppress (rows : List Suppression) (time other : Time)
    (tenant project repository tenant' project' repository' : String) (finding : Finding) :
    marked worker time tenant project repository (suppress rows other tenant' project' repository' finding) =
      marked worker time tenant project repository finding := by
  unfold suppress
  split <;> rfl

theorem runPipeline_found
    (extracted : extractPackages worker faults job.locator stores.layerSboms = .ok (packages, cache))
    (ready : faults.suppress = none) :
    (runPipeline worker faults job started now settings stores.layerSboms).result =
      .ok (job.foundReport started now packages ((foundIn worker packages).map
          (suppress worker.suppressions now job.tenant job.project job.repository))
        (effectivePolicy worker settings)) := by
  simp only [runPipeline, extracted, applySuppressions, ready, foundIn]
  rfl

/-- Findings of one image, suppressed for the stored result's repository, are suppressed alike
for the job's. -/
theorem SameSuppressions.map_eq (same : SameSuppressions worker job started cached)
    (completed : cached.completedAt = some time)
    (stored : cached.vulnerabilities = (foundIn worker cached.packages).map (suppress
      worker.suppressions time cached.tenant cached.project cached.repository)) :
    cached.vulnerabilities = (foundIn worker cached.packages).map
      (suppress worker.suppressions started job.tenant job.project job.repository) := by
  rw [stored]
  apply List.map_congr_left
  intro finding found
  have member : suppress worker.suppressions time cached.tenant cached.project cached.repository
      finding ∈ cached.vulnerabilities := by
    rw [stored]
    exact List.mem_map_of_mem found
  have agree := same _ member
  rw [completed, Option.map_some, Option.some.injEq, marked_suppress, marked_suppress] at agree
  unfold marked at agree
  simp only [suppress, agree]

theorem Faithful.reused (faithful : Faithful worker cached)
    (suppressions : SameSuppressions worker job started cached) (policy : SamePolicy worker job cached) :
    Faithful worker (job.dedupedReport cached started) := by
  obtain ⟨time, completed, stored⟩ := faithful.vulnerabilities
  refine ⟨⟨started, rfl, suppressions.map_eq completed stored⟩, faithful.summary, ?_⟩
  have evaluated := faithful.policyEvaluation
  rw [← policy] at evaluated
  exact evaluated

theorem invisible_of_alike (faithful : AllFaithful worker stores)
    (alike : Alike worker stores (.call faults job started now)) :
    Invisible worker stores (.call faults job started now) := by
  obtain ⟨read, hits⟩ := alike
  intro enabled some
  obtain ⟨cached, hit⟩ := Option.isSome_iff_exists.mp some
  obtain ⟨ready, image, suppressions, policy⟩ := hits cached hit
  obtain ⟨present, done⟩ := dedupHit_some hit
  have reused := (faithful job.digest cached present done).reused suppressions policy
  unfold SameImage at image
  cases extracted : extractPackages worker faults job.locator stores.layerSboms with
  | error error =>
    rw [extracted] at image
    cases image
  | ok extraction =>
    obtain ⟨packages, cache⟩ := extraction
    rw [extracted] at image
    obtain rfl : packages = cached.packages := Option.some.inj image
    refine ⟨_, runPipeline_found extracted ready, ?_⟩
    intro report emitted
    simp only [process, enabled, Bool.not_true, Bool.false_eq_true, ↓reduceIte, hit] at emitted
    obtain ⟨rfl, _⟩ := mem_emitted_persistDeduped.mp emitted
    obtain ⟨time, completed, stored⟩ := reused.vulnerabilities
    obtain rfl : started = time := Option.some.inj completed
    have summary := reused.summary
    have evaluated := reused.policyEvaluation
    rw [stored] at summary evaluated
    refine ⟨stored, summary, ?_⟩
    rw [settingsOf_read read]
    exact evaluated

/-- What a pipeline with the repository's settings stores is faithful. -/
theorem runPipeline_faithful (read : faults.settings = false)
    (completed : (runPipeline worker faults job started now (settingsOf worker faults job)
      stores.layerSboms).result = .ok report) : Faithful worker report := by
  rw [settingsOf_read read] at completed
  unfold runPipeline at completed
  split at completed
  · cases completed
  rename_i packages cache extracted
  dsimp only at completed
  split at completed
  · cases completed
  rename_i findings applied
  cases completed
  have marked := applySuppressions_ok applied
  exact ⟨⟨now, rfl, marked⟩, rfl, rfl⟩

end Calls

theorem allFaithful_step (faithful : AllFaithful worker stores) (alike : Alike worker stores event) :
    AllFaithful worker (workerStep worker stores event) := by
  intro digest report present done
  cases event with
  | expireResult gone => exact faithful digest report (Table.lookup_erase_cases present).2 done
  | expireLayer layer => exact faithful digest report present done
  | call faults job started now =>
    rcases lookup_process present with before | ⟨stored, _, _⟩
    · exact faithful digest report before done
    have emitted := List.mem_append_left (process worker faults job started now stores).announced stored
    by_cases enabled : (settingsOf worker faults job).scanEnabled = true
    · simp only [process, enabled, Bool.not_true, Bool.false_eq_true, ↓reduceIte] at emitted
      obtain ⟨read, hits⟩ := alike
      cases hit : dedupHit worker faults job stores.results with
      | some cached =>
        simp only [hit] at emitted
        obtain ⟨rfl, _⟩ := mem_emitted_persistDeduped.mp emitted
        obtain ⟨_, _, suppressions, policy⟩ := hits cached hit
        obtain ⟨present, completed⟩ := dedupHit_some hit
        exact (faithful job.digest cached present completed).reused suppressions policy
      | none =>
        simp only [hit] at emitted
        cases recorded : faults.recordStart with
        | some reason =>
          simp only [scan, recorded, List.append_nil] at emitted
          cases emitted
        | none => exact runPipeline_faithful read ((mem_emitted_scan recorded).mp ⟨emitted, done⟩).1
    · simp only [process, enabled, Bool.not_false, ↓reduceIte] at stored
      cases stored

/-- A database with one critical finding for every package. -/
def criticalForAll (packages : List Package) : Except String (List Finding) :=
  .ok (packages.map fun package =>
    { id := "CVE-2026-0001", severity := .critical, suppressed := false, package := package.name,
      ecosystem := package.ecosystem, installedVersion := package.version })

/-- Two tenants with the same image, and a suppression of the finding. -/
def twoTenants (scopeTenant : Option String) : Worker :=
  sampleWorker ["acme", "globex"] [("sha256:l1", dpkgStatus "3.0.1")] criticalForAll
    [⟨"CVE-2026-0001", scopeTenant, none, none, none, none, none⟩]

def scanFor (tenant : String) (time : Time) : WorkerEvent :=
  .call .none (sampleJob .nil tenant) time (time + 1)

/-- What is compared of a result: the suppressed flags, the critical count and the policy. -/
def verdictOf (report : ScanReport) : List Bool × Nat × Option PolicyStatus :=
  (report.vulnerabilities.map fun finding => finding.suppressed, report.summary.critical,
    report.policyEvaluation.map PolicyEvaluation.status)

theorem SameVerdict.verdictOf_eq (same : SameVerdict first second) : verdictOf first = verdictOf second := by
  obtain ⟨vulnerabilities, summary, policyEvaluation⟩ := same
  simp only [verdictOf, vulnerabilities, summary, policyEvaluation]

/-- The stores after the scan for the tenant that suppresses the finding. -/
def scannedByAcme : Stores := workerStep (twoTenants (some "acme")) noStores (scanFor "acme" 1)

end SpectonCr.Scanner
