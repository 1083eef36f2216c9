import SpectonCr.Scanner.Pipeline

namespace SpectonCr.Scanner

open Storage

def Finding.unflagged (finding : Finding) : Finding := { finding with suppressed := false }

/-- The same findings up to the suppressed flag. -/
def SameFindings (first second : List Finding) : Prop :=
  first.map Finding.unflagged = second.map Finding.unflagged

/-- A query of an earlier call that succeeded, with the image it was made for. -/
structure Answered where
  digest : String
  packages : List Package
  findings : List Finding

def Answered.Backs (earlier : Answered) (digest : String) (packages : List Package)
    (findings : List Finding) : Prop :=
  earlier.digest = digest ∧ earlier.packages = packages ∧ SameFindings findings earlier.findings

/-- The result comes from the successful query of its own call; or its call made none, and it comes
from one that succeeded for the same image before. -/
def Real (history : List Answered) (query : Option Query) (report : ScanReport) : Prop :=
  match query with
  | some made => made.packages = report.packages ∧
      ∃ findings, made.answer = .ok findings ∧ SameFindings report.vulnerabilities findings
  | none => ∃ earlier ∈ history, earlier.Backs report.digest report.packages report.vulnerabilities

/-- Every completed result that the call stores or announces is real. -/
def CompletedIsReal (history : List Answered) (call : Processed) : Prop :=
  ∀ report ∈ call.stored ++ call.announced, report.status = .completed → Real history call.query report

/-- The notifier is told of a completed result. -/
def Announces (worker : Worker) (faults : Faults) : Prop :=
  worker.notifies = true ∧ faults.updateCounts = none ∧ faults.recordCompleted = none

/-- The condition on a call: a re-emitted result is backed by an earlier query, and the query of a
pipeline whose result gets out does not fail. -/
def Grounded (history : List Answered) (worker : Worker) (faults : Faults) (job : ScanJob)
    (stores : Stores) : Prop :=
  (settingsOf worker faults job).scanEnabled = true →
  match dedupHit worker faults job stores.results with
  | some cached =>
    faults.putFinal = false ∨ (faults.recordStart = none ∧ Announces worker faults) →
      ∃ earlier ∈ history, earlier.Backs job.digest cached.packages cached.vulnerabilities
  | none =>
    faults.recordStart = none → (faults.putFinal = false ∨ Announces worker faults) → ∀ packages cache,
        extractPackages worker faults job.locator stores.layerSboms = .ok (packages, cache) →
        ∃ findings, worker.query packages = .ok findings

section Emitted

variable {history : List Answered} {worker : Worker} {faults : Faults} {job : ScanJob}
  {started now : Time} {settings : ImageSettings} {stores : Stores} {report final : ScanReport}
  {processed : Processed}

@[simp] theorem unflagged_suppress (rows : List Suppression) (tenant project repository : String)
    (finding : Finding) :
    (suppress rows now tenant project repository finding).unflagged = finding.unflagged := by
  unfold suppress
  split <;> rfl

theorem applySuppressions_ok (applied : applySuppressions worker faults now loc findings = .ok marked) :
    marked = findings.map (suppress worker.suppressions now loc.tenant loc.project loc.repository) := by
  simp only [applySuppressions] at applied
  split at applied
  · exact (Except.ok.inj applied).symm
  · split at applied
    · cases applied
    · exact (Except.ok.inj applied).symm

theorem sameFindings_suppressed (applied : applySuppressions worker faults now loc findings = .ok marked) :
    SameFindings marked findings := by
  rw [applySuppressions_ok applied, SameFindings, List.map_map]
  exact List.map_congr_left fun finding _ => unflagged_suppress _ _ _ _ finding

@[simp] theorem complete_query : (complete worker faults job final processed).query = processed.query := by
  unfold complete
  split
  · rfl
  · split <;> rfl

theorem mem_complete_announced (silent : processed.announced = []) :
    report ∈ (complete worker faults job final processed).announced ↔
      report = final ∧ Announces worker faults := by
  unfold complete Announces
  cases faults.updateCounts with
  | some reason => simp [silent]
  | none =>
    cases faults.recordCompleted with
    | some reason => simp [silent]
    | none => by_cases told : worker.notifies <;> simp [told]

theorem dedupHit_some (hit : dedupHit worker faults job stores.results = some cached) :
    stores.results.lookup job.digest = some cached ∧ cached.status = .completed := by
  unfold dedupHit at hit
  split at hit
  · obtain ⟨present, done⟩ := Option.filter_eq_some_iff.mp hit
    exact ⟨present, by simpa using done⟩
  · cases hit

theorem mem_emitted_persistDeduped : report ∈ (persistDeduped worker faults job now cached stores).stored ++
        (persistDeduped worker faults job now cached stores).announced ↔
      report = job.dedupedReport cached now ∧
        (faults.putFinal = false ∨ (faults.recordStart = none ∧ Announces worker faults)) := by
  cases recorded : faults.recordStart with
  | some reason =>
    simp only [persistDeduped, recorded, List.append_nil, mem_putStored]
    simp
  | none =>
    simp only [persistDeduped, recorded, complete_stored, List.mem_append, mem_putStored]
    rw [mem_complete_announced rfl]
    simp only [true_and]
    exact and_or_left.symm

theorem persistDeduped_query : (persistDeduped worker faults job now cached stores).query = none := by
  cases recorded : faults.recordStart with
  | some reason => simp only [persistDeduped, recorded]
  | none => simp only [persistDeduped, recorded, complete_query]

theorem mem_emitted_scan (recorded : faults.recordStart = none) :
    (report ∈ (scan worker faults job started now settings stores).stored ++
        (scan worker faults job started now settings stores).announced ∧
      report.status = .completed) ↔
    (runPipeline worker faults job started now settings stores.layerSboms).result = .ok report ∧
      (faults.putFinal = false ∨ Announces worker faults) := by
  have unfinished : (job.startReport started).status ≠ .completed := by
    intro done
    cases done
  rcases runPipeline_result worker faults job started now settings stores.layerSboms with
    ⟨error, failed⟩ | ⟨packages, findings, found⟩
  · simp only [scan, recorded, failed, List.append_nil, List.mem_append, mem_putStored]
    constructor
    · rintro ⟨⟨rfl, _⟩ | ⟨rfl, _⟩, done⟩
      · exact absurd done unfinished
      · cases done
    · rintro ⟨impossible, _⟩
      cases impossible
  · simp only [scan, recorded, found, complete_stored, List.mem_append, mem_putStored]
    rw [mem_complete_announced rfl]
    constructor
    · rintro ⟨(⟨rfl, _⟩ | ⟨rfl, stored⟩) | ⟨rfl, told⟩, done⟩
      · exact absurd done unfinished
      · exact ⟨rfl, .inl stored⟩
      · exact ⟨rfl, .inr told⟩
    · rintro ⟨same, out⟩
      cases same
      refine ⟨?_, rfl⟩
      rcases out with stored | told
      · exact .inl (.inr ⟨rfl, stored⟩)
      · exact .inr ⟨rfl, told⟩

theorem scan_query (recorded : faults.recordStart = none) :
    (scan worker faults job started now settings stores).query =
      (runPipeline worker faults job started now settings stores.layerSboms).query := by
  rcases runPipeline_result worker faults job started now settings stores.layerSboms with
    ⟨error, failed⟩ | ⟨packages, findings, found⟩
  · simp only [scan, recorded, failed]
  · simp only [scan, recorded, found, complete_query]

end Emitted

/-- The pipeline completes with the findings of its query, and without findings when the query
fails. -/
theorem runPipeline_completes {worker : Worker} {faults : Faults} {job : ScanJob}
    {started now : Time} {settings : ImageSettings} {layerSboms : Table String (List Package)}
    {packages : List Package} {cache : Table String (List Package)}
    (extracted : extractPackages worker faults job.locator layerSboms = .ok (packages, cache)) :
    (runPipeline worker faults job started now settings layerSboms).query =
        some ⟨packages, worker.query packages⟩ ∧
      (∀ findings, worker.query packages = .ok findings → ∀ report,
        (runPipeline worker faults job started now settings layerSboms).result = .ok report →
          report.packages = packages ∧ SameFindings report.vulnerabilities findings) ∧
      ∀ reason, worker.query packages = .error reason →
        (runPipeline worker faults job started now settings layerSboms).result =
          .ok (job.foundReport started now packages [] (effectivePolicy worker settings)) := by
  simp only [runPipeline, extracted, true_and]
  refine ⟨?_, ?_⟩
  · intro findings answered report done
    simp only [answered] at done
    cases applied : applySuppressions worker faults now job.locator findings <;> rw [applied] at done <;>
      cases done
    exact ⟨rfl, sameFindings_suppressed applied⟩
  · intro reason failed
    have nothing : applySuppressions worker faults now job.locator [] = .ok [] := by
      simp only [applySuppressions, List.map_nil, List.length_nil, Nat.not_lt_zero, ↓reduceIte]
      split <;> rfl
    simp only [failed, nothing]

section Calls

variable {history : List Answered} {worker : Worker} {faults : Faults} {job : ScanJob}
  {started now : Time} {stores : Stores}

theorem completedIsReal_of_grounded (grounded : Grounded history worker faults job stores) :
    CompletedIsReal history (process worker faults job started now stores) := by
  intro report emitted done
  unfold Grounded at grounded
  by_cases enabled : (settingsOf worker faults job).scanEnabled = true
  · simp only [process, enabled, Bool.not_true, Bool.false_eq_true, ↓reduceIte] at emitted ⊢
    replace grounded := grounded enabled
    cases hit : dedupHit worker faults job stores.results with
    | some cached =>
      simp only [hit] at grounded emitted
      rw [mem_emitted_persistDeduped] at emitted
      obtain ⟨rfl, out⟩ := emitted
      simp only [persistDeduped_query]
      exact grounded out
    | none =>
      simp only [hit] at grounded emitted
      cases recorded : faults.recordStart with
      | some reason =>
        simp only [scan, recorded, List.append_nil] at emitted
        cases emitted
      | none =>
        obtain ⟨ended, out⟩ := (mem_emitted_scan recorded).mp ⟨emitted, done⟩
        simp only [scan_query recorded]
        cases extracted : extractPackages worker faults job.locator stores.layerSboms with
        | error error =>
          simp only [runPipeline, extracted] at ended
          cases ended
        | ok extraction =>
          obtain ⟨packages, cache⟩ := extraction
          obtain ⟨findings, answered⟩ := grounded recorded out packages cache extracted
          obtain ⟨made, holds, _⟩ := @runPipeline_completes worker faults job started now
            (settingsOf worker faults job) _ _ _ extracted
          obtain ⟨same, found⟩ := holds findings answered report ended
          rw [made]
          exact ⟨same.symm, findings, answered, found⟩
  · simp only [process, enabled, Bool.not_false, ↓reduceIte, List.append_nil] at emitted
    cases emitted

theorem grounded_of_completedIsReal
    (real : CompletedIsReal history (process worker faults job started now stores)) :
    Grounded history worker faults job stores := by
  intro enabled
  simp only [CompletedIsReal, process, enabled, Bool.not_true, Bool.false_eq_true, ↓reduceIte] at real
  cases hit : dedupHit worker faults job stores.results with
  | some cached =>
    simp only [hit, mem_emitted_persistDeduped, persistDeduped_query] at real
    intro out
    exact real _ ⟨rfl, out⟩ rfl
  | none =>
    simp only [hit] at real
    intro recorded out packages cache extracted
    obtain ⟨made, _, completes⟩ := @runPipeline_completes worker faults job started now
      (settingsOf worker faults job) _ _ _ extracted
    cases answered : worker.query packages with
    | ok findings => exact ⟨findings, rfl⟩
    | error reason =>
      have emitted := (mem_emitted_scan recorded).mpr ⟨completes reason answered, out⟩
      have shown := real _ emitted.1 emitted.2
      rw [scan_query recorded, made] at shown
      obtain ⟨_, findings, impossible, _⟩ := shown
      rw [answered] at impossible
      cases impossible

end Calls

/-- A call stores and announces real results only, exactly when what it re-emits is backed and
its query does not fail. -/
theorem completed_is_real_iff (history : List Answered) (worker : Worker) (faults : Faults)
    (job : ScanJob) (started now : Time) (stores : Stores) :
    CompletedIsReal history (process worker faults job started now stores) ↔
      Grounded history worker faults job stores :=
  ⟨grounded_of_completedIsReal, completedIsReal_of_grounded⟩

/-- An image of one layer for each digest, each with one file at the path. -/
def sampleLib (path : String) (layers : List String) : ImageLib where
  parseManifest := fun _ =>
    .ok ⟨none, [], layers.map fun digest => ⟨digest, "application/vnd.oci.image.layer.v1.tar"⟩⟩
  notFound := fun _ => "not found"
  zstdAccepts := fun _ => true
  untar := fun _ data => .ok [some ⟨true, some path, some data⟩]

def noParsers : Parsers :=
  ⟨fun _ => [], fun _ => [], fun _ => [], fun _ => [], fun _ => [], fun _ => [], fun _ => []⟩

/-- The status file of `dpkg` with one package. -/
def dpkgStatus (version : String) : Bytes :=
  ("Package: openssl\nStatus: install ok installed\nVersion: " ++ version ++ "\n").toUTF8

/-- A worker for one image in the repository `team/app` of each tenant. -/
def sampleWorker (tenants : List String) (layers : List (String × Bytes))
    (query : List Package → Except String (List Finding)) (suppressions : List Suppression) :
    Worker where
  lib := sampleLib "var/lib/dpkg/status" (layers.map Prod.fst)
  parsers := noParsers
  objects := tenants.foldl (fun objects tenant =>
    layers.foldl (fun objects layer =>
      objects.insert (.ofString (blobPath tenant "team" "app" layer.1)) layer.2)
      (objects.insert (.ofString (manifestPath tenant "team" "app" "sha256:m")) "manifest".toUTF8))
    ∅
  query
  suppressions
  settings := ∅
  parsePolicy := fun _ => .error "not yaml"
  defaultPolicy := ⟨{ BlockRules.default with critical := some "> 0" }⟩
  dedupEnabled := true
  notifies := true

def sampleJob (id : Uuid) (tenant : String) : ScanJob := ⟨id, "sha256:m", tenant, "team", "app", "latest", 0⟩

def noStores : Stores := ⟨∅, ∅, ∅⟩

def unansweredCall : Processed :=
  process (sampleWorker ["acme"] [("sha256:l1", dpkgStatus "3.0.1")]
    (fun _ => .error "connection refused") []) .none (sampleJob .nil "acme") 1 2 noStores

/-- A database that does not answer leaves a completed result without findings, and the notifier
is told of it. -/
theorem completed_without_an_answer :
    (∃ report ∈ unansweredCall.announced, unansweredCall.stores.results.lookup "sha256:m" = some report ∧
        report.status = .completed ∧ report.vulnerabilities = [] ∧
        report.packages.map (fun package => (package.name, package.version)) = [("openssl", "3.0.1")]) ∧
      ¬CompletedIsReal [] unansweredCall := by
  have seen : unansweredCall.announced.map
        (fun report => (report.status, report.vulnerabilities, report.packages.map
          fun package => (package.name, package.version))) =
        [(.completed, [], [("openssl", "3.0.1")])] ∧
      unansweredCall.stores.results.lookup "sha256:m" = unansweredCall.announced.head? ∧
      unansweredCall.query.isSome = true ∧
      unansweredCall.query.bind (fun made => made.answer.toOption) = none := by
    decide +kernel
  obtain ⟨announced, stored, asked, unanswered⟩ := seen
  obtain ⟨report, only, shown⟩ := List.map_eq_singleton_iff.mp announced
  rw [only, List.head?_cons] at stored
  simp only [Prod.mk.injEq] at shown
  obtain ⟨done, nothing, found⟩ := shown
  have told : report ∈ unansweredCall.announced := by simp [only]
  refine ⟨⟨report, told, stored, done, nothing, found⟩, ?_⟩
  intro real
  obtain ⟨made, made_eq⟩ := Option.isSome_iff_exists.mp asked
  have shown := real report (List.mem_append_right _ told) done
  rw [made_eq] at shown unanswered
  obtain ⟨_, findings, answered, _⟩ := shown
  simp [answered, Except.toOption] at unanswered

section Runs

variable {worker : Worker}

/-- The stores, and the queries that succeeded so far. -/
structure Past where
  stores : Stores
  answered : List Answered

def Query.answered (digest : String) (query : Query) : List Answered :=
  match query.answer with
  | .ok findings => [⟨digest, query.packages, findings⟩]
  | .error _ => []

def WorkerEvent.answered (worker : Worker) (stores : Stores) : WorkerEvent → List Answered
  | .call faults job started now =>
    (process worker faults job started now stores).query.toList.flatMap (Query.answered job.digest)
  | _ => []

def Past.step (worker : Worker) (past : Past) (event : WorkerEvent) : Past :=
  ⟨workerStep worker past.stores event, past.answered ++ event.answered worker past.stores⟩

/-- Every completed result in the store comes from a query that succeeded. -/
def Past.Backed (past : Past) : Prop :=
  ∀ digest report, past.stores.results.lookup digest = some report → report.status = .completed →
    ∃ earlier ∈ past.answered, earlier.Backs digest report.packages report.vulnerabilities

/-- The database answers the query that a pipeline for this job makes. -/
def Answers (worker : Worker) (past : Past) : WorkerEvent → Prop
  | .call faults job _ _ =>
    ∀ packages cache, extractPackages worker faults job.locator past.stores.layerSboms =
      .ok (packages, cache) → ∃ findings, worker.query packages = .ok findings
  | _ => True

/-- The completed results of the step are real. -/
def RealStep (worker : Worker) (past : Past) : WorkerEvent → Prop
  | .call faults job started now =>
    CompletedIsReal past.answered (process worker faults job started now past.stores)
  | _ => True

private theorem grounded_of_backed {past : Past} {faults : Faults} {job : ScanJob} (backed : past.Backed)
    (answers : ∀ packages cache, extractPackages worker faults job.locator
      past.stores.layerSboms = .ok (packages, cache) → ∃ findings,
        worker.query packages = .ok findings) : Grounded past.answered worker faults job past.stores := by
  intro _
  cases hit : dedupHit worker faults job past.stores.results with
  | none =>
    intro _ _
    exact answers
  | some cached =>
    intro _
    obtain ⟨present, done⟩ := dedupHit_some hit
    exact backed job.digest cached present done

private theorem backed_step (backed : past.Backed) (real : RealStep worker past event) :
    (past.step worker event).Backed := by
  intro digest report present done
  have kept : past.stores.results.lookup digest = some report → ∃ earlier ∈ (past.step worker event).answered,
        earlier.Backs digest report.packages report.vulnerabilities := by
    intro before
    obtain ⟨earlier, member, backs⟩ := backed digest report before done
    exact ⟨earlier, List.mem_append_left _ member, backs⟩
  cases event with
  | expireResult gone => exact kept (Table.lookup_erase_cases present).2
  | expireLayer layer => exact kept present
  | call faults job started now =>
    rcases lookup_process present with before | ⟨stored, rfl, named⟩
    · exact kept before
    have shown := real report (List.mem_append_left _ stored) done
    unfold Real at shown
    split at shown
    · rename_i made asked
      obtain ⟨same, findings, answered, found⟩ := shown
      refine ⟨⟨job.digest, made.packages, findings⟩, List.mem_append_right _ ?_, named.symm, same, found⟩
      simp only [WorkerEvent.answered, asked, Option.toList_some, List.flatMap_cons,
        List.flatMap_nil, List.append_nil, Query.answered, answered, List.mem_singleton]
    · obtain ⟨earlier, member, backs⟩ := shown
      exact ⟨earlier, List.mem_append_left _ member, backs⟩

/-- While the database answers every query, whatever else fails, every completed result that a
run stores or announces comes from an answer for its image. -/
theorem answered_runs_are_real (backed : past.Backed)
    (answers : Run.Along (Past.step worker) (Answers worker) past events) :
    Run.Along (Past.step worker) (RealStep worker) past events := by
  have safe : ∀ past event, past.Backed → Answers worker past event → RealStep worker past event := by
    intro past event backed answers
    cases event with
    | call faults job started now =>
      exact completedIsReal_of_grounded (grounded_of_backed backed answers)
    | expireResult digest | expireLayer digest => trivial
  refine Run.along_of_invariant ?_ safe backed answers
  intro past event backed answers
  exact backed_step backed (safe past event backed answers)

end Runs

theorem answered_call_is_real :
    let worker := sampleWorker ["acme"] [("sha256:l1", dpkgStatus "3.0.1")] (fun _ => .ok []) []
    Run.Along (Past.step worker) (RealStep worker) ⟨noStores, []⟩ [.call .none (sampleJob .nil "acme") 1 2] :=
  answered_runs_are_real (fun _ _ found => by cases found) ⟨fun _ _ _ => ⟨[], rfl⟩, trivial⟩

end SpectonCr.Scanner
