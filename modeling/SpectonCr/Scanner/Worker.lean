import SpectonCr.Base.Run
import SpectonCr.Base.Table
import SpectonCr.Common.Model
import SpectonCr.Scanner.Policy

namespace SpectonCr.Scanner

structure ScanJob where
  id : Uuid
  (digest tenant project repository reference : String)
  enqueuedAt : Time
  deriving DecidableEq

inductive ScanStatus where
  | queued
  | inProgress
  | completed
  | failed
  deriving DecidableEq

structure ScanResult where
  id : Uuid
  (digest tenant project repository reference : String)
  status : ScanStatus
  error : Option String
  startedAt : Time
  completedAt : Option Time
  summary : ScanSummary
  vulnerabilities : List Vulnerability
  policyEvaluation : Option PolicyEvaluation
  deriving DecidableEq

/-- The result written before the pipeline runs. -/
def ScanJob.inProgress (job : ScanJob) (started : Time) : ScanResult where
  id := job.id
  digest := job.digest
  tenant := job.tenant
  project := job.project
  repository := job.repository
  reference := job.reference
  status := .inProgress
  error := none
  startedAt := started
  completedAt := none
  summary := .default
  vulnerabilities := []
  policyEvaluation := none

/-- What the pipeline ends with: the findings after suppression and the policy
they are held against, or an error. -/
inductive Outcome where
  | found (vulnerabilities : List Vulnerability) (policy : Policy)
  | error (message : String)

def ScanJob.finalResult (job : ScanJob) (started now : Time) : Outcome → ScanResult
  | .found vulnerabilities policy =>
    { job.inProgress started with
      status := .completed
      completedAt := some now
      summary := summarize vulnerabilities
      vulnerabilities
      policyEvaluation := some (policy.evaluate vulnerabilities) }
  | .error message =>
    { job.inProgress started with
      status := .failed
      error := some message
      completedAt := some now }

/-- A completed result, re-emitted under another job's identity. -/
def ScanJob.deduped (job : ScanJob) (cached : ScanResult) (now : Time) : ScanResult :=
  { job.inProgress now with
    status := .completed
    completedAt := some now
    summary := cached.summary
    vulnerabilities := cached.vulnerabilities
    policyEvaluation := cached.policyEvaluation }

/-- `EphemeralStore`, by digest. -/
abbrev ScanStore := Table String ScanResult

/-- A write whose failure the worker ignores. -/
def put (succeeds : Bool) (result : ScanResult) (store : ScanStore) : ScanStore :=
  if succeeds then store.insert result.digest result else store

/-- The results store, and the jobs whose pipeline is running since an instant. -/
structure ScanState where
  store : ScanStore
  inFlight : List (ScanJob × Time)

/-- What a worker meets when it takes a job: the repository's setting, whether
deduplication is on, and which calls to the stores succeed. -/
structure Intake where
  (scanEnabled dedupEnabled lookupSucceeds recordSucceeds putSucceeds : Bool)

/-- `try_dedup_hit`. -/
def tryDedupHit (intake : Intake) (job : ScanJob) (store : ScanStore) : Option ScanResult :=
  if intake.dedupEnabled && intake.lookupSucceeds then
    (store.lookup job.digest).filter fun result => result.status = .completed
  else none

/-- `process`, up to the start of the pipeline. -/
def beginProcess (intake : Intake) (job : ScanJob) (now : Time) (state : ScanState) : ScanState :=
  if !intake.scanEnabled then state
  else match tryDedupHit intake job state.store with
    | some cached =>
      { state with store := put intake.putSucceeds (job.deduped cached now) state.store }
    | none =>
      if !intake.recordSucceeds then state
      else
        { store := put intake.putSucceeds (job.inProgress now) state.store
          inFlight := (job, now) :: state.inFlight }

/-- `process`, from the end of the pipeline. -/
def finishProcess (job : ScanJob) (started now : Time) (outcome : Outcome) (putSucceeds : Bool)
    (state : ScanState) : ScanState :=
  if (job, started) ∈ state.inFlight then
    { store := put putSucceeds (job.finalResult started now outcome) state.store
      inFlight := state.inFlight.erase (job, started) }
  else state

/-- Steps of any number of workers, and the expiry of a result. -/
inductive ScanEvent where
  | begin (intake : Intake) (job : ScanJob) (now : Time)
  | finish (job : ScanJob) (started now : Time) (outcome : Outcome) (putSucceeds : Bool)
  | expire (digest : String)

def scanStep (state : ScanState) : ScanEvent → ScanState
  | .begin intake job now => beginProcess intake job now state
  | .finish job started now outcome putSucceeds =>
    finishProcess job started now outcome putSucceeds state
  | .expire digest => { state with store := state.store.erase digest }

/-- A store the workers can leave behind. -/
def Reachable (store : ScanStore) : Prop := ∃ events, (Run.after scanStep ⟨∅, []⟩ events).store = store

/-- Every stored result is its digest's own, and an unfinished one has no findings. -/
def Honest (store : ScanStore) : Prop :=
  ∀ digest result, store.lookup digest = some result →
    result.digest = digest ∧ (result.status ≠ .completed → result.vulnerabilities = [])

private theorem Honest.put (honest : Honest store)
    (unfinished : result.status ≠ .completed → result.vulnerabilities = []) (succeeds : Bool) :
    Honest (put succeeds result store) := by
  unfold Scanner.put
  split
  · intro digest found stored
    rcases Table.lookup_insert_cases stored with ⟨rfl, rfl⟩ | ⟨_, stored⟩
    · exact ⟨rfl, unfinished⟩
    · exact honest digest found stored
  · exact honest

private theorem Honest.step (honest : Honest state.store) (event : ScanEvent) :
    Honest (scanStep state event).store := by
  cases event with
  | begin intake job now =>
    simp only [scanStep, beginProcess]
    split
    · exact honest
    split
    · exact honest.put (fun unfinished => absurd rfl unfinished) _
    · split
      · exact honest
      · exact honest.put (fun _ => rfl) _
  | finish job started now outcome putSucceeds =>
    simp only [scanStep, finishProcess]
    split
    · apply honest.put
      cases outcome with
      | found vulnerabilities policy => exact fun unfinished => absurd rfl unfinished
      | error message => exact fun _ => rfl
    · exact honest
  | expire digest =>
    intro other result stored
    exact honest other result (Table.lookup_erase_cases stored).2

theorem Reachable.honest (reachable : Reachable store) : Honest store := by
  obtain ⟨events, rfl⟩ := reachable
  have initial : Honest (∅ : ScanStore) := by
    intro digest result stored
    simp at stored
  exact Run.after_invariant (fun state : ScanState => Honest state.store)
    (fun _ event honest _ => honest.step event) initial (Run.along_true _ events)

end SpectonCr.Scanner
