import SpectonCr.Base.Run
import SpectonCr.Operator.Reconcile

namespace SpectonCr.Operator

open Run

/-- A pass of the operator, or a step of the cluster: a Job reports or is removed (after seven days,
or by hand), a Deployment reports. -/
inductive Event where
  | pass (pass : Pass)
  | jobStatus (name : String) (status : JobStatus)
  | removeJob (name : String)
  | authStatus (status : DeploymentStatus)
  | registryStatus (status : DeploymentStatus)

def Cluster.tick (cluster : Cluster) : Cluster := { cluster with clock := cluster.clock + 1 }

def Cluster.report (cluster : Cluster) (name : String) (job : Job) : Cluster :=
  { cluster with
    jobs := cluster.jobs.insert name job
    backups := if jobState job = .succeeded then job.createdAt :: cluster.backups
      else cluster.backups }

def Deployment.report (status : DeploymentStatus) (deployment : Deployment) : Deployment :=
  { deployment with status := some status }

def step (shortHash : String → String) (cluster : Cluster) : Event → Cluster
  | .pass pass => (reconcile shortHash pass cluster).2.tick
  | .jobStatus name status =>
    match cluster.jobs.lookup name with
    | none => cluster.tick
    | some job => (cluster.report name { job with status := some status }).tick
  | .removeJob name => ({ cluster with jobs := cluster.jobs.erase name }).tick
  | .authStatus status => ({ cluster with auth := cluster.auth.map (.report status) }).tick
  | .registryStatus status =>
    ({ cluster with registry := cluster.registry.map (.report status) }).tick

/-- A pass that moves auth from its image to another one, with `before_upgrade` set, comes after
the success of a Job that was created after auth had come onto its image. -/
def BackedUp (shortHash : String → String) (cluster : Cluster) : Event → Prop
  | .pass pass => pass.cr.spec.backup.any BackupSpec.beforeUpgrade = true →
    ∀ image ∈ cluster.auth.map Deployment.image,
      ∀ next ∈ (step shortHash cluster (.pass pass)).auth.map Deployment.image,
        next ≠ image → ∃ created ∈ cluster.backups, cluster.authSince < created
  | _ => True

/-- A pass that may start an upgrade does not find a succeeded Job under its name that is older
than auth's time on its image. -/
def FreshJob (shortHash : String → String) (cluster : Cluster) : Event → Prop
  | .pass pass => pass.cr.spec.backup.any BackupSpec.beforeUpgrade = true →
    ∀ image ∈ cluster.auth.map Deployment.image, image ≠ pass.target →
      ∀ job ∈ cluster.jobs.lookup (preupgradeJobName shortHash pass.cr image pass.target),
        jobState job = .succeeded → cluster.authSince < job.createdAt
  | _ => True

instance (shortHash : String → String) (cluster : Cluster) (event : Event) :
    Decidable (BackedUp shortHash cluster event) := by
  unfold BackedUp
  split <;> infer_instance

instance (shortHash : String → String) (cluster : Cluster) (event : Event) :
    Decidable (FreshJob shortHash cluster event) := by
  unfold FreshJob
  split <;> infer_instance

/-- Every Job that has succeeded is among the backups. -/
def Cluster.Recorded (cluster : Cluster) : Prop :=
  ∀ name job, cluster.jobs.lookup name = some job → jobState job = .succeeded →
    job.createdAt ∈ cluster.backups

section Steps

variable {shortHash : String → String} {cluster : Cluster}

theorem Cluster.Recorded.report (recorded : cluster.Recorded) (name : String) (job : Job) :
    (cluster.report name job).Recorded := by
  intro other found present succeeded
  rcases Table.lookup_insert_cases present with ⟨rfl, rfl⟩ | ⟨_, before⟩
  · rw [Cluster.report, if_pos succeeded]
    exact List.mem_cons_self
  · have old := recorded other found before succeeded
    rw [Cluster.report]
    split
    · exact List.mem_cons_of_mem _ old
    · exact old

theorem Cluster.Recorded.outcome {pass : Pass} {after : Cluster} (recorded : cluster.Recorded)
    (outcome : Outcome shortHash pass cluster after) : after.Recorded := by
  intro name job present succeeded
  rw [outcome.backups]
  rcases outcome.objects with ⟨_, _, same | ⟨created, inserted⟩⟩ | ⟨same, _⟩
  · rw [same] at present
    exact recorded name job present succeeded
  · rw [inserted] at present
    rcases Table.lookup_insert_cases present with ⟨rfl, rfl⟩ | ⟨_, present⟩
    · cases succeeded
    · exact recorded name job present succeeded
  · rw [same] at present
    exact recorded name job present succeeded

theorem Cluster.Recorded.step (recorded : cluster.Recorded) (event : Event) :
    (step shortHash cluster event).Recorded := by
  cases event with
  | pass pass =>
    have kept := recorded.outcome (reconcile_outcome shortHash pass cluster)
    exact kept
  | jobStatus name status =>
    simp only [Operator.step]
    split
    · exact recorded
    · exact recorded.report name _
  | removeJob name =>
    intro other job present succeeded
    exact recorded other job (Table.lookup_erase_cases present).2 succeeded
  | authStatus status | registryStatus status => exact recorded

/-- A pass that starts an upgrade has found a succeeded Job; if that is not an old one, the
upgrade is backed up. -/
theorem FreshJob.backedUp (recorded : cluster.Recorded) (fresh : FreshJob shortHash cluster event) :
    BackedUp shortHash cluster event := by
  cases event with
  | pass pass =>
    intro wanted image running next moved other
    rcases (reconcile_outcome shortHash pass cluster).objects with
      ⟨same, _⟩ | ⟨_, target, _, backed⟩
    · have stayed : next ∈ cluster.auth.map Deployment.image := same ▸ moved
      exact absurd (Option.mem_unique stayed running) other
    have reached : some next = some pass.target := moved.symm.trans target
    have left : image ≠ pass.target := fun same => other ((Option.some.inj reached).trans same.symm)
    obtain ⟨job, found, succeeded⟩ := backed image running left wanted
    exact ⟨job.createdAt, recorded _ job found succeeded, fresh wanted image running left job found succeeded⟩
  | _ => trivial

end Steps

/-- Where no pass meets a succeeded Job of its name from before auth came onto its image, every
upgrade has a backup of its own. -/
theorem upgrades_backed_up (shortHash : String → String) (start : Cluster) (recorded : start.Recorded)
    (events : List Event) (fresh : Along (step shortHash) (FreshJob shortHash) start events) :
    Along (step shortHash) (BackedUp shortHash) start events := by
  have keeps : ∀ (cluster : Cluster) event, cluster.Recorded → FreshJob shortHash cluster event →
      (step shortHash cluster event).Recorded := fun _ event kept _ => kept.step event
  exact along_of_invariant keeps (fun _ _ kept guard => guard.backedUp kept) recorded fresh

/-- A pass on a tracked tag, with the digest that is behind it. -/
def samplePass (digest : String) : Pass where
  cr := ⟨"reg", some "ns", some 1, ⟨"r", "v1", "cm", none, none, ⟨true, 60⟩, some ⟨true⟩, false⟩, none⟩
  now := 0
  configHash := some "h"
  digest := .ok digest
  fails := fun _ => none

def emptyCluster : Cluster := ⟨none, none, ∅, none, 0, 0, []⟩

/-- The pre-upgrade Job between two digests succeeds. -/
def sampleBackup (fromDigest toDigest : String) : Event :=
  .jobStatus ("reg-preupgrade-1:r@" ++ fromDigest ++ "->r@" ++ toDigest) ⟨some 1, [], some 0⟩

/-- The first upgrade of a new installation waits for its backup. -/
def firstUpgrade : List Event :=
  [.pass (samplePass "a"), .pass (samplePass "b"), sampleBackup "a" "b", .pass (samplePass "b")]

/-- The tag moves back, with a backup. -/
def movedBack : List Event := [.pass (samplePass "a"), sampleBackup "b" "a", .pass (samplePass "a")]

theorem first_upgrade_backed_up :
    ((after (step id) emptyCluster firstUpgrade).auth.map Deployment.image = some "r@b") ∧
      Along (step id) (BackedUp id) emptyCluster firstUpgrade :=
  ⟨by decide +kernel, upgrades_backed_up id emptyCluster nofun firstUpgrade
      (by decide +kernel)⟩

/-- A tag that moves to another digest and back, and once more: the first upgrade's Job still has
the name, so auth moves at once, without a new backup. -/
theorem reused_backup :
    let before := after (step id) emptyCluster (firstUpgrade ++ movedBack)
    before.auth.map Deployment.image = some "r@a" ∧
      ((step id before (.pass (samplePass "b"))).auth.map Deployment.image = some "r@b") ∧
      before.authSince = 6 ∧ before.backups = [4, 1] ∧
      ¬BackedUp id before (.pass (samplePass "b")) := by
  decide +kernel

end SpectonCr.Operator
