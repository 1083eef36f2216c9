import SpectonCr.Base.Result
import SpectonCr.Base.Table
import SpectonCr.Common.Model

namespace SpectonCr.Operator

structure AutoUpdateSpec where
  enabled : Bool
  intervalSeconds : Nat

structure BackupSpec where
  beforeUpgrade : Bool

structure SpectonRegistrySpec where
  (repository tag configMapName : String)
  (authReplicas registryReplicas : Option Int)
  autoUpdate : AutoUpdateSpec
  backup : Option BackupSpec
  paused : Bool

structure OperatorCondition where
  (type status : String)
  lastTransitionTime : Option Time
  (reason message : Option String)
  deriving DecidableEq

structure ComponentStatus where
  (desired ready updated : Int)
  summary : String
  deriving DecidableEq

structure BackupStatus where
  jobName : String
  succeeded : Bool
  completionTime : Option Time
  deriving DecidableEq

structure SpectonRegistryStatus where
  phase : String
  observedGeneration : Option Int
  (currentImage targetImage trackedTag resolvedDigest : Option String)
  lastDigestCheck : Option Time
  (registry auth : ComponentStatus)
  lastBackup : Option BackupStatus
  conditions : List OperatorCondition
  deriving DecidableEq

def SpectonRegistryStatus.default : SpectonRegistryStatus :=
  ⟨"", none, none, none, none, none, none, ⟨0, 0, 0, ""⟩, ⟨0, 0, 0, ""⟩, none, []⟩

structure SpectonRegistry where
  name : String
  inNamespace : Option String
  generation : Option Int
  spec : SpectonRegistrySpec
  status : Option SpectonRegistryStatus

structure DeploymentCondition where
  (type status : String)
  reason : Option String

structure DeploymentStatus where
  (observedGeneration replicas updatedReplicas availableReplicas readyReplicas : Option Int)
  conditions : List DeploymentCondition

/-- The parts of a Deployment that a pass sets or reads. -/
structure Deployment where
  image : String
  replicas : Option Int
  configHash : String
  generation : Option Int
  status : Option DeploymentStatus

structure JobStatus where
  succeeded : Option Int
  conditions : List (String × String)
  completionTime : Option Time

/-- A pre-upgrade Job, with the number of the step that created it. -/
structure Job where
  createdAt : Nat
  status : Option JobStatus

inductive JobState where
  | running
  | succeeded
  | failed
  deriving DecidableEq

def jobState (job : Job) : JobState :=
  match job.status with
  | none => .running
  | some status =>
    if 0 < status.succeeded.getD 0 then .succeeded
    else if ("Failed", "True") ∈ status.conditions then .failed
    else .running

structure RolloutPlan where
  (authImage registryImage : String)
  (upgrading startsUpgrade : Bool)

def planRollout (target : String) (liveAuth : Option String) (authRolledOut : Bool)
    (liveRegistry : Option String) : RolloutPlan :=
  let registryNow := liveRegistry.getD target
  match liveAuth with
  | none => ⟨target, target, false, false⟩
  | some auth =>
    if auth ≠ target then ⟨target, registryNow, true, true⟩
    else if !authRolledOut then ⟨target, registryNow, registryNow ≠ target, false⟩
    else ⟨target, target, liveRegistry.any (· ≠ target), false⟩

/-- `Option<i64>` compared: an absent value is below every other. -/
def atLeast : Option Int → Option Int → Bool
  | _, none => true
  | none, some _ => false
  | some one, some two => two ≤ one

def rolledOut (deployment : Deployment) : Bool :=
  let desired := deployment.replicas.getD 1
  match deployment.status with
  | none => false
  | some status =>
    atLeast status.observedGeneration deployment.generation &&
      status.updatedReplicas.getD 0 = desired && status.availableReplicas.getD 0 = desired &&
      status.replicas.getD 0 = desired

def deadlineExceeded (deployment : Deployment) : Bool :=
  deployment.status.any fun status => status.conditions.any fun condition =>
    condition.type = "Progressing" && condition.status = "False" &&
      condition.reason = some "ProgressDeadlineExceeded"

def componentStatus (deployment : Deployment) : ComponentStatus :=
  let desired := deployment.replicas.getD 1
  let ready := (deployment.status.bind DeploymentStatus.readyReplicas).getD 0
  ⟨desired, ready, (deployment.status.bind DeploymentStatus.updatedReplicas).getD 0,
    toString ready ++ "/" ++ toString desired⟩

/-- `bounded_name`: the beginning is cut, never the unique end. -/
def boundedName (start suffix : String) : String :=
  let kept := start.toList.take (63 - suffix.length - 1)
  String.ofList (kept.reverse.dropWhile (· = '-')).reverse ++ "-" ++ suffix

/-- `preupgrade_job_name`, with `short_hash` as a parameter. -/
def preupgradeJobName (shortHash : String → String) (cr : SpectonRegistry)
    (fromImage toImage : String) : String :=
  boundedName (cr.name ++ "-preupgrade")
    (shortHash (toString (cr.generation.getD 0) ++ ":" ++ fromImage ++ "->" ++ toImage))

/-- `set_condition` at a time: the transition time is kept as long as the status is. -/
def setCondition (now : Time) (type : String) (good : Bool) (reason message : String) :
    List OperatorCondition → List OperatorCondition
  | [] => [⟨type, if good then "True" else "False", some now, some reason, some message⟩]
  | condition :: rest =>
    if condition.type = type then
      let status := if good then "True" else "False"
      { condition with
        status := status
        lastTransitionTime :=
          if condition.status = status then condition.lastTransitionTime else some now
        reason := some reason
        message := some message } :: rest
    else condition :: setCondition now type good reason message rest

def SpectonRegistryStatus.condition (status : SpectonRegistryStatus) (now : Time) (type : String)
    (good : Bool) (reason message : String) : SpectonRegistryStatus :=
  { status with conditions := setCondition now type good reason message status.conditions }

/-- A request to the Kubernetes API. -/
inductive ApiCall where
  | getConfigMap
  | applyServices
  | applyCronJob
  | getAuth
  | getRegistry
  | getJob
  | createJob
  | applyAuth
  | applyRegistry
  | patchStatus

inductive OperatorError where
  | kube (message : String)
  | invalid (message : String)

/-- One call of `reconcile`: the resource, the time, the hash of the ConfigMap if there is one, the
digest behind the tag, and the requests that fail. -/
structure Pass where
  cr : SpectonRegistry
  now : Time
  configHash : Option String
  digest : Except String String
  fails : ApiCall → Option String

/-- The objects of the resource. `clock` numbers the steps; `authSince` is when auth came onto its
image, `backups` when the Jobs that succeeded were created. -/
structure Cluster where
  (auth registry : Option Deployment)
  jobs : Table String Job
  status : Option SpectonRegistryStatus
  (clock authSince : Nat)
  backups : List Nat

/-- Makes a request, and goes on if it succeeds. -/
def Pass.call {Value : Type} (pass : Pass) (request : ApiCall) (cluster : Cluster)
    (next : Except OperatorError Value × Cluster) : Except OperatorError Value × Cluster :=
  match pass.fails request with
  | some message => (.error (.kube message), cluster)
  | none => next

/-- Is the digest behind the tag looked up again? -/
def digestDue (pass : Pass) (status : SpectonRegistryStatus) : Bool :=
  status.resolvedDigest.isNone || (match status.lastDigestCheck with
    | none => true
    | some checked =>
      (BitVec.ofNat 64 pass.cr.spec.autoUpdate.intervalSeconds).toInt ≤ (pass.now - checked).tdiv 1000000000)

def resolveTarget (pass : Pass) (status : SpectonRegistryStatus) : String × SpectonRegistryStatus :=
  let spec := pass.cr.spec
  let tagged := spec.repository ++ ":" ++ spec.tag
  if !spec.autoUpdate.enabled then
    (tagged, { status with
      trackedTag := none
      resolvedDigest := none
      lastDigestCheck := none
      conditions := status.conditions.filter fun condition => condition.type ≠ "DigestResolved" })
  else
    let status := if status.trackedTag ≠ some tagged then
        { status with resolvedDigest := none, lastDigestCheck := none } else status
    let status := if digestDue pass status then
        match pass.digest with
        | .ok digest =>
          ({ status with
            resolvedDigest := some digest
            trackedTag := some tagged
            lastDigestCheck := some pass.now }).condition pass.now "DigestResolved" true "Resolved"
              (tagged ++ " resolved")
        | .error message => status.condition pass.now "DigestResolved" false "ResolveFailed" message
      else status
    match status.resolvedDigest with
    | some digest => (spec.repository ++ "@" ++ digest, status)
    | none => (tagged, status)

/-- `write_status`, and the requeue after it. A status that has not changed is not written. -/
def writeStatus (pass : Pass) (prev status : SpectonRegistryStatus) (requeue : Nat)
    (cluster : Cluster) : Except OperatorError Nat × Cluster :=
  if status = prev then (.ok requeue, cluster)
  else pass.call .patchStatus cluster (.ok requeue, { cluster with status := some status })

/-- The server-side apply of a Deployment: its generation grows when its spec changes. -/
def applyDeployment (old : Option Deployment) (image : String) (replicas : Option Int)
    (configHash : String) : Deployment :=
  match old with
  | none => ⟨image, some (replicas.getD 2), configHash, some 1, none⟩
  | some deployment =>
    if deployment.image = image ∧ deployment.replicas = some (replicas.getD 2) ∧
        deployment.configHash = configHash then deployment
    else { deployment with
      image := image
      replicas := some (replicas.getD 2)
      configHash := configHash
      generation := deployment.generation.map (· + 1) }

/-- What the pre-upgrade gate decides: to wait, with a requeue, or to go on. -/
inductive Gate where
  | wait (requeue : Nat)
  | proceed (status : SpectonRegistryStatus)

/-- The gate once the Job is known. -/
def gateOn (pass : Pass) (prev status : SpectonRegistryStatus) (jobName : String) (job : Job)
    (cluster : Cluster) : Except OperatorError Gate × Cluster :=
  match jobState job with
  | .running =>
    let status := ({ status with phase := "BackingUp" }).condition pass.now "Ready" false
      "BackingUp" ("waiting for pre-upgrade backup " ++ jobName)
    andThen (writeStatus pass prev status 10 cluster) fun requeue cluster =>
      (.ok (.wait requeue), cluster)
  | .failed =>
    let status := ({ status with
      phase := "Degraded"
      lastBackup := some ⟨jobName, false, none⟩ }).condition pass.now "Ready" false
        "UpgradeBlocked" ("pre-upgrade backup " ++ jobName ++
          " failed; fix spec.backup (which retries) or set backup.beforeUpgrade=false to skip it")
    andThen (writeStatus pass prev status 120 cluster) fun requeue cluster =>
      (.ok (.wait requeue), cluster)
  | .succeeded =>
    (.ok (.proceed { status with
      lastBackup := some ⟨jobName, true, job.status.bind JobStatus.completionTime⟩ }), cluster)

/-- The gate at the start of an upgrade from an image: the Job of the same generation and images
is looked up, or created. -/
def gate (shortHash : String → String) (pass : Pass) (prev status : SpectonRegistryStatus)
    (fromImage target : String) (cluster : Cluster) : Except OperatorError Gate × Cluster :=
  let jobName := preupgradeJobName shortHash pass.cr fromImage target
  pass.call .getJob cluster <|
    match cluster.jobs.lookup jobName with
    | some job => gateOn pass prev status jobName job cluster
    | none =>
      let job : Job := ⟨cluster.clock, none⟩
      pass.call .createJob cluster <|
        gateOn pass prev status jobName job { cluster with jobs := cluster.jobs.insert jobName job }

def Cluster.setAuth (cluster : Cluster) (deployment : Deployment) : Cluster :=
  { cluster with
    auth := some deployment
    authSince := if cluster.auth.map Deployment.image = some deployment.image then
      cluster.authSince else cluster.clock }

/-- The phase and the condition after both Deployments were applied. -/
def rolloutStatus (pass : Pass) (prev status : SpectonRegistryStatus) (plan : RolloutPlan)
    (target : String) (auth registry : Deployment) : SpectonRegistryStatus :=
  let status := { status with
    auth := componentStatus auth
    registry := componentStatus registry }
  let done := !plan.upgrading && plan.registryImage = target && rolledOut auth && rolledOut registry
  let upgrading := plan.upgrading || prev.currentImage.any (· ≠ target)
  if deadlineExceeded auth || deadlineExceeded registry then
    ({ status with phase := "Degraded" }).condition pass.now "Ready" false
      "ProgressDeadlineExceeded" "a Deployment failed to roll out; check pod events and logs"
  else if done then
    ({ status with phase := "Ready", currentImage := some target }).condition pass.now "Ready" true
      "RolledOut" ("running " ++ target)
  else if upgrading then
    ({ status with phase := "Upgrading" }).condition pass.now "Ready" false "Upgrading"
      ((if plan.registryImage = target then "rolling registry" else "rolling auth") ++ " to " ++ target)
  else
    ({ status with phase := if prev.phase = "" then "Pending" else "Progressing" }).condition
      pass.now "Ready" false "RollingOut" "waiting for Deployments to become available"

def requeueAfter (pass : Pass) (status : SpectonRegistryStatus) : Nat :=
  if status.phase = "Ready" then
    if pass.cr.spec.autoUpdate.enabled then min 300 (max pass.cr.spec.autoUpdate.intervalSeconds 30)
    else 300
  else 10

/-- The end of a pass: both Deployments are applied, and the status is written. -/
def roll (pass : Pass) (prev status : SpectonRegistryStatus) (plan : RolloutPlan)
    (target configHash : String) (cluster : Cluster) : Except OperatorError Nat × Cluster :=
  let auth := applyDeployment cluster.auth plan.authImage pass.cr.spec.authReplicas configHash
  pass.call .applyAuth cluster <|
    let cluster := cluster.setAuth auth
    let registry := applyDeployment cluster.registry plan.registryImage
      pass.cr.spec.registryReplicas configHash
    pass.call .applyRegistry cluster <|
      let status := rolloutStatus pass prev status plan target auth registry
      writeStatus pass prev status (requeueAfter pass status) { cluster with registry := some registry }

/-- The rest of a pass once the target is known. -/
def rollout (shortHash : String → String) (pass : Pass) (prev status : SpectonRegistryStatus)
    (target configHash : String) (cluster : Cluster) : Except OperatorError Nat × Cluster :=
  let plan := planRollout target (cluster.auth.map Deployment.image) (cluster.auth.any rolledOut)
    (cluster.registry.map Deployment.image)
  let gated := plan.startsUpgrade && pass.cr.spec.backup.any BackupSpec.beforeUpgrade
  let fromImage := (cluster.auth.map Deployment.image).getD ""
  andThen (if gated then gate shortHash pass prev status fromImage target cluster
      else (.ok (.proceed status), cluster)) fun decision cluster =>
    match decision with
    | .wait requeue => (.ok requeue, cluster)
    | .proceed status => roll pass prev status plan target configHash cluster

def reconcile (shortHash : String → String) (pass : Pass) (cluster : Cluster) :
    Except OperatorError Nat × Cluster :=
  let cr := pass.cr
  match cr.inNamespace with
  | none => (.error (.invalid "SpectonRegistry must be namespaced"), cluster)
  | some _ =>
    let prev := cr.status.getD .default
    let status := { prev with observedGeneration := cr.generation }
    if cr.spec.paused then
      writeStatus pass prev (({ status with phase := "Paused" }).condition pass.now "Ready" false
        "Paused" "reconciliation paused") 300 cluster
    else
      pass.call .getConfigMap cluster <|
        match pass.configHash with
        | none =>
          writeStatus pass prev (({ status with phase := "Degraded" }).condition pass.now "Ready"
            false "ConfigMissing" ("ConfigMap " ++ cr.spec.configMapName ++ " not found")) 30 cluster
        | some configHash =>
          let resolved := resolveTarget pass status
          let status := { resolved.2 with targetImage := some resolved.1 }
          pass.call .applyServices cluster <| pass.call .applyCronJob cluster <|
            pass.call .getAuth cluster <| pass.call .getRegistry cluster <|
              rollout shortHash pass prev status resolved.1 configHash cluster

/-- The image that a pass rolls towards. -/
def Pass.target (pass : Pass) : String :=
  (resolveTarget pass { pass.cr.status.getD .default with observedGeneration := pass.cr.generation }).1

theorem planRollout_authImage (target : String) (liveAuth : Option String) (out : Bool)
    (liveRegistry : Option String) : (planRollout target liveAuth out liveRegistry).authImage = target := by
  unfold planRollout
  cases liveAuth with
  | none => rfl
  | some auth =>
    simp only
    split
    · rfl
    · split <;> rfl

/-- An upgrade starts exactly when auth runs another image than the target. -/
theorem planRollout_startsUpgrade : (planRollout target liveAuth out liveRegistry).startsUpgrade = true ↔
      ∃ auth, liveAuth = some auth ∧ auth ≠ target := by
  unfold planRollout
  cases liveAuth with
  | none => simp
  | some auth =>
    simp only
    split
    · rename_i other
      exact iff_of_true rfl ⟨auth, rfl, other⟩
    rename_i same
    refine iff_of_false ?_ ?_
    · split <;> exact Bool.false_ne_true
    · rintro ⟨found, here, other⟩
      exact same (Option.some.inj here ▸ other)

theorem applyDeployment_image (old : Option Deployment) (image : String) (replicas : Option Int)
    (configHash : String) : (applyDeployment old image replicas configHash).image = image := by
  unfold applyDeployment
  split
  · rfl
  split
  · rename_i same
    exact same.1
  · rfl

/-- What holds where a request fails and of all that follows it holds after the request. -/
theorem Pass.call_rule {Value : Type} {Good : Cluster → Prop} {pass : Pass} {request : ApiCall}
    {cluster : Cluster} {next : Except OperatorError Value × Cluster} (here : Good cluster)
    (later : Good next.2) : Good (pass.call request cluster next).2 := by
  unfold Pass.call
  split
  · exact here
  · exact later

/-- What a pass may leave of the objects it found. -/
structure Outcome (shortHash : String → String) (pass : Pass) (before after : Cluster) : Prop where
  clock : after.clock = before.clock
  backups : after.backups = before.backups
  objects : (after.auth = before.auth ∧ after.authSince = before.authSince ∧
      (after.jobs = before.jobs ∨ ∃ name, after.jobs = before.jobs.insert name ⟨before.clock, none⟩)) ∨
    (after.jobs = before.jobs ∧ after.auth.map Deployment.image = some pass.target ∧
      (after.authSince = if before.auth.map Deployment.image = some pass.target then
        before.authSince else before.clock) ∧
      ∀ image, before.auth.map Deployment.image = some image → image ≠ pass.target →
        pass.cr.spec.backup.any BackupSpec.beforeUpgrade = true →
        ∃ job, before.jobs.lookup (preupgradeJobName shortHash pass.cr image pass.target) = some job ∧
          jobState job = .succeeded)

section Passes

variable {shortHash : String → String} {pass : Pass} {cluster : Cluster}

theorem Outcome.same : Outcome shortHash pass cluster cluster := ⟨rfl, rfl, .inl ⟨rfl, rfl, .inl rfl⟩⟩

theorem writeStatus_rule {Good : Cluster → Prop} {prev status : SpectonRegistryStatus}
    {requeue : Nat} (here : Good cluster)
    (written : ∀ status, Good { cluster with status := some status }) :
    Good (writeStatus pass prev status requeue cluster).2 := by
  unfold writeStatus
  split
  · exact here
  · exact Pass.call_rule here (written status)

theorem Outcome.written {before : Cluster} {prev status : SpectonRegistryStatus} {requeue : Nat}
    (outcome : Outcome shortHash pass before cluster) :
    Outcome shortHash pass before (writeStatus pass prev status requeue cluster).2 :=
  writeStatus_rule outcome fun _ => ⟨outcome.clock, outcome.backups, outcome.objects⟩

/-- The gate lets a pass go on only where the Job has succeeded, and changes nothing but the
status. -/
theorem gateOn_cases {before : Cluster} {prev status : SpectonRegistryStatus} {jobName : String}
    {job : Job} (outcome : Outcome shortHash pass before cluster) :
    (∃ next, gateOn pass prev status jobName job cluster = (.ok (.proceed next), cluster) ∧
      jobState job = .succeeded) ∨
    (Outcome shortHash pass before (gateOn pass prev status jobName job cluster).2 ∧
      ∀ next, (gateOn pass prev status jobName job cluster).1 ≠ .ok (.proceed next)) := by
  have waits : ∀ result : Except OperatorError Nat × Cluster, Outcome shortHash pass before result.2 →
      Outcome shortHash pass before (andThen result fun requeue cluster =>
          (.ok (Gate.wait requeue), cluster)).2 ∧
        ∀ next, (andThen result fun requeue cluster =>
          (.ok (Gate.wait requeue), cluster)).1 ≠ .ok (.proceed next) := by
    rintro ⟨answer, after⟩ kept
    cases answer with
    | error failure | ok requeue => exact ⟨kept, fun _ same => nomatch same⟩
  unfold gateOn
  cases state : jobState job with
  | running | failed => exact .inr (waits _ outcome.written)
  | succeeded => exact .inl ⟨_, rfl, rfl⟩

theorem gate_cases {prev status : SpectonRegistryStatus} {image target : String} :
    (∃ next job, gate shortHash pass prev status image target cluster = (.ok (.proceed next), cluster) ∧
      cluster.jobs.lookup (preupgradeJobName shortHash pass.cr image target) = some job ∧
      jobState job = .succeeded) ∨
    (Outcome shortHash pass cluster (gate shortHash pass prev status image target cluster).2 ∧
      ∀ next, (gate shortHash pass prev status image target cluster).1 ≠ .ok (.proceed next)) := by
  unfold gate Pass.call
  cases pass.fails .getJob with
  | some message => exact .inr ⟨.same, fun _ same => nomatch same⟩
  | none =>
    simp only
    cases found : cluster.jobs.lookup (preupgradeJobName shortHash pass.cr image target) with
    | some job =>
      rcases @gateOn_cases shortHash pass cluster cluster prev status
        (preupgradeJobName shortHash pass.cr image target) job .same with
        ⟨next, proceeds, succeeded⟩ | waits
      · exact .inl ⟨next, job, proceeds, rfl, succeeded⟩
      · exact .inr waits
    | none =>
      simp only
      cases pass.fails .createJob with
      | some message => exact .inr ⟨.same, fun _ same => nomatch same⟩
      | none =>
        have created : Outcome shortHash pass cluster { cluster with
            jobs := cluster.jobs.insert (preupgradeJobName shortHash pass.cr image target)
              ⟨cluster.clock, none⟩ } :=
          ⟨rfl, rfl, .inl ⟨rfl, rfl, .inr ⟨_, rfl⟩⟩⟩
        rcases @gateOn_cases shortHash pass _ cluster prev status
            (preupgradeJobName shortHash pass.cr image target) ⟨cluster.clock, none⟩ created with
          ⟨next, _, succeeded⟩ | waits
        · cases succeeded
        · exact .inr waits

theorem roll_outcome (image : plan.authImage = pass.target)
    (backed : ∀ image, cluster.auth.map Deployment.image = some image → image ≠ pass.target →
      pass.cr.spec.backup.any BackupSpec.beforeUpgrade = true → ∃ job, cluster.jobs.lookup
      (preupgradeJobName shortHash pass.cr image pass.target) = some job ∧ jobState job =
      .succeeded) :
    Outcome shortHash pass cluster (roll pass prev status plan pass.target configHash cluster).2 := by
  have moved : (applyDeployment cluster.auth plan.authImage pass.cr.spec.authReplicas
      configHash).image = pass.target := by
    rw [applyDeployment_image, image]
  have applied : Outcome shortHash pass cluster (cluster.setAuth
      (applyDeployment cluster.auth plan.authImage pass.cr.spec.authReplicas configHash)) := by
    refine ⟨rfl, rfl, .inr ⟨rfl, ?_, ?_, backed⟩⟩
    · exact congrArg some moved
    · rw [Cluster.setAuth, moved]
  unfold roll
  refine Pass.call_rule .same (Pass.call_rule applied ?_)
  exact Outcome.written ⟨applied.clock, applied.backups, applied.objects⟩

theorem rollout_outcome :
    Outcome shortHash pass cluster (rollout shortHash pass prev status pass.target configHash cluster).2 := by
  unfold rollout
  simp only
  have image := planRollout_authImage pass.target (cluster.auth.map Deployment.image)
    (cluster.auth.any rolledOut) (cluster.registry.map Deployment.image)
  split
  · rename_i gated
    rcases @gate_cases shortHash pass cluster prev status
        ((cluster.auth.map Deployment.image).getD "") pass.target with
      ⟨next, job, proceeds, found, succeeded⟩ | ⟨outcome, waits⟩
    · rw [proceeds, andThen_ok]
      refine roll_outcome image ?_
      intro live running _ _
      rw [running, Option.getD_some] at found
      exact ⟨job, found, succeeded⟩
    · revert outcome waits
      cases gate shortHash pass prev status ((cluster.auth.map Deployment.image).getD "")
          pass.target cluster with
      | mk answer after =>
        intro outcome waits
        cases answer with
        | error failure => exact outcome
        | ok decision =>
          cases decision with
          | wait requeue => exact outcome
          | proceed next => exact absurd rfl (waits next)
  · rename_i open_gate
    rw [andThen_ok]
    refine roll_outcome image ?_
    intro live running other wanted
    refine absurd ?_ open_gate
    rw [Bool.and_eq_true]
    exact ⟨planRollout_startsUpgrade.mpr ⟨live, running, other⟩, wanted⟩

/-- A pass leaves the objects as they were, or creates one Job, or sets auth to its target; an
upgrade with `before_upgrade` set has found a succeeded Job. -/
theorem reconcile_outcome (shortHash : String → String) (pass : Pass) (cluster : Cluster) :
    Outcome shortHash pass cluster (reconcile shortHash pass cluster).2 := by
  unfold reconcile
  simp only
  split
  · exact .same
  split
  · exact Outcome.written .same
  refine Pass.call_rule .same ?_
  split
  · exact Outcome.written .same
  · exact Pass.call_rule .same (Pass.call_rule .same (Pass.call_rule .same
      (Pass.call_rule .same rollout_outcome)))

end Passes

end SpectonCr.Operator
