import SpectonCr.Admission.Evaluate
import SpectonCr.Registry.Authorize

namespace SpectonCr.Admission

open Scanner

/-- `admission_policies`: a primary key, and one name per tenant. -/
structure PolicyTable where
  rows : List AdmissionPolicy
  ids : (rows.map AdmissionPolicy.id).Nodup
  names : (rows.map fun policy => (policy.tenant, policy.name)).Nodup

/-- `PgAdmissionStore::list_tenant`. -/
def PolicyTable.listTenant (table : PolicyTable) (tenant : String) : List AdmissionPolicy :=
  table.rows.filter fun policy => policy.tenant = tenant && policy.enabled

/-- One call of `evaluate`: its input, the policy name the caller retains, its instants, and whether
its caller could read the scan result. -/
structure Call where
  input : EvaluateInput
  policyName : Option String
  clock : Clock
  scanSucceeds : Bool

/-- The policies the caller hands to `evaluate`. -/
def Call.policies (table : PolicyTable) (call : Call) : List AdmissionPolicy :=
  match call.policyName with
  | none => table.listTenant call.input.tenant
  | some name => (table.listTenant call.input.tenant).filter fun policy => policy.name = name

def claimsBypassAdmission (claims : TokenClaims) : Bool :=
  Text.contains claims.sub "bypass-admission" || (claims.role = .admin &&
      claims.scopes.any fun scope => scope.repository = "*" || scope.actions.contains .manage)

/-- The image a caller asks about. -/
structure Image where
  (tenant project repository digest : String)

/-- The call of `enforce_admission`, given whether signing is enabled and what
`enforce_pull_signature_policy` answers. -/
def pullCall (table : PolicyTable) (claims : TokenClaims) (image : Image)
    (signingEnabled signed : Bool) (clock : Clock) (scanSucceeds : Bool) : Call where
  input :=
    { tenant := image.tenant
      project := image.project
      repository := image.repository
      digest := image.digest
      bypass := claimsBypassAdmission claims
      signatureOk :=
        if (table.listTenant image.tenant).any fun policy => policy.spec.signatureRequired then
          if signingEnabled then some signed else some false
        else some true }
  policyName := none
  clock
  scanSucceeds

/-- The call of `admit_test`, the dry run. -/
def admitTestCall (image : Image) (policyName : Option String) (clock : Clock) (scanSucceeds : Bool) :
    Call where
  input := ⟨image.tenant, image.project, image.repository, image.digest, false, some true⟩
  policyName
  clock
  scanSucceeds

/-- The cache, and the calls made so far. -/
structure GateState where
  cache : DecisionCache
  past : List Call

/-- Policies and scan results, which the calls only read. -/
structure Context where
  table : PolicyTable
  scanStore : Option ScanStore

/-- The scan result that the caller hands over. -/
def Context.scan (context : Context) (call : Call) : Option ScanResult :=
  fetchScan context.scanStore call.scanSucceeds call.input.digest

def Context.evaluate (context : Context) (cache : DecisionCache) (call : Call) :
    AdmissionVerdict × DecisionCache :=
  Admission.evaluate (call.policies context.table) (context.scan call) cache call.clock call.input

def Context.step (context : Context) (state : GateState) (call : Call) : GateState where
  cache := (context.evaluate state.cache call).2
  past := call :: state.past

/-- `enforce_admission`, with the cache it leaves. -/
def Context.enforceAdmission (context : Context) (cache : DecisionCache) (claims : TokenClaims)
    (image : Image) (signingEnabled signed : Bool) (clock : Clock) (scanSucceeds : Bool) :
    Except RegistryError Unit × DecisionCache :=
  if (context.table.listTenant image.tenant).isEmpty then (.ok (), cache)
  else
    match context.evaluate cache
        (pullCall context.table claims image signingEnabled signed clock scanSucceeds) with
    | (.block reason _, next) => (.error (.manifestUnverified reason), next)
    | (_, next) => (.ok (), next)

inductive VerdictClass where
  | allow
  | warn
  | block
  deriving DecidableEq

def AdmissionVerdict.verdictClass : AdmissionVerdict → VerdictClass
  | .allow => .allow
  | .warn _ => .warn
  | .block _ _ => .block

def VerdictClass.worse : VerdictClass → VerdictClass → VerdictClass
  | .block, _ => .block
  | _, .block => .block
  | .warn, _ => .warn
  | .allow, second => second

theorem verdictClass_mergeVerdict (first second : AdmissionVerdict) :
    (mergeVerdict first second).verdictClass = first.verdictClass.worse second.verdictClass := by
  cases first <;> cases second <;> rfl

/-- The cache with no verdicts in it. -/
def DecisionCache.cleared (cache : DecisionCache) : DecisionCache := { cache with inner := ∅ }

/-- The call is answered as it would be on an empty cache. -/
def Context.Transparent (context : Context) (state : GateState) (call : Call) : Prop :=
  (context.evaluate state.cache call).1.verdictClass =
    (context.evaluate state.cache.cleared call).1.verdictClass

section Provenance

variable {context : Context} {past : List Call} {cache : DecisionCache} {call : Call}

/-- The policies a call evaluates. -/
def Context.evaluated (context : Context) (call : Call) : List AdmissionPolicy :=
  if call.input.bypass then [] else applicable (call.policies context.table) call.input

/-- A stored verdict is one a past call computed, kept until that call's expiry. -/
def Context.Computed (context : Context) (past : List Call) (ttl : Time) (key : String)
    (entry : TtlEntry AdmissionVerdict) : Prop :=
  ∃ earlier ∈ past, ∃ policy ∈ context.evaluated earlier, key = cacheKey earlier.input.digest policy.id ∧
      entry = ⟨evaluateOne policy (context.scan earlier) earlier.input.signatureOk,
        earlier.clock.put policy.id + ttl⟩

def Context.Provenance (context : Context) (past : List Call) (cache : DecisionCache) : Prop :=
  ∀ key entry, cache.inner.lookup key = some entry → context.Computed past cache.ttl key entry

/-- Every past call on the digest whose verdict for a policy is still alive was handed the same scan
result, and saw the same signature check if the policy asks for one. -/
def Context.Agrees (context : Context) (past : List Call) (ttl : Time) (call : Call) : Prop :=
  ∀ earlier ∈ past, earlier.input.digest = call.input.digest →
    ∀ policy ∈ context.evaluated call, policy ∈ context.evaluated earlier →
      call.clock.get policy.id < earlier.clock.put policy.id + ttl →
        context.scan earlier = context.scan call ∧ (policy.spec.signatureRequired = true →
          (earlier.input.signatureOk = some true ↔ call.input.signatureOk = some true))

instance (context : Context) (past : List Call) (ttl : Time) (call : Call) :
    Decidable (context.Agrees past ttl call) := by
  unfold Context.Agrees
  infer_instance

theorem verdictClass_evaluateOne
    (agree : policy.spec.signatureRequired = true → (first = some true ↔ second = some true)) :
    (evaluateOne policy scan first).verdictClass = (evaluateOne policy scan second).verdictClass := by
  have both : SignatureMissing policy first ↔ SignatureMissing policy second := by
    simp only [SignatureMissing, ne_eq]
    constructor
    · rintro ⟨required, unsigned⟩
      exact ⟨required, fun signed => unsigned ((agree required).mpr signed)⟩
    · rintro ⟨required, unsigned⟩
      exact ⟨required, fun signed => unsigned ((agree required).mp signed)⟩
  by_cases missing : SignatureMissing policy first
  · obtain ⟨reason, refused⟩ := evaluateOne_of_missing scan missing
    obtain ⟨again, alike⟩ := evaluateOne_of_missing scan (both.mp missing)
    rw [refused, alike]
    rfl
  · rw [evaluateOne_of_shown missing, evaluateOne_of_shown (mt both.mpr missing)]

private theorem PolicyTable.row_unique {table : PolicyTable} {first second : AdmissionPolicy}
    (one : first ∈ table.rows) (two : second ∈ table.rows) (same : first.id = second.id) : first = second :=
  List.inj_on_of_nodup_map table.ids one two same

private theorem evaluated_row (evaluated : policy ∈ context.evaluated call) :
    policy ∈ context.table.rows := by
  unfold Context.evaluated at evaluated
  split at evaluated
  · cases evaluated
  have handed := (List.mem_filter.mp evaluated).1
  unfold Call.policies at handed
  split at handed
  · exact (List.mem_filter.mp handed).1
  · exact (List.mem_filter.mp (List.mem_filter.mp handed).1).1

private theorem evaluateStep_eq_fetch (scan : Option ScanResult) (clock : Clock)
    (input : EvaluateInput) (worst : AdmissionVerdict) (cache : DecisionCache)
    (policy : AdmissionPolicy) :
    evaluateStep scan clock input (worst, cache) policy =
      let fetched := cache.inner.fetch (clock.get policy.id) (clock.put policy.id) cache.ttl 10000
        (cacheKey input.digest policy.id) (evaluateOne policy scan input.signatureOk)
      (mergeVerdict worst fetched.1, { cache with inner := fetched.2 }) := by
  cases found : cache.inner.get (clock.get policy.id) (cacheKey input.digest policy.id) <;>
    simp [evaluateStep, DecisionCache.get, DecisionCache.put, TtlCache.fetch, found]

/-- One pass: the merged verdict has the class the call itself would compute, and the cache holds
what was computed by then. -/
theorem Context.Provenance.step (known : context.Provenance (call :: past) cache)
    (agrees : context.Agrees past cache.ttl call) {policy : AdmissionPolicy}
    (evaluated : policy ∈ context.evaluated call) (worst : AdmissionVerdict) :
    ∃ verdict next, evaluateStep (context.scan call) call.clock call.input (worst, cache) policy =
        (mergeVerdict worst verdict, next) ∧
      verdict.verdictClass = (evaluateOne policy (context.scan call)
        call.input.signatureOk).verdictClass ∧
      context.Provenance (call :: past) next ∧ next.ttl = cache.ttl := by
  have own : context.Computed (call :: past) cache.ttl (cacheKey call.input.digest policy.id)
      ⟨evaluateOne policy (context.scan call) call.input.signatureOk,
        call.clock.put policy.id + cache.ttl⟩ :=
    ⟨call, by simp, policy, evaluated, rfl, rfl⟩
  obtain ⟨stored, answers⟩ := TtlCache.fetch_spec known own
  refine ⟨_, _, evaluateStep_eq_fetch _ _ _ _ _ _, ?_, stored, rfl⟩
  rcases answers with answer | ⟨entry, computed, live, answer⟩
  · rw [answer]
  obtain ⟨earlier, before, other, seen, key, rfl⟩ := computed
  obtain ⟨digest, id⟩ := cacheKey_injective key
  obtain rfl := PolicyTable.row_unique (evaluated_row evaluated) (evaluated_row seen) id
  rw [answer]
  rcases List.mem_cons.mp before with rfl | before
  · rfl
  · obtain ⟨read, checked⟩ := agrees earlier before digest.symm policy evaluated seen live
    rw [read]
    exact verdictClass_evaluateOne checked

theorem Context.Provenance.foldl (known : context.Provenance (call :: past) cache)
    (agrees : context.Agrees past cache.ttl call) {rest : List AdmissionPolicy}
    (evaluated : ∀ policy ∈ rest, policy ∈ context.evaluated call) (worst : AdmissionVerdict) :
    let result := rest.foldl
      (evaluateStep (context.scan call) call.clock call.input) (worst, cache)
    result.1.verdictClass = rest.foldl (fun soFar policy => soFar.worse
      (evaluateOne policy (context.scan call) call.input.signatureOk).verdictClass)
      worst.verdictClass ∧
    context.Provenance (call :: past) result.2 ∧ result.2.ttl = cache.ttl := by
  induction rest generalizing worst cache with
  | nil => exact ⟨rfl, known, rfl⟩
  | cons policy rest ih =>
    obtain ⟨verdict, next, stepped, same, stored, kept⟩ :=
      known.step agrees (evaluated policy (by simp)) worst
    have later := ih stored (kept ▸ agrees) (fun other member => evaluated other (by simp [member]))
      (mergeVerdict worst verdict)
    simpa [stepped, verdictClass_mergeVerdict, same, kept] using later

private theorem Context.evaluate_eq_foldl (cache : DecisionCache) (call : Call) :
    context.evaluate cache call = (context.evaluated call).foldl
      (evaluateStep (context.scan call) call.clock call.input) (.allow, cache) := by
  cases bypassed : call.input.bypass with
  | true => simp [Context.evaluate, Context.evaluated, Admission.evaluate, bypassed]
  | false => simp [Context.evaluate, Context.evaluated, evaluate_of_not_bypass, bypassed]

/-- The class a call gives to the policies it evaluates, without any cache. -/
def Context.ownClass (context : Context) (call : Call) : VerdictClass :=
  (context.evaluated call).foldl (fun soFar policy => soFar.worse
    (evaluateOne policy (context.scan call) call.input.signatureOk).verdictClass) .allow

theorem Context.Provenance.evaluate (known : context.Provenance past cache)
    (agrees : context.Agrees past cache.ttl call) :
    (context.evaluate cache call).1.verdictClass = context.ownClass call ∧
      context.Provenance (call :: past) (context.evaluate cache call).2 := by
  have extended : context.Provenance (call :: past) cache := by
    intro key entry stored
    obtain ⟨earlier, before, computed⟩ := known key entry stored
    exact ⟨earlier, List.mem_cons_of_mem call before, computed⟩
  obtain ⟨same, stored, _⟩ := extended.foldl agrees (fun _ member => member) .allow
  rw [Context.evaluate_eq_foldl]
  exact ⟨same, stored⟩

private theorem Context.Provenance.empty (empty : cache.inner = ∅) : context.Provenance past cache := by
  intro key entry stored
  simp [empty] at stored

/-- In a run whose calls agree on scan results and signature checks the cache is transparent. -/
theorem cache_transparent (context : Context) (ttlSecs : Nat) (calls : List Call)
    (agree : Run.Along context.step
      (fun state call => context.Agrees state.past state.cache.ttl call) ⟨.new ttlSecs, []⟩ calls) :
    Run.Along context.step context.Transparent ⟨.new ttlSecs, []⟩ calls := by
  have preserves : ∀ (state : GateState) (call : Call), context.Provenance state.past state.cache →
      context.Agrees state.past state.cache.ttl call →
      context.Provenance (context.step state call).past (context.step state call).cache :=
    fun state call known agrees => (known.evaluate agrees).2
  apply Run.along_of_invariant preserves _ _ agree
  · intro state call known agrees
    have cold : context.Provenance [] state.cache.cleared := Context.Provenance.empty rfl
    have alone : context.Agrees [] state.cache.cleared.ttl call := by
      intro earlier before
      cases before
    rw [Context.Transparent, (known.evaluate agrees).1, (cold.evaluate alone).1]
  · exact Context.Provenance.empty rfl

end Provenance

private def signedOnly : AdmissionPolicy :=
  ⟨.nil, "signed", "demo", { AdmissionPolicySpec.default with signatureRequired := true }, true⟩

private def webImage : Image :=
  ⟨"demo", "app", "web", "sha256:e3b0c44298fc1c149afbf4c8996fb92427ae41e4649b934ca495991b7852b855"⟩

private def cleanScan : ScanResult :=
  (ScanJob.mk .nil webImage.digest "demo" "app" "web" "latest" 0).finalResult 0 0 (.found [] ⟨.default⟩)

/-- One policy that requires a signature, and an image that was scanned without findings. -/
def signedContext : Context where
  table := ⟨[signedOnly], by simp, by simp⟩
  scanStore := some (AList.insert webImage.digest cleanScan ∅)

private def readerClaims : TokenClaims := { Registry.adminClaims with sub := "robot:ci", role := .reader }

/-- A dry run now, then a pull of the unsigned image one second later. -/
def dryRunThenPull : List Call :=
  [admitTestCall webImage none (.still 0) true,
    pullCall signedContext.table readerClaims webImage true false (.still 1000000000) true]

/-- The dry run lets the pull of an unsigned image through. -/
theorem dry_run_admits_unsigned :
    ¬ Run.Along signedContext.step signedContext.Transparent ⟨.new 60, []⟩ dryRunThenPull ∧
      (signedContext.enforceAdmission (.new 60) readerClaims webImage true false (.still 1000000000) true).1 =
        .error (.manifestUnverified "policy signed: signature required but missing/invalid") ∧
      (signedContext.enforceAdmission (signedContext.evaluate (.new 60) (admitTestCall webImage none (.still 0) true)).2
        readerClaims webImage true false (.still 1000000000) true).1 = .ok () := by
  simp only [Run.Along, dryRunThenPull, Context.Transparent]
  decide +kernel

/-- A pull of the signed image is not disturbed, nor is any call after the minute, though its scan
result cannot be read. -/
def dryRunThenLater : List Call :=
  [admitTestCall webImage none (.still 0) true,
    pullCall signedContext.table readerClaims webImage true true (.still 1000000000) true,
    pullCall signedContext.table readerClaims webImage true false (.still 61000000000) false]

theorem dryRunThenLater_transparent :
    Run.Along signedContext.step signedContext.Transparent ⟨.new 60, []⟩ dryRunThenLater := by
  apply cache_transparent
  simp only [Run.Along, dryRunThenLater]
  decide +kernel

end SpectonCr.Admission
