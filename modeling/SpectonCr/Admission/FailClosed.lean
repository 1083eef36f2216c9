import SpectonCr.Admission.Evaluate

namespace SpectonCr.Admission

open Scanner

/-- The policy whose verdict is kept for an identifier: the first that has it. -/
def decider (policies : List AdmissionPolicy) (id : Uuid) : Option AdmissionPolicy :=
  policies.find? fun policy => policy.id = id

section Loop

variable {scan : Option ScanResult} {now : Time} {input : EvaluateInput} {cache : DecisionCache}
  {done : List AdmissionPolicy}

/-- The cache answers, for the input's digest, from the policies already seen. -/
def Remembers (scan : Option ScanResult) (now : Time) (input : EvaluateInput)
    (cache : DecisionCache) (done : List AdmissionPolicy) : Prop :=
  ∀ id, cache.get now (cacheKey input.digest id) =
    (decider done id).map fun policy => evaluateOne policy scan input.signatureOk

theorem Remembers.empty (ttlSecs : Nat) : Remembers scan now input (.new ttlSecs) [] := by
  intro id
  rfl

private theorem decider_snoc (policy : AdmissionPolicy) (id : Uuid) :
    decider (done ++ [policy]) id = (decider done id).or (if policy.id = id then some policy else none) := by
  simp only [decider, List.find?_append]
  by_cases same : policy.id = id <;> simp [same]

private theorem Remembers.put (remembers : Remembers scan now input cache done)
    (fresh : decider done policy.id = none) :
    Remembers scan now input (cache.put now (cacheKey input.digest policy.id)
        (evaluateOne policy scan input.signatureOk)) (done ++ [policy]) := by
  intro id
  have written : (cache.put now (cacheKey input.digest policy.id)
      (evaluateOne policy scan input.signatureOk)).get now (cacheKey input.digest id) =
      if cacheKey input.digest id = cacheKey input.digest policy.id then
        some (evaluateOne policy scan input.signatureOk)
      else cache.get now (cacheKey input.digest id) :=
    TtlCache.get_put cache.ttl_pos _
  rw [decider_snoc]
  by_cases same : policy.id = id
  · subst same
    simpa [fresh] using written
  have apart : cacheKey input.digest id ≠ cacheKey input.digest policy.id :=
    fun keys => same (cacheKey_injective keys).2.symm
  rw [written, if_neg apart, remembers id]
  simp [same]

/-- One pass merges the verdict of the deciding policy and keeps the cache in step. -/
theorem Remembers.step (remembers : Remembers scan now input cache done) (worst : AdmissionVerdict)
    (policy : AdmissionPolicy) :
    ∃ chosen next, decider (done ++ [policy]) policy.id = some chosen ∧
      evaluateStep scan (.still now) input (worst, cache) policy =
        (mergeVerdict worst (evaluateOne chosen scan input.signatureOk), next) ∧
      Remembers scan now input next (done ++ [policy]) := by
  have stored := remembers policy.id
  cases seen : decider done policy.id with
  | none =>
    rw [seen, Option.map_none] at stored
    refine ⟨policy, _, by simp [decider_snoc, seen], ?_, remembers.put seen⟩
    simp [evaluateStep, Clock.still, stored]
  | some earlier =>
    rw [seen, Option.map_some] at stored
    refine ⟨earlier, cache, by simp [decider_snoc, seen], by simp [evaluateStep, Clock.still, stored], ?_⟩
    intro id
    rw [remembers id, decider_snoc]
    by_cases same : policy.id = id
    · subst same
      simp [seen]
    · simp [same]

theorem Remembers.foldl_isBlock (remembers : Remembers scan now input cache done) :
    (rest.foldl (evaluateStep scan (.still now) input) (worst, cache)).1.isBlock = true ↔
      worst.isBlock = true ∨ ∃ policy ∈ rest, ∃ chosen, decider (done ++ rest) policy.id = some chosen ∧
          (evaluateOne chosen scan input.signatureOk).isBlock = true := by
  induction rest generalizing worst cache done with
  | nil => simp
  | cons policy rest ih =>
    obtain ⟨chosen, next, found, stepped, after⟩ := remembers.step worst policy
    have decided : decider (done ++ policy :: rest) policy.id = some chosen := by
      rw [List.append_cons, decider, List.find?_append, ← decider, found, Option.some_or]
    rw [List.foldl_cons, stepped, ih after, isBlock_mergeVerdict]
    simp [decided, or_assoc]

end Loop

section Gate

variable {policies : List AdmissionPolicy} {now : Time} {input : EvaluateInput} {ttlSecs : Nat}

private theorem decider_eq_some {policy : AdmissionPolicy} {id : Uuid}
    (found : decider policies id = some policy) : policy ∈ policies ∧ policy.id = id := by
  refine ⟨List.mem_of_find?_eq_some found, ?_⟩
  simpa using List.find?_some found

theorem evaluate_new_isBlock {scan : Option ScanResult} (checked : input.bypass = false) :
    (evaluate policies scan (.new ttlSecs) (.still now) input).1.isBlock = true ↔ ∃ policy ∈ applicable policies input,
        decider (applicable policies input) policy.id = some policy ∧
          (evaluateOne policy scan input.signatureOk).isBlock = true := by
  rw [evaluate_of_not_bypass checked, (Remembers.empty ttlSecs).foldl_isBlock]
  simp only [AdmissionVerdict.isBlock, Bool.false_eq_true, false_or, List.nil_append]
  constructor
  · rintro ⟨policy, member, chosen, found, blocks⟩
    obtain ⟨present, same⟩ := decider_eq_some found
    exact ⟨chosen, present, same.symm ▸ found, blocks⟩
  · rintro ⟨policy, member, first, blocks⟩
    exact ⟨policy, member, policy, first, blocks⟩

/-- The gate blocks an image a blocking policy applies to, unless its scan completed. -/
def FailsClosed (policies : List AdmissionPolicy) (store : ScanStore) (succeeds : Bool)
    (cache : DecisionCache) (now : Time) (input : EvaluateInput) : Prop :=
  (∃ policy ∈ applicable policies input, policy.spec.onUnknown = .block) →
    (evaluate policies (fetchScan (some store) succeeds input.digest) cache (.still now) input).1.isBlock = true ∨
    ∃ result ∈ store.lookup input.digest, result.status = .completed

instance (policies : List AdmissionPolicy) (store : ScanStore) (succeeds : Bool)
    (cache : DecisionCache) (now : Time) (input : EvaluateInput) :
    Decidable (FailsClosed policies store succeeds cache now input) :=
  inferInstanceAs (Decidable (_ → _))

/-- A policy refuses an image without a completed scan: for the signature, the missing result, or a
threshold that zero reaches. -/
def RefusesUnscanned (policy : AdmissionPolicy) (scan : Option ScanResult)
    (signatureOk : Option Bool) : Prop :=
  SignatureMissing policy signatureOk ∨ (scan = none ∧ policy.spec.onUnknown = .block) ∨
    (scan ≠ none ∧ ∃ rule ∈ policy.spec.severityThreshold.block.all, Scanner.compare 0 rule = true)

private theorem evaluateOne_unfinished (unfinished : ∀ result ∈ scan, result.vulnerabilities = []) :
    (evaluateOne policy scan signatureOk).isBlock = true ↔ RefusesUnscanned policy scan signatureOk := by
  rw [evaluateOne_isBlock, RefusesUnscanned]
  cases scan with
  | none => simp
  | some result => simp [unfinished result rfl, Policy.evaluate_nil_fail_iff]

/-- The gate fails closed exactly on the requests listed here. -/
theorem failsClosed_iff {store : ScanStore} {succeeds : Bool} (reachable : Reachable store)
    (checked : input.bypass = false) :
    FailsClosed policies store succeeds (.new ttlSecs) now input ↔
      (∀ policy ∈ applicable policies input, policy.spec.onUnknown ≠ .block) ∨
      (∃ result ∈ store.lookup input.digest, result.status = .completed) ∨
      ∃ policy ∈ applicable policies input, decider (applicable policies input) policy.id = some policy ∧
          RefusesUnscanned policy (fetchScan (some store) succeeds input.digest) input.signatureOk := by
  by_cases completed : ∃ result ∈ store.lookup input.digest, result.status = .completed
  · simp only [FailsClosed, completed, or_true, implies_true, true_or]
  have unfinished : ∀ result ∈ fetchScan (some store) succeeds input.digest,
      result.vulnerabilities = [] := by
    intro result fetched
    have stored : store.lookup input.digest = some result := by
      cases succeeds with
      | false => simp [fetchScan] at fetched
      | true => simpa [fetchScan] using fetched
    exact (reachable.honest _ _ stored).2 fun status => completed ⟨result, stored, status⟩
  simp only [FailsClosed, completed, or_false, false_or, evaluate_new_isBlock checked,
    evaluateOne_unfinished unfinished]
  rw [imp_iff_not_or]
  simp only [not_exists, not_and, ne_eq]

end Gate

private def imageDigest : String := "sha256:e3b0c44298fc1c149afbf4c8996fb92427ae41e4649b934ca495991b7852b855"

private def scanJob : ScanJob := ⟨.nil, imageDigest, "demo", "app", "web", "latest", 0⟩

private def takeJob : ScanEvent := .begin ⟨true, true, true, true, true⟩ scanJob 0

/-- A worker has taken the job and its pipeline is still running. -/
def scanningStore : ScanStore := (Run.after scanStep ⟨∅, []⟩ [takeJob]).store

/-- The pipeline ended in an error. -/
def failedStore : ScanStore :=
  (Run.after scanStep ⟨∅, []⟩ [takeJob, .finish scanJob 0 1000000000 (.error "pipeline failed") true]).store

theorem scanningStore_reachable : Reachable scanningStore := ⟨[takeJob], rfl⟩

theorem failedStore_reachable : Reachable failedStore := ⟨_, rfl⟩

/-- The default specification: block what was not scanned, no thresholds. -/
def blockUnknown : AdmissionPolicy := ⟨.nil, "strict", "demo", .default, true⟩

def pullInput (signatureOk : Option Bool) : EvaluateInput :=
  ⟨"demo", "app", "web", imageDigest, false, signatureOk⟩

/-- An image is admitted while its scan runs, and after its scan failed. -/
theorem unfinished_scan_admitted :
    Reachable scanningStore ∧ Reachable failedStore ∧ (pullInput (some true)).bypass = false ∧
      ¬ FailsClosed [blockUnknown] scanningStore true (.new 60) 0 (pullInput (some true)) ∧
      ¬ FailsClosed [blockUnknown] failedStore true (.new 60) 0 (pullInput (some true)) := by
  refine ⟨scanningStore_reachable, failedStore_reachable, rfl, ?_⟩
  decide +kernel

/-- A policy that also asks for a signature. -/
def blockUnsigned : AdmissionPolicy :=
  { blockUnknown with spec := { blockUnknown.spec with signatureRequired := true } }

theorem unsigned_pull_failsClosed :
    FailsClosed [blockUnsigned] scanningStore true (.new 60) 0 (pullInput (some false)) := by
  refine (failsClosed_iff scanningStore_reachable rfl).mpr (.inr (.inr ⟨blockUnsigned, ?_⟩))
  refine ⟨by decide +kernel, by decide +kernel, .inl ⟨rfl, ?_⟩⟩
  simp [pullInput]

end SpectonCr.Admission
