import SpectonCr.Base.TtlCache
import SpectonCr.Scanner.Worker

namespace SpectonCr.Admission

open Scanner

inductive OnUnknown where
  | block
  | scan
  | allow
  deriving DecidableEq

structure SeverityThreshold where
  (block warn : BlockRules)
  deriving DecidableEq

structure AdmissionScope where
  (projects repositories : List String)
  deriving DecidableEq

structure AdmissionPolicySpec where
  scope : AdmissionScope
  signatureRequired : Bool
  severityThreshold : SeverityThreshold
  onUnknown : OnUnknown
  deriving DecidableEq

def AdmissionPolicySpec.default : AdmissionPolicySpec where
  scope := ⟨[], []⟩
  signatureRequired := false
  severityThreshold := ⟨.default, .default⟩
  onUnknown := .block

structure AdmissionPolicy where
  id : Uuid
  (name tenant : String)
  spec : AdmissionPolicySpec
  enabled : Bool
  deriving DecidableEq

def globMatch (pattern value : String) : Bool :=
  match Text.stripSuffix pattern '*' with
  | some start => Text.startsWith value start
  | none => pattern = value

def AdmissionPolicy.matchesScope (policy : AdmissionPolicy) (project repository : String) : Bool :=
  let projectsOk := policy.spec.scope.projects.isEmpty ||
    policy.spec.scope.projects.any fun p => p = "*" || p = project
  let reposOk := policy.spec.scope.repositories.isEmpty ||
    policy.spec.scope.repositories.any fun r => r = "*" || r = repository || globMatch r repository
  projectsOk && reposOk

inductive AdmissionVerdict where
  | allow
  | warn (reason : String)
  | block (reason code : String)

def AdmissionVerdict.isBlock : AdmissionVerdict → Bool
  | .block _ _ => true
  | _ => false

/-- The verdicts of the cache, and how long each is kept. -/
structure DecisionCache where
  inner : TtlCache String AdmissionVerdict
  ttl : Time
  ttl_pos : 0 < ttl

/-- `DecisionCache::new`: at least one second. -/
def DecisionCache.new (ttlSecs : Nat) : DecisionCache where
  inner := ∅
  ttl := (max ttlSecs 1 * 1000000000 : Nat)
  ttl_pos := Int.natCast_pos.mpr (by omega)

def DecisionCache.get (cache : DecisionCache) (now : Time) (key : String) : Option AdmissionVerdict :=
  cache.inner.get now key

def DecisionCache.put (cache : DecisionCache) (now : Time) (key : String)
    (verdict : AdmissionVerdict) : DecisionCache :=
  { cache with inner := cache.inner.put now cache.ttl 10000 key verdict }

structure EvaluateInput where
  (tenant project repository digest : String)
  bypass : Bool
  signatureOk : Option Bool

def mergeVerdict : AdmissionVerdict → AdmissionVerdict → AdmissionVerdict
  | .block reason code, _ => .block reason code
  | _, .block reason code => .block reason code
  | .warn reason, .allow => .warn reason
  | .allow, .warn reason => .warn reason
  | first, _ => first

def unverified (reason : String) : AdmissionVerdict := .block reason "MANIFEST_UNVERIFIED"

/-- The verdict on a digest without a scan result. -/
def onUnknownVerdict (policy : AdmissionPolicy) : AdmissionVerdict :=
  match policy.spec.onUnknown with
  | .allow => .allow
  | .scan => .warn ("policy " ++ policy.name ++ ": no scan result; scan-on-pull deferred")
  | .block => unverified ("policy " ++ policy.name ++ ": no scan result for digest")

/-- The verdict on a list of findings; the scan's status is not consulted. -/
def thresholdVerdict (policy : AdmissionPolicy) (vulnerabilities : List Vulnerability) :
    AdmissionVerdict :=
  let blockEval := Policy.evaluate ⟨policy.spec.severityThreshold.block⟩ vulnerabilities
  let warnEval := Policy.evaluate ⟨policy.spec.severityThreshold.warn⟩ vulnerabilities
  if blockEval.status = .fail then
    unverified ("policy " ++ policy.name ++ ": " ++ blockEval.reason.getD "severity threshold exceeded")
  else if warnEval.status = .fail then
    .warn ("policy " ++ policy.name ++ ": " ++ warnEval.reason.getD "warn threshold exceeded")
  else .allow

def evaluateOne (policy : AdmissionPolicy) (scan : Option ScanResult) (signatureOk : Option Bool) :
    AdmissionVerdict :=
  if policy.spec.signatureRequired && signatureOk = some false then
    unverified ("policy " ++ policy.name ++ ": signature required but missing/invalid")
  else if policy.spec.signatureRequired && signatureOk = none then
    unverified ("policy " ++ policy.name ++ ": signature required")
  else match scan with
    | none => onUnknownVerdict policy
    | some result => thresholdVerdict policy result.vulnerabilities

def applicable (policies : List AdmissionPolicy) (input : EvaluateInput) : List AdmissionPolicy :=
  policies.filter fun p =>
    p.enabled && p.tenant = input.tenant && p.matchesScope input.project input.repository

def cacheKey (digest : String) (id : Uuid) : String := "admit:" ++ digest ++ ":" ++ id.hyphenated

/-- When a call reads the clock for a policy: to look for its verdict, and to store one. -/
structure Clock where
  (get put : Uuid → Time)

/-- One reading for a whole call. -/
def Clock.still (now : Time) : Clock := ⟨fun _ => now, fun _ => now⟩

/-- One pass of the loop of `evaluate`. -/
def evaluateStep (scan : Option ScanResult) (clock : Clock) (input : EvaluateInput)
    (state : AdmissionVerdict × DecisionCache) (policy : AdmissionPolicy) :
    AdmissionVerdict × DecisionCache :=
  let key := cacheKey input.digest policy.id
  match state.2.get (clock.get policy.id) key with
  | some cached => (mergeVerdict state.1 cached, state.2)
  | none =>
    let verdict := evaluateOne policy scan input.signatureOk
    (mergeVerdict state.1 verdict, state.2.put (clock.put policy.id) key verdict)

/-- `evaluate`, with the cache it leaves. -/
def evaluate (policies : List AdmissionPolicy) (scan : Option ScanResult) (cache : DecisionCache)
    (clock : Clock) (input : EvaluateInput) : AdmissionVerdict × DecisionCache :=
  if input.bypass then (.allow, cache)
  else if (applicable policies input).isEmpty then (.allow, cache)
  else (applicable policies input).foldl (evaluateStep scan clock input) (.allow, cache)

/-- `fetch_scan`: no store, no entry and a failing read all give no result. -/
def fetchScan (store : Option ScanStore) (succeeds : Bool) (digest : String) : Option ScanResult :=
  store.bind fun store => if succeeds then store.lookup digest else none

section Verdicts

variable {policy : AdmissionPolicy} {scan : Option ScanResult} {signatureOk : Option Bool}

theorem isBlock_mergeVerdict (first second : AdmissionVerdict) :
    (mergeVerdict first second).isBlock = (first.isBlock || second.isBlock) := by
  cases first <;> cases second <;> rfl

private theorem onUnknownVerdict_isBlock :
    (onUnknownVerdict policy).isBlock = true ↔ policy.spec.onUnknown = .block := by
  unfold onUnknownVerdict
  cases policy.spec.onUnknown <;> simp [unverified, AdmissionVerdict.isBlock]

private theorem thresholdVerdict_isBlock : (thresholdVerdict policy vulnerabilities).isBlock = true ↔
      (Policy.evaluate ⟨policy.spec.severityThreshold.block⟩ vulnerabilities).status = .fail := by
  simp only [thresholdVerdict]
  split
  · rename_i fails
    simp [unverified, AdmissionVerdict.isBlock, fails]
  · rename_i passes
    split <;> simp [AdmissionVerdict.isBlock, passes]

/-- The signature a policy asks for was not shown to be there. -/
def SignatureMissing (policy : AdmissionPolicy) (signatureOk : Option Bool) : Prop :=
  policy.spec.signatureRequired = true ∧ signatureOk ≠ some true

theorem evaluateOne_of_missing (scan : Option ScanResult) (missing : SignatureMissing policy signatureOk) :
    ∃ reason, evaluateOne policy scan signatureOk = unverified reason := by
  obtain ⟨required, unsigned⟩ := missing
  rcases signatureOk with _ | _ | _
  · exact ⟨_, by simp [evaluateOne, required]; rfl⟩
  · exact ⟨_, by simp [evaluateOne, required]; rfl⟩
  · exact absurd rfl unsigned

theorem evaluateOne_of_shown (shown : ¬ SignatureMissing policy signatureOk) :
    evaluateOne policy scan signatureOk =
      match scan with
      | none => onUnknownVerdict policy
      | some result => thresholdVerdict policy result.vulnerabilities := by
  cases required : policy.spec.signatureRequired with
  | false => simp [evaluateOne, required]
  | true =>
    have signed : signatureOk = some true := by
      by_contra unsigned
      exact shown ⟨required, unsigned⟩
    simp [evaluateOne, signed]

theorem evaluateOne_isBlock :
    (evaluateOne policy scan signatureOk).isBlock = true ↔ SignatureMissing policy signatureOk ∨
      (scan = none ∧ policy.spec.onUnknown = .block) ∨
      ∃ result, scan = some result ∧
        (Policy.evaluate ⟨policy.spec.severityThreshold.block⟩ result.vulnerabilities).status = .fail := by
  by_cases missing : SignatureMissing policy signatureOk
  · obtain ⟨reason, refused⟩ := evaluateOne_of_missing scan missing
    simp [refused, missing, unverified, AdmissionVerdict.isBlock]
  rw [evaluateOne_of_shown missing]
  cases scan with
  | none => simp [missing, onUnknownVerdict_isBlock]
  | some result => simp [missing, thresholdVerdict_isBlock]

end Verdicts

theorem evaluate_of_not_bypass (checked : input.bypass = false) : evaluate policies scan cache clock input =
      (applicable policies input).foldl (evaluateStep scan clock input) (.allow, cache) := by
  simp only [evaluate, checked, Bool.false_eq_true, ↓reduceIte]
  split
  · rename_i none
    rw [List.isEmpty_iff.mp none]
    rfl
  · rfl

/-- Digests may hold any text, but identifiers have one length. -/
theorem cacheKey_injective {digest other : String} {id second : Uuid}
    (same : cacheKey digest id = cacheKey other second) : digest = other ∧ id = second := by
  have chars := congrArg String.toList same
  simp only [cacheKey, String.toList_append, List.append_assoc] at chars
  have body := (List.append_inj chars rfl).2
  obtain ⟨digests, ids⟩ := List.append_inj' body (by simp [Uuid.hyphenated_length])
  have identifiers := (List.append_inj ids rfl).2
  exact ⟨String.toList_inj.mp digests, Uuid.hyphenated_injective (String.toList_inj.mp identifiers)⟩

end SpectonCr.Admission
