import SpectonCr.Base.Text

namespace SpectonCr.Scanner

inductive Severity where
  | critical
  | high
  | medium
  | low
  | unknown
  deriving DecidableEq

/-- A finding, with the fields the policy engine reads. -/
structure Vulnerability where
  id : String
  severity : Severity
  suppressed : Bool
  deriving DecidableEq

structure ScanSummary where
  (critical high medium low unknown : Nat)
  deriving DecidableEq

def ScanSummary.default : ScanSummary := ⟨0, 0, 0, 0, 0⟩

def ScanSummary.add (summary : ScanSummary) : Severity → ScanSummary
  | .critical => { summary with critical := summary.critical + 1 }
  | .high => { summary with high := summary.high + 1 }
  | .medium => { summary with medium := summary.medium + 1 }
  | .low => { summary with low := summary.low + 1 }
  | .unknown => { summary with unknown := summary.unknown + 1 }

/-- The counts of the findings that are not suppressed. -/
def summarize (vulnerabilities : List Vulnerability) : ScanSummary :=
  (vulnerabilities.filter fun finding => !finding.suppressed).foldl
    (fun summary finding => summary.add finding.severity) .default

structure BlockRules where
  (critical high medium low : Option String)
  deriving DecidableEq

def BlockRules.default : BlockRules := ⟨none, none, none, none⟩

structure Policy where
  blockIf : BlockRules
  deriving DecidableEq

structure PolicyViolation where
  severity : Severity
  count : Nat
  threshold : String
  deriving DecidableEq

inductive PolicyStatus where
  | pass
  | fail
  deriving DecidableEq

structure PolicyEvaluation where
  status : PolicyStatus
  violations : List PolicyViolation
  reason : Option String
  deriving DecidableEq

/-- The comparison a rule's operator stands for, and the text after it. -/
def operator (rule : String) : Option ((Nat → Nat → Bool) × String) :=
  match Text.stripPrefix rule ">=" with
  | some rest => some (fun count threshold => decide (threshold ≤ count), rest)
  | none => match Text.stripPrefix rule "<=" with
    | some rest => some (fun count threshold => decide (count ≤ threshold), rest)
    | none => match Text.stripPrefix rule ">" with
      | some rest => some (fun count threshold => decide (threshold < count), rest)
      | none => match Text.stripPrefix rule "<" with
        | some rest => some (fun count threshold => decide (count < threshold), rest)
        | none => match Text.stripPrefix rule "=" with
          | some rest => some (fun count threshold => decide (count = threshold), rest)
          | none => none

/-- `compare`: a rule that does not parse never fires. -/
def compare (count : Nat) (rule : String) : Bool :=
  match operator (Text.trim rule) with
  | none => false
  | some (holds, rest) =>
    match Text.parseU32 (Text.trim rest) with
    | none => false
    | some threshold => holds count threshold

def Policy.check (severity : Severity) (count : Nat) (rule : Option String) : List PolicyViolation :=
  match rule with
  | none => []
  | some rule => if compare count rule then [⟨severity, count, rule⟩] else []

def Policy.violations (policy : Policy) (summary : ScanSummary) : List PolicyViolation :=
  check .critical summary.critical policy.blockIf.critical ++ check .high summary.high policy.blockIf.high ++
    check .medium summary.medium policy.blockIf.medium ++
    check .low summary.low policy.blockIf.low

def Policy.evaluate (policy : Policy) (vulnerabilities : List Vulnerability) : PolicyEvaluation :=
  match policy.violations (summarize vulnerabilities) with
  | [] => ⟨.pass, [], none⟩
  | violations => ⟨.fail, violations, some (toString violations.length ++ " policy violation(s)")⟩

/-- The rules that are set. -/
def BlockRules.all (rules : BlockRules) : List String :=
  rules.critical.toList ++ rules.high.toList ++ rules.medium.toList ++ rules.low.toList

theorem Policy.evaluate_fail_iff {policy : Policy} {vulnerabilities : List Vulnerability} :
    (policy.evaluate vulnerabilities).status = .fail ↔
      policy.violations (summarize vulnerabilities) ≠ [] := by
  unfold Policy.evaluate
  split
  · rename_i none
    simp [none]
  · rename_i some
    simpa using some

private theorem check_ne_nil :
    Policy.check severity count rule ≠ [] ↔ ∃ text ∈ rule, compare count text = true := by
  cases rule with
  | none => simp [Policy.check]
  | some text => cases fires : compare count text <;> simp [Policy.check, fires]

/-- Without findings a policy fails only through a rule that zero satisfies. -/
theorem Policy.evaluate_nil_fail_iff {rules : BlockRules} :
    (Policy.evaluate ⟨rules⟩ []).status = .fail ↔ ∃ rule ∈ rules.all, compare 0 rule = true := by
  have counts : summarize [] = .default := rfl
  have either : ∀ front back : List PolicyViolation, front ++ back ≠ [] ↔ front ≠ [] ∨ back ≠ [] := by
    intro front back
    rw [ne_eq, List.append_eq_nil_iff, not_and_or]
  rw [Policy.evaluate_fail_iff, counts, Policy.violations]
  simp only [either, check_ne_nil, ScanSummary.default, BlockRules.all, List.mem_append,
    Option.mem_toList, Option.mem_def, or_and_right, exists_or]

end SpectonCr.Scanner
