import Mathlib

/-! The retry loop of `retry.rs`. The waits between two attempts carry no data. -/

namespace SpectonCr.Resilience

structure RetryPolicy where
  maxRetries : Nat

variable {State Error Value : Type}

/-- The loop of `execute` from an attempt on, with the retries it has left. -/
def retryFrom (operation : Nat → State → Except Error Value × State) :
    Nat → Nat → State → Except Error Value × State
  | 0, attempt, state => operation attempt state
  | left + 1, attempt, state =>
    match operation attempt state with
    | (.ok value, after) => (.ok value, after)
    | (.error _, after) => retryFrom operation left (attempt + 1) after

/-- `RetryPolicy::execute` of an operation that may change a state whether it fails or not. -/
def RetryPolicy.execute (policy : RetryPolicy)
    (operation : Nat → State → Except Error Value × State) (state : State) :
    Except Error Value × State :=
  retryFrom operation policy.maxRetries 0 state

variable {operation : Nat → State → Except Error Value × State}

/-- A success is the success of the last attempt, after failed ones. -/
theorem RetryPolicy.execute_ok {policy : RetryPolicy} (Reached : State → Prop)
    (failing : ∀ attempt state failure after, Reached state →
      operation attempt state = (.error failure, after) → Reached after) {state after : State} {value : Value}
    (start : Reached state) (success : policy.execute operation state = (.ok value, after)) :
    ∃ last before, Reached before ∧ operation last before = (.ok value, after) := by
  unfold execute at success
  generalize policy.maxRetries = left, 0 = attempt at success
  induction left generalizing attempt state with
  | zero => exact ⟨attempt, state, start, success⟩
  | succ left ih =>
    rw [retryFrom] at success
    split at success
    · rename_i given reached first
      rw [success] at first
      exact ⟨attempt, state, start, first⟩
    · rename_i failure reached first
      exact ih (failing attempt state failure reached start first) _ success

end SpectonCr.Resilience
