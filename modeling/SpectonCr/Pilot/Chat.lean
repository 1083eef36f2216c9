import Mathlib

namespace SpectonCr.Pilot

inductive ChatRole where
  | user
  | assistant
  | tool

structure ChatMessage where
  role : ChatRole
  content : String
  (toolName toolUseId : Option String)

structure LlmToolCall (Input : Type) where
  (id name : String)
  input : Input

inductive LlmStep (Input : Type) where
  | text (text : String)
  | toolCalls (calls : List (LlmToolCall Input))

/-- The errors of a turn; `overflow` is the panic where `rounds` leaves its 32 bits. -/
inductive ChatError where
  | llm (error : String)
  | maxRounds (rounds : Nat)
  | budget (reason : String)
  | overflow

structure ChatConfig where
  (maxToolRounds tokensPerStep : Nat)

/-- What a turn meets: the model at its steps, the text of a tool's outcome, and `check_and_add` at the
steps, if there is a budget. -/
structure Surroundings (Input : Type) where
  llm : Nat → List ChatMessage → Except String (LlmStep Input)
  invoke : List ChatMessage → LlmToolCall Input → String
  budget : Option (Nat → Nat → Except String Nat)

/-- The history, the tokens of each charge, and the model steps made and dispatched. -/
structure Turn where
  history : List ChatMessage
  charges : List Nat
  (steps dispatched : Nat)

def Turn.start (history : List ChatMessage) (userInput : String) : Turn :=
  ⟨history ++ [⟨.user, userInput, none, none⟩], [], 0, 0⟩

variable {Input : Type} (env : Surroundings Input) (config : ChatConfig)

def charge (turn : Turn) : Except String Turn :=
  match env.budget with
  | none => .ok turn
  | some checkAndAdd => (checkAndAdd turn.steps config.tokensPerStep).map fun _ =>
      { turn with charges := turn.charges ++ [config.tokensPerStep] }

def dispatch (calls : List (LlmToolCall Input)) (turn : Turn) : Turn :=
  { turn with
    dispatched := turn.dispatched + if calls.isEmpty then 0 else 1
    history := calls.foldl (fun history call =>
      history ++ [⟨.tool, env.invoke history call, some call.name, some call.id⟩]) turn.history }

def roundLoop (rounds : Nat) (turn : Turn) : Except ChatError Nat × Turn :=
  if config.maxToolRounds < rounds then (.error (.maxRounds config.maxToolRounds), turn)
  else match charge env config turn with
    | .error reason => (.error (.budget reason), turn)
    | .ok charged =>
      let made := { charged with steps := charged.steps + 1 }
      match env.llm rounds charged.history with
      | .error error => (.error (.llm error), made)
      | .ok (.text text) =>
        (.ok rounds, { made with history := made.history ++ [⟨.assistant, text, none, none⟩] })
      | .ok (.toolCalls calls) =>
        if rounds + 1 = 2 ^ 32 then (.error .overflow, made)
        else roundLoop (rounds + 1) (dispatch env calls made)
termination_by config.maxToolRounds + 1 - rounds

def runTurnWithBudget (history : List ChatMessage) (userInput : String) : Except ChatError Nat × Turn :=
  roundLoop env config 0 (.start history userInput)

/-- The model asks for tools in each of the next steps, and the budget allows them. -/
def Asks : Nat → Nat → Turn → Prop
  | 0, _, _ => True
  | count + 1, rounds, turn => ∃ charged calls, charge env config turn = .ok charged ∧
      env.llm rounds charged.history = .ok (.toolCalls calls) ∧ calls ≠ [] ∧
        Asks count (rounds + 1) (dispatch env calls { charged with steps := charged.steps + 1 })

/-- The rounds are bounded, the bound is reported, and every step is charged once. -/
structure Bounded (asks : Prop) (result : Except ChatError Nat × Turn) : Prop where
  dispatched : result.2.dispatched ≤ config.maxToolRounds
  reported : asks → result.1 = .error (.maxRounds config.maxToolRounds)
  charged : env.budget.isSome = true → result.2.charges = List.replicate result.2.steps config.tokensPerStep

/-- A charge that is granted is recorded, and nothing else changes. -/
theorem charge_ok (charged : charge env config turn = .ok later) :
    later.dispatched = turn.dispatched ∧ later.steps = turn.steps ∧
      (env.budget.isSome = true → later.charges = turn.charges ++ [config.tokensPerStep]) := by
  unfold charge at charged
  split at charged
  · rename_i absent
    cases charged
    simp [absent]
  · rename_i checkAndAdd _
    cases answer : checkAndAdd turn.steps config.tokensPerStep <;> rw [answer] at charged <;> cases charged
    exact ⟨rfl, rfl, fun _ => rfl⟩

/-- Within the rounds that are left, all are dispatched exactly if the model asks for all of them. -/
theorem roundLoop_dispatched (left : Nat) (ahead : rounds + left = config.maxToolRounds + 1) (turn : Turn) :
    (roundLoop env config rounds turn).2.dispatched ≤ turn.dispatched + left ∧
    (Asks env config left rounds turn → (roundLoop env config rounds turn).1 = .error .overflow ∨
      (roundLoop env config rounds turn).2.dispatched = turn.dispatched + left) ∧
    (¬ Asks env config left rounds turn →
      (roundLoop env config rounds turn).2.dispatched < turn.dispatched + left) := by
  induction left generalizing rounds turn with
  | zero =>
    rw [roundLoop, if_pos (by omega)]
    simp [Asks]
  | succ left ih =>
    rw [roundLoop, if_neg (by omega)]
    cases charged : charge env config turn with
    | error reason => simp [Asks, charged]
    | ok later =>
      obtain ⟨same, _⟩ := charge_ok env config charged
      simp only [Asks, charged]
      cases stepped : env.llm rounds later.history with
      | error error => simp [same, stepped]
      | ok step =>
        cases step with
        | text text => simp [same, stepped]
        | toolCalls calls =>
          dsimp only
          split
          · exact ⟨by simp [same], fun _ => .inl rfl, fun _ => by simp [same]⟩
          obtain ⟨most, all, fewer⟩ := ih (by omega : rounds + 1 + left = _)
            (dispatch env calls { later with steps := later.steps + 1 })
          rw [show (dispatch env calls { later with steps := later.steps + 1 }).dispatched =
            turn.dispatched + if calls.isEmpty then 0 else 1 from same ▸ rfl] at most all fewer
          cases calls with
          | nil =>
            simp only [List.isEmpty_nil, if_true] at most
            simp [stepped]
            omega
          | cons call others =>
            simp only [List.isEmpty_cons, Bool.false_eq_true, if_false] at most all fewer
            simp [stepped]
            refine ⟨by omega, fun asks => (all asks).imp_right (by omega), fun quiet => ?_⟩
            have few := fewer quiet
            omega

/-- A model that asks for one round too many meets the bound, or the end of the counter. -/
theorem roundLoop_asked (ahead : rounds + left = config.maxToolRounds + 1) (asks : Asks env config left rounds turn) :
    (roundLoop env config rounds turn).1 = .error (.maxRounds config.maxToolRounds) ∨
      (roundLoop env config rounds turn).1 = .error .overflow := by
  induction left generalizing rounds turn with
  | zero =>
    rw [roundLoop, if_pos (by omega)]
    exact .inl rfl
  | succ left ih =>
    obtain ⟨charged, calls, granted, stepped, _, later⟩ := asks
    rw [roundLoop, if_neg (by omega), granted]
    simp only [stepped]
    split
    · exact .inr rfl
    · exact ih (by omega) later

theorem roundLoop_charged (budgeted : env.budget.isSome = true)
    (before : turn.charges = List.replicate turn.steps config.tokensPerStep) :
    (roundLoop env config rounds turn).2.charges =
      List.replicate (roundLoop env config rounds turn).2.steps config.tokensPerStep := by
  have kept : ∀ {turn later : Turn}, charge env config turn = .ok later →
      turn.charges = List.replicate turn.steps config.tokensPerStep →
        later.charges = List.replicate (later.steps + 1) config.tokensPerStep := by
    intro turn later charged before
    obtain ⟨_, steps, charges⟩ := charge_ok env config charged
    rw [charges budgeted, before, steps, List.replicate_succ']
  fun_induction roundLoop env config rounds turn with
  | case1 | case2 => exact before
  | case6 rounds turn _ later charged made calls stepped _ ih => exact ih (kept charged before)
  | case3 rounds turn _ later charged | case4 rounds turn _ later charged
  | case5 rounds turn _ later charged => exact kept charged before

/-- The rounds are as configured exactly if the model does not ask for one round too many. -/
theorem turn_bounded_iff (history : List ChatMessage) (userInput : String) :
    Bounded env config (Asks env config (config.maxToolRounds + 1) 0 (.start history userInput))
        (runTurnWithBudget env config history userInput) ↔
      ¬ Asks env config (config.maxToolRounds + 1) 0 (.start history userInput) := by
  obtain ⟨_, more, fewer⟩ := roundLoop_dispatched env config (config.maxToolRounds + 1) (Nat.zero_add _)
    (.start history userInput)
  constructor
  · intro bounded asked
    rcases more asked with trapped | all
    · cases trapped.symm.trans (bounded.reported asked)
    · have few := bounded.dispatched
      rw [runTurnWithBudget, all] at few
      simp [Turn.start] at few
  · intro quiet
    refine ⟨?_, fun asked => absurd asked quiet, fun budgeted => roundLoop_charged env config budgeted rfl⟩
    simpa [runTurnWithBudget, Turn.start, Nat.lt_succ_iff] using fewer quiet

/-- Without any round allowed, the tools of one step are called. -/
theorem no_rounds_dispatch : (runTurnWithBudget
    ⟨fun _ _ => .ok (.toolCalls [⟨"1", "ping", ()⟩]), fun _ _ => "pong", none⟩ ⟨0, 1500⟩ [] "").2.dispatched = 1 := by
  decide +kernel

end SpectonCr.Pilot
