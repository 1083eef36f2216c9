import SpectonCr.Base.Interleaving

namespace SpectonCr.Resilience

open Interleaving

structure CircuitBreakerConfig where
  (failureThreshold successThreshold openDurationSecs : Nat)

inductive BreakerState where
  | closed (consecutiveFailures : Nat)
  | opened (openedAt : Nat)
  | halfOpen (consecutiveSuccesses : Nat)

/-- A breaker, and the clock in nanoseconds. -/
structure CircuitBreaker where
  state : BreakerState
  now : Nat

inductive CircuitBreakerCallError (Error : Type) where
  | breakerOpen (name : String)
  | inner (error : Error)

/-- A call of `call_classified`, by what its operation answers. -/
structure Call (Value Error : Type) where
  result : Except Error Value
  isFailure : Error → Bool

/-- A call by its next access to the state, and when it was checked. -/
inductive Flight (Value Error : Type) where
  | checking (call : Call Value Error)
  | admitted (call : Call Value Error) (checkedAt : Nat)
  | executing (call : Call Value Error)

inductive Event (Value Error : Type) where
  | tick (elapsed : Nat)
  | move (move : Move (Call Value Error))

abbrev Calls (Value Error : Type) := Pool CircuitBreaker (Flight Value Error)

namespace CircuitBreaker

variable (config : CircuitBreakerConfig) (name : String) (breaker : CircuitBreaker) {Value Error : Type}

def recordSuccess : CircuitBreaker :=
  { breaker with state := match breaker.state with
    | .closed _ | .opened _ => .closed 0
    | .halfOpen successes =>
      if config.successThreshold ≤ successes + 1 then .closed 0 else .halfOpen (successes + 1) }

def recordFailure : CircuitBreaker :=
  { breaker with state := match breaker.state with
    | .closed failures =>
      if config.failureThreshold ≤ failures + 1 then .opened breaker.now else .closed (failures + 1)
    | .opened openedAt => .opened openedAt
    | .halfOpen _ => .opened breaker.now }

/-- Whether the breaker is open for less than its duration. -/
def refuses : Bool :=
  match breaker.state with
  | .opened openedAt => breaker.now - openedAt < config.openDurationSecs * 1000000000
  | _ => false

/-- The transition before the operation of a call. -/
def toHalfOpen : CircuitBreaker :=
  match breaker.state with
  | .opened _ => if breaker.refuses config then breaker else { breaker with state := .halfOpen 0 }
  | _ => breaker

def record (call : Call Value Error) : CircuitBreaker :=
  match call.result with
  | .ok _ => breaker.recordSuccess config
  | .error error => if call.isFailure error then breaker.recordFailure config else breaker.recordSuccess config

def callClassified : Process (Call Value Error) CircuitBreaker (Flight Value Error)
    (Except (CircuitBreakerCallError Error) Value) where
  launch call := .inl (.checking call)
  operate flight breaker := match flight with
    | .checking call => (breaker, if breaker.refuses config then .inr (.error (.breakerOpen name))
        else .inl (.admitted call breaker.now))
    | .admitted call _ => (breaker.toHalfOpen config, .inl (.executing call))
    | .executing call => (breaker.record config call, .inr (call.result.mapError .inner))

def step (pool : Calls Value Error) : Event Value Error → Calls Value Error
  | .tick elapsed => { pool with shared := { pool.shared with now := pool.shared.now + elapsed } }
  | .move move => (callClassified config name).step pool move

/-- A call that starts its operation while the breaker stays open was checked before it opened. -/
def StartsInTime (pool : Calls Value Error) : Event Value Error → Prop
  | .tick _ | .move (.start _ _) => True
  | .move (.advance number) => ∀ call checkedAt openedAt,
    pool.flights.lookup number = some (.admitted call checkedAt) →
    (step config name pool (.move (.advance number))).shared.state = .opened openedAt → checkedAt ≤ openedAt

/-- A call checked then either came before the breaker opened or after its duration. -/
def Admits (checkedAt : Nat) : Prop :=
  checkedAt ≤ breaker.now ∧ ∀ openedAt, breaker.state = .opened openedAt →
    checkedAt ≤ openedAt ∨ config.openDurationSecs * 1000000000 ≤ checkedAt - openedAt

/-- What an operation makes of the calls that were checked, and of its own. -/
theorem operate_admits (flight : Flight Value Error) :
    let result := (callClassified config name).operate flight breaker
    (∀ checkedAt, breaker.Admits config checkedAt → result.1.Admits config checkedAt) ∧
      ∀ call checkedAt, result.2 = .inl (.admitted call checkedAt) → result.1.Admits config checkedAt := by
  cases flight with
  | checking call => grind [callClassified, Admits, refuses]
  | admitted call checkedAt => grind [callClassified, Admits, toHalfOpen]
  | executing call => grind [callClassified, Admits, record, recordSuccess, recordFailure]

def AdmitsAll (pool : Calls Value Error) : Prop :=
  ∀ number call checkedAt, pool.flights.lookup number = some (.admitted call checkedAt) →
    pool.shared.Admits config checkedAt

variable {config}

theorem AdmitsAll.step (admits : AdmitsAll config pool) (event : Event Value Error) :
    AdmitsAll config (step config name pool event) := by
  intro number call checkedAt found
  cases event with
  | tick elapsed =>
    obtain ⟨past, apart⟩ := admits number call checkedAt found
    exact ⟨past.trans (Nat.le_add_right _ _), apart⟩
  | move move =>
    simp only [CircuitBreaker.step] at found ⊢
    rcases (callClassified config name).step_cases pool move with
      same | ⟨_, _, _, _, same⟩ | ⟨_, flight, _, _, same⟩ <;> rw [same] at found ⊢
    · exact admits number call checkedAt found
    · rcases lookup_settle found with ⟨_, launched⟩ | ⟨_, before⟩
      · cases launched
      · exact admits number call checkedAt before
    · have operated := operate_admits config name pool.shared flight
      rcases lookup_settle found with ⟨_, rest⟩ | ⟨_, before⟩
      · exact operated.2 call checkedAt rest
      · exact operated.1 checkedAt (admits number call checkedAt before)

variable (config)

/-- In every interleaving of calls of a new breaker, with time passing. -/
theorem operations_start_in_time (now : Nat) (events : List (Event Value Error)) :
    Run.Along (step config name) (StartsInTime config name) ⟨⟨.closed 0, now⟩, ∅⟩ events := by
  have initial : AdmitsAll config (⟨⟨.closed 0, now⟩, ∅⟩ : Calls Value Error) := by
    intro number call checkedAt found
    cases found
  refine Run.along_of_invariant (fun _ event admits _ => admits.step name event) ?_ initial
    (Run.along_true _ _)
  rintro pool (_ | _ | number) admits _
  · trivial
  · trivial
  · intro call checkedAt openedAt found opened
    have admitted := admits number call checkedAt found
    simp only [step, Process.step, found, callClassified] at opened
    grind [Admits, toHalfOpen, refuses]

end CircuitBreaker

end SpectonCr.Resilience
