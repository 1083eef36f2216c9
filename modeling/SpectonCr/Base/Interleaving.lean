import SpectonCr.Base.Run
import SpectonCr.Base.Table

/-! Processes over a shared state, one atomic operation at a time. -/

namespace SpectonCr.Interleaving

/-- How requests are launched, and what the next operation of a flight does. Both give
the rest of the flight, or its answer. -/
structure Process (Request Shared Flight Answer : Type) where
  launch : Request → Flight ⊕ Answer
  operate : Flight → Shared → Shared × (Flight ⊕ Answer)

/-- The shared state and the flights under way. -/
structure Pool (Shared Flight : Type) where
  shared : Shared
  flights : Table Nat Flight

inductive Move (Request : Type) where
  | start (number : Nat) (request : Request)
  | advance (number : Nat)

variable {Request Shared Flight Answer : Type}

/-- The flights after one of them has gone on, or ended. -/
def settle (flights : Table Nat Flight) (number : Nat) : Flight ⊕ Answer → Table Nat Flight
  | .inl flight => flights.insert number flight
  | .inr _ => flights.erase number

/-- One move. A number in use is not started again. -/
def Process.step (process : Process Request Shared Flight Answer) (pool : Pool Shared Flight) :
    Move Request → Pool Shared Flight
  | .start number request =>
    if number ∈ pool.flights then pool
    else { pool with flights := settle pool.flights number (process.launch request) }
  | .advance number =>
    match pool.flights.lookup number with
    | none => pool
    | some flight =>
      let result := process.operate flight pool.shared
      ⟨result.1, settle pool.flights number result.2⟩

/-- A flight that no other one interrupts: the shared state it ends in, and its answer. -/
inductive Process.Alone (process : Process Request Shared Flight Answer) :
    Flight → Shared → Answer → Shared → Prop
  | finish {flight : Flight} {before after : Shared} {answer : Answer}
      (last : process.operate flight before = (after, .inr answer)) :
      process.Alone flight before answer after
  | advance {flight rest : Flight} {before middle after : Shared} {answer : Answer}
      (first : process.operate flight before = (middle, .inl rest))
      (later : process.Alone rest middle answer after) : process.Alone flight before answer after

/-- The rest of a flight that no other one interrupts, when there is a rest. -/
def Process.Ends (process : Process Request Shared Flight Answer) (result : Flight ⊕ Answer)
    (before : Shared) (answer : Answer) (after : Shared) : Prop :=
  match result with
  | .inl flight => process.Alone flight before answer after
  | .inr given => answer = given ∧ after = before

/-- A request that no other one interrupts. -/
def Process.Serves (process : Process Request Shared Flight Answer) (request : Request)
    (before : Shared) (answer : Answer) (after : Shared) : Prop :=
  process.Ends (process.launch request) before answer after

variable {process : Process Request Shared Flight Answer} {pool : Pool Shared Flight}

theorem lookup_settle (found : (settle flights number result).lookup other = some flight) :
    (other = number ∧ result = .inl flight) ∨ (other ≠ number ∧ flights.lookup other = some flight) := by
  cases result with
  | inl rest => exact (Table.lookup_insert_cases found).imp_left fun both => ⟨both.1, congrArg Sum.inl both.2⟩
  | inr answer => exact .inr (Table.lookup_erase_cases found)

theorem lookup_settle_ne (apart : other ≠ number) (result : Flight ⊕ Answer) :
    (settle flights number result).lookup other = flights.lookup other := by
  cases result with
  | inl rest => exact AList.lookup_insert_ne apart
  | inr answer => exact AList.lookup_erase_ne apart

/-- Everything a move can do. -/
theorem Process.step_cases (process : Process Request Shared Flight Answer)
    (pool : Pool Shared Flight) (move : Move Request) :
    process.step pool move = pool ∨
    (∃ number request, move = .start number request ∧ number ∉ pool.flights ∧ process.step pool move =
        { pool with flights := settle pool.flights number (process.launch request) }) ∨
    ∃ number flight, move = .advance number ∧ pool.flights.lookup number = some flight ∧
      process.step pool move = ⟨(process.operate flight pool.shared).1,
        settle pool.flights number (process.operate flight pool.shared).2⟩ := by
  cases move with
  | start number request =>
    by_cases used : number ∈ pool.flights
    · exact .inl (if_pos used)
    · exact .inr (.inl ⟨number, request, rfl, used, if_neg used⟩)
  | advance number =>
    cases found : pool.flights.lookup number with
    | none => exact .inl (by simp only [step, found])
    | some flight => exact .inr (.inr ⟨number, flight, rfl, found, by simp only [step, found]⟩)

end SpectonCr.Interleaving
