import Mathlib

namespace SpectonCr

variable {Error Value Seen : Type}

theorem bind_ok {First : Type} {result : Except Error First} {next : First → Except Error Value}
    {value : Value} (success : result.bind next = .ok value) :
    ∃ first, result = .ok first ∧ next first = .ok value := by
  cases result with
  | error _ => cases success
  | ok first => exact ⟨first, rfl, success⟩

theorem toOption_eq_some {result : Except Error Value} {value : Value} :
    result.toOption = some value ↔ result = .ok value := by
  cases result <;> simp [Except.toOption]

theorem exists_ok_of_map {result : Except Error Value} {see : Value → Seen} {seen : Seen}
    (shown : result.toOption.map see = some seen) : ∃ value, result = .ok value ∧ see value = seen := by
  obtain ⟨value, present, same⟩ := Option.map_eq_some_iff.mp shown
  exact ⟨value, toOption_eq_some.mp present, same⟩

/-- A call over a list succeeds exactly if it does for each element. -/
theorem mapM_ok_iff {Item : Type} {call : Item → Except Error Value} {items : List Item} {values : List Value} :
    items.mapM call = .ok values ↔ List.Forall₂ (fun item value => call item = .ok value) items values := by
  induction items generalizing values with
  | nil => simp [pure, Except.pure, eq_comm]
  | cons head rest ih =>
    simp only [List.mapM_cons, List.forall₂_cons_left_iff, ← ih]
    constructor
    · intro success
      obtain ⟨first, headed, success⟩ := bind_ok success
      obtain ⟨others, remaining, success⟩ := bind_ok success
      exact ⟨first, others, headed, remaining, (Except.ok.inj success).symm⟩
    · rintro ⟨first, others, headed, remaining, rfl⟩
      rw [headed, remaining]
      rfl

theorem mem_of_mapM_ok {Item : Type} {call : Item → Except Error Value} {items : List Item}
    {values : List Value} (success : items.mapM call = .ok values) {item : Item}
    (member : item ∈ items) {value : Value} (here : call item = .ok value) : value ∈ values := by
  rw [mapM_ok_iff] at success
  induction success with
  | nil => cases member
  | cons headed _ ih =>
    rcases List.mem_cons.mp member with rfl | later
    · rw [Except.ok.inj (headed.symm.trans here)]
      exact List.mem_cons_self
    · exact List.mem_cons_of_mem _ (ih later)

section Effects

variable {State First : Type}

/-- Goes on after a success, in the state it was reached in. -/
def andThen (first : Except Error First × State)
    (next : First → State → Except Error Value × State) : Except Error Value × State :=
  match first with
  | (.error failure, state) => (.error failure, state)
  | (.ok value, state) => next value state

@[simp] theorem andThen_ok (value : First) (state : State)
    (next : First → State → Except Error Value × State) :
    andThen (.ok value, state) next = next value state := rfl

@[simp] theorem andThen_error (failure : Error) (state : State)
    (next : First → State → Except Error Value × State) :
    andThen (.error failure, state) next = (.error failure, state) := rfl

theorem andThen_assoc {Middle : Type} (first : Except Error First × State)
    (second : First → State → Except Error Middle × State)
    (third : Middle → State → Except Error Value × State) :
    andThen (andThen first second) third =
      andThen first fun value state => andThen (second value state) third := by
  obtain ⟨answer, state⟩ := first
  cases answer with
  | error failure | ok value => rfl

end Effects

end SpectonCr
