import Mathlib

/-! Finite runs of a step function, and their invariants. -/

namespace SpectonCr.Run

universe u v

variable {State : Type u} {Event : Type v}

/-- The state after a list of events. -/
def after (step : State → Event → State) (start : State) (events : List Event) : State :=
  events.foldl step start

/-- `holds` is true of every event together with the state it is taken in. -/
def Along (step : State → Event → State) (holds : State → Event → Prop) : State → List Event → Prop
  | _, [] => True
  | state, event :: rest => holds state event ∧ Along step holds (step state event) rest

instance Along.decide (step : State → Event → State) (holds : State → Event → Prop)
    [∀ state event, Decidable (holds state event)] :
    ∀ start events, Decidable (Along step holds start events)
  | _, [] => .isTrue trivial
  | start, event :: rest =>
    have := Along.decide step holds (step start event) rest
    inferInstanceAs (Decidable (holds start event ∧ Along step holds (step start event) rest))

variable {step : State → Event → State} {holds guard : State → Event → Prop}

theorem Along.append {start : State} {front back : List Event} : Along step holds start (front ++ back) ↔
      Along step holds start front ∧ Along step holds (after step start front) back := by
  induction front generalizing start with
  | nil => simp [Along, after]
  | cons event rest ih => simp [Along, after, ih, and_assoc]

/-- Every event of a run, with the state its prefix reaches, meets the predicate. -/
theorem Along.at_event (along : Along step holds start (front ++ event :: back)) :
    holds (after step start front) event :=
  (Along.append.mp along).2.1

/-- What an event brings about, and no event undoes. -/
theorem foldl_iff (Kept : State → Prop) {brings : Event → Prop}
    (one : ∀ state event, Kept (step state event) ↔ brings event ∨ Kept state)
    {start : State} {events : List Event} :
    Kept (events.foldl step start) ↔ (∃ event ∈ events, brings event) ∨ Kept start := by
  induction events generalizing start with
  | nil => simp
  | cons event rest ih =>
    rw [List.foldl_cons, ih, one, List.exists_mem_cons_iff, or_left_comm, or_assoc]

variable (Inv : State → Prop)

/-- An invariant kept by every guarded step holds at the end of a guarded run. -/
theorem after_invariant (preserves : ∀ state event, Inv state → guard state event → Inv (step state event))
    (initial : Inv start) (guarded : Along step guard start events) : Inv (after step start events) := by
  induction events generalizing start with
  | nil => exact initial
  | cons event rest ih => exact ih (preserves start event initial guarded.1) guarded.2

/-- What an invariant and a guard give for one step, a guarded run gives for
every step it takes. -/
theorem along_of_invariant {Inv : State → Prop}
    (preserves : ∀ state event, Inv state → guard state event → Inv (step state event))
    (safe : ∀ state event, Inv state → guard state event → holds state event)
    {start : State} {events : List Event} (initial : Inv start)
    (guarded : Along step guard start events) : Along step holds start events := by
  induction events generalizing start with
  | nil => trivial
  | cons event rest ih =>
    exact ⟨safe start event initial guarded.1, ih (preserves start event initial guarded.1) guarded.2⟩

theorem along_true (start : State) (events : List Event) : Along step (fun _ _ => True) start events := by
  induction events generalizing start with
  | nil => trivial
  | cons event rest ih => exact ⟨trivial, ih _⟩

/-- Where a predicate and a guard agree in every state of an invariant the predicate keeps, they
agree along every run. -/
theorem along_iff_of_invariant
    (agree : ∀ state event, Inv state → context state event → (holds state event ↔ guard state event))
    (keeps : ∀ state event, Inv state → context state event → holds state event → Inv (step state event))
    (initial : Inv start) (within : Along step context start events) :
    Along step holds start events ↔ Along step guard start events := by
  induction events generalizing start with
  | nil => exact Iff.rfl
  | cons event rest ih =>
    have here := agree start event initial within.1
    constructor
    · rintro ⟨first, later⟩
      have next := keeps start event initial within.1 first
      exact ⟨here.mp first, (ih next within.2).mp later⟩
    · rintro ⟨first, later⟩
      have next := keeps start event initial within.1 (here.mpr first)
      exact ⟨here.mpr first, (ih next within.2).mpr later⟩

/-- Where a step keeps an invariant exactly if it meets the guard, the invariant holds along a run
exactly if every step meets it. -/
theorem along_invariant_iff
    (exact_guard : ∀ state event, Inv state → (Inv (step state event) ↔ guard state event))
    (initial : Inv start) :
    Along step (fun state event => Inv (step state event)) start events ↔ Along step guard start events :=
  along_iff_of_invariant Inv (fun state event kept _ => exact_guard state event kept)
    (fun _ _ _ _ kept => kept) initial (along_true start events)

/-- Where a step leaves a fact exactly if it held and the step meets the guard, a run leaves it
exactly if it held and every step meets the guard. -/
theorem after_iff_along (Kept : State → Prop)
    (exact_step : ∀ state event, Kept (step state event) ↔ Kept state ∧ guard state event) (start : State)
    (events : List Event) : Kept (after step start events) ↔ Kept start ∧ Along step guard start events := by
  induction events generalizing start with
  | nil => exact (and_iff_left trivial).symm
  | cons event rest ih =>
    have later := ih (step start event)
    rw [exact_step, and_assoc] at later
    exact later

theorem along_and_forall {extra : Event → Prop} {start : State} {events : List Event} :
    Along step (fun state event => holds state event ∧ extra event) start events ↔
      Along step holds start events ∧ ∀ event ∈ events, extra event := by
  induction events generalizing start with
  | nil => simp [Along]
  | cons event rest ih =>
    simp only [Along, ih, List.forall_mem_cons]
    constructor
    · rintro ⟨⟨first, here⟩, later, others⟩
      exact ⟨⟨first, later⟩, here, others⟩
    · rintro ⟨⟨first, later⟩, here, others⟩
      exact ⟨⟨first, here⟩, later, others⟩

theorem along_congr (same : ∀ state event, holds state event ↔ guard state event) :
    Along step holds start events ↔ Along step guard start events := by
  induction events generalizing start with
  | nil => exact Iff.rfl
  | cons event rest ih => simp only [Along, same, ih]

end SpectonCr.Run
