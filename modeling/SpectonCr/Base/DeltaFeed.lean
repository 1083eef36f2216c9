import Mathlib

/-! Incremental reading of a listing, page by page. -/

namespace SpectonCr.DeltaFeed

section Pages

variable {Pos Item State Error : Type}

/-- How a walk over pages ends: after the last page, with a fetch that failed, or at an item that
stops the process. -/
inductive Ending (Error : Type) where
  | finished
  | failed (error : Error)
  | stopped
  deriving DecidableEq

/-- The items of a page in order, each with its number; `false` after one that stops. -/
def handleAll (handle : Nat → State → Item → State × Bool) : Nat → State → List Item → State × Bool
  | _, state, [] => (state, true)
  | number, state, item :: rest =>
    match handle number state item with
    | (state, false) => (state, false)
    | (state, true) => handleAll handle (number + 1) state rest

/-- Fetches and handles page after page, at most as many as the fuel says. -/
def walk (fetch : Pos → Except Error (List Item × Option Pos)) (handle : Nat → State → Item → State × Bool) :
    Nat → Pos → Nat → State → State × Ending Error
  | 0, _, _, state => (state, .stopped)
  | fuel + 1, pos, number, state =>
    match fetch pos with
    | .error error => (state, .failed error)
    | .ok (items, next) =>
      match handleAll handle number state items with
      | (state, false) => (state, .stopped)
      | (state, true) => match next with
        | none => (state, .finished)
        | some pos => walk fetch handle fuel pos (number + items.length) state

/-- The pages are consecutive parts of one listing, up to its end. -/
def Serves (fetch : Pos → Except Error (List Item × Option Pos)) (listing : List Item)
    (place : Pos → Nat) : Prop :=
  ∀ pos items next, fetch pos = .ok (items, next) → items = (listing.drop (place pos)).take items.length ∧
      match next with
      | none => listing.length ≤ place pos + items.length
      | some later => place later = place pos + items.length ∧ items ≠ []

theorem Serves.inside (serves : Serves fetch listing place) (fetched : fetch pos = .ok (items, some later)) :
    place later = place pos + items.length ∧ place pos < place later ∧ place later ≤ listing.length := by
  obtain ⟨part, moved, nonempty⟩ := serves pos items (some later) fetched
  have size : items.length ≤ listing.length - place pos := by
    have taken := congrArg List.length part
    rw [List.length_take, List.length_drop] at taken
    omega
  have positive := List.length_pos_of_ne_nil nonempty
  omega

theorem handleAll_append (handle : Nat → State → Item → State × Bool) (number : Nat)
    (state : State) (one two : List Item) :
    handleAll handle number state (one ++ two) =
      match handleAll handle number state one with
      | (state, false) => (state, false)
      | (state, true) => handleAll handle (number + one.length) state two := by
  induction one generalizing number state with
  | nil => rfl
  | cons item rest ih =>
    rw [List.cons_append, handleAll, handleAll]
    cases handle number state item with
    | mk state more =>
      cases more with
      | false => rfl
      | true =>
        simp only
        rw [ih, List.length_cons, Nat.add_assoc, Nat.add_comm 1]

variable {handle : Nat → State → Item → State × Bool} {Good : State → Prop}

theorem handleAll_invariant (keeps : ∀ number state item, Good state → Good (handle number state item).1)
    {number : Nat} {state : State} (good : Good state) (items : List Item) :
    Good (handleAll handle number state items).1 := by
  induction items generalizing number state with
  | nil => exact good
  | cons item rest ih =>
    have next := keeps number state item good
    rw [handleAll]
    cases handled : handle number state item with
    | mk after more =>
      rw [handled] at next
      cases more with
      | false => exact next
      | true => exact ih next

variable {fetch : Pos → Except Error (List Item × Option Pos)}

/-- What handling an item preserves, a walk preserves, however it ends. -/
theorem walk_invariant (keeps : ∀ number state item, Good state → Good (handle number state item).1)
    (fuel : Nat) {pos : Pos} {number : Nat} {state : State} (good : Good state) :
    Good (walk fetch handle fuel pos number state).1 := by
  induction fuel generalizing pos number state with
  | zero => exact good
  | succ fuel ih =>
    rw [walk]
    cases fetch pos with
    | error error => exact good
    | ok page =>
      obtain ⟨items, next⟩ := page
      have after : Good (handleAll handle number state items).1 := handleAll_invariant keeps good items
      simp only
      cases handled : handleAll handle number state items with
      | mk state more =>
        rw [handled] at after
        cases more with
        | false => exact after
        | true =>
          cases next with
          | none => exact after
          | some later => exact ih after

/-- What a walk that handled `count` items has done: all of them when it finished, those before the
failed page when it failed. -/
def EndsAfter (fetch : Pos → Except Error (List Item × Option Pos)) (listing : List Item)
    (place : Pos → Nat) (start count : Nat) (complete : Bool) : Ending Error → Prop
  | .finished => complete = true ∧ listing.length ≤ start + count
  | .failed error => complete = true ∧ ∃ last, place last = start + count ∧ fetch last = .error error
  | .stopped => complete = false

theorem EndsAfter.closes (ends : EndsAfter fetch listing place start count true ending) :
    ending ≠ .stopped := by
  rintro rfl
  cases ends

variable {listing : List Item} {place : Pos → Nat}

theorem EndsAfter.complete {start count : Nat} {complete : Bool}
    {ending : Ending Error} (ends : EndsAfter fetch listing place start count complete ending)
    (closes : ending ≠ .stopped) : complete = true := by
  cases ending with
  | finished | failed error => exact ends.1
  | stopped => exact absurd rfl closes

/-- A walk with enough fuel handles a beginning of what is left of the listing. -/
theorem walk_spec (serves : Serves fetch listing place) {fuel : Nat} {pos : Pos} (state : State)
    (inside : place pos ≤ listing.length) (enough : listing.length < place pos + fuel) :
    ∃ count handled, handleAll handle (place pos) state ((listing.drop (place pos)).take count) = handled ∧
      (walk fetch handle fuel pos (place pos) state).1 = handled.1 ∧
      EndsAfter fetch listing place (place pos) count handled.2
        (walk fetch handle fuel pos (place pos) state).2 := by
  induction fuel generalizing pos state with
  | zero => omega
  | succ fuel ih =>
    rw [walk]
    cases fetched : fetch pos with
    | error error => exact ⟨0, _, rfl, rfl, rfl, pos, rfl, fetched⟩
    | ok page =>
      obtain ⟨items, next⟩ := page
      have part := (serves pos items next fetched).1
      simp only
      cases handled : handleAll handle (place pos) state items with
      | mk after more =>
        cases more with
        | false =>
          refine ⟨items.length, (after, false), ?_, rfl, rfl⟩
          rw [← part, handled]
        | true =>
          cases next with
          | none =>
            refine ⟨items.length, (after, true), ?_, rfl, rfl, (serves pos items none fetched).2⟩
            rw [← part, handled]
          | some later =>
            obtain ⟨moved, forward, bounded⟩ := serves.inside fetched
            obtain ⟨count, final, rest, same, ends⟩ := ih after bounded (by omega)
            rw [moved] at rest same ends
            refine ⟨items.length + count, final, ?_, same, ?_⟩
            · rw [List.take_add, ← part, handleAll_append, handled, List.drop_drop]
              exact rest
            · revert ends
              simp only
              cases (walk fetch handle fuel later (place pos + items.length) after).2 with
              | finished =>
                rintro ⟨complete, reached⟩
                exact ⟨complete, by omega⟩
              | failed error =>
                rintro ⟨complete, last, placed, failed⟩
                exact ⟨complete, last, by omega, failed⟩
              | stopped => exact id

end Pages

section Marks

variable {Item Mark : Type} [LinearOrder Mark] (timeOf : Item → Option Mark)

/-- The mark after some items: the largest of their times and the mark before. -/
def advance (mark : Mark) (items : List Item) : Mark :=
  items.foldl (fun mark item => match timeOf item with
    | none => mark
    | some time => max mark time) mark

/-- Every item of the catalogue from the first mark on and before the mark is among the written
ones. -/
def Covered (catalogue : List Item) (first mark : Mark) (written : List Item) : Prop :=
  ∀ item ∈ catalogue, ∀ time, timeOf item = some time → first ≤ time → time < mark → item ∈ written

variable {timeOf}

theorem advance_append (mark : Mark) (one two : List Item) :
    advance timeOf mark (one ++ two) = advance timeOf (advance timeOf mark one) two := by
  rw [advance, List.foldl_append]
  rfl

theorem advance_le (below : mark ≤ bound)
    (times : ∀ item ∈ items, ∀ time, timeOf item = some time → time ≤ bound) :
    advance timeOf mark items ≤ bound := by
  induction items generalizing mark with
  | nil => exact below
  | cons item rest ih =>
    refine ih ?_ fun other member => times other (List.mem_cons_of_mem item member)
    cases dated : timeOf item with
    | none => simpa only [dated] using below
    | some time => simpa only [dated] using max_le below (times item List.mem_cons_self time dated)

/-- Where every item from the mark on was received, or is no earlier than all that was, the new
mark is covered too. -/
theorem Covered.advance {catalogue written received : List Item} {first mark : Mark}
    (covered : Covered timeOf catalogue first mark written)
    (fill : ∀ item ∈ catalogue, ∀ time, timeOf item = some time → mark ≤ time →
      item ∈ received ∨ ∀ other ∈ received, ∀ t, timeOf other = some t → t ≤ time) :
    Covered timeOf catalogue first (advance timeOf mark received) (written ++ received) := by
  intro item member time dated after before
  rcases lt_or_ge time mark with old | new
  · exact List.mem_append_left _ (covered item member time dated after old)
  · rcases fill item member time dated new with here | latest
    · exact List.mem_append_right _ here
    · exact absurd before (not_lt.mpr (advance_le new latest))

end Marks

end SpectonCr.DeltaFeed
