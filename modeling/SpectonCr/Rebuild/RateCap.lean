import SpectonCr.Base.Occupancy
import SpectonCr.Rebuild.Service

namespace SpectonCr.Rebuild

open Interleaving Run

/-- What a call is about to do. `checkedOn` is the date its check was made on. -/
inductive Flight where
  | checking (call : Call)
  | refusing (call : Call)
  | emitting (call : Call) (checkedOn : Day) (emitter : Emitter)
  | recording (call : Call) (response : String)
  | reverting (call : Call) (checkedOn : Day) (error : EmitError)
  | recordingFailure (call : Call) (error : EmitError)

abbrev Reply := Except FireError FireResult

def Flight.operate (state : State) : Flight → State × (Flight ⊕ Reply)
  | .checking call =>
    match checkAndIncrement call state with
    | (.error message, state) => (state, .inr (.error (.rateLimit message)))
    | (.ok false, state) => (state, .inl (.refusing call))
    | (.ok true, charged) =>
      match buildEmitter call.environment call.request.subscription.emitter with
      | .error error => (charged, .inr (.error error))
      | .ok emitter => (charged, .inl (.emitting call state.today emitter))
  | .refusing call =>
    ((recordEvent call "rate-limited" (some "per_downstream_per_day cap reached") state).2,
      .inr (.ok (call.result "rate-limited" none true)))
  | .emitting call checkedOn emitter =>
    match emitter.emit call.send call.request.event with
    | .ok response => (deliver call checkedOn state, .inl (.recording call response))
    | .error error => (state, .inl (.reverting call checkedOn error))
  | .recording call response =>
    let recorded := andThen (recordEvent call "sent" (some response) state) fun _ state =>
      (.ok (call.result "sent" (some response) false), state)
    (recorded.2, .inr recorded.1)
  | .reverting call _ error =>
    ((decrementOnFailure call state).2, .inl (.recordingFailure call error))
  | .recordingFailure call error =>
    ((recordEvent call "failed" (some error.display) state).2, .inr (.error (.emit error)))

/-- The calls of `fire` as processes over the tables. -/
def firing : Process Call State Flight Reply where
  launch call := .inl (.checking call)
  operate flight state := flight.operate state

/-- A call that nothing interrupts does what `fire` does. -/
theorem fire_serves (call : Call) (state : State) :
    firing.Serves call state (fire call state).1 (fire call state).2 := by
  show firing.Alone (.checking call) state _ _
  unfold fire
  rcases checkAndIncrement_cases call state with
    ⟨_, message, checked⟩ | ⟨_, _, checked⟩ | ⟨_, _, checked⟩
  · rw [checked]
    exact .finish (by simp only [firing, Flight.operate, checked])
  · rw [checked]
    refine .advance (by simp only [firing, Flight.operate, checked]; rfl) ?_
    exact .finish rfl
  · rw [checked]
    simp only
    cases built : buildEmitter call.environment call.request.subscription.emitter with
    | error error => exact .finish (by simp only [firing, Flight.operate, checked, built])
    | ok emitter =>
      refine .advance (by simp only [firing, Flight.operate, checked, built]; rfl) ?_
      simp only
      cases sent : emitter.emit call.send call.request.event with
      | ok response =>
        refine .advance (by simp only [firing, Flight.operate, sent]; rfl) ?_
        exact .finish rfl
      | error error =>
        refine .advance (by simp only [firing, Flight.operate, sent]; rfl) ?_
        exact .advance rfl (.finish rfl)

inductive Event where
  | move (move : Move Call)
  | dateChange (day : Day)

def step (pool : Pool State Flight) : Event → Pool State Flight
  | .move move => firing.step pool move
  | .dateChange day => { pool with shared := { pool.shared with today := day } }

/-- The bucket a flight has been charged to, as long as its emission is open. -/
def Flight.slot : Flight → Option RateKey
  | .emitting call checkedOn _ => some (call.bucket checkedOn)
  | .reverting call checkedOn _ => some (call.bucket checkedOn)
  | _ => none

def Flight.call : Flight → Call
  | .checking call => call
  | .refusing call => call
  | .emitting call _ _ => call
  | .recording call _ => call
  | .reverting call _ _ => call
  | .recordingFailure call _ => call

def Flight.holds (key : RateKey) (flight : Flight) : Bool := flight.slot = some key

/-- The number of events delivered under a bucket. -/
def State.delivered (state : State) (key : RateKey) : Nat := state.emitted.count key

/-- A revert is made on the day of its check, or finds nothing to lower. -/
def RevertsOwnDay (pool : Pool State Flight) : Event → Prop
  | .move (.advance number) =>
    match pool.flights.lookup number with
    | some (.reverting call checkedOn _) =>
      checkedOn = pool.shared.today ∨ call.fails .decrement ≠ none ∨ pool.shared.firedToday call = 0
    | _ => True
  | _ => True

instance (pool : Pool State Flight) (event : Event) : Decidable (RevertsOwnDay pool event) := by
  unfold RevertsOwnDay
  split
  · split <;> infer_instance
  · infer_instance

/-- The rate a call comes with, if it is one of the subscription for the downstream. -/
def Call.Within (subscription : Uuid) (downstream : String) (rate : Int) (call : Call) : Prop :=
  call.request.subscription.id = subscription → call.request.downstreamRef = downstream →
    call.request.subscription.rateLimit.perDownstreamPerDay ≤ rate

def Event.Within (subscription : Uuid) (downstream : String) (rate : Int) : Event → Prop
  | .move (.start _ call) => call.Within subscription downstream rate
  | _ => True

instance (subscription : Uuid) (downstream : String) (rate : Int) (event : Event) :
    Decidable (event.Within subscription downstream rate) := by
  unfold Event.Within
  split
  · exact inferInstanceAs (Decidable (_ → _ → _))
  · infer_instance

section Slots

variable {rate : Int} {key : RateKey}

theorem Call.Within.cap_le {call : Call} {today : Day}
    (within : call.Within key.subscriptionId key.downstreamRef rate)
    (same : key = call.bucket today) : call.cap ≤ max rate 1 := by
  subst same
  exact max_le_max_right 1 (within rfl rfl)

theorem Flight.operate_call {flight rest : Flight} {state : State}
    (moved : (flight.operate state).2 = .inl rest) : rest.call = flight.call := by
  cases flight with
  | checking call =>
    simp only [Flight.operate] at moved
    rcases checkAndIncrement_cases call state with
      ⟨_, message, checked⟩ | ⟨_, _, checked⟩ | ⟨_, _, checked⟩
    · rw [checked] at moved
      cases moved
    · rw [checked] at moved
      exact Sum.inl.inj moved ▸ rfl
    rw [checked] at moved
    simp only at moved
    split at moved
    · cases moved
    · exact Sum.inl.inj moved ▸ rfl
  | refusing call => cases moved
  | emitting call checkedOn emitter =>
    simp only [Flight.operate] at moved
    split at moved
    · exact Sum.inl.inj moved ▸ rfl
    · exact Sum.inl.inj moved ▸ rfl
  | recording call response => cases moved
  | reverting call checkedOn error => exact Sum.inl.inj moved ▸ rfl
  | recordingFailure call error => cases moved

@[simp] theorem recordEvent_delivered (call : Call) (status : String) (response : Option String)
    (state : State) : (recordEvent call status response state).2.delivered key = state.delivered key := by
  rw [State.delivered, recordEvent_emitted]
  rfl

theorem deliver_delivered (call : Call) (checkedOn : Day) (state : State) (key : RateKey) :
    (deliver call checkedOn state).delivered key =
      state.delivered key + (decide (some (call.bucket checkedOn) = some key)).toNat := by
  rw [State.delivered, deliver, List.count_cons]
  by_cases same : call.bucket checkedOn = key <;> simp [same, State.delivered]

/-- A flight's open or delivered charge is one of its bucket's count, and is taken within the
cap. -/
theorem Flight.operate_balance {flight : Flight} {state : State}
    (own : ∀ call checkedOn error, flight = .reverting call checkedOn error →
      checkedOn = state.today ∨ call.fails .decrement ≠ none ∨ state.firedToday call = 0) (key : RateKey) :
    (flight.operate state).1.delivered key + leaves (Flight.holds key) (flight.operate state).2 +
        state.fired key ≤
      state.delivered key + (flight.holds key).toNat + (flight.operate state).1.fired key ∧
    ((flight.operate state).1.delivered key + leaves (Flight.holds key) (flight.operate state).2 ≤
        state.delivered key + (flight.holds key).toNat ∨
      (key = flight.call.bucket state.today ∧
        ((flight.operate state).1.fired key : Int) ≤ flight.call.cap)) := by
  cases flight with
  | checking call =>
    simp only [Flight.operate]
    rcases checkAndIncrement_cases call state with
      ⟨_, message, checked⟩ | ⟨_, _, checked⟩ | ⟨_, allowed, checked⟩
    · rw [checked]
      exact ⟨by simp [leaves], .inl (by simp [leaves])⟩
    · rw [checked]
      refine ⟨?_, .inl (Nat.le_refl _)⟩
      have raised : state.fired key ≤ (state.charged call).fired key := by
        rw [fired_charged]
        split <;> omega
      exact Nat.add_le_add_left raised _
    · rw [checked]
      simp only
      have raised := fired_charged state call key
      split
      · refine ⟨?_, .inl (Nat.le_refl _)⟩
        have grown : state.fired key ≤ (state.charged call).fired key := by
          rw [raised]
          split <;> omega
        exact Nat.add_le_add_left grown _
      · have open_slot : (state.charged call).delivered key = state.delivered key := rfl
        by_cases same : key = call.bucket state.today
        · rw [if_pos same] at raised
          have granted : ((state.charged call).fired key : Int) ≤ call.cap := by
            rw [raised, same]
            exact allowed
          refine ⟨?_, .inr ⟨same, granted⟩⟩
          rw [open_slot, raised]
          simp only [leaves, Flight.holds, Flight.slot, same]
          exact Nat.le_of_eq (Nat.add_right_comm ..)
        · rw [if_neg same] at raised
          have apart : call.bucket state.today ≠ key := Ne.symm same
          rw [open_slot, raised]
          simp [leaves, Flight.holds, Flight.slot, apart]
  | refusing call => exact ⟨by simp [Flight.operate, leaves], .inl (by simp [Flight.operate, leaves])⟩
  | emitting call checkedOn emitter =>
    simp only [Flight.operate]
    split
    · refine ⟨?_, .inl ?_⟩
      · rw [deliver_delivered]
        exact Nat.le_refl _
      · rw [deliver_delivered]
        exact Nat.le_refl _
    · exact ⟨Nat.le_refl _, .inl (Nat.le_refl _)⟩
  | recording call response =>
    simp only [Flight.operate, sent_state]
    exact ⟨by simp [leaves], .inl (by simp [leaves])⟩
  | reverting call checkedOn error =>
    have kept : (decrementOnFailure call state).2.delivered key = state.delivered key := by
      rw [State.delivered, decrementOnFailure_emitted]
      rfl
    have closed : leaves (Flight.holds key) (.inl (.recordingFailure call error) : Flight ⊕ Reply) = 0 := by
      simp [leaves, Flight.holds, Flight.slot]
    simp only [Flight.operate]
    rw [kept, closed, decrementOnFailure_fired]
    refine ⟨?_, .inl (Nat.le_add_right _ _)⟩
    split
    · rename_i lowered
      obtain ⟨same, sound⟩ := lowered
      rcases own call checkedOn error rfl with today | failed | empty
      · have held : Flight.holds key (.reverting call checkedOn error) = true := by
          simp [Flight.holds, Flight.slot, same, today]
        rw [held, Bool.toNat_true]
        omega
      · exact absurd sound failed
      · have zero : state.fired key = 0 := by
          rw [same]
          exact empty
        omega
    · omega
  | recordingFailure call error =>
    exact ⟨by simp [Flight.operate, leaves], .inl (by simp [Flight.operate, leaves])⟩

/-- The charges of a bucket that are open or delivered are covered by its count and by the cap,
and every flight comes with at most the rate. -/
structure Guarded (rate : Int) (key : RateKey) (pool : Pool State Flight) : Prop where
  covered : pool.shared.delivered key + occupied pool.flights (Flight.holds key) ≤ pool.shared.fired key
  capped : ((pool.shared.delivered key + occupied pool.flights (Flight.holds key) : Nat) : Int) ≤ max rate 1
  within : ∀ number flight, pool.flights.lookup number = some flight →
    flight.call.Within key.subscriptionId key.downstreamRef rate

theorem Guarded.start (guarded : Guarded rate key pool) (free : number ∉ pool.flights)
    (within : call.Within key.subscriptionId key.downstreamRef rate) :
    Guarded rate key { pool with flights := settle pool.flights number (firing.launch call) } := by
  have unchanged : occupied (settle pool.flights number (firing.launch call)) (Flight.holds key) =
      occupied pool.flights (Flight.holds key) := by
    rw [occupied_start free]
    simp [firing, leaves, Flight.holds, Flight.slot]
  refine ⟨?_, ?_, ?_⟩
  · rw [unchanged]
    exact guarded.covered
  · rw [unchanged]
    exact guarded.capped
  · intro other flight present
    rcases lookup_settle present with ⟨_, launched⟩ | ⟨_, old⟩
    · cases launched
      exact within
    · exact guarded.within other flight old

theorem Guarded.advance {pool : Pool State Flight} (guarded : Guarded rate key pool) {number : Nat}
    {flight : Flight} (found : pool.flights.lookup number = some flight)
    (own : RevertsOwnDay pool (.move (.advance number))) :
    Guarded rate key ⟨(flight.operate pool.shared).1,
      settle pool.flights number (flight.operate pool.shared).2⟩ := by
  have settled := occupied_settle found (Flight.holds key) (flight.operate pool.shared).2
  have reverts : ∀ call checkedOn error, flight = .reverting call checkedOn error →
      checkedOn = pool.shared.today ∨ call.fails .decrement ≠ none ∨ pool.shared.firedToday call = 0 := by
    rintro call checkedOn error rfl
    simpa only [RevertsOwnDay, found] using own
  obtain ⟨balance, taken⟩ := flight.operate_balance reverts key
  have before := guarded.covered
  have covered : (flight.operate pool.shared).1.delivered key +
      occupied (settle pool.flights number (flight.operate pool.shared).2) (Flight.holds key) ≤
        (flight.operate pool.shared).1.fired key := by
    omega
  refine ⟨covered, ?_, ?_⟩
  · rcases taken with kept | ⟨same, granted⟩
    · have fewer : (flight.operate pool.shared).1.delivered key +
          occupied (settle pool.flights number (flight.operate pool.shared).2) (Flight.holds key) ≤
            pool.shared.delivered key + occupied pool.flights (Flight.holds key) := by
        omega
      exact (Int.ofNat_le.mpr fewer).trans guarded.capped
    · have limit := (guarded.within number flight found).cap_le same
      have counted : (((flight.operate pool.shared).1.delivered key + occupied
          (settle pool.flights number (flight.operate pool.shared).2) (Flight.holds key) : Nat) :
            Int) ≤ (flight.operate pool.shared).1.fired key := Int.ofNat_le.mpr covered
      exact counted.trans (granted.trans limit)
  · intro other rest present
    rcases lookup_settle present with ⟨_, moved⟩ | ⟨_, old⟩
    · rw [Flight.operate_call moved]
      exact guarded.within number flight found
    · exact guarded.within other rest old

theorem Guarded.step (guarded : Guarded rate key pool) (own : RevertsOwnDay pool event)
    (limited : event.Within key.subscriptionId key.downstreamRef rate) :
    Guarded rate key (step pool event) := by
  cases event with
  | dateChange today => exact ⟨guarded.covered, guarded.capped, guarded.within⟩
  | move move =>
    show Guarded rate key (firing.step pool move)
    rcases firing.step_cases pool move with
      same | ⟨number, call, rfl, free, next⟩ | ⟨number, flight, rfl, found, next⟩
    · rw [same]
      exact guarded
    · rw [next]
      exact guarded.start free limited
    · rw [next]
      exact guarded.advance found own

end Slots

/-- Where no failed emission is reverted on a later day than its check, the events delivered for a
subscription and a downstream out of one day's checks are within the cap, in every order of calls.
-/
theorem rate_cap_holds (start : Pool State Flight) (idle : start.flights = ∅)
    (fresh : start.shared.emitted = []) (events : List Event) (subscription : Uuid) (downstream : String)
    (rate : Int) (limited : ∀ event ∈ events, event.Within subscription downstream rate)
    (ownDays : Along step RevertsOwnDay start events) (day : Day) :
    ((after step start events).shared.delivered ⟨subscription, downstream, day⟩ : Int) ≤ max rate 1 := by
  have initial : Guarded rate ⟨subscription, downstream, day⟩ start := by
    have none : start.shared.delivered ⟨subscription, downstream, day⟩ = 0 := by
      rw [State.delivered, fresh]
      rfl
    refine ⟨?_, ?_, ?_⟩
    · rw [none, idle]
      exact Nat.zero_le _
    · rw [none, idle]
      exact le_max_of_le_right zero_le_one
    · intro number flight present
      rw [idle] at present
      cases present
  have guarded : Guarded rate ⟨subscription, downstream, day⟩ (after step start events) :=
    after_invariant _ (fun pool event kept allowed => kept.step allowed.1 allowed.2) initial
      (along_and_forall.mpr ⟨ownDays, limited⟩)
  have capped := guarded.capped
  push_cast at capped
  omega

/-- An empty ledger on the first day, with no call under way. -/
def emptyPool : Pool State Flight := ⟨⟨0, ∅, [], []⟩, ∅⟩

/-- The operations of a call up to its answer, as far as they are its own. -/
def advances (number count : Nat) : List Event := List.replicate count (.move (.advance number))

/-- A rejected emission that is reverted the same day leaves room for one event. -/
theorem retry_within_cap :
    let events := .move (.start 0 (sampleCall (some "key") 500)) :: advances 0 4 ++
      .move (.start 1 (sampleCall (some "key") 200)) :: advances 1 3
    (after step emptyPool events).shared.emitted = [⟨.nil, "acme/api:1", 0⟩] ∧
      ((after step emptyPool events).shared.delivered ⟨.nil, "acme/api:1", 0⟩ : Int) ≤ max 1 1 := by
  refine ⟨by decide +kernel, ?_⟩
  exact rate_cap_holds emptyPool rfl rfl _ .nil "acme/api:1" 1 (by decide +kernel) (by decide +kernel) 0

/-- A call checked on day 0 fails on day 1, where its revert gives back another call's charge: two
events are delivered under a cap of one. -/
theorem midnight_revert_lifts_cap :
    let events := .move (.start 0 (sampleCall (some "key") 500)) :: advances 0 1 ++
      .dateChange 1 :: .move (.start 1 (sampleCall (some "key") 200)) :: advances 1 3 ++
      advances 0 3 ++ .move (.start 2 (sampleCall (some "key") 200)) :: advances 2 3
    (∀ event ∈ events, event.Within .nil "acme/api:1" 1) ∧
      (after step emptyPool events).shared.delivered ⟨.nil, "acme/api:1", 1⟩ = 2 := by
  decide +kernel

end SpectonCr.Rebuild
