import SpectonCr.Base.Hex
import SpectonCr.Base.Result
import SpectonCr.Base.Table

namespace SpectonCr.Rebuild

/-- A calendar day, as `CURRENT_DATE` gives it. -/
abbrev Day := Int

inductive TriggerCause where
  | basePushed
  | cveFixed
  | scheduledNightly
  | manual

structure RebuildEvent where
  trigger : TriggerCause
  fixedCves : List String
  (upstreamRef downstreamRef severityMax : String)

inductive EmitterSpec where
  | githubDispatch (repo eventType : String) (workflow token apiBase : Option String)
  | gitlabTrigger (project branch : String) (triggerToken apiBase : Option String)
  | webhook (url : String) (hmacSecret headerName : Option String)
  | tekton (url : String) (authHeaderName authHeaderValue : Option String)

inductive Emitter where
  | gitHubDispatch (repo token eventType apiBase : String)
  | gitLabPipeline (apiBase projectId triggerToken branch : String)
  | genericWebhook (url hmacSecret headerName : String)
  | tektonEventListener (url : String) (authHeader : Option (String × String))

inductive EmitError where
  | http (message : String)
  | rejected (status : Nat) (body : String)
  | config (message : String)
  deriving DecidableEq

def EmitError.display : EmitError → String
  | .http message => "http: " ++ message
  | .rejected status body => "rejected by remote: " ++ toString status ++ " " ++ body
  | .config message => "config: " ++ message

inductive FireError where
  | rateLimit (message : String)
  | emit (error : EmitError)
  | sqlx (message : String)
  | config (message : String)
  deriving DecidableEq

/-- A secret of the spec, or the one of the environment. -/
def secretOr (environment : String → Option String) (given : Option String) (variableName : String)
    (missing : String) : Except FireError String :=
  match given.or (environment variableName) with
  | some secret => .ok secret
  | none => .error (.config missing)

def buildEmitter (environment : String → Option String) : EmitterSpec → Except FireError Emitter
  | .githubDispatch repo eventType _ token apiBase =>
    (secretOr environment token "GITHUB_TOKEN"
      "github-dispatch requires token or GITHUB_TOKEN").map fun token =>
        .gitHubDispatch repo token eventType (apiBase.getD "https://api.github.com")
  | .gitlabTrigger project branch triggerToken apiBase =>
    (secretOr environment triggerToken "GITLAB_TRIGGER_TOKEN"
      "gitlab-trigger requires trigger_token or GITLAB_TRIGGER_TOKEN").map fun token =>
        .gitLabPipeline (apiBase.getD "https://gitlab.com") project token branch
  | .webhook url hmacSecret headerName =>
    (secretOr environment hmacSecret "REBUILD_WEBHOOK_HMAC"
      "webhook requires hmac_secret or REBUILD_WEBHOOK_HMAC").map fun secret =>
        .genericWebhook url secret (headerName.getD "X-SpectonCR-Signature")
  | .tekton url authHeaderName authHeaderValue =>
    .ok (.tektonEventListener url (match authHeaderName, authHeaderValue with
      | some name, some value => some (name, value)
      | _, _ => none))

/-- What an emitter refuses before it sends anything. -/
def Emitter.check : Emitter → Option EmitError
  | .gitHubDispatch repo _ _ _ =>
    if Text.contains repo "/" then none
    else some (.config ("GitHub repo must be 'owner/name', got " ++ repo))
  | .gitLabPipeline _ projectId _ _ =>
    if projectId = "" then some (.config "GitLab project_id is empty") else none
  | .genericWebhook _ hmacSecret _ =>
    if hmacSecret = "" then some (.config "hmac_secret is empty") else none
  | .tektonEventListener _ _ => none

/-- What comes back from the emitter's endpoint: a transport error, or a status with a body. -/
abbrev Endpoint := Emitter → RebuildEvent → Except String (Nat × String)

def Emitter.emit (send : Endpoint) (emitter : Emitter) (event : RebuildEvent) : Except EmitError String :=
  match emitter.check with
  | some error => .error error
  | none =>
    match send emitter event with
    | .error message => .error (.http message)
    | .ok (status, body) =>
      if 200 ≤ status ∧ status < 300 then .ok (toString status) else .error (.rejected status body)

structure RateLimitSpec where
  perDownstreamPerDay : Int

structure RebuildSubscription where
  id : Uuid
  name : String
  emitter : EmitterSpec
  rateLimit : RateLimitSpec

structure FireRequest where
  subscription : RebuildSubscription
  (upstreamRef downstreamRef : String)
  trigger : TriggerCause
  fixedCves : List String
  severityMax : String

def FireRequest.event (request : FireRequest) : RebuildEvent :=
  ⟨request.trigger, request.fixedCves, request.upstreamRef, request.downstreamRef, request.severityMax⟩

structure FireResult where
  subscriptionId : Uuid
  (subscriptionName status : String)
  response : Option String
  rateLimited : Bool
  deriving DecidableEq

/-- The primary key of `rebuild_rate`. -/
structure RateKey where
  subscriptionId : Uuid
  downstreamRef : String
  bucketDay : Day
  deriving DecidableEq

/-- A row of `rebuild_events`, without its drawn id and its time. -/
structure EventRow where
  subscriptionId : Uuid
  (upstreamRef downstreamRef : String)
  fixedCves : List String
  (severityMax emitterStatus : String)
  emitterResponse : Option String

/-- The tables with the date of the server, and the events that emitters have delivered, each with
the bucket it was charged to. -/
structure State where
  today : Day
  rebuildRate : Table RateKey Nat
  rebuildEvents : List EventRow
  emitted : List RateKey

inductive Statement where
  | increment
  | decrement
  | record

/-- A call of `fire` with what it meets: the environment variables, the emitter's endpoint, and the
statements that fail. A call makes each statement at most once. -/
structure Call where
  request : FireRequest
  environment : String → Option String
  send : Endpoint
  fails : Statement → Option String

def Call.bucket (call : Call) (day : Day) : RateKey :=
  ⟨call.request.subscription.id, call.request.downstreamRef, day⟩

/-- `RateLimit::new` takes at least one firing a day. -/
def Call.cap (call : Call) : Int := max call.request.subscription.rateLimit.perDownstreamPerDay 1

/-- The largest value of an `INT` column. -/
def intMax : Nat := 2147483647

def State.fired (state : State) (key : RateKey) : Nat := (state.rebuildRate.lookup key).getD 0

def State.setFired (state : State) (key : RateKey) (fired : Nat) : State :=
  { state with rebuildRate := state.rebuildRate.insert key fired }

/-- `fired_today`. -/
def State.firedToday (state : State) (call : Call) : Nat := state.fired (call.bucket state.today)

def checkAndIncrement (call : Call) (state : State) : Except String Bool × State :=
  match call.fails .increment with
  | some message => (.error message, state)
  | none =>
    let fired := state.firedToday call + 1
    if intMax < fired then (.error "integer out of range", state)
    else (.ok (fired ≤ call.cap), state.setFired (call.bucket state.today) fired)

def decrementOnFailure (call : Call) (state : State) : Except String Unit × State :=
  match call.fails .decrement with
  | some message => (.error message, state)
  | none =>
    match state.rebuildRate.lookup (call.bucket state.today) with
    | none => (.ok (), state)
    | some fired => (.ok (), state.setFired (call.bucket state.today) (fired - 1))

def recordEvent (call : Call) (status : String) (response : Option String) (state : State) :
    Except FireError Unit × State :=
  match call.fails .record with
  | some message => (.error (.sqlx message), state)
  | none => (.ok (), { state with rebuildEvents :=
      ⟨call.request.subscription.id, call.request.upstreamRef, call.request.downstreamRef,
        call.request.fixedCves, call.request.severityMax, status, response⟩ ::
        state.rebuildEvents })

/-- The event is delivered, under the bucket of the day on which the call was checked. -/
def deliver (call : Call) (checkedOn : Day) (state : State) : State :=
  { state with emitted := call.bucket checkedOn :: state.emitted }

def Call.result (call : Call) (status : String) (response : Option String) (rateLimited : Bool) :
    FireResult :=
  ⟨call.request.subscription.id, call.request.subscription.name, status, response, rateLimited⟩

def fire (call : Call) (state : State) : Except FireError FireResult × State :=
  match checkAndIncrement call state with
  | (.error message, state) => (.error (.rateLimit message), state)
  | (.ok false, state) =>
    let recorded := recordEvent call "rate-limited" (some "per_downstream_per_day cap reached") state
    (.ok (call.result "rate-limited" none true), recorded.2)
  | (.ok true, charged) =>
    match buildEmitter call.environment call.request.subscription.emitter with
    | .error error => (.error error, charged)
    | .ok emitter =>
      match emitter.emit call.send call.request.event with
      | .ok response =>
        andThen (recordEvent call "sent" (some response) (deliver call state.today charged))
          fun _ state => (.ok (call.result "sent" (some response) false), state)
      | .error error =>
        let reverted := decrementOnFailure call charged
        let recorded := recordEvent call "failed" (some error.display) reverted.2
        (.error (.emit error), recorded.2)

section

variable (call : Call) (status : String)

variable (response : Option String)

section

variable (state : State)

@[simp] theorem recordEvent_rebuildRate : (recordEvent call status response state).2.rebuildRate = state.rebuildRate := by
  unfold recordEvent
  split <;> rfl

@[simp] theorem recordEvent_today : (recordEvent call status response state).2.today = state.today := by
  unfold recordEvent
  split <;> rfl

@[simp] theorem recordEvent_emitted : (recordEvent call status response state).2.emitted = state.emitted := by
  unfold recordEvent
  split <;> rfl

@[simp] theorem recordEvent_fired
    (key : RateKey) : (recordEvent call status response state).2.fired key = state.fired key := by
  rw [State.fired, recordEvent_rebuildRate]
  rfl

end

variable (state : State)

theorem fired_setFired (key other : RateKey) (fired : Nat) :
    (state.setFired key fired).fired other = if other = key then fired else state.fired other := by
  by_cases same : other = key
  · subst same
    simp [State.fired, State.setFired]
  · simp [State.fired, State.setFired, AList.lookup_insert_ne same, same]

/-- The check goes through and raises the bucket of today. -/
def State.Chargeable (state : State) (call : Call) : Prop :=
  call.fails .increment = none ∧ state.firedToday call < intMax

/-- The raised bucket is within the cap. -/
def State.Allows (state : State) (call : Call) : Prop := (state.firedToday call + 1 : Nat) ≤ call.cap

instance (state : State) (call : Call) : Decidable (state.Chargeable call) :=
  inferInstanceAs (Decidable (_ ∧ _))

instance (state : State) (call : Call) : Decidable (state.Allows call) :=
  inferInstanceAs (Decidable ((_ : Int) ≤ _))

/-- The state after a check that went through. -/
def State.charged (state : State) (call : Call) : State :=
  state.setFired (call.bucket state.today) (state.firedToday call + 1)

theorem fired_charged (call : Call) (key : RateKey) : (state.charged call).fired key =
      if key = call.bucket state.today then state.fired key + 1 else state.fired key := by
  rw [State.charged, fired_setFired]
  split
  · rename_i same
    rw [same]
    rfl
  · rfl

theorem checkAndIncrement_cases :
    (¬state.Chargeable call ∧ ∃ message, checkAndIncrement call state = (.error message, state)) ∨
    (state.Chargeable call ∧ ¬state.Allows call ∧
      checkAndIncrement call state = (.ok false, state.charged call)) ∨
    (state.Chargeable call ∧ state.Allows call ∧
      checkAndIncrement call state = (.ok true, state.charged call)) := by
  unfold checkAndIncrement
  cases failed : call.fails .increment with
  | some message =>
    refine .inl ⟨?_, message, rfl⟩
    rintro ⟨sound, _⟩
    rw [failed] at sound
    cases sound
  | none =>
    simp only
    by_cases full : intMax < state.firedToday call + 1
    · refine .inl ⟨?_, _, if_pos full⟩
      rintro ⟨_, room⟩
      omega
    have room : state.Chargeable call := ⟨failed, by omega⟩
    rw [if_neg full]
    by_cases allowed : ((state.firedToday call + 1 : Nat) : Int) ≤ call.cap
    · exact .inr (.inr ⟨room, allowed, by rw [decide_eq_true allowed]; rfl⟩)
    · exact .inr (.inl ⟨room, allowed, by rw [decide_eq_false allowed]; rfl⟩)

theorem decrementOnFailure_fired (key : RateKey) :
    (decrementOnFailure call state).2.fired key =
      if key = call.bucket state.today ∧ call.fails .decrement = none then state.fired key - 1
      else state.fired key := by
  unfold decrementOnFailure
  cases call.fails .decrement with
  | some message => simp
  | none =>
    simp only
    cases found : state.rebuildRate.lookup (call.bucket state.today) with
    | none =>
      by_cases same : key = call.bucket state.today
      · subst same
        simp [State.fired, found]
      · simp [same]
    | some fired =>
      simp only
      rw [fired_setFired]
      by_cases same : key = call.bucket state.today
      · subst same
        simp [State.fired, found]
      · simp [same]

@[simp] theorem decrementOnFailure_today :
    (decrementOnFailure call state).2.today = state.today := by
  unfold decrementOnFailure
  split
  · rfl
  · split <;> rfl

@[simp] theorem decrementOnFailure_emitted :
    (decrementOnFailure call state).2.emitted = state.emitted := by
  unfold decrementOnFailure
  split
  · rfl
  · split <;> rfl

theorem sent_state {First : Type} (result : Except FireError Unit × State) (value : First) :
    (andThen result fun _ state => (.ok value, state)).2 = result.2 := by
  obtain ⟨answer, state⟩ := result
  cases answer <;> rfl

/-- The spec names a secret, or the environment has it, or none is needed. -/
def Call.configured (call : Call) : Bool :=
  (buildEmitter call.environment call.request.subscription.emitter).isOk

@[simp] theorem fire_today : (fire call state).2.today = state.today := by
  unfold fire
  rcases checkAndIncrement_cases call state with
    ⟨_, message, checked⟩ | ⟨_, _, checked⟩ | ⟨_, _, checked⟩
  · rw [checked]
  · rw [checked]
    exact recordEvent_today ..
  rw [checked]
  simp only
  split
  · rfl
  split
  · rw [sent_state, recordEvent_today]
    rfl
  · rw [recordEvent_today, decrementOnFailure_today]
    rfl

end

/-- A call whose check goes through delivers its event, or leaves its bucket of the day raised
unless a failed emission is reverted. -/
theorem fire_charged (chargeable : state.Chargeable call) :
    (fire call state).2.emitted = call.bucket state.today :: state.emitted ∨
      (fire call state).2.firedToday call = if state.Allows call ∧ call.configured = true ∧
        call.fails .decrement = none then state.firedToday call else state.firedToday call + 1 := by
  have raised : (state.charged call).fired (call.bucket state.today) = state.firedToday call + 1 := by
    rw [fired_charged, if_pos rfl]
    rfl
  rw [State.firedToday, fire_today]
  unfold fire
  rcases checkAndIncrement_cases call state with
    ⟨barred, _⟩ | ⟨_, refused, checked⟩ | ⟨_, allowed, checked⟩
  · exact absurd chargeable barred
  · rw [checked]
    refine .inr ?_
    rw [if_neg fun kept => refused kept.1, recordEvent_fired, raised]
  rw [checked]
  simp only
  cases built : buildEmitter call.environment call.request.subscription.emitter with
  | error error =>
    have unconfigured : call.configured = false := by rw [Call.configured, built]; rfl
    refine .inr ?_
    rw [if_neg fun kept => Bool.false_ne_true (unconfigured.symm.trans kept.2.1), raised]
  | ok emitter =>
    have configured : call.configured = true := by rw [Call.configured, built]; rfl
    simp only
    cases emitter.emit call.send call.request.event with
    | ok response =>
      refine .inl ?_
      rw [sent_state, recordEvent_emitted]
      rfl
    | error error =>
      refine .inr ?_
      rw [recordEvent_fired, decrementOnFailure_fired]
      change (if call.bucket state.today = call.bucket state.today ∧ _ then _ else _) = _
      rw [raised]
      simp only [allowed, configured, true_and, Nat.add_sub_cancel]

/-- A call that delivers nothing leaves its counter as it was exactly if the check fails, or the cap
allows it, an emitter can be built and the revert goes through. -/
theorem silent_fire_uncharged_iff (call : Call) (state : State)
    (silent : (fire call state).2.emitted = state.emitted) :
    (fire call state).2.firedToday call = state.firedToday call ↔ ¬state.Chargeable call ∨
        (state.Allows call ∧ call.configured = true ∧ call.fails .decrement = none) := by
  by_cases chargeable : state.Chargeable call
  · rw [or_iff_right (not_not_intro chargeable)]
    rcases fire_charged chargeable with delivered | left
    · rw [delivered] at silent
      exact absurd silent (List.cons_ne_self _ _)
    rw [left]
    split
    · rename_i reverted
      exact iff_of_true rfl reverted
    · rename_i kept
      exact iff_of_false (Nat.succ_ne_self _) kept
  · refine iff_of_true ?_ (.inl chargeable)
    rcases checkAndIncrement_cases call state with
      ⟨_, message, checked⟩ | ⟨barred, _⟩ | ⟨barred, _⟩
    · rw [fire, checked]
    · exact absurd barred chargeable
    · exact absurd barred chargeable

/-- A call on an empty ledger or one that is filled up to a count, with a webhook as emitter. -/
def sampleCall (secret : Option String) (status : Nat) : Call where
  request := ⟨⟨.nil, "nightly", .webhook "https://ci" secret none, ⟨1⟩⟩, "debian:12", "acme/api:1",
    .cveFixed, [], "high"⟩
  environment := fun _ => none
  send := fun _ _ => .ok (status, "")
  fails := fun _ => none

def sampleState (fired : Nat) : State :=
  ⟨0, (∅ : Table RateKey Nat).insert ((sampleCall none 0).bucket 0) fired, [], []⟩

/-- A delivery that the endpoint rejects is not charged. -/
theorem rejected_fire_uncharged : (sampleState 0).Chargeable (sampleCall (some "key") 500) ∧
      (fire (sampleCall (some "key") 500) (sampleState 0)).2.emitted = (sampleState 0).emitted ∧
      (fire (sampleCall (some "key") 500) (sampleState 0)).2.firedToday (sampleCall (some "key") 500) =
        (sampleState 0).firedToday (sampleCall (some "key") 500) := by
  refine ⟨by decide +kernel, by decide +kernel, ?_⟩
  have same := silent_fire_uncharged_iff (sampleCall (some "key") 500) (sampleState 0) (by decide +kernel)
  exact same.mpr (.inr ⟨by decide +kernel, by decide +kernel, rfl⟩)

/-- Without a secret, and at the cap, nothing is delivered and the counter goes up. -/
theorem silent_fire_charged : ((fire (sampleCall none 200) (sampleState 0)).1 =
        .error (.config "webhook requires hmac_secret or REBUILD_WEBHOOK_HMAC") ∧
      (fire (sampleCall none 200) (sampleState 0)).2.emitted = [] ∧
      (sampleState 0).firedToday (sampleCall none 200) = 0 ∧
      (fire (sampleCall none 200) (sampleState 0)).2.firedToday (sampleCall none 200) = 1) ∧
    (fire (sampleCall (some "key") 200) (sampleState 1)).1.toOption.map FireResult.rateLimited = some true ∧
      (fire (sampleCall (some "key") 200) (sampleState 1)).2.emitted = [] ∧
      (sampleState 1).firedToday (sampleCall (some "key") 200) = 1 ∧
      (fire (sampleCall (some "key") 200) (sampleState 1)).2.firedToday (sampleCall (some "key") 200) =
        2 := by
  decide +kernel

end SpectonCr.Rebuild
