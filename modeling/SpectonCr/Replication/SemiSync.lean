import SpectonCr.Replication.Convergence

/-! What a confirmed write says about the regions. -/

namespace SpectonCr.Replication

open Storage Registry Interleaving

inductive ReplicationMode where
  | async
  | semiSync
  deriving DecidableEq

/-- The mode that the text of the configuration stands for. -/
def replicationMode (text : String) : ReplicationMode :=
  if text = "semi_sync" then .semiSync else .async

deriving instance DecidableEq for ReplicationEvent
deriving instance DecidableEq for QueuedEvent

/-- A delivery that the region has answered with success. -/
structure Ack where
  event : QueuedEvent
  region : String

/-- The system under the mode of its handle, with the deliveries acknowledged so far. -/
structure Watched where
  mode : ReplicationMode
  system : System
  acks : List Ack

/-- The acknowledgement a move brings. -/
def System.acknowledged (env : ReplicaEnv) (system : System) : SystemMove → List Ack
  | .request _ => []
  | .replicator exchange =>
    match system.work with
    | .sending event region data =>
      match system.remotes[region]? with
      | some remote =>
        if (deliver env event remote.config data exchange remote.store).1.isOk then
          [⟨event, remote.config.name⟩]
        else []
      | none => []
    | _ => []

/-- One move. No handler and no step of the loop reads the mode. -/
def Watched.step (env : ReplicaEnv) (watched : Watched) (move : SystemMove) : Watched :=
  { watched with
    system := watched.system.step env move
    acks := watched.acks ++ watched.system.acknowledged env move }

/-- The event of the push or upload that a move answers with `201`. -/
def System.confirmed (system : System) : SystemMove → Option QueuedEvent
  | .request (.advance number) =>
    match system.pool.flights.lookup number with
    | some (.answering event (.created (.ok _))) => some event
    | _ => none
  | _ => none

/-- Both events announce the same manifest, or the same blob. -/
def QueuedEvent.SameObject (first second : QueuedEvent) : Prop :=
  first.eventType = second.eventType ∧ first.tenant = second.tenant ∧
    first.project = second.project ∧ first.repo = second.repo ∧ first.digest = second.digest

instance (first second : QueuedEvent) : Decidable (first.SameObject second) :=
  inferInstanceAs (Decidable (_ ∧ _ ∧ _ ∧ _ ∧ _))

/-- In the mode that waits, a write is confirmed only when a region has acknowledged it. -/
def Watched.ConfirmsAcknowledged (watched : Watched) (move : SystemMove) : Prop :=
  watched.mode = .semiSync → watched.system.remotes.isEmpty = false →
    ∀ event ∈ watched.system.confirmed move, ∃ ack ∈ watched.acks, ack.event.SameObject event

instance (watched : Watched) (move : SystemMove) : Decidable (watched.ConfirmsAcknowledged move) :=
  inferInstanceAs (Decidable (_ → _ → ∀ event ∈ watched.system.confirmed move, _))

/-- The condition on a move, for one region: a write is confirmed after the replicator is done with
its event there, and what is sent is there and accepted. -/
def Watched.Waits (env : ReplicaEnv) (index : Nat) (watched : Watched) : SystemMove → Prop
  | .request move =>
    ∀ event ∈ watched.system.confirmed (.request move), event ∉ watched.system.pending index
  | .replicator exchange =>
    match watched.system.work with
    | .idle => True
    | .visiting event region =>
      region = index → (payload env event watched.system.store).isOk = true
    | .sending event region data =>
      region = index → ∀ remote ∈ watched.system.remotes[region]?,
        (deliver env event remote.config data exchange remote.store).1.isOk = true

instance (env : ReplicaEnv) (index : Nat) (watched : Watched) :
    ∀ move, Decidable (watched.Waits env index move)
  | .request move => inferInstanceAs (Decidable
      (∀ event ∈ watched.system.confirmed (.request move), event ∉ watched.system.pending index))
  | .replicator _ => by
    unfold Watched.Waits
    exact match watched.system.work with
      | .idle => .isTrue trivial
      | .visiting _ _ => inferInstance
      | .sending _ _ _ => inferInstance

/-- The event of a request that is about to answer is still ahead of the region, or it was
acknowledged. -/
structure Watched.Tracked (index : Nat) (watched : Watched) : Prop where
  region : index < watched.system.remotes.length
  answering : ∀ number event answer,
    watched.system.pool.flights.lookup number = some (.answering event answer) →
      event ∈ watched.system.pending index ∨ ∃ ack ∈ watched.acks, ack.event = event

section Requests

variable {env : ReplicaEnv} {index : Nat}

theorem launchRequest_not_answering : launchRequest env request ≠ .inl (.answering event answer) := by
  cases request with
  | put request body stamp =>
    rw [launchRequest]
    cases launchPut env.toEnv request body with
    | inl flight | inr given => simp
  | delete request stamp =>
    simp only [launchRequest]
    cases launchDelete env.toStoreEnv request with
    | inl flight | inr given => simp
  | upload claims params digest body audit stamp =>
    simp only [launchRequest]
    cases params.authorize claims with
    | error error => simp
    | ok _ =>
      cases digest with
      | none | some expected => simp

theorem goOn_not_answering {event other : QueuedEvent} {result : Flight ⊕ StoreAnswer}
    {answer : StoreAnswer} : goOn event result ≠ .inl (.answering other answer) := by
  cases result with
  | inl rest => simp [goOn]
  | inr given =>
    rw [goOn]
    split <;> simp

theorem UploadFlight.operate_not_answering {sha : Sha256} {flight : UploadFlight}
    {store : ObjectStore} {event : QueuedEvent} {answer : StoreAnswer} :
    (flight.operate sha store).2 ≠ .inl (.answering event answer) := by
  cases flight with
  | fetching completion body =>
    simp only [UploadFlight.operate]
    split
    · simp
    · split <;> simp
  | storing completion data | cleaning completion => simp [operate]

/-- An operation leaves the queue or appends to it, and a request that is about to answer has
appended its event. -/
theorem operate_queue (sha : Sha256) (stage : Stage) (primary : Primary) :
    (∃ added, (stage.operate sha primary).1.queue = primary.queue ++ added) ∧
      ∀ event answer, (stage.operate sha primary).2 = .inl (.answering event answer) →
        event ∈ (stage.operate sha primary).1.queue := by
  cases stage with
  | writing flight event =>
    exact ⟨⟨[], (List.append_nil _).symm⟩, fun _ _ same => absurd same goOn_not_answering⟩
  | uploading flight =>
    exact ⟨⟨[], (List.append_nil _).symm⟩, fun _ _ same => absurd same UploadFlight.operate_not_answering⟩
  | enqueuing event answer =>
    simp only [Stage.operate, enqueue]
    by_cases room : primary.queue.length < capacity
    · rw [if_pos room]
      refine ⟨⟨[event], rfl⟩, ?_⟩
      intro other given same
      cases same
      exact List.mem_append_right _ List.mem_cons_self
    · rw [if_neg room]
      refine ⟨⟨[], (List.append_nil _).symm⟩, ?_⟩
      intro other given same
      cases same
  | answering event answer =>
    refine ⟨⟨[], (List.append_nil _).symm⟩, ?_⟩
    intro other given same
    cases same

theorem Watched.Tracked.request {watched : Watched} (tracked : watched.Tracked index)
    (move : Move Request) : (watched.step env (.request move)).Tracked index := by
  refine ⟨tracked.region, ?_⟩
  intro number event answer found
  simp only [Watched.step, System.step, System.acknowledged, List.append_nil, System.pending,
    System.queue] at found ⊢
  rcases (primaryHandlers env).step_cases watched.system.pool move with
    same | ⟨started, request, _, _, same⟩ | ⟨operated, stage, _, _, same⟩
  · rw [same] at found ⊢
    exact tracked.answering number event answer found
  · rw [same] at found ⊢
    rcases lookup_settle found with ⟨_, launched⟩ | ⟨_, old⟩
    · exact absurd launched launchRequest_not_answering
    · exact tracked.answering number event answer old
  · rw [same] at found ⊢
    obtain ⟨⟨added, grown⟩, announced⟩ := operate_queue env.sha stage watched.system.pool.shared
    rcases lookup_settle found with ⟨_, next⟩ | ⟨_, old⟩
    · exact .inl (List.mem_append_right _ (announced event answer next))
    rcases tracked.answering number event answer old with ahead | acked
    · refine .inl ?_
      have queue : ((primaryHandlers env).operate stage watched.system.pool.shared).1.queue =
          watched.system.pool.shared.queue ++ added := grown
      rw [queue, ← List.append_assoc]
      exact List.mem_append_left _ ahead
    · exact .inr acked

variable {watched : Watched}

theorem inHand_next {event : QueuedEvent} (apart : region ≠ index) :
    (if index < region + 1 then [] else [event]) = if index < region then [] else [event] :=
  if_congr (by omega) rfl rfl

/-- A step of the loop takes an event from the region only when the region has acknowledged it. -/
theorem Watched.Tracked.pending (tracked : watched.Tracked index)
    (waits : watched.Waits env index (.replicator exchange)) (ahead : event ∈ watched.system.pending index) :
    event ∈ (watched.system.replicate env exchange).pending index ∨
      ∃ ack ∈ watched.system.acknowledged env (.replicator exchange), ack.event = event := by
  have known := tracked.region
  cases working : watched.system.work with
  | idle =>
    cases queued : watched.system.queue with
    | nil =>
      simp only [System.replicate, working, queued]
      exact .inl ahead
    | cons first rest =>
      simp only [System.pending, working, queued, Work.inHand, List.nil_append] at ahead
      simp only [System.replicate, System.pending, working, queued, Work.inHand, Nat.not_lt_zero, if_false]
      exact .inl ahead
  | visiting current region =>
    simp only [Watched.Waits, working] at waits
    simp only [System.pending, working, Work.inHand] at ahead
    simp only [System.replicate, working]
    by_cases more : region < watched.system.remotes.length
    · rw [if_pos more]
      cases sent : payload env current watched.system.store with
      | ok data => exact .inl ahead
      | error failure =>
        have apart : region ≠ index := by
          intro same
          have stored := waits same
          rw [sent] at stored
          cases stored
        rw [← inHand_next apart] at ahead
        exact .inl ahead
    · rw [if_neg more]
      have past : index < region := by omega
      simp only [past, if_true, List.nil_append] at ahead
      exact .inl ahead
  | sending current region data =>
    simp only [Watched.Waits, working] at waits
    simp only [System.pending, working, Work.inHand] at ahead
    simp only [System.replicate, System.acknowledged, working]
    by_cases here : region = index
    · subst here
      obtain ⟨remote, present⟩ : ∃ remote, watched.system.remotes[region]? = some remote :=
        ⟨_, List.getElem?_eq_getElem known⟩
      have accepted := waits rfl remote present
      simp only [present, accepted, if_true]
      simp only [lt_irrefl, if_false, List.singleton_append, List.mem_cons] at ahead
      rcases ahead with same | queued
      · exact .inr ⟨_, List.mem_cons_self, same.symm⟩
      · exact .inl (List.mem_append_right _ queued)
    · rw [← inHand_next here] at ahead
      exact .inl ahead

variable (env) in
theorem replicate_flights (system : System) (exchange : Exchange) :
    (system.replicate env exchange).pool.flights = system.pool.flights ∧
      (system.replicate env exchange).remotes.length = system.remotes.length := by
  unfold System.replicate
  split
  · split <;> exact ⟨rfl, rfl⟩
  · split
    · split <;> exact ⟨rfl, rfl⟩
    · exact ⟨rfl, rfl⟩
  · exact ⟨rfl, List.length_modify ..⟩

theorem Watched.Tracked.step (tracked : watched.Tracked index) {move : SystemMove}
    (waits : watched.Waits env index move) : (watched.step env move).Tracked index := by
  cases move with
  | request move => exact tracked.request move
  | replicator exchange =>
    obtain ⟨flights, length⟩ := replicate_flights env watched.system exchange
    refine ⟨length ▸ tracked.region, ?_⟩
    intro number event answer found
    rcases tracked.answering number event answer (flights ▸ found) with ahead | ⟨ack, member, same⟩
    · rcases tracked.pending waits ahead with still | ⟨ack, member, same⟩
      · exact .inl still
      · exact .inr ⟨ack, List.mem_append_right _ member, same⟩
    · exact .inr ⟨ack, List.mem_append_left _ member, same⟩

theorem System.confirmed_answering {system : System} {move : SystemMove} {event : QueuedEvent}
    (confirmed : system.confirmed move = some event) :
    ∃ number request answer, move = .request request ∧
      system.pool.flights.lookup number = some (.answering event answer) := by
  unfold System.confirmed at confirmed
  split at confirmed
  · rename_i number
    split at confirmed
    · rename_i found
      cases confirmed
      exact ⟨number, _, _, rfl, found⟩
    · cases confirmed
  · cases confirmed

theorem Watched.Tracked.confirms (tracked : watched.Tracked index) {move : SystemMove}
    (waits : watched.Waits env index move) : watched.ConfirmsAcknowledged move := by
  intro _ _ event confirmed
  obtain ⟨number, request, answer, rfl, found⟩ := System.confirmed_answering confirmed
  rcases tracked.answering number event answer found with ahead | ⟨ack, member, rfl⟩
  · exact absurd ahead (waits event confirmed)
  · exact ⟨ack, member, rfl, rfl, rfl, rfl, rfl⟩

end Requests

theorem waiting_runs_confirm_acknowledged (env : ReplicaEnv) (start : Watched)
    (quiet : start.system.pool.flights = ∅) (index : Nat) (region : index < start.system.remotes.length)
    (moves : List SystemMove) (waits : Run.Along (Watched.step env) (Watched.Waits env index) start moves) :
    Run.Along (Watched.step env) Watched.ConfirmsAcknowledged start moves := by
  have tracked : start.Tracked index := by
    refine ⟨region, ?_⟩
    intro number event answer found
    rw [quiet, AList.lookup_empty] at found
    cases found
  exact Run.along_of_invariant (fun _ _ kept met => kept.step met)
    (fun _ _ kept met => kept.confirms met) tracked waits

/-- One remote region, in the mode that waits. -/
def semiSyncStart : Watched := ⟨replicationMode "semi_sync", .fresh sampleConfig, []⟩

/-- A push of `latest` up to its enqueue. -/
def enqueuedPush : List SystemMove := startPush 0 "latest" emptyObject :: advances 0 3

/-- The push is answered after the region has its event. -/
theorem delivered_push_confirmed :
    ((Run.after (Watched.step sampleEnv) semiSyncStart (enqueuedPush ++ handleEvent)).system.confirmed
        (.request (.advance 0))).isSome = true ∧
      Run.Along (Watched.step sampleEnv) Watched.ConfirmsAcknowledged semiSyncStart
        (enqueuedPush ++ handleEvent ++ advances 0 1) := by
  refine ⟨by decide +kernel, ?_⟩
  exact waiting_runs_confirm_acknowledged sampleEnv semiSyncStart rfl 0 (by decide) _ (by decide +kernel)

/-- The push is answered before the replicator has taken its event. -/
theorem push_confirmed_unreplicated :
    semiSyncStart.mode = .semiSync ∧ semiSyncStart.system.remotes.isEmpty = false ∧
      ¬ Run.Along (Watched.step sampleEnv) Watched.ConfirmsAcknowledged semiSyncStart
        (enqueuedPush ++ advances 0 1) := by
  decide +kernel

end SpectonCr.Replication
