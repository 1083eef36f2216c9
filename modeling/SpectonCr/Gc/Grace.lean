import SpectonCr.Gc.Bookkeeping

namespace SpectonCr.Gc

open Storage

/-- The database, and what every reaper has left of the batch it selected. -/
structure GcState where
  backend : Backend
  batches : Table Nat (List Candidate)

/-- Steps of the counter and of any number of reapers, each with its moment. For the counter this is
the commit; its `NOW()` is the start of the transaction. -/
inductive GcEvent where
  | addRefs (started now : Time) (tenant project repository manifestDigest : String)
      (blobs : List BlobDescriptor)
  | removeRefs (started now : Time) (tenant manifestDigest : String)
  | select (now : Time) (reaper : Nat) (locked : List BlobKey)
  | reap (now : Time) (reaper : Nat) (failsAt : Option Nat)
  | halt (now : Time) (reaper : Nat)

def GcEvent.now : GcEvent → Time
  | .addRefs _ now .. => now
  | .removeRefs _ now .. => now
  | .select now .. => now
  | .reap now .. => now
  | .halt now _ => now

/-- The check of `reap_blob`. -/
def stillZero (tables : Tables) (key : BlobKey) : Bool :=
  (tables.blobRefcounts.lookup key).map RefcountRow.refcount = some 0

/-- `reap_blob` when the store fails on one of the objects: those before it are gone, and the
transaction is rolled back. -/
def reapBlobFailing (backend : Backend) (key : BlobKey) (failsAt : Nat) : Backend :=
  if stillZero backend.tables key then
    let paths := backend.tables.blobPaths.keysWhere (BlobPath.isOf key)
    { backend with
      store := (paths.take failsAt).foldl (fun store path => store.erase path.object)
        backend.store }
  else backend

def reapCandidate (backend : Backend) (candidate : Candidate) : Option Nat → Backend
  | none => (reapBlob backend candidate.key candidate.bytes).2
  | some failsAt => reapBlobFailing backend candidate.key failsAt

/-- The rows `SKIP LOCKED` leaves to the batch query. -/
def Tables.skipLocked (tables : Tables) (locked : List BlobKey) : Tables :=
  { tables with blobRefcounts := tables.blobRefcounts.deleteWhere fun key => locked.contains key }

def gcStep (config : ReaperConfig) (state : GcState) : GcEvent → GcState
  | .addRefs started _ tenant project repository manifestDigest blobs =>
    { state with
      backend := Transaction.run state.backend
        (.addRefs started tenant project repository manifestDigest blobs) }
  | .removeRefs started _ tenant manifestDigest =>
    { state with backend := Transaction.run state.backend (.removeRefs started tenant manifestDigest) }
  | .select now reaper locked =>
    match state.batches.lookup reaper with
    | some (_ :: _) => state
    | _ =>
      { state with
        batches := state.batches.insert reaper
          (candidates config now (state.backend.tables.skipLocked locked)) }
  | .reap _ reaper failsAt =>
    match state.batches.lookup reaper with
    | some (candidate :: rest) =>
      { backend := reapCandidate state.backend candidate failsAt
        batches := state.batches.insert reaper rest }
    | _ => state
  | .halt _ reaper => { state with batches := state.batches.erase reaper }

/-- The state after a run on new tables. -/
def gcAfter (config : ReaperConfig) (store : ObjectStore) (events : List GcEvent) : GcState :=
  Run.after (gcStep config) ⟨⟨store, .empty⟩, ∅⟩ events

/-- The clock of the database does not go back. -/
def Ordered (events : List GcEvent) : Prop := events.Pairwise fun first second => first.now ≤ second.now

instance (events : List GcEvent) : Decidable (Ordered events) :=
  inferInstanceAs (Decidable (events.Pairwise _))

/-- The event is a reap that passes its check and deletes the blob. -/
def Deletes (state : GcState) (event : GcEvent) (key : BlobKey) : Prop :=
  ∃ now reaper failsAt candidate rest, event = .reap now reaper failsAt ∧
    state.batches.lookup reaper = some (candidate :: rest) ∧ candidate.key = key ∧
    stillZero state.backend.tables key = true

def ReaperConfig.grace (config : ReaperConfig) : Time := config.graceSecs * 1000000000

/-- The count was zero in every state of the run that lasted into the grace period before the event.
-/
def ZeroThroughGrace (config : ReaperConfig) (store : ObjectStore) (front : List GcEvent)
    (event : GcEvent) (key : BlobKey) : Prop :=
  ∀ before next later, front ++ [event] = before ++ next :: later → event.now - config.grace < next.now →
    (gcAfter config store before).backend.tables.refcount key = 0

def GraceKept (config : ReaperConfig) (store : ObjectStore) (front : List GcEvent) (event : GcEvent) : Prop :=
  ∀ key, Deletes (gcAfter config store front) event key → ZeroThroughGrace config store front event key

/-- The step takes an edge of the blob away. -/
def Releases (state : GcState) (event : GcEvent) (key : BlobKey) : Prop :=
  ∃ started now manifest, event = .removeRefs started now key.tenant manifest ∧
    (⟨key.tenant, manifest, key.blobDigest⟩ : Edge) ∈ state.backend.tables.manifestBlobRefs

/-- The condition on a reap: whatever took an edge of the blob away was committed at least a grace
period ago. -/
def ReleasedBefore (config : ReaperConfig) (store : ObjectStore) (front : List GcEvent)
    (event : GcEvent) : Prop :=
  ∀ key, Deletes (gcAfter config store front) event key → ∀ before release later,
    front = before ++ release :: later → Releases (gcAfter config store before) release key →
      release.now ≤ event.now - config.grace

section History

variable {config : ReaperConfig} {store : ObjectStore} {state : GcState} {key : BlobKey}

theorem refcount_eq_zero {tables : Tables} (counted : tables.Counted) :
    tables.refcount key = 0 ↔ ∀ edge ∈ tables.manifestBlobRefs, edge.counts key = false := by
  rw [counted, Table.countKeys_eq_zero]

theorem reapCandidate_counted (counted : backend.tables.Counted) (candidate : Candidate)
    (failsAt : Option Nat) : (reapCandidate backend candidate failsAt).tables.Counted := by
  cases failsAt with
  | none => exact run_counted counted (.reapBlob candidate.key candidate.bytes)
  | some place =>
    simp only [reapCandidate, reapBlobFailing]
    split <;> exact counted

theorem edges_reapCandidate (backend : Backend) (candidate : Candidate) (failsAt : Option Nat) :
    (reapCandidate backend candidate failsAt).tables.manifestBlobRefs = backend.tables.manifestBlobRefs := by
  cases failsAt with
  | none =>
    rcases reapBlob_cases backend candidate.key candidate.bytes with same | ⟨_, reaped⟩
    · rw [reapCandidate, same]
    · rw [reapCandidate, reaped]
      rfl
  | some place =>
    simp only [reapCandidate, reapBlobFailing]
    split <;> rfl

theorem gcStep_counted (counted : state.backend.tables.Counted) (event : GcEvent) :
    (gcStep config state event).backend.tables.Counted := by
  cases event with
  | addRefs started now tenant project repository manifestDigest blobs => exact run_counted counted _
  | removeRefs started now tenant manifestDigest => exact run_counted counted _
  | select now reaper locked =>
    simp only [gcStep]
    split <;> exact counted
  | reap now reaper failsAt =>
    simp only [gcStep]
    split
    · exact reapCandidate_counted counted _ _
    · exact counted
  | halt now reaper => exact counted

theorem gcAfter_counted (events : List GcEvent) : (gcAfter config store events).backend.tables.Counted :=
  Run.after_invariant (fun state : GcState => state.backend.tables.Counted)
    (fun _ event held _ => gcStep_counted held event) .empty (Run.along_true _ events)

/-- Only a removal takes the edges of a blob away. -/
theorem releases_of_edge (before : edge ∈ state.backend.tables.manifestBlobRefs) (counts : edge.counts key = true)
    (gone : edge ∉ (gcStep config state event).backend.tables.manifestBlobRefs) : Releases state event key := by
  cases event with
  | addRefs started now tenant project repository manifestDigest blobs =>
    exact absurd (mem_refs_addRefs.mpr (.inr before)) gone
  | removeRefs started now tenant manifestDigest =>
    have taken : ofManifest tenant manifestDigest edge = true := by
      by_contra kept
      exact gone (mem_refs_removeRefs.mpr ⟨by simpa using kept, before⟩)
    simp only [ofManifest, Edge.counts, Bool.and_eq_true, decide_eq_true_eq] at taken counts
    obtain ⟨rfl, rfl⟩ := taken
    refine ⟨started, now, edge.manifestDigest, by rw [← counts.1], ?_⟩
    rwa [← counts.1, ← counts.2]
  | select now reaper locked =>
    simp only [gcStep] at gone
    split at gone <;> exact absurd before gone
  | reap now reaper failsAt =>
    simp only [gcStep] at gone
    split at gone
    · rw [edges_reapCandidate] at gone
      exact absurd before gone
    · exact absurd before gone
  | halt now reaper => exact absurd before gone

theorem gcAfter_snoc (front : List GcEvent) (event : GcEvent) :
    gcAfter config store (front ++ [event]) = gcStep config (gcAfter config store front) event := by
  rw [gcAfter, Run.after, List.foldl_append]
  rfl

/-- Where a positive count goes to zero, some step on the way releases the blob. -/
theorem exists_release (positive : (gcAfter config store before).backend.tables.refcount key ≠ 0)
    (zero : (gcAfter config store (before ++ middle)).backend.tables.refcount key = 0) :
    ∃ front release later, middle = front ++ release :: later ∧
      Releases (gcAfter config store (before ++ front)) release key := by
  induction middle generalizing before with
  | nil => exact absurd (by simpa using zero) positive
  | cons event rest ih =>
    rw [List.append_cons] at zero
    by_cases next : (gcAfter config store (before ++ [event])).backend.tables.refcount key = 0
    · rw [ne_eq, refcount_eq_zero (gcAfter_counted before)] at positive
      simp only [not_forall, Bool.not_eq_false] at positive
      obtain ⟨edge, member, counts⟩ := positive
      have gone : edge ∉ (gcStep config (gcAfter config store before) event).backend.tables.manifestBlobRefs := by
        intro kept
        rw [← gcAfter_snoc] at kept
        rw [(refcount_eq_zero (gcAfter_counted _)).mp next edge kept] at counts
        cases counts
      refine ⟨[], event, rest, rfl, ?_⟩
      rw [List.append_nil]
      exact releases_of_edge member counts gone
    · obtain ⟨front, release, later, rfl, releases⟩ := ih next zero
      exact ⟨event :: front, release, later, rfl, by rwa [List.append_cons]⟩

theorem refcount_of_deletes (deletes : Deletes state event key) : state.backend.tables.refcount key = 0 := by
  obtain ⟨_, _, _, _, _, _, _, _, zero⟩ := deletes
  simp only [stillZero, decide_eq_true_eq] at zero
  rw [Tables.refcount, zero]
  rfl

end History

/-- Reaping after ten seconds. -/
def tenSeconds : ReaperConfig := ⟨10, 200⟩

def demoBlob : BlobDescriptor := ⟨"sha256:00", 1⟩

def demoKey : BlobKey := ⟨"acme", "sha256:00"⟩

def seconds (count : Nat) : Time := count * 1000000000

/-- A blob that is pushed, released, and selected twenty seconds later. -/
def releasedLongAgo : List GcEvent :=
  [.addRefs 0 0 "acme" "web" "app" "sha256:aa" [demoBlob], .removeRefs 0 (seconds 5) "acme" "sha256:aa",
    .select (seconds 20) 0 []]

/-- It is pushed and released once more before its reap. -/
def releasedAgain : List GcEvent :=
  releasedLongAgo ++ [.addRefs (seconds 21) (seconds 21) "acme" "web" "app" "sha256:bb" [demoBlob],
    .removeRefs (seconds 22) (seconds 22) "acme" "sha256:bb"]

def demoReap : GcEvent := .reap (seconds 23) 0 none

/-- The removal starts early, but waits for a lock and is committed one second before the selection. -/
def releasedLate : List GcEvent :=
  [.addRefs 0 0 "acme" "web" "app" "sha256:aa" [demoBlob],
    .removeRefs (seconds 1) (seconds 19) "acme" "sha256:aa", .select (seconds 20) 0 []]

end SpectonCr.Gc
