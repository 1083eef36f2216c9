import SpectonCr.Replication.Stages

namespace SpectonCr.Replication

open Storage Registry Interleaving

section Conditions

variable (env : ReplicaEnv)

/-- The condition on a move: names are proper, a link is written or erased only while no other
request holds it, and a tag's manifest is there when the replicator reads it. -/
def System.Careful (system : System) : SystemMove → Prop
  | .request (.start _ request) => request.Proper env
  | .request (.advance number) =>
    ∀ stage ∈ system.pool.flights.lookup number, ∀ link ∈ stage.target,
      ∀ other ∈ system.pool.flights.entries, other.1 ≠ number → ¬ other.2.Holds link
  | .replicator _ =>
    match system.work with
    | .visiting event _ =>
      event.eventType = .manifestPush → Text.startsWith event.reference "sha256:" = false →
        event.object ∈ system.store
    | _ => True

/-- The delivery this move makes, if it makes one, succeeds. -/
def System.Delivers (system : System) : SystemMove → Prop
  | .replicator exchange =>
    match system.work with
    | .sending event region data =>
      ∀ remote ∈ system.remotes[region]?,
        (deliver env event remote.config data exchange remote.store).1.isOk = true
    | _ => True
  | .request _ => True

/-- No request is in flight, the queue is empty, and the replicator waits. -/
def System.Quiet (system : System) : Prop := system.pool.flights = ∅ ∧ system.queue = [] ∧ system.work = .idle

/-- Every tag of every repository names the same digest in every region. -/
def System.Converged (system : System) : Prop :=
  ∀ remote ∈ system.remotes, ∀ repo, PlainNames repo → ∀ tag,
    readTagLink remote.store repo tag = readTagLink system.store repo tag

/-- A system to start from: it is quiet and in step, and has no link under another name. -/
structure System.Synced (system : System) : Prop where
  quiet : system.Quiet
  converged : system.Converged
  shown : OnlyShown system.store
  remotesShown : ∀ remote ∈ system.remotes, OnlyShown remote.store

end Conditions

section Invariant

/-- What the replicator has in hand for the region with the number. -/
def Work.inHand (index : Nat) : Work → List QueuedEvent
  | .idle => []
  | .visiting event region => if index < region then [] else [event]
  | .sending event region _ => if index < region then [] else [event]

/-- The events a region has not carried out yet, in their order. -/
def System.pending (system : System) (index : Nat) : List QueuedEvent :=
  system.work.inHand index ++ system.queue

/-- A link of the primary is what a region comes to, or a request still owes the difference. -/
def Accounted (flights : Table Nat Stage) (link : StorePath) (now base : Option String) : Prop :=
  now = base ∨ ∃ number stage event, flights.lookup number = some stage ∧
    stage.owed = some event ∧ (event.editOn link).apply base = now

/-- The event in the replicator's hands and what it sends are sound. -/
def Work.Sound (env : ReplicaEnv) : Work → Prop
  | .idle => True
  | .visiting event _ => event.Sound env
  | .sending event _ data =>
    event.Sound env ∧ (event.eventType = .manifestDelete → data = env.writeEvent event)

/-- The invariant of a careful run. -/
structure System.Followed (env : ReplicaEnv) (system : System) : Prop where
  shown : OnlyShown system.store
  remotesShown : ∀ remote ∈ system.remotes, OnlyShown remote.store
  queued : ∀ event ∈ system.queue, event.Sound env
  working : system.work.Sound env
  flights : ∀ number stage, system.pool.flights.lookup number = some stage → stage.Fits env system.store
  links : ∀ link, TagLink link → ∀ index remote, system.remotes[index]? = some remote →
    Accounted system.pool.flights link (linkDigest system.store link)
      (replay link (linkDigest remote.store link) (system.pending index))

variable {env : ReplicaEnv} {system : System}

theorem System.Synced.followed (synced : system.Synced) : system.Followed env := by
  obtain ⟨⟨noFlights, noQueue, idle⟩, converged, shown, remotesShown⟩ := synced
  refine ⟨shown, remotesShown, ?_, ?_, ?_, ?_⟩
  · intro event member
    rw [noQueue] at member
    cases member
  · rw [idle]
    trivial
  · intro number stage found
    rw [noFlights] at found
    cases found
  · intro link tagLink index remote region
    have none : system.pending index = [] := by
      simp only [System.pending, idle, noQueue, Work.inHand, List.append_nil]
    obtain ⟨repo, plain, shown⟩ := tagLink
    obtain ⟨tag, _, linked⟩ := shown.listed
    have same := converged remote (List.mem_of_getElem? region) repo plain tag
    rw [none, ← linked]
    exact .inl same.symm

theorem System.Followed.converged (followed : system.Followed env) (quiet : system.Quiet) :
    system.Converged := by
  obtain ⟨noFlights, noQueue, idle⟩ := quiet
  intro remote member repo plain tag
  obtain ⟨index, region⟩ := List.getElem?_of_mem member
  have none : system.pending index = [] := by
    simp only [System.pending, idle, noQueue, Work.inHand, List.append_nil]
  have at_ := atTags_tagLink plain tag
  by_cases shown : repo.Shown (repo.tagLink tag)
  · rcases followed.links _ ⟨repo, plain, shown⟩ index remote region with
      same | ⟨number, stage, event, found, _⟩
    · rw [none] at same
      exact same.symm
    · rw [noFlights] at found
      cases found
  · have absent : ∀ {store : ObjectStore}, OnlyShown store → readTagLink store repo tag = Option.none := by
      intro store only
      rw [readTagLink, Option.map_eq_none_iff]
      exact AList.lookup_eq_none.mpr fun present => shown (only repo plain _ present at_)
    rw [absent followed.shown, absent (followed.remotesShown remote member)]

section Requests

theorem System.Followed.started (followed : system.Followed env)
    (fresh : number ∉ system.pool.flights) (proper : request.Proper env) :
    System.Followed env { system with pool := { system.pool with
      flights := settle system.pool.flights number ((primaryHandlers env).launch request) } } := by
  refine ⟨followed.shown, followed.remotesShown, followed.queued, followed.working, ?_, ?_⟩
  · intro other stage found
    rcases lookup_settle found with ⟨_, launched⟩ | ⟨_, before⟩
    · exact launch_fits proper launched system.store
    · exact followed.flights other stage before
  · intro link tagLink index remote region
    rcases followed.links link tagLink index remote region with
      same | ⟨other, stage, event, found, owed, due⟩
    · exact .inl same
    have apart : other ≠ number := by
      rintro rfl
      exact fresh (Table.mem_of_lookup found)
    exact .inr ⟨other, stage, event, (lookup_settle_ne apart _).trans found, owed, due⟩

variable {number : Nat} {stage : Stage} (flying : system.pool.flights.lookup number = some stage)
include flying

theorem System.Followed.operated (followed : system.Followed env)
    (free : ∀ link, stage.target = some link → ∀ other holder, other ≠ number →
      system.pool.flights.lookup other = some holder → ¬ holder.Holds link)
    (unqueued : after.queue = system.queue)
    (advanced : Advanced env stage system.store after.store result) :
    System.Followed env { system with
      pool := ⟨after, settle system.pool.flights number result⟩ } := by
  have owedBy : ∀ {other : Nat} {holder : Stage} {event : QueuedEvent},
      system.pool.flights.lookup other = some holder → holder.owed = some event →
      ∃ rest, (settle system.pool.flights number result).lookup other = some rest ∧
        rest.owed = some event := by
    intro other holder event found owed
    by_cases same : other = number
    · subst same
      cases flying.symm.trans found
      obtain ⟨rest, going, owing⟩ := advanced.owed event owed
      refine ⟨rest, ?_, owing⟩
      rw [going]
      exact AList.lookup_insert system.pool.flights
    · exact ⟨holder, (lookup_settle_ne same _).trans found, owed⟩
  refine ⟨advanced.shown followed.shown, followed.remotesShown, ?_, followed.working, ?_, ?_⟩
  · intro event member
    exact followed.queued event (unqueued ▸ member)
  · intro other holder found
    rcases lookup_settle found with ⟨_, going⟩ | ⟨apart, before⟩
    · exact advanced.next holder going
    refine (followed.flights other holder before).unchanged ?_
    intro link tagLink holds
    rcases advanced.links link tagLink with same | ⟨target, _⟩
    · exact same
    · exact absurd holds (free link target other holder apart before)
  · intro link tagLink index remote region
    have accounted := followed.links link tagLink index remote region
    have pending : System.pending { system with
        pool := ⟨after, settle system.pool.flights number result⟩ } index =
        system.pending index := congrArg (system.work.inHand index ++ ·) unqueued
    rw [pending]
    rcases advanced.links link tagLink with same | ⟨target, rest, event, going, owing, made⟩
    · change Accounted _ link (linkDigest after.store link) _
      rw [same]
      rcases accounted with level | ⟨other, holder, event, found, owed, due⟩
      · exact .inl level
      · obtain ⟨rest, going, owing⟩ := owedBy found owed
        exact .inr ⟨other, rest, event, going, owing, due⟩
    · refine .inr ⟨number, rest, event, ?_, owing, ?_⟩
      · change (settle system.pool.flights number result).lookup number = some rest
        rw [going]
        exact AList.lookup_insert system.pool.flights
      · change _ = linkDigest after.store link
        rw [made]
        rcases accounted with level | ⟨other, holder, owing', found, owed, due⟩
        · rw [level]
        by_cases same : other = number
        · subst same
          cases flying.symm.trans found
          obtain ⟨later, going', owing''⟩ := advanced.owed owing' owed
          cases going.symm.trans going'
          cases owing.symm.trans owing''
          rw [← due, LinkEdit.apply_apply]
        · have keeps := Stage.keeps_of_not_holds owed (free link target other holder same found)
          rw [keeps] at due
          rw [← due]
          rfl

/-- The enqueue puts the event of a request behind everything that is pending. -/
theorem System.Followed.enqueued (followed : system.Followed env)
    (enqueues : stage = .enqueuing event answer) :
    System.Followed env { system with
      pool := ⟨⟨system.store, system.queue ++ [event]⟩,
        settle system.pool.flights number
          (.inl (.answering event answer) : Stage ⊕ StoreAnswer)⟩ } := by
  obtain ⟨absorbed, sound⟩ := enqueues ▸ followed.flights number stage flying
  refine ⟨followed.shown, followed.remotesShown, ?_, followed.working, ?_, ?_⟩
  · intro other member
    rcases List.mem_append.mp member with earlier | last
    · exact followed.queued other earlier
    · obtain rfl := List.mem_singleton.mp last
      exact sound
  · intro other holder found
    rcases lookup_settle found with ⟨_, going⟩ | ⟨_, before⟩
    · cases going
      exact ⟨trivial, trivial⟩
    · exact followed.flights other holder before
  · intro link tagLink index remote region
    have replayed : replay link (linkDigest remote.store link) (System.pending { system with
        pool := ⟨⟨system.store, system.queue ++ [event]⟩, settle system.pool.flights number
          (.inl (.answering event answer) : Stage ⊕ StoreAnswer)⟩ } index) =
        (event.editOn link).apply (replay link (linkDigest remote.store link) (system.pending index)) := by
      simp only [System.pending, System.queue, replay, List.foldl_append, List.foldl_cons, List.foldl_nil]
    rw [replayed]
    have settled := absorbed link tagLink
    rcases followed.links link tagLink index remote region with
      level | ⟨other, holder, owing, found, owed, due⟩
    · rw [← level]
      exact .inl settled.symm
    by_cases same : other = number
    · subst same
      cases flying.symm.trans found
      subst enqueues
      cases owed
      exact .inl due.symm
    · rcases LinkEdit.settles settled due with reached | still
      · exact .inl reached.symm
      · exact .inr ⟨other, holder, owing, (lookup_settle_ne same _).trans found, owed, still⟩

end Requests

theorem System.Followed.request (followed : system.Followed env)
    (careful : system.Careful env (.request move)) :
    System.Followed env (system.step env (.request move)) := by
  rcases (primaryHandlers env).step_cases system.pool move with
    idle | ⟨number, request, rfl, fresh, started⟩ | ⟨number, stage, rfl, flying, advanced⟩
  · rw [System.step, idle]
    exact followed
  · rw [System.step, started]
    exact followed.started fresh careful
  have fits := followed.flights number stage flying
  have free : ∀ link, stage.target = some link → ∀ other holder, other ≠ number →
      system.pool.flights.lookup other = some holder → ¬ holder.Holds link := by
    intro link target other holder apart found
    exact careful stage flying link target ⟨other, holder⟩ (AList.mem_lookup_iff.mp found) apart
  rw [System.step, advanced]
  by_cases enqueues : ∃ event answer, stage = .enqueuing event answer
  · obtain ⟨event, answer, rfl⟩ := enqueues
    simp only [primaryHandlers, Stage.operate, enqueue]
    by_cases room : system.pool.shared.queue.length < capacity
    · simp only [if_pos room]
      exact followed.enqueued flying rfl
    simp only [if_neg room]
    refine followed.operated flying free rfl ⟨?_, ?_, fun _ _ => .inl rfl, id⟩
    · intro rest going
      cases going
      exact fits
    · intro owing owed
      exact ⟨_, rfl, owed⟩
  · have writes : ∀ event answer, stage ≠ .enqueuing event answer :=
      fun event answer same => enqueues ⟨event, answer, same⟩
    obtain ⟨unqueued, operated⟩ := operate_advanced fits followed.shown writes
    exact followed.operated flying free unqueued operated

section Loop

variable {event : QueuedEvent} {region : Nat}

theorem System.Followed.received (followed : system.Followed env) (idle : system.work = .idle)
    (queued : system.queue = event :: rest) :
    System.Followed env { system with
      pool := { system.pool with shared := ⟨persistEvent env event system.store, rest⟩ }
      work := .visiting event 0 } := by
  have kept : Edited (fun _ => .keep) system.store (persistEvent env event system.store) :=
    edited_insert_outside (outside_storagePath env event) _
  refine ⟨kept.shown followed.shown, followed.remotesShown, ?_, ?_, ?_, ?_⟩
  · intro other member
    exact followed.queued other (queued ▸ List.mem_cons_of_mem event member)
  · exact followed.queued event (queued ▸ List.mem_cons_self)
  · intro number stage found
    exact (followed.flights number stage found).unchanged fun link tagLink _ => kept.links link tagLink
  · intro link tagLink index remote found
    have pending : System.pending { system with
        pool := { system.pool with shared := ⟨persistEvent env event system.store, rest⟩ }
        work := .visiting event 0 } index = system.pending index := by
      simp only [System.pending, Work.inHand, idle, queued, Nat.not_lt_zero, if_false, List.nil_append]
      rfl
    rw [pending]
    change Accounted _ link (linkDigest (persistEvent env event system.store) link) _
    rw [kept.links link tagLink]
    exact followed.links link tagLink index remote found

/-- A step of the replicator that changes no store and skips nothing that edits links. -/
theorem System.Followed.moved (followed : system.Followed env) {work : Work} (working : work.Sound env)
    (same : ∀ link, TagLink link → ∀ index, index < system.remotes.length →
      ∀ named, replay link named (work.inHand index) = replay link named (system.work.inHand index)) :
    System.Followed env { system with work := work } := by
  refine ⟨followed.shown, followed.remotesShown, followed.queued, working, followed.flights, ?_⟩
  intro link tagLink index remote found
  have known : index < system.remotes.length := by
    by_contra beyond
    rw [List.getElem?_eq_none (Nat.le_of_not_lt beyond)] at found
    cases found
  have replayed : replay link (linkDigest remote.store link)
      (System.pending { system with work := work } index) =
      replay link (linkDigest remote.store link) (system.pending index) := by
    have inHand := same link tagLink index known (linkDigest remote.store link)
    unfold replay at inHand
    simp only [System.pending, replay, List.foldl_append, inHand]
    rfl
  rw [replayed]
  exact followed.links link tagLink index remote found

theorem payload_error_keeps {store : ObjectStore} {failure : ReplicationError}
    (failed : payload env event store = .error failure) (careful : event.eventType = .manifestPush →
      Text.startsWith event.reference "sha256:" = false → event.object ∈ store) (link : StorePath) :
    event.editOn link = .keep := by
  have missing : event.object ∉ store ∧ event.eventType ≠ .manifestDelete := by
    unfold payload at failed
    split at failed
    · cases failed
    rename_i other
    split at failed
    · cases failed
    · rename_i absent
      exact ⟨AList.lookup_eq_none.mp absent, other⟩
  cases kind : event.eventType with
  | blobPush => simp only [QueuedEvent.editOn, kind]
  | manifestDelete => exact absurd kind missing.2
  | manifestPush =>
    cases byDigest : Text.startsWith event.reference "sha256:" with
    | true => simp only [QueuedEvent.editOn, kind, byDigest, if_true]
    | false => exact absurd (careful kind byDigest) missing.1

theorem System.Followed.visited (followed : system.Followed env) (exchange : Exchange)
    (visiting : system.work = .visiting event region) (careful : system.Careful env (.replicator exchange)) :
    System.Followed env (system.replicate env exchange) := by
  have sound : event.Sound env := by
    have working := followed.working
    rw [visiting] at working
    exact working
  simp only [System.Careful, visiting] at careful
  simp only [System.replicate, visiting]
  by_cases known : region < system.remotes.length
  · rw [if_pos known]
    cases read : payload env event system.store with
    | ok data =>
      refine followed.moved ⟨sound, ?_⟩ fun _ _ _ _ _ => by rw [visiting]; rfl
      intro deletes
      simp only [payload, deletes] at read
      exact (Except.ok.inj read).symm
    | error failure =>
      refine followed.moved sound ?_
      intro link _ index _ named
      rw [visiting]
      have keeps := payload_error_keeps read careful link
      by_cases before : index < region
      · have later : index < region + 1 := by omega
        simp only [Work.inHand, if_pos before, if_pos later]
      by_cases here : index = region
      · have passed : index < region + 1 := by omega
        simp only [Work.inHand, if_neg before, if_pos passed, replay, List.foldl_cons, List.foldl_nil, keeps]
        rfl
      · have ahead : ¬ index < region + 1 := by omega
        simp only [Work.inHand, if_neg before, if_neg ahead]
  · rw [if_neg known]
    refine followed.moved trivial ?_
    intro link _ index inside named
    have before : index < region := by omega
    rw [visiting]
    simp only [Work.inHand, if_pos before]

/-- A delivery that succeeds carries the event out at its region. -/
theorem System.Followed.delivered (followed : system.Followed env) (exchange : Exchange)
    (sending : system.work = .sending event region data)
    (delivers : system.Delivers env (.replicator exchange)) :
    System.Followed env (system.replicate env exchange) := by
  obtain ⟨sound, sent⟩ : event.Sound env ∧
      (event.eventType = .manifestDelete → data = env.writeEvent event) := by
    have working := followed.working
    rw [sending] at working
    exact working
  simp only [System.Delivers, sending] at delivers
  simp only [System.replicate, sending]
  have edited : ∀ remote, system.remotes[region]? = some remote →
      Edited event.editOn remote.store (deliverTo env event data exchange remote).store :=
    fun remote found => edited_deliver sound sent (delivers remote found)
  have regions : ∀ index remote,
      (system.remotes.modify region (deliverTo env event data exchange))[index]? = some remote →
      (index = region ∧ ∃ old, system.remotes[region]? = some old ∧
        remote = deliverTo env event data exchange old) ∨
      (index ≠ region ∧ system.remotes[index]? = some remote) := by
    intro index remote found
    rw [List.getElem?_modify] at found
    by_cases here : region = index
    · subst here
      obtain ⟨old, present, changed⟩ := Option.map_eq_some_iff.mp found
      rw [if_pos rfl] at changed
      exact .inl ⟨rfl, old, present, changed.symm⟩
    · obtain ⟨old, present, kept⟩ := Option.map_eq_some_iff.mp found
      rw [if_neg here] at kept
      exact .inr ⟨Ne.symm here, kept ▸ present⟩
  refine ⟨followed.shown, ?_, followed.queued, sound, followed.flights, ?_⟩
  · intro remote member
    obtain ⟨index, found⟩ := List.getElem?_of_mem member
    rcases regions index remote found with ⟨_, old, present, rfl⟩ | ⟨_, present⟩
    · exact (edited old present).shown (followed.remotesShown old (List.mem_of_getElem? present))
    · exact followed.remotesShown remote (List.mem_of_getElem? present)
  · intro link tagLink index remote found
    rcases regions index remote found with ⟨rfl, old, present, rfl⟩ | ⟨apart, present⟩
    · have accounted := followed.links link tagLink index old present
      simp only [System.pending, sending, Work.inHand, Nat.lt_irrefl, if_false] at accounted
      have passed : index < index + 1 := Nat.lt_succ_self index
      simp only [System.pending, Work.inHand, if_pos passed, List.nil_append]
      rw [(edited old present).links link tagLink]
      exact accounted
    · have accounted := followed.links link tagLink index remote present
      have inHand : (Work.visiting event (region + 1)).inHand index =
          (Work.sending event region data).inHand index := by
        have bounds : index < region + 1 ↔ index < region := by omega
        simp only [Work.inHand, bounds]
      rw [System.pending, sending] at accounted
      rw [System.pending, inHand]
      exact accounted

theorem System.Followed.replicated (followed : system.Followed env) (exchange : Exchange)
    (delivers : system.Delivers env (.replicator exchange))
    (careful : system.Careful env (.replicator exchange)) :
    System.Followed env (system.replicate env exchange) := by
  cases working : system.work with
  | idle =>
    simp only [System.replicate, working]
    cases queued : system.queue with
    | nil => exact followed
    | cons event rest => exact followed.received working queued
  | visiting event region => exact followed.visited exchange working careful
  | sending event region data => exact followed.delivered exchange working delivers

end Loop

theorem System.Followed.step (followed : system.Followed env) (delivers : system.Delivers env move)
    (careful : system.Careful env move) : System.Followed env (system.step env move) := by
  cases move with
  | request move => exact followed.request careful
  | replicator exchange => exact followed.replicated exchange delivers careful

end Invariant

/-- When a run whose deliveries succeed and whose moves are careful comes to rest, every tag names
the same digest in every region. -/
theorem careful_runs_converge (env : ReplicaEnv) (start : System) (moves : List SystemMove)
    (synced : start.Synced) (careful : Run.Along (System.step env)
      (fun system move => system.Delivers env move ∧ system.Careful env move) start moves)
    (quiet : (Run.after (System.step env) start moves).Quiet) :
    (Run.after (System.step env) start moves).Converged := by
  have followed := Run.after_invariant (System.Followed env)
    (fun _ _ held guarded => held.step guarded.1 guarded.2) synced.followed careful
  exact followed.converged quiet

theorem System.fresh_synced (config : MultiRegionConfig) : (System.fresh config).Synced := by
  have empty : OnlyShown ∅ := by
    intro repo _ link member
    cases member
  have remotes : ∀ remote ∈ (System.fresh config).remotes, remote.store = ∅ := by
    intro remote member
    obtain ⟨region, _, rfl⟩ := List.mem_map.mp member
    rfl
  refine ⟨⟨rfl, rfl, rfl⟩, ?_, empty, ?_⟩
  · intro remote member repo _ tag
    rw [remotes remote member]
    rfl
  · intro remote member
    rw [remotes remote member]
    exact empty

/-- Texts one after the other, each character marked and each text ended. -/
def pack (texts : List String) : List Char :=
  texts.flatMap fun text => text.toList.flatMap (fun c => ['.', c]) ++ ['/']

/-- The texts of packed characters, with the beginning of the first. -/
def unpack : List Char → List Char → List String
  | front, '/' :: rest => String.ofList front :: unpack [] rest
  | front, '.' :: c :: rest => unpack (front ++ [c]) rest
  | _, _ => []

private theorem unpack_text (front chars rest : List Char) :
    unpack front (chars.flatMap (fun c => ['.', c]) ++ '/' :: rest) =
      String.ofList (front ++ chars) :: unpack [] rest := by
  induction chars generalizing front with
  | nil => simp [unpack]
  | cons c chars ih => simpa [unpack] using ih (front ++ [c])

theorem unpack_pack (texts : List String) : unpack [] (pack texts) = texts := by
  induction texts with
  | nil => rfl
  | cons text rest ih =>
    have split : pack (text :: rest) = text.toList.flatMap (fun c => ['.', c]) ++ '/' :: pack rest := by
      simp [pack]
    rw [split, unpack_text, ih]
    simp

/-- A second body, beside the empty object. -/
def emptyList : Bytes := "[]".toUTF8

/-- An environment that knows two bodies, and packs the texts of an event. -/
def sampleEnv : ReplicaEnv where
  parseRfc3339 _ := none
  addSeconds _ _ := none
  gcPool := true
  sha := .ofTable
    [(emptyObject, [68, 19, 111, 163, 85, 179, 103, 138, 17, 70, 173, 22, 247, 232, 100, 158, 148,
      251, 79, 194, 31, 231, 126, 131, 16, 192, 96, 246, 28, 170, 255, 138]),
     (emptyList, [79, 83, 205, 161, 140, 43, 170, 12, 3, 84, 187, 95, 154, 62, 203, 229, 237, 18,
      171, 77, 142, 17, 186, 135, 60, 47, 17, 22, 18, 2, 185, 69])] (by decide)
  parse body :=
    if body = emptyObject then .ok (.obj [])
    else if body = emptyList then .ok (.arr []) else .error "expected value"
  parseEvent body :=
    match unpack [] ((String.fromUTF8? body).getD "").toList with
    | [tenant, project, repo, reference, digest] => .ok ⟨tenant, project, repo, reference, digest⟩
    | _ => .error "expected value"
  notFound link := "Object at location " ++ link.asRef ++ " not found"
  writeEvent event := (String.ofList
    (pack [event.tenant, event.project, event.repo, event.reference, event.digest])).toUTF8
  parse_write event := by
    have read := fromUTF8?_toByteArray (String.ofList
      (pack [event.tenant, event.project, event.repo, event.reference, event.digest]))
    simp only [String.toUTF8, read, Option.getD_some, String.toList_ofList, unpack_pack]
  carried := some
  carried_digest _ := rfl
  formatTime _ := "20260101000000000"
  formatTime_plain _ := by decide

def sampleConfig : MultiRegionConfig := ⟨"eu-west-1", [⟨"eu-west-1"⟩, ⟨"us-east-1"⟩]⟩

def sampleStamp : Stamp := ⟨Uuid.nil, 0⟩

/-- A push that starts under the number. -/
def startPush (number : Nat) (reference : String) (body : Bytes) : SystemMove :=
  .request (.start number (.put (pushOf reference) body sampleStamp))

/-- The next moves of the request with the number. -/
def advances (number count : Nat) : List SystemMove := List.replicate count (.request (.advance number))

/-- The replicator carries out one event at one region. -/
def handleEvent : List SystemMove := List.replicate 4 (.replicator (.admitted fun _ => .answered (.ok ())))

/-- Two pushes of `latest`: the second writes its link last and enqueues its event first. -/
def overtakenEvent : List SystemMove :=
  [startPush 0 "latest" emptyObject, startPush 1 "latest" emptyList] ++ advances 0 2 ++
    advances 1 4 ++ advances 0 2 ++ handleEvent ++ handleEvent

/-- The same pushes; the first enqueues its event before the second writes the link. -/
def orderedEvents : List SystemMove :=
  [startPush 0 "latest" emptyObject, startPush 1 "latest" emptyList] ++ advances 0 3 ++
    advances 1 4 ++ advances 0 1 ++ handleEvent ++ handleEvent

def Work.isIdle : Work → Bool
  | .idle => true
  | _ => false

instance (system : System) : Decidable system.Quiet :=
  decidable_of_iff (system.pool.flights.keys = [] ∧ system.queue.isEmpty = true ∧
    system.work.isIdle = true) (by
    constructor
    · rintro ⟨keys, queue, work⟩
      refine ⟨Table.eq_empty_of_keys keys, List.isEmpty_iff.mp queue, ?_⟩
      cases working : system.work with
      | idle => rfl
      | visiting event region => simp [working, Work.isIdle] at work
      | sending event region data => simp [working, Work.isIdle] at work
    · rintro ⟨flights, queue, work⟩
      rw [flights, queue, work]
      exact ⟨rfl, rfl, rfl⟩)

instance (env : ReplicaEnv) (system : System) : ∀ move, Decidable (system.Delivers env move)
  | .request _ => .isTrue trivial
  | .replicator exchange => by
    unfold System.Delivers
    exact match system.work with
      | .idle => .isTrue trivial
      | .visiting _ _ => .isTrue trivial
      | .sending _ _ _ => inferInstance

instance (env : ReplicaEnv) (system : System) : ∀ move, Decidable (system.Careful env move)
  | .request (.start _ request) => inferInstanceAs (Decidable (request.Proper env))
  | .request (.advance number) => inferInstanceAs (Decidable
      (∀ stage ∈ system.pool.flights.lookup number, ∀ link ∈ stage.target,
        ∀ other ∈ system.pool.flights.entries, other.1 ≠ number → ¬ other.2.Holds link))
  | .replicator _ => by
    unfold System.Careful
    exact match system.work with
      | .idle => .isTrue trivial
      | .visiting _ _ => inferInstance
      | .sending _ _ _ => .isTrue trivial

theorem ordered_events_converge :
    (Run.after (System.step sampleEnv) (System.fresh sampleConfig) orderedEvents).Converged := by
  exact careful_runs_converge sampleEnv (System.fresh sampleConfig) orderedEvents
    (System.fresh_synced sampleConfig) (by decide +kernel) (by decide +kernel)

/-- Every delivery succeeds and the system comes to rest, and `latest` names one manifest at the
primary and the other one at the region. -/
theorem overtaken_event_diverges :
    Run.Along (System.step sampleEnv) (System.Delivers sampleEnv) (System.fresh sampleConfig) overtakenEvent ∧
      (Run.after (System.step sampleEnv) (System.fresh sampleConfig) overtakenEvent).Quiet ∧
      ¬ (Run.after (System.step sampleEnv) (System.fresh sampleConfig) overtakenEvent).Converged := by
  have outcome : Run.Along (System.step sampleEnv) (System.Delivers sampleEnv)
        (System.fresh sampleConfig) overtakenEvent ∧
      (Run.after (System.step sampleEnv) (System.fresh sampleConfig) overtakenEvent).Quiet ∧
      ∃ remote ∈ (Run.after (System.step sampleEnv) (System.fresh sampleConfig) overtakenEvent).remotes,
        readTagLink remote.store demoRepo "latest" ≠
          readTagLink (Run.after (System.step sampleEnv) (System.fresh sampleConfig)
            overtakenEvent).store demoRepo "latest" := by decide +kernel
  obtain ⟨delivered, quiet, remote, member, differ⟩ := outcome
  refine ⟨delivered, quiet, fun converged => ?_⟩
  exact differ (converged remote member demoRepo ⟨by decide, by decide, by decide⟩ "latest")

end SpectonCr.Replication
