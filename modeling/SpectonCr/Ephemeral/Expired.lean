import SpectonCr.Ephemeral.Ttl
import SpectonCr.Registry.ReadBack

/-! What the row lock of the reaper guarantees about expired tags. -/

namespace SpectonCr.Ephemeral

open Storage Registry Interleaving

/-- The tag whose row a transaction of `reap_tag` holds. -/
def TagFlight.holds : TagFlight → Option ManifestRef
  | .unlinking key _ => some key
  | .removing key _ => some key
  | .noting key _ => some key
  | .committing key _ => some key
  | _ => none

/-- The row of the tag is held by a transaction that has seen it expired. -/
def HeldExpired (clock : Time) (tags : LockedTable ManifestRef TagRow) (number : Nat)
    (key : ManifestRef) : Prop :=
  ∃ row expiry, tags.committed.lookup key = some row ∧
    tags.locks.lookup key = some (number, some row) ∧ row.expiresAt = some expiry ∧ expiry < clock

theorem HeldExpired.later {clock later : Time} {tags : LockedTable ManifestRef TagRow}
    {number : Nat} {key : ManifestRef} (held : HeldExpired clock tags number key)
    (passed : clock ≤ later) : HeldExpired later tags number key := by
  obtain ⟨row, expiry, committed, locked, recorded, expired⟩ := held
  exact ⟨row, expiry, committed, locked, recorded, lt_of_lt_of_le expired passed⟩

theorem HeldExpired.leavesOthers (held : HeldExpired clock before number key)
    (others : LockedTable.LeavesOthers writer before after) (apart : number ≠ writer) :
    HeldExpired clock after number key := by
  obtain ⟨row, expiry, committed, locked, recorded, expired⟩ := held
  exact ⟨row, expiry, (others.rows key number (some row) apart locked).trans committed,
    (others.locks key number (some row) apart).mpr locked, recorded, expired⟩

/-- What an operation of a flight does to the rows of `tags` and their locks. -/
structure TagStep (number : Nat) (clock : Time) (before after : LockedTable ManifestRef TagRow)
    (next : TagFlight ⊕ TagAnswer) : Prop where
  others : LockedTable.LeavesOthers number before after
  own : ∀ key left, after.locks.lookup key = some (number, left) →
    next.elim TagFlight.holds (fun _ => none) = some key
  checked : ∀ key batch, next = .inl (.unlinking key batch) → HeldExpired clock after number key

open TagFlight LockedTable

section Operate

variable {number : Nat} {clock : Time} {before after : LockedTable ManifestRef TagRow}
  {next : TagFlight ⊕ TagAnswer}

private theorem TagStep.same (flight : TagFlight)
    (own : ∀ key left, before.locks.lookup key = some (number, left) → flight.holds = some key)
    (holds : next.elim holds (fun _ => none) = flight.holds)
    (passed : ∀ key batch, next ≠ .inl (.unlinking key batch)) :
    TagStep number clock before before next where
  others := .refl number before
  own := fun key left held => holds.trans (own key left held)
  checked := fun key batch same => absurd same (passed key batch)

private theorem TagStep.rolledBack (others : LockedTable.LeavesOthers number before after)
    (passed : ∀ key batch, next ≠ .inl (.unlinking key batch)) :
    TagStep number clock before (after.rollback number) next where
  others := others.trans (leavesOthers_rollback number after)
  own := fun _ _ held => absurd held lookup_release_self
  checked := fun key batch same => absurd same (passed key batch)

private theorem TagStep.committed (others : LockedTable.LeavesOthers number before after)
    (passed : ∀ key batch, next ≠ .inl (.unlinking key batch)) :
    TagStep number clock before (after.commit number) next where
  others := others.trans (leavesOthers_commit number after)
  own := fun _ _ held => absurd held lookup_release_self
  checked := fun key batch same => absurd same (passed key batch)

theorem upsert_leavesOthers (updated : before.upsert number key change = some after) :
    LockedTable.LeavesOthers number before after := by
  obtain ⟨free, rfl⟩ := upsert_cases updated
  exact leavesOthers_write free

theorem select_leavesOthers (selected : before.selectForUpdate number key = some (row, after)) :
    LockedTable.LeavesOthers number before after := by
  rcases selectForUpdate_cases selected with ⟨_, same⟩ | ⟨found, _, free, same⟩
  · cases same
    exact .refl number before
  · cases same
    exact leavesOthers_write free

/-- A transaction that holds no row yet takes the lock of an expired one. -/
theorem TagStep.locked (free : ∀ other left, before.locks.lookup other ≠ some (number, left))
    (selected : before.selectForUpdate number key = some (row, after))
    (expired : row.any (TagRow.expired · clock) = true) :
    TagStep number clock before after (.inl (.unlinking key batch)) := by
  refine ⟨select_leavesOthers selected, ?_, ?_⟩
  · intro other left held
    rcases selectForUpdate_cases selected with ⟨_, same⟩ | ⟨found, _, _, same⟩
    · cases same
      exact absurd held (free other left)
    cases same
    by_cases here : other = key
    · exact congrArg some here.symm
    · rw [lookup_write_ne here] at held
      exact absurd held (free other left)
  · intro other rest same
    cases same
    rcases selectForUpdate_cases selected with ⟨_, same⟩ | ⟨found, seen, _, same⟩
    · cases same
      cases expired
    cases same
    rw [lookup_snapshot_of_not_held (free key)] at seen
    simp only [Option.any_some, TagRow.expired, Option.any_eq_true, decide_eq_true_eq] at expired
    obtain ⟨expiry, recorded, passed⟩ := expired
    exact ⟨found, expiry, seen, lookup_write, recorded, passed⟩

/-- Everything an operation can do to `tags`. -/
theorem operate_tags (env : TtlEnv) (outcome : Except String Unit) (world : TagWorld) (flight : TagFlight)
    (own : ∀ key left, world.tags.locks.lookup key = some (number, left) → flight.holds = some key) :
    TagStep number world.clock world.tags (flight.operate env number outcome world).1.tags
      (flight.operate env number outcome world).2 := by
  have failed : ∀ batch, TagStep number world.clock world.tags (world.abandon number).tags
      (.inl (.choosing batch)) :=
    fun batch => .rolledBack (.refl number world.tags) nofun
  cases flight with
  | storing push digest | linking push digest =>
    cases outcome with
    | error reason => exact .same _ own rfl nofun
    | ok done =>
      simp only [operate]
      split <;> exact .same _ own rfl nofun
  | parsing push digest header index =>
    simp only [operate]
    split <;> exact .same _ own rfl nofun
  | recording push digest expiresAt =>
    cases outcome with
    | error reason => exact .same _ own rfl nofun
    | ok done =>
      simp only [operate]
      split
      · exact .same _ own rfl nofun
      · rename_i tags updated
        exact .committed (upsert_leavesOthers updated) nofun
  | selecting =>
    cases outcome with
    | error reason | ok done => exact .same _ own rfl nofun
  | choosing batch =>
    simp only [operate]
    split
    · exact .same _ own rfl nofun
    · split <;> exact .same _ own rfl nofun
  | locking key batch =>
    cases outcome with
    | error reason => exact failed batch
    | ok done =>
      simp only [operate]
      split
      · exact .same _ own rfl nofun
      rename_i row tags selected
      split
      · rename_i expired
        exact .locked (fun other left held => nomatch own other left held) selected expired
      · exact .rolledBack (select_leavesOthers selected) nofun
  | unlinking key batch | noting key batch =>
    cases outcome with
    | error reason => exact failed batch
    | ok done => exact .same _ own rfl nofun
  | removing key batch =>
    cases outcome with
    | error reason => exact failed batch
    | ok done =>
      simp only [operate]
      split
      · exact .same _ own rfl nofun
      rename_i tags deleted
      refine ⟨leavesOthers_deleteSeen deleted, ?_, nofun⟩
      intro other left held
      obtain ⟨_, _, locks⟩ := deleteSeen_cases deleted
      rw [locks other] at held
      split at held
      · rename_i chosen
        exact congrArg some (of_decide_eq_true chosen.2).symm
      · exact own other left held
  | committing key batch =>
    cases outcome with
    | error reason => exact failed batch
    | ok done => exact .committed (.refl number world.tags) nofun

theorem operate_clock (env : TtlEnv) (outcome : Except String Unit) (world : TagWorld)
    (flight : TagFlight) : (flight.operate env number outcome world).1.clock = world.clock := by
  fun_cases operate env number outcome world flight <;> rfl

end Operate

/-- The locks of `tags` belong to transactions of `reap_tag`, and one that is about to take away
a link holds an expired row. -/
structure TagsHeld (pool : TagPool) : Prop where
  holders : ∀ key number left, pool.shared.tags.locks.lookup key = some (number, left) →
    ∃ flight, pool.flights.lookup number = some flight ∧ flight.holds = some key
  checked : ∀ number key batch, pool.flights.lookup number = some (.unlinking key batch) →
    HeldExpired pool.shared.clock pool.shared.tags number key

/-- Nothing is under way. -/
structure Idle (pool : TagPool) : Prop where
  flights : pool.flights = ∅
  locks : pool.shared.tags.locks = ∅

theorem Idle.tagsHeld (idle : Idle pool) : TagsHeld pool where
  holders := by
    intro key number left held
    rw [idle.locks, AList.lookup_empty] at held
    cases held
  checked := by
    intro number key batch found
    rw [idle.flights, AList.lookup_empty] at found
    cases found

section Step

variable {env : TtlEnv} {pool : TagPool}

theorem TagsHeld.launched (kept : TagsHeld pool) (number : Nat) {launched : TagFlight ⊕ TagAnswer}
    (passed : ∀ key batch, launched ≠ .inl (.unlinking key batch)) :
    TagsHeld (launchFlight pool number launched) := by
  unfold launchFlight
  split
  · exact kept
  rename_i fresh
  refine ⟨?_, ?_⟩
  · intro key holder left held
    obtain ⟨flight, found, holds⟩ := kept.holders key holder left held
    have apart : holder ≠ number := fun same => fresh (same ▸ Table.mem_of_lookup found)
    exact ⟨flight, (lookup_settle_ne apart launched).trans found, holds⟩
  · intro holder key batch found
    rcases lookup_settle found with ⟨_, same⟩ | ⟨_, old⟩
    · exact absurd same (passed key batch)
    · exact kept.checked holder key batch old

theorem TagsHeld.operated (kept : TagsHeld pool) {number : Nat} {flight : TagFlight}
    (found : pool.flights.lookup number = some flight) (outcome : Except String Unit) :
    TagsHeld ⟨(flight.operate env number outcome pool.shared).1,
      settle pool.flights number (flight.operate env number outcome pool.shared).2⟩ := by
  have own : ∀ key left, pool.shared.tags.locks.lookup key = some (number, left) →
      flight.holds = some key := by
    intro key left held
    obtain ⟨holder, present, holds⟩ := kept.holders key number left held
    cases found.symm.trans present
    exact holds
  have effect := operate_tags env outcome pool.shared flight own
  refine ⟨?_, ?_⟩
  · intro key holder left held
    by_cases mine : holder = number
    · subst mine
      have holds := effect.own key left held
      cases next : (flight.operate env holder outcome pool.shared).2 with
      | inl rest =>
        rw [next] at holds
        exact ⟨rest, by simp only [settle, AList.lookup_insert], holds⟩
      | inr answer =>
        rw [next] at holds
        cases holds
    · obtain ⟨other, present, holds⟩ :=
        kept.holders key holder left ((effect.others.locks key holder left mine).mp held)
      exact ⟨other, (lookup_settle_ne mine _).trans present, holds⟩
  · intro holder key batch present
    rw [operate_clock]
    rcases lookup_settle present with ⟨rfl, next⟩ | ⟨apart, old⟩
    · exact effect.checked key batch next
    · exact (kept.checked holder key batch old).leavesOthers effect.others apart

theorem TagsHeld.dropped (kept : TagsHeld pool) (number : Nat) :
    TagsHeld ⟨pool.shared.abandon number, pool.flights.erase number⟩ := by
  have others := leavesOthers_rollback number pool.shared.tags
  refine ⟨?_, ?_⟩
  · intro key holder left held
    have apart : holder ≠ number := by
      rintro rfl
      exact lookup_release_self held
    obtain ⟨flight, found, holds⟩ :=
      kept.holders key holder left ((others.locks key holder left apart).mp held)
    exact ⟨flight, (AList.lookup_erase_ne apart).trans found, holds⟩
  · intro holder key batch found
    obtain ⟨apart, found⟩ := Table.lookup_erase_cases found
    exact (kept.checked holder key batch found).leavesOthers others apart

theorem launch_passed (push : TtlPush) (key : ManifestRef) (batch : Batch) :
    push.launch env ≠ .inl (.unlinking key batch) := by
  unfold TtlPush.launch
  split
  · nofun
  · split <;> nofun

theorem TagsHeld.step (kept : TagsHeld pool) (event : TagEvent) : TagsHeld (pool.step env event) := by
  cases event with
  | tick elapsed =>
    refine ⟨kept.holders, ?_⟩
    intro number key batch found
    exact (kept.checked number key batch found).later (by simp [TagPool.step])
  | control halted => exact ⟨kept.holders, kept.checked⟩
  | push number push => exact kept.launched number (launch_passed push)
  | cycle number =>
    simp only [TagPool.step]
    split
    · exact kept.launched number nofun
    · exact kept
  | advance number outcome =>
    simp only [TagPool.step]
    split
    · exact kept
    · rename_i flight found
      exact kept.operated found outcome
  | drop number => exact kept.dropped number

theorem unlinkedTag_eq_some (unlinked : unlinkedTag pool event = some key) :
    ∃ number batch, pool.flights.lookup number = some (.unlinking key batch) := by
  unfold unlinkedTag at unlinked
  split at unlinked
  · rename_i number
    split at unlinked
    · rename_i found _ batch held
      split at unlinked
      · cases unlinked
        exact ⟨number, batch, held⟩
      · cases unlinked
    · cases unlinked
  · cases unlinked

/-- A reaper that takes away the link of a tag whose row records the last push finds the expiry
of that push passed. -/
theorem TagsHeld.unlinksExpired (kept : TagsHeld pool) (recorded : UnlinksRecorded pool event) :
    UnlinksExpired pool event := by
  intro key unlinked
  obtain ⟨number, batch, found⟩ := unlinkedTag_eq_some unlinked
  obtain ⟨expiry, asked, stored, seen, ordered⟩ := recorded key unlinked
  obtain ⟨row, passed, committed, _, carried, expired⟩ := kept.checked number key batch found
  rw [committed, Option.bind_some, Option.mem_def, carried] at seen
  cases seen
  exact ⟨expiry, asked, lt_of_le_of_lt ordered expired⟩

end Step

theorem reaper_unlinks_expired (env : TtlEnv) (start : TagPool) (idle : Idle start) (events : List TagEvent)
    (recorded : Run.Along (TagPool.step env) UnlinksRecorded start events) :
    Run.Along (TagPool.step env) UnlinksExpired start events :=
  Run.along_of_invariant (fun _ event kept _ => kept.step event)
    (fun _ _ kept met => kept.unlinksExpired met) idle.tagsHeld recorded

def demoTtlEnv : TtlEnv where
  toEnv := emptyObjectEnv
  batchSize := 100

def idlePool : TagPool := ⟨⟨Audit.pgEpoch, false, ∅, ⟨∅, ∅⟩, [], []⟩, ∅⟩

theorem idlePool_idle : Idle idlePool := ⟨rfl, rfl⟩

/-- A push of `latest`, with all its operations. -/
def pushRun (number : Nat) (ttl : Option String) : List TagEvent :=
  .push number ⟨{ pushOf "latest" with ttl }, emptyObject⟩ :: List.replicate 4 (.advance number (.ok ()))

/-- Two seconds pass, and a cycle of the reaper locks the row of `latest`. -/
def lockRun (number : Nat) : List TagEvent :=
  [.tick 2000000000, .cycle number, .advance number (.ok ()), .advance number (.ok ()),
    .advance number (.ok ())]

/-- A tag that is pushed for one second is unlinked after two. -/
theorem expired_latest_unlinked :
    unlinkedTag (Run.after (TagPool.step demoTtlEnv) idlePool (pushRun 0 (some "1s") ++ lockRun 1))
        (.advance 1 (.ok ())) = some (pushOf "latest").params ∧
      Run.Along (TagPool.step demoTtlEnv) UnlinksExpired idlePool
        (pushRun 0 (some "1s") ++ lockRun 1 ++ [.advance 1 (.ok ())]) := by
  refine ⟨by decide +kernel, reaper_unlinks_expired demoTtlEnv idlePool idlePool_idle _ ?_⟩
  decide +kernel

/-- The tag is pushed for one second and then for good, or for an hour while the reaper holds its
row; the link of the second push is taken away. -/
theorem repushed_tag_unlinked : ¬ Run.Along (TagPool.step demoTtlEnv) UnlinksExpired idlePool
        (pushRun 0 (some "1s") ++ pushRun 1 none ++ lockRun 2 ++ [.advance 2 (.ok ())]) ∧
      ¬ Run.Along (TagPool.step demoTtlEnv) UnlinksExpired idlePool
        (pushRun 0 (some "1s") ++ lockRun 1 ++ pushRun 2 (some "1h") ++ [.advance 1 (.ok ())]) := by
  constructor <;> decide +kernel

end SpectonCr.Ephemeral
